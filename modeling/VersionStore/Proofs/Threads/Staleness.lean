import VersionStore.Proofs.Cache.Key
import VersionStore.Proofs.Threads.Prompt
import VersionStore.Proofs.Threads.Provenance

/-! How old an answer can be.

A read is answered from a search of its own or from the cache. What the cache holds was found
by a search at the instant at which it was stored, as long as calls go on with their answers
at once (`isPrompt`); and a generation, which no value is stored in before it is opened, is
over a time to live after that. So whatever a read returns in a prompt run, a search for it gave
the same less than a time to live ago (`Timely.recent_run`), however many writes, removals and
other reads came in between. Without promptness there is no bound: a call may sit on its answer
for as long as it likes before it keeps what is in it.

The invariant ties each entry to a moment of the past (`Dated`), and each answer that a call
has in hand to one of the present (`Timely`). It needs no epoch: a value that was fetched
before a removal may be old, but not by more than the bound allows. -/
namespace VersionStore

/-- The key of a read says what it searches for. -/
theorem Call.query_eq {call : Call} {read : LatestRead} (h : call.latest? = some read) :
    read.query = match read.key.lookup with
      | .identifier => .latest ⟨read.key.text⟩ read.key.classification
      | .start => .latestStarting read.key.text read.key.classification := by
  cases call <;> cases h <;> rfl

/-- A read of a newest version searches for one document, the newest that passes a test. -/
theorem Call.exists_query {call : Call} {read : LatestRead} (h : call.latest? = some read) :
    ∃ test, read.query = .newest test read.key.classification 1 := by
  cases call <;> cases h <;> exact ⟨_, rfl⟩

/-- A search for a newest version finds one document at most. -/
theorem Call.select_eq_singleton {call : Call} {read : LatestRead} (h : call.latest? = some read)
    {documents : List Json.Value} {d : Json.Value} (hd : d ∈ read.query.select documents) :
    read.query.select documents = [d] := by
  obtain ⟨test, hquery⟩ := Call.exists_query h
  have hlength : (read.query.select documents).length ≤ 1 := by
    rw [hquery]
    exact List.length_take_le ..
  obtain ⟨found, hfound⟩ :=
    List.length_eq_one_iff.mp (Nat.le_antisymm hlength (List.length_pos_of_mem hd))
  rw [hfound] at hd ⊢
  rw [List.mem_singleton.mp hd]

/-- So a record in what it finds is all that it finds. -/
theorem Call.decodeAll_select {call : Call} {read : LatestRead} (h : call.latest? = some read)
    {documents : List Json.Value} {r : Record}
    (hr : ∃ d ∈ read.query.select documents, Record.decode d = .ok r) :
    decodeAll (read.query.select documents) = .ok [r] := by
  obtain ⟨d, hd, hdecode⟩ := hr
  rw [Call.select_eq_singleton h hd]
  simp [decodeAll, hdecode]

/-- What a lookup finds is in the generation at hand, whose time has not come. -/
theorem Store.exists_of_lookUp {read : LatestRead} {store : Store} {r : Record}
    (h : (store.lookUp read).1 = some r) :
    ∃ g, store.memory.cache.generation = some g ∧ store.memory.now < g.expiresAt ∧
      g.entries.get? read.key.encode = some r := by
  unfold lookUp at h
  split at h
  · obtain ⟨hit, hhit, rfl⟩ := Option.map_eq_some_iff.mp h
    exact Cache.exists_of_get hhit
  · cases h

/-- Usable settings let generations live for a time, and not for too long. -/
theorem StoreConfig.ttl_of_validate {config : StoreConfig} (h : config.validate = .ok ()) :
    0 < config.ttl ∧ config.ttl ≤ Cache.maxTtl :=
  (validate_eq_ok_iff.mp h).1

/-- What a read of a newest version waits for. -/
theorem Asks.eq_latest {index : Namespace → String} {call : Call} {await : Await}
    {read : LatestRead} (h : Asks index call await) (hlatest : call.latest? = some read) :
    ∃ epoch, await = .latest read.key read.query (index read.key.scope) epoch := by
  cases h with
  | latest hlatest' epoch =>
    cases hlatest'.symm.trans hlatest
    exact ⟨epoch, rfl⟩
  | _ => cases hlatest

theorem Engine.eq_select_of_serve {engine : Engine} {index : String} {query : Query}
    {documents : List Json.Value} (h : (engine.serve (.search index query)).1 = .ok documents) :
    documents = query.select (engine.documents index) := by
  unfold serve at h
  split at h
  · cases h
  · exact (Except.ok.inj h).symm

namespace Threads

variable {moments : View → Prop} {ttl : Nat} {t : Threads}

/-- Whether a search gave a record at one of some moments less than a time ago. -/
def Recent (moments : View → Prop) (ttl now : Nat) (read : LatestRead) (r : Record) : Prop :=
  ∃ v, moments v ∧ v.now ≤ now ∧ now < v.now + ttl ∧ v.Finds read r

/-! ### What the cache holds -/

/-- A cache that holds nothing but what reads found at some moments, each so late that the
generation is over before the time to live has passed since. -/
structure Dated (moments : View → Prop) (ttl : Nat) (live : LiveCache Record) : Prop where
  ttl_eq : live.cache.ttl = ttl
  opened : ∀ g, live.cache.generation = some g → g.expiresAt ≤ live.now + ttl
  held : ∀ g s r, live.cache.generation = some g → g.entries.get? s = some r →
    ∃ (v : View) (call : Call) (read : LatestRead), moments v ∧
      v.now ≤ live.now ∧ g.expiresAt ≤ v.now + ttl ∧ call.latest? = some read ∧
      s = read.key.encode ∧ v.Finds read r

namespace Dated

variable {live later : LiveCache Record}

theorem of_recedes (h : Dated moments ttl live) (hcache : live.cache.Recedes later.cache)
    (hnow : live.now ≤ later.now) : Dated moments ttl later where
  ttl_eq := hcache.ttl_eq.trans h.ttl_eq
  opened g hg := Nat.le_trans (h.opened g (hcache.generation g hg)) (Nat.add_le_add_right hnow _)
  held g s r hg hr := by
    obtain ⟨v, call, read, hmoment, hle, hrest⟩ := h.held g s r (hcache.generation g hg) hr
    exact ⟨v, call, read, hmoment, Nat.le_trans hle hnow, hrest⟩

/-- The cache answers with what a search gave recently. -/
theorem recent (h : Dated moments ttl live) {g : Generation Record} {call : Call}
    {read : LatestRead} {r : Record} (hg : live.cache.generation = some g)
    (hlive : live.now < g.expiresAt) (hr : g.entries.get? read.key.encode = some r)
    (hlatest : call.latest? = some read) : Recent moments ttl live.now read r := by
  obtain ⟨v, other, read', hmoment, hle, hexpires, hlatest', hkey, hfinds⟩ := h.held g _ r hg hr
  have hkey := CacheKey.encode_injective hkey
  have hquery : read.query = read'.query := by
    rw [Call.query_eq hlatest, Call.query_eq hlatest', hkey]
  refine ⟨v, hmoment, hle, Nat.lt_of_lt_of_le hlive hexpires, ?_⟩
  unfold View.Finds
  rw [hquery, hkey]
  exact hfinds

/-- What is stored was found at this moment; a generation that is opened for it begins now, and
one that it joins has begun before. -/
theorem put (h : Dated moments ttl live) {v : View} {call : Call} {read : LatestRead} {r : Record}
    (hmoment : moments v) (hnow : v.now = live.now) (hlatest : call.latest? = some read)
    (hfinds : v.Finds read r) :
    Dated moments ttl (live.put read.key.encode r) := by
  have hfound : ∀ g : Generation Record, g.expiresAt ≤ live.now + ttl →
      ∃ (v : View) (c : Call) (d : LatestRead), moments v ∧ v.now ≤ live.now ∧
        g.expiresAt ≤ v.now + ttl ∧ c.latest? = some d ∧ read.key.encode = d.key.encode ∧
        v.Finds d r :=
    fun g hg => ⟨v, call, read, hmoment, Nat.le_of_eq hnow, hnow ▸ hg, hlatest, rfl, hfinds⟩
  cases hg : live.cache.generation with
  | none =>
    constructor <;> simp only [LiveCache.cache_put, LiveCache.now_put, Cache.store, hg]
    · exact h.ttl_eq
    · rintro _ ⟨⟩
      exact Nat.le_of_eq (congrArg _ h.ttl_eq)
    · rintro _ s r' ⟨⟩ hr'
      simp only [Table.get?] at hr'
      split at hr'
      · next hs =>
        cases hr'
        rw [hs]
        exact hfound _ (Nat.le_of_eq (congrArg _ h.ttl_eq))
      · cases hr'
  | some g =>
    constructor <;> simp only [LiveCache.cache_put, LiveCache.now_put, Cache.store, hg]
    · exact h.ttl_eq
    · rintro _ ⟨⟩
      exact h.opened g hg
    · rintro _ s r' ⟨⟩ hr'
      rw [Table.get?_put] at hr'
      split at hr'
      · next hs =>
        cases hr'
        rw [hs]
        exact hfound g (h.opened g hg)
      · exact h.held g s r' hg hr'

/-- A record that a read found is kept, or not. -/
theorem keep {store : Store} (h : Dated moments ttl store.memory) {v : View} {call : Call}
    {read : LatestRead} {r : Record} (hmoment : moments v) (hnow : v.now = store.memory.now)
    (hlatest : call.latest? = some read) (hfinds : v.Finds read r) (epoch : Nat) :
    Dated moments ttl (store.keep read.key r epoch).memory := by
  have hexpire : Dated moments ttl store.memory.expire :=
    h.of_recedes (Cache.recedes_expire _ _) (Nat.le_refl _)
  unfold Store.keep LiveCache.storeUnless
  split
  · split
    · exact hexpire.put hmoment hnow hlatest hfinds
    · exact h
  · exact h

end Dated

/-! ### What calls have in hand -/

/-- Whether the answer that a call may have in hand at a stage is what its search gives at one of
some moments of the present. -/
def Current (moments : View → Prop) (t : Threads) (stage : Stage) : Prop :=
  ∀ key query index epoch documents,
    stage = .answered (.latest key query index epoch) (.ok documents) →
      ∃ v, moments v ∧ v.now = t.now ∧ v.config = t.store.config ∧
        documents = query.select (v.documents index)

/-- What a read reads from its answer, a search gives at present. -/
theorem Current.finds {c : Thread} (h : Current moments t c.stage) (hpoised : t.Poised) {id : Nat}
    (hc : t.calls[id]? = some c) {await : Await} {answer : Result await.request.Answer}
    (hstage : c.stage = .answered await answer) {key : CacheKey} {epoch : Nat}
    (hnoted : await.noted? = some (key, epoch)) {r : Record}
    (hr : ∃ d ∈ await.documents answer, Record.decode d = .ok r) :
    ∃ (v : View) (read : LatestRead), moments v ∧ v.now = t.now ∧
      c.call.latest? = some read ∧ read.key = key ∧ v.Finds read r := by
  obtain ⟨hasks, -⟩ := hstage ▸ hpoised id c hc
  obtain ⟨read, hlatest, rfl⟩ := hasks.latest?_of_noted? hnoted
  obtain ⟨noted, rfl⟩ := hasks.eq_latest hlatest
  cases answer with
  | error e =>
    obtain ⟨d, hd, -⟩ := hr
    cases hd
  | ok documents =>
    obtain ⟨v, hmoment, hnow, hconfig, rfl⟩ := h _ _ _ _ _ hstage
    refine ⟨v, read, hmoment, hnow, hlatest, rfl, ?_⟩
    unfold View.Finds
    rw [hconfig]
    exact Call.decodeAll_select hlatest hr

/-- Whether what is held and in hand was found at some moments, and not too long ago. -/
structure Timely (moments : View → Prop) (ttl : Nat) (t : Threads) : Prop where
  dated : Dated moments ttl t.store.memory
  current : ∀ (id : Nat) (c : Thread), t.calls[id]? = some c → Current moments t c.stage

/-- Nothing is held yet, and no call has begun. -/
theorem timely_of_new (hcache : t.store.memory.cache = .make ttl) (httl : ttl ≤ Cache.maxTtl)
    (hnew : t.calls = []) : Timely moments ttl t where
  dated := by
    constructor <;> rw [hcache]
    · exact Nat.min_eq_left httl
    · nofun
    · nofun
  current id c hc := by
    rw [hnew] at hc
    cases hc

namespace Timely

/-- A call that goes on leaves the cache dated. -/
theorem dated_of_proceeds (h : Timely moments ttl t) (hpoised : t.Poised) {id : Nat} {c : Thread}
    (hc : t.calls[id]? = some c) {ended : Option Error} {stage : Stage} {later : Store}
    (hproceeds : Store.Proceeds ended c.call t.store c.stage (stage, later))
    (hnow : t.now ≤ later.memory.now) : Dated moments ttl later.memory := by
  rcases hproceeds.recedes_or_keeps with
    hrecedes | ⟨await, answer, key, epoch, r, hstage, -, hnoted, hr, rfl⟩
  · exact h.dated.of_recedes hrecedes.cache hnow
  · obtain ⟨v, read, hmoment, hpresent, hlatest, rfl, hfinds⟩ :=
      (h.current id c hc).finds hpoised hc hstage hnoted hr
    exact h.dated.keep hmoment hpresent hlatest hfinds epoch

theorem step (h : Timely moments ttl t) (hpoised : t.Poised) (hmoment : moments t.view)
    {move : Move} (hprompt : t.mayPass move = true) : Timely moments ttl (t.step move) := by
  have hle := t.now_le_step move
  have hsame : (∀ amount, move ≠ .advance amount) → (t.step move).now = t.now := t.now_step
  have hsteps := t.steps move
  generalize t.step move = t' at hsteps hle hsame
  constructor
  · cases hsteps with
    | begins | serves | stops => exact h.dated
    | goes hc hproceeds => exact h.dated_of_proceeds hpoised hc hproceeds hle
    | turns _ _ _ hstore => exact h.dated.of_recedes hstore.cache hle
  · intro id c hc key query index epoch documents hstage
    have hconfig := hsteps.later.1
    rcases hsteps.kept_or_arrives hc with hc | harrives
    · -- an answer is in hand, so no time passes
      have hnow : t'.now = t.now := by
        refine hsame fun amount hmove => ?_
        subst hmove
        have hnone := List.all_eq_true.mp hprompt c (List.mem_of_getElem? hc)
        rw [hstage] at hnone
        cases hnone
      rw [hnow, hconfig]
      exact h.current id c hc _ _ _ _ _ hstage
    cases harrives with
    | begins => cases hstage
    | @goes c' stage later _ hproceeds =>
      generalize c'.stage = before at hproceeds
      cases hproceeds <;> cases hstage
    | serves _ hwaiting =>
      obtain ⟨rfl, hanswer⟩ := Stage.answered.inj hstage
      exact ⟨t.view, hmoment, (hsame nofun).symm, hconfig.symm,
        Engine.eq_select_of_serve (eq_of_heq hanswer)⟩
    | stops => cases hstage

theorem run (h : Timely moments ttl t) (hpoised : t.Poised) {moves : List Move}
    (hprompt : t.isPrompt moves = true) (hshows : t.Shows moments moves) :
    Timely moments ttl (t.run moves) ∧ (t.run moves).Poised := by
  induction moves generalizing t with
  | nil => exact ⟨h, hpoised⟩
  | cons move rest ih =>
    obtain ⟨hfirst, hrest⟩ := Bool.and_eq_true_iff.mp hprompt
    exact ih (h.step hpoised hshows.1 hfirst) (hpoised.step move) hrest hshows.2

/-- A record that a read returns, a search gave recently. -/
theorem recent (h : Timely moments ttl t) (hpoised : t.Poised) (hpositive : 0 < ttl) {move : Move}
    {id : Nat} {call : Call} {read : LatestRead} {r : Record}
    (hcall : (t.step move).call? id = some call) (hlatest : call.latest? = some read)
    (hbefore : r ∉ t.returned id) (hafter : r ∈ (t.step move).returned id) :
    Recent moments ttl (t.step move).now read r := by
  obtain ⟨context, reply, hc, hr⟩ := exists_of_mem_returned hcall hafter
  have hsame : (∀ amount, move ≠ .advance amount) → (t.step move).now = t.now := t.now_step
  have hsteps := t.steps move
  generalize t.step move = t' at hsteps hc hsame
  rcases hsteps.kept_or_arrives hc with hc | harrives
  · exact absurd (mem_returned hc hr) hbefore
  generalize hended : (⟨call, context, .ended (.ok reply)⟩ : Thread) = c at harrives
  cases harrives with
  | begins | serves | stops => cases hended
  | @goes c _ _ hc' hproceeds =>
    obtain ⟨call, context, before⟩ := c
    obtain ⟨rfl, rfl, rfl⟩ := Thread.mk.inj hended
    rw [hsame nofun]
    have hfits := hpoised id _ hc'
    cases hproceeds with
    | hits hfound =>
      obtain rfl := List.mem_singleton.mp hr
      cases hfits.symm.trans hlatest
      obtain ⟨g, hg, hlive, hr⟩ := Store.exists_of_lookUp hfound
      exact h.dated.recent hg hlive hr hlatest
    | @ends await answer _ _ hresume =>
      obtain ⟨epoch, rfl⟩ := hfits.1.eq_latest hlatest
      rcases Store.decode_of_resume (congrArg Prod.fst hresume) hr with ⟨_, hwrite⟩ | hr
      · cases hwrite
      · obtain ⟨v, read', hmoment, hnow, hlatest', -, hfinds⟩ :=
          (h.current id _ hc').finds hpoised hc' rfl rfl hr
        cases hlatest'.symm.trans hlatest
        exact ⟨v, hmoment, Nat.le_of_eq hnow, hnow ▸ Nat.lt_add_of_pos_right hpositive, hfinds⟩
    | rests => exact absurd (mem_returned hc' hr) hbefore

/-- When a read returns a record in a run, a search gave that record recently. -/
theorem recent_run (h : Timely moments ttl t) (hpoised : t.Poised) (hpositive : 0 < ttl)
    {moves : List Move} (hprompt : t.isPrompt moves = true) (hshows : t.Shows moments moves)
    {id : Nat} {call : Call} {read : LatestRead} {r : Record}
    (hcall : (t.run moves).call? id = some call) (hlatest : call.latest? = some read)
    (hbefore : r ∉ t.returned id) (hafter : r ∈ (t.run moves).returned id) :
    ∃ past move future, moves = past ++ move :: future ∧
      Recent moments ttl ((t.run past).step move).now read r := by
  obtain ⟨past, move, future, rfl, hmissing, hreturned⟩ :=
    exists_turn (fun t => r ∈ t.returned id) hbefore hafter
  refine ⟨past, move, future, rfl, ?_⟩
  rw [run_append, Threads.run] at hcall
  obtain ⟨htimely, hpoised'⟩ := h.run hpoised (isPrompt_append.mp hprompt).1 hshows.of_append.1
  exact htimely.recent hpoised' hpositive (call?_of_mem_returned hcall hreturned) hlatest hmissing
    hreturned

end Timely

end Threads

end VersionStore
