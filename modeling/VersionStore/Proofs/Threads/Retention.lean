import Mathlib.Data.List.Induction
import VersionStore.Proofs.Threads.Staleness
import VersionStore.Proofs.Threads.Uncached

/-! How long the cache answers.

What a read stores under a key, the cache answers with until the time to live has passed
since its generation was opened (`read_through`). Until then nothing drops the generation
but a clear: a timer that was left behind by an earlier one finds that it is not its own.
And nothing changes the entry but a read of the same key: the keys of other namespaces,
classifications and kinds of lookup have other encodings, writes do not touch the cache,
and a read that fails stores nothing.

The invariant is that the cache holds the record in a generation that ends at a given
instant (`Holds`); one lemma says what a move makes of it (`Touched.holds`). That the
instant is a time to live after the opening is an invariant of its own (`expiresAt_run`). -/
namespace VersionStore

/-- The record that is stored, if it is stored under a key. -/
def CacheKey.storedIn? (key : CacheKey) (stored : Option (CacheKey × Record)) : Option Record :=
  stored.bind fun (other, r) => if other = key then some r else none

/-! ### One move -/

namespace LiveCache

/-- Whether a cache holds a record under a key, in a generation that ends at an instant. -/
def Holds (live : LiveCache Record) (key : CacheKey) (r : Record) (expiry : Nat) : Prop :=
  ∃ g, live.cache.generation = some g ∧ g.expiresAt = expiry ∧
    g.entries.get? key.encode = some r

variable {live later : LiveCache Record} {caching clears : Bool}
  {stored : Option (CacheKey × Record)} {key : CacheKey} {r : Record} {expiry : Nat}

theorem expire_of_lt {g : Generation Record} (hg : live.cache.generation = some g)
    (hlive : live.now < g.expiresAt) : live.expire = live := by
  have hcache : live.cache.expire live.now = live.cache := by
    simp [Cache.expire, hg, Nat.not_le.mpr hlive]
  simp [expire, hcache]

/-- Until its generation ends, what is held stays, or gives way to what is stored under its key. -/
theorem Touched.holds (h : live.Touched caching false stored later) (hpunctual : live.Punctual)
    (hheld : live.Holds key r expiry) (hlive : live.now < expiry) :
    later.Holds key ((key.storedIn? stored).getD r) expiry := by
  obtain ⟨g, hg, rfl, hr⟩ := hheld
  have hexpire := expire_of_lt hg hlive
  cases h with
  | spared hcache => exact ⟨g, hcache ▸ hg, rfl, hr⟩
  | asked other =>
    refine ⟨g, ?_, rfl, hr⟩
    exact (Cache.generation_get ..).trans ((congrArg (·.cache.generation) hexpire).trans hg)
  | stored other s =>
    refine ⟨{g with entries := g.entries.put other.encode s}, ?_, rfl, ?_⟩
    · rw [store, hexpire, cache_put, Cache.store, hg]
    · rw [Table.get?_put, CacheKey.storedIn?]
      by_cases hkey : other = key
      · simp [hkey]
      · have hencode : key.encode ≠ other.encode := fun heq =>
          hkey (CacheKey.encode_injective heq).symm
        simp [hkey, hencode, hr]
  | fired number =>
    rcases hpunctual.fire_cases number with hsame | ⟨g', hg', -, hover, -⟩
    · exact ⟨g, hsame ▸ hg, rfl, hr⟩
    · cases hg.symm.trans hg'
      exact absurd hlive (Nat.not_lt.mpr hover)

/-- What storing makes of a cache: the time is looked at first. -/
theorem cache_store (key : String) (r : Record) (live : LiveCache Record) :
    (live.store key r).cache =
      (live.cache.expire live.now).store live.now live.clock.now key r := cache_put ..

/-- What is stored is held. -/
theorem Touched.holds_stored (h : live.Touched caching clears (some (key, r)) later) :
    ∃ expiry, later.Holds key r expiry := by
  cases h with
  | stored =>
    unfold Holds
    rw [cache_store, Cache.store]
    cases (live.cache.expire live.now).generation with
    | some g => exact ⟨_, _, rfl, rfl, Table.get?_put_self ..⟩
    | none => exact ⟨_, _, rfl, rfl, by simp [Table.get?]⟩

theorem Touched.ttl_eq (h : live.Touched caching clears stored later) :
    later.cache.ttl = live.cache.ttl := by
  cases stored with
  | none => exact h.recedes.ttl_eq
  | some entry =>
    cases h with
    | stored key r =>
      rw [cache_store, ← (Cache.recedes_expire live.now live.cache).ttl_eq, Cache.store]
      split <;> rfl

/-- A generation ends when the one of before would have, or it has just been opened. -/
theorem Touched.generation_cases (h : live.Touched caching clears stored later)
    {g : Generation Record} (hg : later.cache.generation = some g) :
    (later.cache.opened = live.cache.opened ∧
        ∃ g', live.cache.generation = some g' ∧ g.expiresAt = g'.expiresAt) ∨
      (later.cache.opened ≠ live.cache.opened ∧ g.expiresAt = live.now + live.cache.ttl) := by
  cases stored with
  | none => exact .inl ⟨h.recedes.opened_eq, g, h.recedes.generation g hg, rfl⟩
  | some entry =>
    cases h with
    | stored key r =>
      have hexpire := Cache.recedes_expire live.now live.cache
      rw [cache_store] at hg ⊢
      unfold Cache.store at hg ⊢
      cases hleft : (live.cache.expire live.now).generation with
      | some g' =>
        simp only [hleft] at hg ⊢
        cases hg
        exact .inl ⟨hexpire.opened_eq, g', hexpire.generation g' hleft, rfl⟩
      | none =>
        simp only [hleft] at hg ⊢
        cases hg
        refine .inr ⟨?_, congrArg _ hexpire.ttl_eq⟩
        rw [hexpire.opened_eq]
        omega

end LiveCache

/-! ### Runs -/

namespace Threads

variable {β : Type} {t : Threads}

/-- The last that the moves of a run give. -/
def last? (f : Threads → Move → Option β) (t : Threads) : List Move → Option β
  | [] => none
  | move :: rest => (last? f (t.step move) rest).or (f t move)

theorem run_concat (t : Threads) (moves : List Move) (move : Move) :
    t.run (moves ++ [move]) = (t.run moves).step move := run_append ..

theorem last?_append (f : Threads → Move → Option β) (t : Threads) (a b : List Move) :
    last? f t (a ++ b) = (last? f (t.run a) b).or (last? f t a) := by
  induction a generalizing t with
  | nil => simp [last?, run]
  | cons move rest ih => simp [last?, run, ih, Option.or_assoc]

/-- The time of a move that opens a generation of the cache. -/
def opensAt? (t : Threads) (move : Move) : Option Nat :=
  if (t.step move).store.memory.cache.opened = t.store.memory.cache.opened then none
  else some t.now

/-- The record that a move stores under a key. -/
def storesUnder? (key : CacheKey) (t : Threads) (move : Move) : Option Record :=
  key.storedIn? (t.stored? move)

/-- Whether no move of a run clears the cache. -/
def neverClears (t : Threads) : List Move → Bool
  | [] => true
  | move :: rest => !t.clearsCache move && (t.step move).neverClears rest

theorem punctual_step (h : t.store.memory.Punctual) (move : Move) :
    (t.step move).store.memory.Punctual := (t.touched move).punctual h

theorem punctual_run (h : t.store.memory.Punctual) (moves : List Move) :
    (t.run moves).store.memory.Punctual :=
  run_of_step (P := fun t => t.store.memory.Punctual) (fun _ move h => punctual_step h move) h moves

theorem now_le_run (t : Threads) (moves : List Move) : t.now ≤ (t.run moves).now :=
  run_of_step (P := fun later => t.now ≤ later.now)
    (fun later move h => Nat.le_trans h (later.now_le_step move)) (Nat.le_refl _) moves

/-- Until its generation ends, a run that never clears the cache leaves under a key what was held
or what it stores there last. -/
theorem holds_run {key : CacheKey} {r : Record} {expiry : Nat} {moves : List Move}
    (hheld : t.store.memory.Holds key r expiry) (hpunctual : t.store.memory.Punctual)
    (hclears : t.neverClears moves = true) (hlive : (t.run moves).now < expiry) :
    (t.run moves).store.memory.Holds key ((t.last? (storesUnder? key) moves).getD r) expiry := by
  induction moves generalizing t r with
  | nil => exact hheld
  | cons move rest ih =>
    obtain ⟨hspares, hrest⟩ := Bool.and_eq_true_iff.mp hclears
    have hnow : t.now < expiry := Nat.lt_of_le_of_lt (t.now_le_run (move :: rest)) hlive
    have htouched := t.touched move
    rw [show t.clearsCache move = false by simpa using hspares] at htouched
    have hstep := htouched.holds hpunctual hheld hnow
    have hrun := ih hstep (punctual_step hpunctual move) hrest hlive
    rwa [last?, Option.getD_or]

theorem ttl_run (t : Threads) (moves : List Move) :
    (t.run moves).store.memory.cache.ttl = t.store.memory.cache.ttl :=
  run_of_step (P := fun later => later.store.memory.cache.ttl = t.store.memory.cache.ttl)
    (fun later move h => (later.touched move).ttl_eq.trans h) rfl moves

/-- The generation at hand ends a time to live after the last opening. -/
theorem expiresAt_run (hnone : t.store.memory.cache.generation = none) (moves : List Move)
    {g : Generation Record} (hg : (t.run moves).store.memory.cache.generation = some g) :
    ∃ opened, t.last? opensAt? moves = some opened ∧
      g.expiresAt = opened + t.store.memory.cache.ttl := by
  induction moves using List.reverseRecOn generalizing g with
  | nil => cases hnone.symm.trans hg
  | append_singleton moves move ih =>
    rw [run_concat] at hg
    have hlast : t.last? opensAt? (moves ++ [move]) =
        ((t.run moves).opensAt? move).or (t.last? opensAt? moves) := by
      rw [last?_append, last?, last?, Option.none_or]
    rcases ((t.run moves).touched move).generation_cases hg with
      ⟨hsame, g', hg', hexpires⟩ | ⟨hopens, hexpires⟩
    · obtain ⟨opened, hopened, hbefore⟩ := ih hg'
      refine ⟨opened, ?_, hexpires.trans hbefore⟩
      rw [hlast, opensAt?, if_pos hsame, Option.none_or, hopened]
    · refine ⟨(t.run moves).now, ?_, hexpires.trans (congrArg _ (t.ttl_run moves))⟩
      rw [hlast, opensAt?, if_neg hopens, Option.some_or]

/-- A record that has just been stored is held, in a generation that ends a time to live after it
was opened. -/
theorem holds_stored (hnone : t.store.memory.cache.generation = none) {past : List Move}
    {storing : Move} {key : CacheKey} {r : Record}
    (hstored : (t.run past).stored? storing = some (key, r)) :
    ∃ opened, t.last? opensAt? (past ++ [storing]) = some opened ∧
      (t.run (past ++ [storing])).store.memory.Holds key r
        (opened + t.store.memory.cache.ttl) := by
  have htouched := (t.run past).touched storing
  rw [hstored, ← run_concat] at htouched
  obtain ⟨expiry, g, hg, rfl, hr⟩ := htouched.holds_stored
  obtain ⟨opened, hopened, hexpires⟩ := expiresAt_run hnone _ hg
  exact ⟨opened, hopened, g, hg, hexpires, hr⟩

end Threads

/-! ### Calls that were accepted -/

/-- The arguments that must not be empty of a read with a key. -/
def CacheKey.required (key : CacheKey) : List (String × String) :=
  match key.lookup with
  | .identifier => [("classification", key.classification)]
  | .start => [("classification", key.classification), ("identifier prefix", key.text)]

theorem Call.required_eq {call : Call} {read : LatestRead} (h : call.latest? = some read) :
    call.required = read.key.required := by
  cases call <;> cases h <;> rfl

/-- Whether a call may stand at a stage: no argument is missing of one that is under way. -/
def Stage.IsAccepted (call : Call) : Stage → Prop
  | .called | .ended _ => True
  | _ => Store.missing? call.required = none

theorem Stage.isAccepted_of_none {call : Call} (h : Store.missing? call.required = none)
    (stage : Stage) : stage.IsAccepted call := by
  cases stage <;> trivial

theorem Store.isAccepted_proceed {call : Call} {stage : Stage} (h : stage.IsAccepted call)
    (ended : Option Error) (store : Store) :
    (store.proceed ended call stage).1.IsAccepted call := by
  cases hmissing : missing? call.required with
  | none => exact Stage.isAccepted_of_none hmissing _
  | some e =>
    cases stage with
    | called => simp only [proceed, accept, hmissing]; trivial
    | ended => trivial
    | _ => cases hmissing.symm.trans h

/-- Only a read that has found something stores, and it stores under its own key. -/
theorem Store.exists_of_stored? {store : Store} {stage : Stage} {key : CacheKey} {r : Record}
    (h : store.stored? stage = some (key, r)) : ∃ query index epoch documents,
      stage = .answered (.latest key query index epoch) (.ok documents) := by
  unfold stored? at h
  split at h
  · split at h
    · split at h
      · cases h
        exact ⟨_, _, _, _, rfl⟩
      · cases h
    · cases h
  · cases h

namespace Threads

variable {t : Threads} {id : Nat} {c : Thread} {key : CacheKey} {read : LatestRead} {r : Record}

/-- All calls under way have been accepted. -/
def Accepted (t : Threads) : Prop :=
  ∀ (id : Nat) (c : Thread), t.calls[id]? = some c → c.stage.IsAccepted c.call

theorem Accepted.step (h : t.Accepted) (move : Move) : (t.step move).Accepted := by
  intro other c hc
  rcases (t.steps move).kept_or_arrives hc with hkept | harrives
  · exact h other c hkept
  generalize hlater : t.step move = later at harrives hc
  cases harrives with
  | begins => trivial
  | @goes c stage _ hc' =>
    rw [← hlater] at hc
    have hstage : stage = (t.store.proceed (c.context.ended? t.tokens t.now) c.call c.stage).1 :=
      congrArg Thread.stage (Option.some.inj (hc.symm.trans (getElem?_step_go hc')))
    show stage.IsAccepted c.call
    rw [hstage]
    exact Store.isAccepted_proceed (h other c hc') _ _
  | serves hc' hwaiting | stops hc' hwaiting =>
    have hbefore := h other _ hc'
    rw [hwaiting] at hbefore
    exact hbefore

/-- Each call stands where it may, with all its arguments. -/
theorem accepted_run (hnew : t.calls = []) (moves : List Move) :
    (t.run moves).Accepted ∧ (t.run moves).Poised := by
  refine run_of_step (P := fun t => t.Accepted ∧ t.Poised)
    (fun t move h => ⟨h.1.step move, h.2.step move⟩) ⟨?_, ?_⟩ moves
  · intro id c hc
    rw [hnew] at hc
    cases hc
  · intro id c hc
    rw [hnew] at hc
    cases hc

/-- What is stored under a key was asked for by a read with that key. -/
theorem missing?_of_stored? (haccepted : t.Accepted) (hpoised : t.Poised) {move : Move}
    (h : t.stored? move = some (key, r)) : Store.missing? key.required = none := by
  cases move with
  | go id =>
    obtain ⟨c, hc, hstored⟩ := Option.bind_eq_some_iff.mp h
    obtain ⟨query, index, epoch, documents, hstage⟩ := Store.exists_of_stored? hstored
    have hmissing := haccepted id _ hc
    have hfits := hpoised id _ hc
    rw [hstage] at hmissing hfits
    obtain ⟨read, hlatest, rfl⟩ := hfits.1.latest?_of_noted? rfl
    rw [← Call.required_eq hlatest]
    exact hmissing
  | _ => cases h

/-! ### Asking the cache -/

/-- A read of a newest version under a live context is to ask the cache next. -/
theorem step_go_called (hc : t.calls[id]? = some c) (hlatest : c.call.latest? = some read)
    (hmissing : Store.missing? read.key.required = none) (hcalled : c.stage = .called)
    (hlive : c.context.ended? t.tokens t.now = none) :
    t.step (.go id) = t.place id (.admitted read) := by
  have hproceed : t.store.proceed none c.call .called = (.admitted read, t.store) := by
    rw [← Call.required_eq hlatest] at hmissing
    generalize c.call = call at hlatest hmissing
    cases call <;> cases hlatest <;> simp [Store.proceed, Store.accept, hmissing]
  rw [step_go hc, hcalled, hlive, hproceed]

end Threads

/-- What is held is found, which counts as a hit. -/
theorem LiveCache.Holds.get {live : LiveCache Record} {key : CacheKey} {r : Record} {expiry : Nat}
    (h : live.Holds key r expiry) (hlive : live.now < expiry) :
    (live.get key.encode).1.map (·.value) = some r ∧
      (live.get key.encode).2.cache.counts =
        {live.cache.counts with hits := live.cache.counts.hits + 1} := by
  obtain ⟨g, hg, rfl, hr⟩ := h
  have hexpire : live.cache.expire live.now = live.cache :=
    congrArg LiveCache.cache (expire_of_lt hg hlive)
  have hfind : live.cache.find? key.encode = some ⟨r, g.number, g.startedAt⟩ := by
    simp [Cache.find?, hg, hr]
  simp only [LiveCache.get, Cache.get, hexpire, hfind]
  exact ⟨rfl, rfl⟩

namespace Threads

variable {t : Threads} {id : Nat} {c : Thread} {read : LatestRead} {r : Record} {expiry : Nat}

/-- A read that asks the cache while its record is held ends with it. -/
theorem step_go_admitted (hc : t.calls[id]? = some c) (hadmitted : c.stage = .admitted read)
    (hcaching : t.store.config.caching = true) (hcached : read.cached = true)
    (hheld : t.store.memory.Holds read.key r expiry) (hlive : t.now < expiry) :
    (t.step (.go id)).outcome? id = some (.ok (.record r)) ∧
      (t.step (.go id)).engine = t.engine ∧
      (t.step (.go id)).store.memory.cache.counts =
        {t.store.memory.cache.counts with hits := t.store.memory.cache.counts.hits + 1} := by
  obtain ⟨hfound, hcounts⟩ := hheld.get hlive
  have hlookUp : t.store.lookUp read =
      (some r, {t.store with memory := (t.store.memory.get read.key.encode).2}) := by
    simp [Store.lookUp, hcaching, hcached, hfound]
  have hproceed (ended : Option Error) : t.store.proceed ended c.call c.stage =
      (.ended (.ok (.record r)),
        {t.store with memory := (t.store.memory.get read.key.encode).2}) := by
    simp only [hadmitted, Store.proceed, hlookUp]
  have hat := getElem?_step_go hc
  rw [hproceed] at hat
  refine ⟨?_, ?_, ?_⟩
  · simp only [outcome?, hat, Option.bind_some]
  · rw [step_go hc]
    rfl
  · rw [step_go hc, hproceed]
    exact hcounts

theorem punctual_fresh (config : StoreConfig) (clock : Clock) (timed : Bool) (engine : Engine) :
    (fresh config clock timed engine).store.memory.Punctual := ⟨nofun, nofun, nofun⟩

/-- Whether the cache answers reads with a key, before an instant, with a record: one that begins
under a live context asks the cache next, and one that asks the cache ends with the record,
leaves the engine alone and counts as a hit. -/
def CacheAnswers (t : Threads) (key : CacheKey) (r : Record) (expiry : Nat) : Prop :=
  ∀ (id : Nat) (c : Thread) (read : LatestRead), t.calls[id]? = some c →
    c.call.latest? = some read → read.cached = true → read.key = key →
    (c.stage = .called → c.context.ended? t.tokens t.now = none →
      t.step (.go id) = t.place id (.admitted read)) ∧
    (c.stage = .admitted read → t.now < expiry →
      (t.step (.go id)).outcome? id = some (.ok (.record r)) ∧
      (t.step (.go id)).engine = t.engine ∧
      (t.step (.go id)).store.memory.cache.counts =
        {t.store.memory.cache.counts with hits := t.store.memory.cache.counts.hits + 1})

/-- **Reading through the cache.** Whatever the calls of a new store do at the same time, over
an engine with any contents: once a read has stored a record under a key, in a generation that
was opened at some time, the cache answers reads with that key until the time to live has
passed since, with what was stored under the key last, as long as the cache is not cleared. A
store that is told not to cache leaves its cache as it was made, and its calls end as they do
if those that may ask the cache ask the engine instead. -/
theorem read_through {config : StoreConfig} (hconfig : config.validate = .ok ()) (clock : Clock)
    (timed : Bool) (engine : Engine) :
    let start := fresh config clock timed engine
    (config.caching = true → ∀ past storing key r,
      (start.run past).stored? storing = some (key, r) →
      ∃ opened, start.last? opensAt? (past ++ [storing]) = some opened ∧
        ∀ later, (start.run (past ++ [storing])).neverClears later = true →
          ∃ last, (start.run past).last? (storesUnder? key) (storing :: later) = some last ∧
            (start.run (past ++ storing :: later)).CacheAnswers key last (opened + config.ttl)) ∧
    (config.caching = false → ∀ moves,
      (start.run moves).store.memory.IsUnused ∧
      ∀ others, moves.map Move.uncached = others.map Move.uncached →
        ∀ id, (start.run moves).outcome? id = (start.run others).outcome? id) := by
  intro start
  refine ⟨fun hcaching past storing key r hstored => ?_, fun hcaching moves => ⟨?_, ?_⟩⟩
  · have hpunctual : start.store.memory.Punctual := punctual_fresh config clock timed engine
    obtain ⟨haccepted, hpoised⟩ := accepted_run (t := start) rfl past
    obtain ⟨opened, hopened, hheld⟩ := holds_stored (t := start) rfl hstored
    have httl : start.store.memory.cache.ttl = config.ttl :=
      Nat.min_eq_left (StoreConfig.ttl_of_validate hconfig).2
    rw [httl] at hheld
    refine ⟨opened, hopened, fun later hclears => ?_⟩
    refine ⟨((start.run (past ++ [storing])).last? (storesUnder? key) later).getD r, ?_, ?_⟩
    · have hfirst : storesUnder? key (start.run past) storing = some r := by
        simp [storesUnder?, hstored, CacheKey.storedIn?]
      rw [last?, hfirst, Option.or_some, run_concat]
    · rintro id c read hc hlatest hcached rfl
      rw [← List.singleton_append, ← List.append_assoc, run_append] at hc ⊢
      refine ⟨fun hcalled hlive => ?_, fun hadmitted hlive => ?_⟩
      · have hmissing := missing?_of_stored? haccepted hpoised hstored
        exact step_go_called hc hlatest hmissing hcalled hlive
      · have hconfig : ((start.run (past ++ [storing])).run later).store.config = config := by
          rw [config_run, config_run]
          rfl
        have hheld' := holds_run hheld (punctual_run hpunctual _) hclears hlive
        exact step_go_admitted hc hadmitted (hconfig ▸ hcaching) hcached hheld' hlive
  · exact unused_run hcaching ⟨rfl, rfl⟩ moves
  · intro others hmoves id
    rw [← outcome?_uncached, uncached_run hcaching rfl hmoves, outcome?_uncached]

/-- Between two reads of a path a put writes a newer version, and two thirds of the time to live
pass: the second read still gets the version that the first one stored. -/
theorem read_through_after_put :
    let ns : Namespace := ⟨"a", by decide, by decide⟩
    let context : Context := ⟨⟨[0]⟩, none⟩
    let get : Call := .get ns "c" "p"
    let past : List Move :=
      [.begin context (.put ns "c" "p" "k" "old"), .go 0, .serve 0, .go 0,
       .begin context get, .go 1, .go 1, .go 1, .serve 1]
    let between : List Move :=
      [.begin context (.put ns "c" "p" "k" "new"), .go 2, .serve 2, .go 2, .advance (40 * second)]
    let later : List Move := between ++ [.begin context get]
    let start := fresh .standard ⟨7, 1⟩
    (start.run (past ++ .go 1 :: later)).returned 2 = [Record.make "c" "p" "k" "new" 9] ∧
      (start.run (past ++ .go 1 :: (later ++ [.go 3, .go 3]))).outcome? 3 =
        some (.ok (.record (Record.make "c" "p" "k" "old" 7))) := by
  intro ns context get past between later start
  refine ⟨by decide +kernel, ?_⟩
  let key := CacheKey.ofIdentifier ns "c" (.derive "p")
  let old := Record.make "c" "p" "k" "old" 7
  obtain ⟨hcaching, -⟩ := read_through StoreConfig.validate_standard ⟨7, 1⟩ true {}
  obtain ⟨opened, hopened, hanswers⟩ := hcaching rfl past (.go 1) key old (by decide +kernel)
  have hzero : start.last? opensAt? (past ++ [.go 1]) = some 0 := by decide +kernel
  obtain rfl : opened = 0 := Option.some.inj (hopened.symm.trans hzero)
  -- the second read begins, and is to ask the cache
  have hlength : (start.run (past ++ .go 1 :: between)).calls.length = 3 := by decide +kernel
  have hbegun : (start.run (past ++ .go 1 :: later)).calls[3]? =
      some { call := get, context := context } := by
    rw [show past ++ .go 1 :: later = (past ++ .go 1 :: between) ++ [.begin context get] from rfl,
      run_append, ← hlength]
    exact List.getElem?_concat_length ..
  obtain ⟨_, -, hbefore⟩ := hanswers later (by decide +kernel)
  obtain ⟨hadmits, -⟩ := hbefore 3 _ (.ofPath true ns "c" "p") hbegun rfl rfl rfl
  have hadmitted := hadmits rfl (by decide +kernel)
  -- so the cache answers it
  obtain ⟨last, hlast, hafter⟩ := hanswers (later ++ [.go 3]) (by decide +kernel)
  have hold : (start.run past).last? (storesUnder? key) (.go 1 :: (later ++ [.go 3])) =
      some old := by decide +kernel
  obtain rfl : last = old := Option.some.inj (hlast.symm.trans hold)
  rw [show past ++ .go 1 :: (later ++ [.go 3]) = (past ++ .go 1 :: later) ++ [.go 3] from rfl,
    run_concat] at hafter
  have hat : ((start.run (past ++ .go 1 :: later)).step (.go 3)).calls[3]? =
      some ⟨get, context, .admitted (.ofPath true ns "c" "p")⟩ := by
    rw [hadmitted]
    exact getElem?_place _ hbegun
  obtain ⟨-, hanswer⟩ := hafter 3 _ (.ofPath true ns "c" "p") hat rfl rfl rfl
  rw [show past ++ .go 1 :: (later ++ [.go 3, .go 3]) = (past ++ .go 1 :: later) ++ [.go 3, .go 3]
    from rfl, run_append]
  exact (hanswer rfl (by decide +kernel)).1

end Threads

end VersionStore
