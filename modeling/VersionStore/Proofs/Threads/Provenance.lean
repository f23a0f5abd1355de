import VersionStore.Proofs.Cache.Key
import VersionStore.Proofs.Threads.Step

/-! Where the records come from that reads return.

`writes` lists what the puts of a run have written. An invariant, `Traced`, says of some
concerned namespaces that their documents, what the cache keeps of them, and the answers
that calls hold are all backed by such a list. It looks at the calls from a number on:
an earlier one may still hold an answer that nothing backs, but then it noted an epoch
before `since`, so the cache will not take what it found. Every move keeps the invariant
(`Traced.step`). -/
namespace VersionStore

/-- Whether a record was written to a namespace, and a call asks for it. -/
def Backed (written : List (Namespace × Record)) (ns : Namespace) (call : Call) (r : Record) :
    Prop :=
  (ns, r) ∈ written ∧ call.Suits r

theorem Backed.mono {written more : List (Namespace × Record)} {ns : Namespace} {call : Call}
    {r : Record} (h : Backed written ns call r) (hsub : written ⊆ more) : Backed more ns call r :=
  ⟨hsub h.1, h.2⟩

/-- Whether a record is one that a put to a namespace makes. -/
def Call.Puts (ns : Namespace) (r : Record) : Call → Prop
  | .put scope classification path kind payload =>
    scope = ns ∧ ∃ stamp, r = .make classification path kind payload stamp
  | _ => False

namespace Threads

def returned (t : Threads) (id : Nat) : List Record :=
  match t.outcome? id with
  | some (.ok reply) => reply.contents
  | _ => []

/-- What a call returns, it ends with. -/
theorem exists_of_mem_returned {t : Threads} {id : Nat} {call : Call} {r : Record}
    (hcall : t.call? id = some call) (hr : r ∈ t.returned id) :
    ∃ context reply, t.calls[id]? = some ⟨call, context, .ended (.ok reply)⟩ ∧
      r ∈ reply.contents := by
  unfold returned at hr
  split at hr
  · next reply houtcome =>
    obtain ⟨context, hc⟩ := exists_of_outcome? hcall houtcome
    exact ⟨context, reply, hc, hr⟩
  · cases hr

theorem mem_returned {t : Threads} {id : Nat} {call : Call} {context : Context} {reply : Reply}
    {r : Record} (hc : t.calls[id]? = some ⟨call, context, .ended (.ok reply)⟩)
    (hr : r ∈ reply.contents) : r ∈ t.returned id := by
  simpa [returned, outcome?, hc] using hr

/-- A call that has returned something is the call that it is at the end. -/
theorem call?_of_mem_returned {t : Threads} {moves : List Move} {id : Nat} {call : Call}
    {r : Record} (hcall : (t.run moves).call? id = some call) (hr : r ∈ t.returned id) :
    t.call? id = some call := by
  cases hc : t.calls[id]? with
  | none => simp [returned, outcome?, hc] at hr
  | some c =>
    have hearlier : t.call? id = some c.call := by rw [call?, hc]; rfl
    rw [hearlier, ← hcall, call?_run hearlier]

/-! ### What a run writes -/

/-- What a move writes: the record of a put whose request the engine serves. -/
def written? (t : Threads) : Move → Option (Namespace × Record)
  | .serve id =>
    match t.calls[id]? with
    | some ⟨.put ns _ _ _ _, _, .waiting (.write record _)⟩ =>
      if t.engine.unavailable then none else some (ns, record)
    | _ => none
  | _ => none

def writes (t : Threads) : List Move → List (Namespace × Record)
  | [] => []
  | move :: rest => (t.written? move).toList ++ writes (t.step move) rest

theorem writes_append (t : Threads) (a b : List Move) :
    t.writes (a ++ b) = t.writes a ++ (t.run a).writes b := by
  induction a generalizing t with
  | nil => rfl
  | cons move rest ih =>
    simp only [List.cons_append, writes, run, ih, List.append_assoc]

theorem of_written? {t : Threads} {move : Move} {ns : Namespace} {r : Record}
    (h : t.written? move = some (ns, r)) :
    ∃ (id : Nat) (context : Context) (classification path kind payload index : String),
      t.calls[id]? =
        some ⟨.put ns classification path kind payload, context, .waiting (.write r index)⟩ := by
  unfold written? at h
  split at h
  · split at h
    · next hc =>
      split at h
      · cases h
      · cases h
        exact ⟨_, _, _, _, _, _, _, hc⟩
    · cases h
  · cases h

/-- What a store writes is what a put makes. -/
theorem Fits.puts {t : Threads} (h : t.Fits) {move : Move} {ns : Namespace} {r : Record}
    (hwritten : t.written? move = some (ns, r)) :
    ∃ (id : Nat) (call : Call), t.call? id = some call ∧ call.Puts ns r := by
  obtain ⟨id, context, classification, path, kind, payload, index, hc⟩ := of_written? hwritten
  obtain ⟨hasks, -⟩ := (h _ _ hc).2
  cases hasks with
  | write stamp => exact ⟨id, _, Option.map_eq_some_iff.mpr ⟨_, hc, rfl⟩, rfl, stamp, rfl⟩

theorem Fits.isGenuine {t : Threads} (h : t.Fits) {move : Move} {ns : Namespace} {r : Record}
    (hwritten : t.written? move = some (ns, r)) : r.IsGenuine := by
  obtain ⟨id, call, -, hputs⟩ := h.puts hwritten
  cases call with
  | put =>
    obtain ⟨-, stamp, rfl⟩ := hputs
    exact Record.isGenuine_make ..
  | _ => cases hputs

/-- Whatever a run writes, one of its puts made. -/
theorem Fits.puts_of_mem_writes {t : Threads} (h : t.Fits) {moves : List Move}
    (hown : ∀ move ∈ moves, move.isOwn = true) {ns : Namespace} {r : Record}
    (hr : (ns, r) ∈ t.writes moves) :
    ∃ (id : Nat) (call : Call), (t.run moves).call? id = some call ∧ call.Puts ns r := by
  induction moves generalizing t with
  | nil => cases hr
  | cons move rest ih =>
    obtain ⟨hfirst, hrest⟩ := List.forall_mem_cons.mp hown
    rcases List.mem_append.mp hr with hr | hr
    · obtain ⟨id, call, hcall, hputs⟩ := h.puts (Option.mem_toList.mp hr)
      exact ⟨id, call, call?_run hcall (move :: rest), hputs⟩
    · exact ih (h.step hfirst) hrest hr

/-! ### The documents of an index -/

/-- Whether the documents of the concerned namespaces are records that were written there. -/
structure Stocked (concerned : Namespace → Prop) (written : List (Namespace × Record))
    (t : Threads) : Prop where
  genuine : ∀ ns r, (ns, r) ∈ written → r.IsGenuine
  documents : ∀ ns, concerned ns → ∀ d ∈ t.engine.documents (t.index ns),
    ∃ r, (ns, r) ∈ written ∧ d = r.document

variable {concerned : Namespace → Prop} {since first : Nat}
  {written : List (Namespace × Record)} {t : Threads}

theorem Stocked.step (h : Stocked concerned written t) (hfits : t.Fits) (move : Move) :
    Stocked concerned (written ++ (t.written? move).toList) (t.step move) := by
  refine ⟨fun ns r hmem => ?_, fun ns hns d hd => ?_⟩
  · rcases List.mem_append.mp hmem with hmem | hmem
    · exact h.genuine ns r hmem
    · exact hfits.isGenuine (Option.mem_toList.mp hmem)
  · have hsteps := t.steps move
    generalize t.step move = t' at hsteps hd
    rw [hsteps.index] at hd
    have hkept : d ∈ t.engine.documents (t.index ns) →
        ∃ r, (ns, r) ∈ written ++ (t.written? move).toList ∧ d = r.document := by
      intro hd
      obtain ⟨r, hr, hdr⟩ := h.documents ns hns d hd
      exact ⟨r, List.mem_append_left _ hr, hdr⟩
    cases hsteps with
    | begins | goes | stops => exact hkept hd
    | turns _ _ hindices =>
      unfold Engine.documents at hd
      rw [hindices] at hd
      exact hkept hd
    | @serves id c await hc hwaiting =>
      obtain ⟨hown, hasks, -⟩ := hwaiting ▸ hfits id c hc
      have hd : d ∈ (t.engine.serve await.request).2.documents (t.index ns) := hd
      rcases documents_serve hasks hown (t.index ns) with hsame | ⟨_, _, _, -, -, -, hnone⟩ | hmore
      · rw [hsame] at hd
        exact hkept hd
      · rw [hnone] at hd
        cases hd
      · obtain ⟨ns', classification, path, kind, payload, stamp, hserved, hcall, rfl, hindex, hmore⟩ :=
          hmore
        obtain rfl := Namespace.indexName_inj.mp hindex
        rw [hmore] at hd
        rcases List.mem_append.mp hd with hd | hd
        · exact hkept hd
        · refine ⟨_, List.mem_append_right _ ?_, List.mem_singleton.mp hd⟩
          obtain ⟨call, context, stage⟩ := c
          cases hwaiting
          cases hcall
          simp [written?, hc, hserved]

theorem Stocked.run (h : Stocked concerned written t) (hfits : t.Fits) {moves : List Move}
    (hown : ∀ move ∈ moves, move.isOwn = true) :
    Stocked concerned (written ++ t.writes moves) (t.run moves) := by
  induction moves generalizing t written with
  | nil => rwa [writes, List.append_nil]
  | cons move rest ih =>
    obtain ⟨hfirst, hrest⟩ := List.forall_mem_cons.mp hown
    have hrun := ih (h.step hfits move) (hfits.step hfirst) hrest
    rwa [List.append_assoc] at hrun

/-- A document that is a written record is read back as that record. -/
theorem Stocked.eq_of_decode (h : Stocked concerned written t) {ns : Namespace} {r found : Record}
    (hr : (ns, r) ∈ written) (hdecode : Record.decode r.document = .ok found) : found = r := by
  rw [Record.decode_document (h.genuine ns r hr)] at hdecode
  exact (Except.ok.inj hdecode).symm

/-! ### What calls and the cache hold -/

end Threads

/-- Whether what a call holds is backed. One that began before the number `first` may hold an
answer that is not, if the epoch that it noted is over. -/
def Thread.Traced (concerned : Namespace → Prop) (since first : Nat)
    (written : List (Namespace × Record)) (id : Nat) (c : Thread) : Prop :=
  ∀ ns, concerned ns → c.call.reads? = some ns →
    match c.stage with
    | .answered await answer =>
      (∀ d ∈ await.documents answer, ∃ r, Backed written ns c.call r ∧ d = r.document) ∨
        (id < first ∧ ∀ key noted, await.noted? = some (key, noted) → noted < since)
    | .ended outcome =>
      first ≤ id → ∀ reply, outcome = .ok reply → ∀ r ∈ reply.contents, Backed written ns c.call r
    | _ => True

theorem Thread.Traced.mono {concerned : Namespace → Prop} {since first : Nat}
    {written more : List (Namespace × Record)} {id : Nat} {c : Thread}
    (h : c.Traced concerned since first written id) (hsub : written ⊆ more) :
    c.Traced concerned since first more id := by
  intro ns hns hreads
  have h := h ns hns hreads
  obtain ⟨call, context, stage⟩ := c
  cases stage with
  | answered await answer =>
    refine h.imp_left fun h d hd => ?_
    obtain ⟨r, hr, hdr⟩ := h d hd
    exact ⟨r, hr.mono hsub, hdr⟩
  | ended outcome => exact fun hlate reply hreply r hr => (h hlate reply hreply r hr).mono hsub
  | _ => trivial

namespace Threads

/-- Whether what a store holds of the concerned namespaces is backed by a list of writes. An
entry of the cache stands under the key of a read that has returned it. -/
structure Traced (concerned : Namespace → Prop) (since first : Nat)
    (written : List (Namespace × Record)) (t : Threads) : Prop
    extends Stocked concerned written t where
  since_le : since ≤ t.epoch
  held : ∀ s r, t.store.memory.cache.held? s = some r →
    ∃ (id : Nat) (c : Thread) (read : LatestRead), t.calls[id]? = some c ∧
      c.stage = .ended (.ok (.record r)) ∧ c.call.latest? = some read ∧ s = read.key.encode ∧
      (concerned read.key.scope → Backed written read.key.scope c.call r)
  calls : ∀ (id : Nat) (c : Thread), t.calls[id]? = some c →
    c.Traced concerned since first written id

namespace Traced

/-- What the cache answers to a read is backed. -/
theorem backed_of_held (h : Traced concerned since first written t) {call : Call}
    {read : LatestRead} {r : Record} (hlatest : call.latest? = some read)
    (hheld : t.store.memory.cache.held? read.key.encode = some r)
    (hscope : concerned read.key.scope) : Backed written read.key.scope call r := by
  obtain ⟨id, c, kept, -, -, hkept, hkey, hbacked⟩ := h.held _ r hheld
  have hkey := CacheKey.encode_injective hkey
  rw [← hkey] at hbacked
  obtain ⟨hmem, hsuits⟩ := hbacked hscope
  -- both reads ask for what belongs under the one key
  rw [Call.suits_iff_of_latest? hkept, ← hkey, ← Call.suits_iff_of_latest? hlatest] at hsuits
  exact ⟨hmem, hsuits⟩

/-- What a call reads from an answer that is backed is backed. -/
theorem backed_of_decode (h : Traced concerned since first written t) {ns : Namespace}
    {call : Call} {documents : List Json.Value} {r : Record}
    (hbacked : ∀ d ∈ documents, ∃ r, Backed written ns call r ∧ d = r.document)
    (hdecode : ∃ d ∈ documents, Record.decode d = .ok r) : Backed written ns call r := by
  obtain ⟨d, hd, hdecode⟩ := hdecode
  obtain ⟨r', hr', rfl⟩ := hbacked d hd
  obtain rfl := h.eq_of_decode hr'.1 hdecode
  exact hr'

/-- A call that goes on is traced as before. -/
theorem proceeds (h : Traced concerned since first written t) {id : Nat} {c : Thread}
    (hc : t.calls[id]? = some c) (hfits : c.stage.Fits t.index t.epoch c.call)
    {ended : Option Error} {stage : Stage} {later : Store}
    (hproceeds : Store.Proceeds ended c.call t.store c.stage (stage, later)) :
    ({c with stage := stage} : Thread).Traced concerned since first written id := by
  intro ns hns hreads
  have htraced := h.calls id c hc ns hns hreads
  obtain ⟨call, context, before⟩ := c
  cases hproceeds with
  | refused => rintro - reply ⟨⟩
  | waits | reads | misses | fetches | creates | stays => trivial
  | rests => exact htraced
  | hits hfound =>
    obtain ⟨-, hheld⟩ := Store.of_lookUp hfound
    rintro - reply ⟨rfl⟩ r hr
    obtain rfl := List.mem_singleton.mp hr
    obtain rfl := Option.some.inj ((Call.reads?_of_latest? hfits).symm.trans hreads)
    exact h.backed_of_held hfits hheld hns
  | @ends await answer outcome _ hresume =>
    rintro hlate reply rfl r hr
    rcases htraced with hbacked | ⟨hearly, -⟩
    · rcases Store.decode_of_resume (congrArg Prod.fst hresume) hr with ⟨index, rfl⟩ | hdecode
      · obtain ⟨hasks, -⟩ := hfits
        cases hasks
        cases hreads
      · exact h.backed_of_decode hbacked hdecode
    · omega

/-- What the cache holds after a call went on is backed. -/
theorem held_of_proceeds (h : Traced concerned since first written t) {id : Nat} {c : Thread}
    (hc : t.calls[id]? = some c) (hfits : c.stage.Fits t.index t.epoch c.call)
    {ended : Option Error} {stage : Stage} {later : Store}
    (hproceeds : Store.Proceeds ended c.call t.store c.stage (stage, later)) {s : String}
    {r : Record} (hheld : later.memory.cache.held? s = some r) :
    t.store.memory.cache.held? s = some r ∨
      ∃ read, stage = .ended (.ok (.record r)) ∧ c.call.latest? = some read ∧
        s = read.key.encode ∧
        (concerned read.key.scope → Backed written read.key.scope c.call r) := by
  rcases hproceeds.held? hheld with hheld | ⟨await, answer, key, hbefore, rfl, hnoted, rfl, hdecode⟩
  · exact .inl hheld
  · rw [hbefore] at hfits
    obtain ⟨read, hlatest, rfl⟩ := hfits.1.latest?_of_noted? hnoted
    refine .inr ⟨read, rfl, hlatest, rfl, fun hscope => ?_⟩
    have htraced := h.calls id c hc _ hscope (Call.reads?_of_latest? hlatest)
    rw [hbefore] at htraced
    rcases htraced with hbacked | ⟨-, hover⟩
    · exact h.backed_of_decode hbacked hdecode
    · -- the epoch noted is the present one, which `since` is not ahead of
      exact absurd (hover _ _ hnoted) (Nat.not_lt.mpr h.since_le)

/-- Every move keeps what is held backed. -/
theorem step (h : Traced concerned since first written t) (hfits : t.Fits) (move : Move) :
    Traced concerned since first (written ++ (t.written? move).toList) (t.step move) := by
  have hstocked := h.toStocked.step hfits move
  have hsub : written ⊆ written ++ (t.written? move).toList := List.subset_append_left _ _
  have hsteps := t.steps move
  generalize t.step move = t' at hsteps hstocked
  have hold : ∀ s r, t.store.memory.cache.held? s = some r →
      ∃ (id : Nat) (c : Thread) (read : LatestRead), t'.calls[id]? = some c ∧
        c.stage = .ended (.ok (.record r)) ∧ c.call.latest? = some read ∧ s = read.key.encode ∧
        (concerned read.key.scope →
          Backed (written ++ (t.written? move).toList) read.key.scope c.call r) := by
    intro s r hheld
    obtain ⟨id, c, read, hc, hended, hlatest, hkey, hbacked⟩ := h.held s r hheld
    exact ⟨id, c, read, hsteps.of_ended hc hended, hended, hlatest, hkey,
      fun hscope => (hbacked hscope).mono hsub⟩
  refine ⟨hstocked, Nat.le_trans h.since_le hsteps.later.2, ?_, ?_⟩
  · intro s r hheld
    cases hsteps with
    | begins | serves | stops => exact hold s r hheld
    | turns _ _ _ hstore => exact hold s r (hstore.cache.held s r hheld)
    | @goes id c stage later hc hproceeds =>
      rcases h.held_of_proceeds hc (hfits id c hc).2 hproceeds hheld with
        hheld | ⟨read, rfl, hlatest, hkey, hbacked⟩
      · exact hold s r hheld
      · exact ⟨id, _, read, getElem?_place _ hc, rfl, hlatest, hkey,
          fun hscope => (hbacked hscope).mono hsub⟩
  · intro id c hc
    rcases hsteps.kept_or_arrives hc with hc | harrives
    · exact (h.calls id c hc).mono hsub
    cases harrives with
    | begins context call => exact fun _ _ _ => trivial
    | goes hc' hproceeds => exact (h.proceeds hc' (hfits id _ hc').2 hproceeds).mono hsub
    | serves hc' hwaiting =>
      intro ns hns hreads
      obtain ⟨-, hasks, -⟩ := hwaiting ▸ hfits id _ hc'
      refine .inl fun d hd => ?_
      obtain ⟨hmem, hsuits⟩ := mem_answer hasks hreads hd
      obtain ⟨r, hr, hdr⟩ := h.documents ns hns d hmem
      exact ⟨r, ⟨hsub hr, hsuits r hdr⟩, hdr⟩
    | stops hc' hwaiting =>
      intro ns hns hreads
      refine .inl fun d hd => ?_
      rw [Await.documents_error] at hd
      cases hd

theorem run (h : Traced concerned since first written t) (hfits : t.Fits) {moves : List Move}
    (hown : ∀ move ∈ moves, move.isOwn = true) :
    Traced concerned since first (written ++ t.writes moves) (t.run moves) := by
  induction moves generalizing t written with
  | nil => rwa [writes, List.append_nil]
  | cons move rest ih =>
    obtain ⟨hfirst, hrest⟩ := List.forall_mem_cons.mp hown
    have hrun := ih (h.step hfits move) (hfits.step hfirst) hrest
    rwa [List.append_assoc] at hrun

/-- What a late read returned is backed. -/
theorem backed_of_returned (h : Traced concerned since first written t) {id : Nat} {call : Call}
    {ns : Namespace} {r : Record} (hcall : t.call? id = some call) (hreads : call.reads? = some ns)
    (hns : concerned ns) (hlate : first ≤ id) (hr : r ∈ t.returned id) :
    Backed written ns call r := by
  obtain ⟨context, reply, hc, hr⟩ := exists_of_mem_returned hcall hr
  exact h.calls id _ hc ns hns hreads hlate reply rfl r hr

end Traced

end Threads

end VersionStore
