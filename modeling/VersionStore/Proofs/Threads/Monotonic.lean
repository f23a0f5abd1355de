import VersionStore.Proofs.Newest
import VersionStore.Proofs.Threads.Removal
import VersionStore.Proofs.Threads.Staleness

/-! Reads that never go back.

Where calls are made one after the other (`isSequential`), a later read of a key returns
nothing older than an earlier one did, whether the cache answers or the engine does, until
the namespace is removed (`never_goes_back`).

Two facts carry this. What the engine would find for a read grows with every write
(`Covers`). And what the cache keeps under the key of a read that has just returned is
either what it returned or nothing at all: an answer is refused only because the epoch has
moved, and then the cache was emptied while the read was under way, and no other call was
there to fill it again (`Orderly.noted`). -/
namespace VersionStore

/-- Whether a record may have been the newest when another is: it is older, or the same. -/
def Record.NoLaterThan (r s : Record) : Prop := r.timestamp < s.timestamp ∨ r = s

namespace Record.NoLaterThan

variable {r s u : Record}

theorem refl (r : Record) : r.NoLaterThan r := .inr rfl

theorem trans_lt (h : r.NoLaterThan s) (hlt : s.timestamp < u.timestamp) : r.NoLaterThan u := by
  rcases h with h | rfl
  · exact .inl (Int64.lt_trans h hlt)
  · exact .inl hlt

/-- Its time is not later, and it is the same record if its time is the same. -/
theorem le_and (h : r.NoLaterThan s) :
    r.timestamp ≤ s.timestamp ∧ (r.timestamp = s.timestamp → r = s) := by
  rcases h with h | rfl
  · exact ⟨Int64.le_of_lt h, fun heq => absurd h (heq ▸ Int64.lt_irrefl)⟩
  · exact ⟨Int64.le_refl _, fun _ => rfl⟩

end Record.NoLaterThan

/-! ### What a search finds when more is written -/

namespace Query

/-- With one more document, what is found first stays first, or the new one does and comes
before it. -/
theorem select_append {query : Query} (hlimit : query.limit = 1) {documents : List Json.Value}
    {d : Json.Value} (h : query.select documents = [d]) (e : Json.Value) :
    query.select (documents ++ [e]) = [d] ∨
      query.select (documents ++ [e]) = [e] ∧ query.compare e d = .lt := by
  have hone : query.limit.toNat = 1 := congrArg UInt64.toNat hlimit
  unfold select at h ⊢
  rw [hone, List.take_one] at h ⊢
  rw [List.filter_append]
  cases haccepts : query.filter.accepts e with
  | false =>
    left
    simpa [haccepts] using h
  | true =>
    have hhead : (stableSort query.compare
        (documents.filter (Filter.accepts · query.filter))).head? = some d :=
      Option.toList_eq_singleton_iff.mp h
    have hnew : [e].filter (Filter.accepts · query.filter) = [e] := by simp [haccepts]
    rw [hnew]
    rcases head?_stableSort_append (a := e) hhead with h | ⟨h, hlt⟩
    · exact .inl (by rw [h]; rfl)
    · exact .inr ⟨by rw [h]; rfl, hlt⟩

/-- Only objects pass the tests for a newest version. -/
theorem isObject_of_accepts {test : Filter} {classification : String} {limit : UInt64}
    {d : Json.Value} (h : (newest test classification limit).filter.accepts d = true) :
    d.isObject = true := by
  cases d with
  | object => rfl
  | _ => simp [newest, Filter.accepts, Filter.acceptsAll, Json.Value.member?] at h

end Query

namespace Threads

variable {t t' : Threads} {call : Call} {read : LatestRead} {r s : Record}

/-- Whether a search made now for what a read asks for gives a record. -/
def Finds (t : Threads) (read : LatestRead) (r : Record) : Prop := t.view.Finds read r

theorem finds_iff : t.Finds read r ↔
    decodeAll (read.query.select (t.engine.documents (t.index read.key.scope))) = .ok [r] := Iff.rfl

/-- What a search finds is one document. -/
theorem Finds.exists_document (h : t.Finds read r) (hlatest : call.latest? = some read) :
    ∃ d, read.query.select (t.engine.documents (t.index read.key.scope)) = [d] ∧ d.isObject = true ∧
      Record.decode d = .ok r := by
  obtain ⟨test, hquery⟩ := Call.exists_query hlatest
  obtain ⟨d, hd, hdecode⟩ := decode_of_mem_decodeAll h List.mem_cons_self
  have haccepts := (Query.mem_of_mem_select hd).2
  rw [hquery] at haccepts
  exact ⟨d, Call.select_eq_singleton hlatest hd, Query.isObject_of_accepts haccepts, hdecode⟩

/-- With one more record, a search finds what it found before, or the new record and that is
newer. -/
theorem Finds.append (h : t.Finds read r) (hlatest : call.latest? = some read)
    (hindex : t'.index = t.index) {new : Record} (hnew : new.IsGenuine)
    (hdocuments : t'.engine.documents (t.index read.key.scope) =
      t.engine.documents (t.index read.key.scope) ++ [new.document]) :
    t'.Finds read r ∨ t'.Finds read new ∧ r.timestamp < new.timestamp := by
  obtain ⟨test, hquery⟩ := Call.exists_query hlatest
  obtain ⟨d, hfound, hobject, hdecode⟩ := h.exists_document hlatest
  have hlimit : read.query.limit = 1 := by rw [hquery]; rfl
  simp only [finds_iff, hindex, hdocuments]
  rcases Query.select_append hlimit hfound new.document with hsame | ⟨hchanged, hlt⟩
  · left
    rw [hsame]
    simp [decodeAll, hdecode]
  · right
    rw [hchanged]
    have hgenuine : ∀ r ∈ [new], r.IsGenuine := by simpa using hnew
    refine ⟨decodeAll_documents hgenuine, ?_⟩
    have hshows : new.Shows new.document := ⟨rfl, rfl, rfl⟩
    rw [hquery,
      Query.compare_newest_of_shows hshows (Record.shows_of_decode hobject hdecode)] at hlt
    exact Int64.lt_iff_toInt_lt.mpr (Int.compare_eq_lt.mp hlt)

/-- Whether a search finds a record, or one that is newer. -/
def Covers (t : Threads) (read : LatestRead) (r : Record) : Prop :=
  ∃ newest, t.Finds read newest ∧ r.NoLaterThan newest

theorem Finds.covers (h : t.Finds read r) : t.Covers read r := ⟨r, h, .refl r⟩

/-- What one search finds is not older than what it covers. -/
theorem Covers.noLaterThan (h : t.Covers read r) (hfinds : t.Finds read s) : r.NoLaterThan s := by
  obtain ⟨newest, hnewest, hle⟩ := h
  have hsame : [newest] = [s] := Except.ok.inj (hnewest.symm.trans hfinds)
  rwa [← (List.cons.inj hsame).1]

theorem Covers.of_documents (h : t.Covers read r) (hindex : t'.index = t.index)
    (hdocuments : t'.engine.documents (t.index read.key.scope) =
      t.engine.documents (t.index read.key.scope)) : t'.Covers read r := by
  obtain ⟨newest, hnewest, hle⟩ := h
  refine ⟨newest, ?_, hle⟩
  rw [finds_iff] at hnewest ⊢
  rwa [hindex, hdocuments]

theorem Covers.append (h : t.Covers read r) (hlatest : call.latest? = some read)
    (hindex : t'.index = t.index) {new : Record} (hnew : new.IsGenuine)
    (hdocuments : t'.engine.documents (t.index read.key.scope) =
      t.engine.documents (t.index read.key.scope) ++ [new.document]) : t'.Covers read r := by
  obtain ⟨newest, hnewest, hle⟩ := h
  rcases hnewest.append hlatest hindex hnew hdocuments with hsame | ⟨hnewer, hlt⟩
  · exact ⟨newest, hsame, hle⟩
  · exact ⟨new, hnewer, hle.trans_lt hlt⟩

end Threads

/-! ### One call after the other -/

namespace Stage

def isEnded : Stage → Bool
  | .ended _ => true
  | _ => false

/-- What a read of a newest version has noted that is under way. -/
def noted? : Stage → Option (CacheKey × Nat)
  | .waiting await | .answered await _ => await.noted?
  | _ => none

/-- Whether a removal was served, and the cache is yet to be cleared. -/
def IsUncleared : Stage → Prop
  | .answered (.removal ..) (.ok _) => True
  | _ => False

end Stage

/-- Whether a call is one of the store's own operations and no removal that leaves the cache
alone. -/
def Call.isAttached : Call → Bool
  | .delete _ detached | .reset _ detached => !detached
  | .direct _ => false
  | _ => true

/-- Whether a move begins no call but such operations. -/
def Move.isAttached : Move → Bool
  | .begin _ call => call.isAttached
  | _ => true

theorem Call.isOwn_of_isAttached {call : Call} (h : call.isAttached = true) :
    call.isOwn = true := by
  cases call <;> first | rfl | cases h

namespace Threads

/-- Whether a move may be made if no call begins before all others have ended. -/
def mayBegin (t : Threads) : Move → Bool
  | .begin .. => t.calls.all (·.stage.isEnded)
  | _ => true

/-- Whether calls are made one after the other: none begins before all others have ended.
Anything else may happen at any time. -/
def isSequential (t : Threads) : List Move → Bool
  | [] => true
  | move :: rest => t.mayBegin move && (t.step move).isSequential rest

theorem isSequential_append {t : Threads} {before after : List Move} :
    t.isSequential (before ++ after) = true ↔
      t.isSequential before = true ∧ (t.run before).isSequential after = true := by
  induction before generalizing t with
  | nil => simp [isSequential, run]
  | cons move rest ih => simp [isSequential, run, ih, and_assoc]

/-- What holds where calls are made one after the other. At most the last call is under way; if
the epoch has moved since it noted it, the cache is empty; and the answer that it has in
hand is what the engine would still give. -/
structure Orderly (t : Threads) : Prop where
  alone : ∀ (id : Nat) (c : Thread), t.calls[id]? = some c → c.stage.isEnded = false →
    id + 1 = t.calls.length
  attached : ∀ (id : Nat) (c : Thread), t.calls[id]? = some c → c.call.isAttached = true
  uncached : t.store.config.caching = false → t.store.memory.cache.generation = none
  noted : ∀ (id : Nat) (c : Thread), t.calls[id]? = some c → ∀ key epoch,
    c.stage.noted? = some (key, epoch) → epoch = t.epoch ∨ t.store.memory.cache.generation = none
  current : ∀ (id : Nat) (c : Thread), t.calls[id]? = some c →
    ∀ key query index epoch documents,
      c.stage = .answered (.latest key query index epoch) (.ok documents) →
        documents = query.select (t.engine.documents index)

end Threads

/-- What a call has noted it notes now, or has noted before. -/
theorem Store.Proceeds.noted {ended : Option Error} {call : Call} {store later : Store}
    {stage next : Stage} (h : Proceeds ended call store stage (next, later)) {key : CacheKey}
    {epoch : Nat} (hnoted : next.noted? = some (key, epoch)) :
    later = store ∧ (stage.noted? = some (key, epoch) ∨ epoch = store.memory.cache.epoch) := by
  cases h with
  | @waits await _ _ hfirst =>
    cases await with
    | latest => exact hfirst.elim
    | _ => cases hnoted
  | fetches =>
    cases hnoted
    exact ⟨rfl, .inr rfl⟩
  | stays => exact ⟨rfl, .inl hnoted⟩
  | _ => cases hnoted

/-- A call that goes on from where it has ended does nothing. -/
theorem Store.Proceeds.of_isEnded {ended : Option Error} {call : Call} {store later : Store}
    {stage next : Stage} (h : Proceeds ended call store stage (next, later))
    (hended : stage.isEnded = true) : next = stage ∧ later = store := by
  cases h with
  | rests => exact ⟨rfl, rfl⟩
  | _ => cases hended

theorem Stage.not_isEnded_of_noted {stage : Stage} {noted : CacheKey × Nat}
    (h : stage.noted? = some noted) : stage.isEnded = false := by
  cases stage with
  | ended => cases h
  | _ => rfl

namespace Threads

variable {t t' : Threads} {move : Move}

namespace Orderly

/-- No two calls are under way. -/
theorem eq_of_open (h : t.Orderly) {a b : Nat} {c d : Thread} (hc : t.calls[a]? = some c)
    (hd : t.calls[b]? = some d) (hopenc : c.stage.isEnded = false)
    (hopend : d.stage.isEnded = false) : a = b := by
  have ha := h.alone a c hc hopenc
  have hb := h.alone b d hd hopend
  omega

theorem alone_step (h : t.Orderly) (hmay : t.mayBegin move = true) (hsteps : Steps t move t')
    {id : Nat} {c : Thread} (hc : t'.calls[id]? = some c) (hopen : c.stage.isEnded = false) :
    id + 1 = t'.calls.length := by
  cases hsteps with
  | begins context call =>
    rw [List.length_append]
    rcases of_getElem?_begin hc with ⟨rfl, -⟩ | hc
    · rfl
    · -- all others have ended
      have hended := List.all_eq_true.mp hmay c (List.mem_of_getElem? hc)
      rw [hopen] at hended
      cases hended
  | @goes other c' stage later hc' hproceeds =>
    rw [place, List.length_modify]
    rcases of_getElem?_place hc' hc with ⟨rfl, rfl⟩ | ⟨-, hc⟩
    · refine h.alone id c' hc' (Bool.eq_false_iff.mpr fun hended => ?_)
      obtain ⟨rfl, -⟩ := hproceeds.of_isEnded hended
      rw [hended] at hopen
      cases hopen
    · exact h.alone id c hc hopen
  | serves hc' hwaiting | stops hc' hwaiting =>
    rw [place, List.length_modify]
    rcases of_getElem?_place hc' hc with ⟨rfl, rfl⟩ | ⟨-, hc⟩
    · exact h.alone id _ hc' (by rw [hwaiting]; rfl)
    · exact h.alone id c hc hopen
  | turns _ hcalls =>
    rw [hcalls] at hc ⊢
    exact h.alone id c hc hopen

theorem attached_step (h : t.Orderly) (hattached : move.isAttached = true)
    (hsteps : Steps t move t') {id : Nat} {c : Thread} (hc : t'.calls[id]? = some c) :
    c.call.isAttached = true := by
  rcases hsteps.kept_or_arrives hc with hc | harrives
  · exact h.attached id c hc
  cases harrives with
  | begins => exact hattached
  | goes hc' | serves hc' | stops hc' =>
    have hcall := h.attached id _ hc'
    exact hcall

theorem uncached_step (h : t.Orderly) (hsteps : Steps t move t')
    (hcaching : t'.store.config.caching = false) : t'.store.memory.cache.generation = none := by
  rw [hsteps.later.1] at hcaching
  have hnone := h.uncached hcaching
  cases hsteps with
  | begins | serves | stops => exact hnone
  | goes _ hproceeds =>
    rcases hproceeds.recedes_or_keeps with hrecedes | ⟨_, _, key, epoch, r, -, -, -, -, hkeep⟩
    · exact hrecedes.cache.generation_eq_none hnone
    · rw [Store.keep, hcaching] at hkeep
      exact (congrArg (·.memory.cache.generation) hkeep).trans hnone
  | turns _ _ _ hstore => exact hstore.cache.generation_eq_none hnone

theorem noted_step (h : t.Orderly) (hsteps : Steps t move t') {id : Nat} {c : Thread}
    (hc : t'.calls[id]? = some c) {key : CacheKey} {epoch : Nat}
    (hnoted : c.stage.noted? = some (key, epoch)) :
    epoch = t'.epoch ∨ t'.store.memory.cache.generation = none := by
  have hopen := Stage.not_isEnded_of_noted hnoted
  cases hsteps with
  | begins context call =>
    rcases of_getElem?_begin hc with ⟨-, rfl⟩ | hc
    · cases hnoted
    · exact h.noted id c hc key epoch hnoted
  | @goes other c' stage later hc' hproceeds =>
    rcases of_getElem?_place hc' hc with ⟨rfl, rfl⟩ | ⟨hne, hkept⟩
    · obtain ⟨rfl, hbefore | rfl⟩ := hproceeds.noted hnoted
      · exact h.noted id c' hc' key epoch hbefore
      · exact .inl rfl
    · -- the other call has ended, and rests
      have hended : c'.stage.isEnded = true := by
        cases hended : c'.stage.isEnded with
        | true => rfl
        | false => exact absurd (h.eq_of_open hkept hc' hopen hended) hne
      obtain ⟨-, rfl⟩ := hproceeds.of_isEnded hended
      exact h.noted id c hkept key epoch hnoted
  | serves hc' hwaiting | stops hc' hwaiting =>
    rcases of_getElem?_place hc' hc with ⟨rfl, rfl⟩ | ⟨-, hc⟩
    · exact h.noted id _ hc' key epoch (by rw [hwaiting]; exact hnoted)
    · exact h.noted id c hc key epoch hnoted
  | turns _ hcalls _ hstore =>
    rw [hcalls] at hc
    rcases h.noted id c hc key epoch hnoted with rfl | hnone
    · exact hstore.cache.emptied.imp_left Eq.symm
    · exact .inr (hstore.cache.generation_eq_none hnone)

theorem current_step (h : t.Orderly) (hsteps : Steps t move t') {id : Nat} {c : Thread}
    (hc : t'.calls[id]? = some c) {key : CacheKey} {query : Query} {index : String} {epoch : Nat}
    {documents : List Json.Value}
    (hstage : c.stage = .answered (.latest key query index epoch) (.ok documents)) :
    documents = query.select (t'.engine.documents index) := by
  cases hsteps with
  | begins context call =>
    rcases of_getElem?_begin hc with ⟨-, rfl⟩ | hc
    · cases hstage
    · exact h.current id c hc _ _ _ _ _ hstage
  | @goes other c' stage later hc' hproceeds =>
    rcases of_getElem?_place hc' hc with ⟨rfl, rfl⟩ | ⟨-, hc⟩
    · generalize c'.stage = before at hproceeds
      cases hproceeds <;> cases hstage
    · exact h.current id c hc _ _ _ _ _ hstage
  | serves hc' hwaiting =>
    rcases of_getElem?_place hc' hc with ⟨rfl, rfl⟩ | ⟨hne, hc⟩
    · obtain ⟨rfl, hanswer⟩ := Stage.answered.inj hstage
      rw [Engine.eq_select_of_serve (eq_of_heq hanswer)]
      exact congrArg query.select (Engine.documents_serve_search ..).symm
    · -- an answer is in hand, so no other call waits
      exact absurd (h.eq_of_open hc hc' (by rw [hstage]; rfl) (by rw [hwaiting]; rfl)) hne
  | stops hc' =>
    rcases of_getElem?_place hc' hc with ⟨rfl, rfl⟩ | ⟨-, hc⟩
    · cases hstage
    · exact h.current id c hc _ _ _ _ _ hstage
  | turns _ hcalls hindices =>
    rw [hcalls] at hc
    rw [h.current id c hc _ _ _ _ _ hstage, Engine.documents, Engine.documents, hindices]

theorem step (h : t.Orderly) (hattached : move.isAttached = true)
    (hmay : t.mayBegin move = true) : (t.step move).Orderly where
  alone := fun _ _ hc hopen => h.alone_step hmay (t.steps move) hc hopen
  attached := fun _ _ hc => h.attached_step hattached (t.steps move) hc
  uncached := h.uncached_step (t.steps move)
  noted := fun _ _ hc _ _ hnoted => h.noted_step (t.steps move) hc hnoted
  current := fun _ _ hc _ _ _ _ _ hstage => h.current_step (t.steps move) hc hstage

end Orderly

end Threads

/-! ### What the cache keeps -/

/-- What is kept of a read that has just returned is what it returned. -/
theorem Store.eq_of_held?_keep {store : Store} {key : CacheKey} {r s : Record} {epoch : Nat}
    (huncached : store.config.caching = false → store.memory.cache.generation = none)
    (hnoted : epoch = store.memory.cache.epoch ∨ store.memory.cache.generation = none)
    (h : (store.keep key r epoch).memory.cache.held? key.encode = some s) : s = r := by
  have hempty : store.memory.cache.generation = none →
      store.memory.cache.held? key.encode = none := fun hnone => by
    simp [Cache.held?, Cache.entries, hnone]
  unfold keep at h
  split at h
  · unfold LiveCache.storeUnless at h
    split at h
    · rw [LiveCache.store, LiveCache.cache_put, Cache.held?_store, if_pos rfl] at h
      exact (Option.some.inj h).symm
    · next hmoved =>
      have h : store.memory.cache.held? key.encode = some s := h
      rw [hempty (hnoted.resolve_left hmoved)] at h
      cases h
  · next hcaching =>
    rw [hempty (huncached (Bool.eq_false_iff.mpr hcaching))] at h
    cases h

/-- A removal that was served clears the cache when its call goes on. -/
theorem Store.Proceeds.held?_of_isUncleared {ended : Option Error} {call : Call}
    {store later : Store} {stage next : Stage} {ns : Namespace}
    (h : Proceeds ended call store stage (next, later))
    (hfits : stage.Fits store.index store.memory.cache.epoch call)
    (hremoves : call.removes? = some ns) (huncleared : stage.IsUncleared) (key : String) :
    later.memory.cache.held? key = none := by
  cases h with
  | @ends await answer _ _ hresume | @creates await answer _ _ hresume =>
    rcases hfits.1.of_removes? hremoves with ⟨again, rfl⟩ | rfl
    · cases answer with
      | error => exact huncleared.elim
      | ok done =>
        obtain rfl : _ = later := congrArg Prod.snd hresume
        exact Cache.held?_clear _ _
    · exact huncleared.elim
  | _ => exact huncleared.elim

/-- What a call waits for that removes something is a namespace, which it removes from the cache
as well. -/
theorem Asks.removes?_of_removal {index : Namespace → String} {call : Call} {pattern : String}
    {detached again : Bool} (h : Asks index call (.removal pattern detached again))
    (hattached : call.isAttached = true) :
    ∃ ns, pattern = index ns ∧ call.removes? = some ns := by
  cases h with
  | delete | reset =>
    cases detached with
    | false => exact ⟨_, rfl, rfl⟩
    | true => cases hattached

namespace Threads

section
variable {t : Threads} {move : Move} {read : LatestRead} {r : Record}

/-- The documents of a namespace stay as they are or are one more, unless it is removed. -/
theorem Orderly.documents_step (h : t.Orderly) (hvalid : t.store.config.validate = .ok ())
    (hpoised : t.Poised) {ns : Namespace} (hkept : t.removed? move ≠ some ns) :
    (t.step move).engine.documents (t.index ns) = t.engine.documents (t.index ns) ∨
      ∃ new : Record, new.IsGenuine ∧ (t.step move).engine.documents (t.index ns) =
        t.engine.documents (t.index ns) ++ [new.document] := by
  have hsteps := t.steps move
  generalize t.step move = t' at hsteps
  cases hsteps with
  | begins | goes | stops => exact .inl rfl
  | turns _ _ hindices => exact .inl (by rw [Engine.documents, Engine.documents, hindices])
  | @serves id c await hc hwaiting =>
    obtain ⟨call, context, stage⟩ := c
    obtain rfl : stage = .waiting await := hwaiting
    have hattached : call.isAttached = true := h.attached id _ hc
    obtain ⟨hasks, -⟩ := hpoised id _ hc
    rcases documents_serve hasks (Call.isOwn_of_isAttached hattached) (t.index ns) with
      hsame | ⟨pattern, detached, again, hserved, rfl, hmatch, -⟩ |
        ⟨_, _, _, _, _, _, -, -, -, -, hmore⟩
    · exact .inl hsame
    · obtain ⟨other, rfl, hremoves⟩ := hasks.removes?_of_removal hattached
      obtain rfl := (wildcardMatches_index hvalid other ns).mp hmatch
      exact absurd (by simp [removed?, hc, hserved, hremoves]) hkept
    · exact .inr ⟨_, Record.isGenuine_make .., hmore⟩

/-- What a search covers it covers after every move but a removal. -/
theorem Covers.step (h : t.Covers read r) {call : Call} (hlatest : call.latest? = some read)
    (horderly : t.Orderly) (hvalid : t.store.config.validate = .ok ()) (hpoised : t.Poised)
    (hkept : t.removed? move ≠ some read.key.scope) : (t.step move).Covers read r := by
  have hindex := (t.steps move).index
  rcases horderly.documents_step hvalid hpoised hkept with hsame | ⟨new, hnew, hmore⟩
  · exact h.of_documents hindex hsame
  · exact h.append hlatest hindex hnew hmore

/-- Reads with one key search for the same. -/
theorem Finds.of_key (h : t.Finds read r) {call other : Call} {read' : LatestRead}
    (hlatest : call.latest? = some read) (hlatest' : other.latest? = some read')
    (hkey : read.key = read'.key) : t.Finds read' r := by
  have hquery : read'.query = read.query := by
    rw [Call.query_eq hlatest, Call.query_eq hlatest', hkey]
  rw [finds_iff, hquery, ← hkey]
  exact h

theorem Orderly.finds (h : t.Orderly) (hpoised : t.Poised) {id : Nat} {c : Thread}
    (hc : t.calls[id]? = some c) {await : Await} {answer : Result await.request.Answer}
    (hstage : c.stage = .answered await answer) {key : CacheKey} {epoch : Nat}
    (hnoted : await.noted? = some (key, epoch))
    (hr : ∃ d ∈ await.documents answer, Record.decode d = .ok r) :
    ∃ read, c.call.latest? = some read ∧ read.key = key ∧ t.Finds read r := by
  have hcurrent : Current (· = t.view) t c.stage := fun key query index epoch documents hstage =>
    ⟨t.view, rfl, rfl, rfl, h.current id c hc key query index epoch documents hstage⟩
  obtain ⟨_, read, rfl, -, hlatest, hkey, hfinds⟩ :=
    hcurrent.finds hpoised hc hstage hnoted hr
  exact ⟨read, hlatest, hkey, hfinds⟩

theorem Covers.of_key (h : t.Covers read r) {call other : Call} {read' : LatestRead}
    (hlatest : call.latest? = some read) (hlatest' : other.latest? = some read')
    (hkey : read.key = read'.key) : t.Covers read' r := by
  obtain ⟨newest, hnewest, hle⟩ := h
  exact ⟨newest, hnewest.of_key hlatest hlatest' hkey, hle⟩

/-- Whether nothing that the cache holds is newer than what the engine would find, as long as no
removal was served that is yet to clear the cache. -/
def Backs (t : Threads) : Prop :=
  ∀ s r, t.store.memory.cache.held? s = some r →
    ∃ (call : Call) (read : LatestRead), call.latest? = some read ∧ s = read.key.encode ∧
      (t.Covers read r ∨ ∃ id, t.Reaches id read.key.scope Stage.IsUncleared)

/-- Either a removal that is yet to clear the cache still is after a move, or it has. -/
theorem uncleared_step (hpoised : t.Poised) (move : Move) {id : Nat} {ns : Namespace}
    (h : t.Reaches id ns Stage.IsUncleared) :
    (t.step move).Reaches id ns Stage.IsUncleared ∨
      ∀ key, (t.step move).store.memory.cache.held? key = none := by
  obtain ⟨c, hc, hremoves, huncleared⟩ := h
  have hsteps := t.steps move
  generalize t.step move = t' at hsteps
  cases hsteps with
  | begins =>
    exact .inl ⟨c, List.getElem?_append_left (List.getElem?_eq_some_iff.mp hc).1 ▸ hc, hremoves,
      huncleared⟩
  | @goes other c' stage later hc' hproceeds =>
    by_cases hid : id = other
    · subst hid
      obtain rfl := Option.some.inj (hc'.symm.trans hc)
      exact .inr fun key =>
        hproceeds.held?_of_isUncleared (hpoised id _ hc') hremoves huncleared key
    · exact .inl ⟨c, (getElem?_place_of_ne _ hid).trans hc, hremoves, huncleared⟩
  | serves hc' hwaiting | stops hc' hwaiting =>
    refine .inl ⟨c, (getElem?_place_of_ne _ ?_).trans hc, hremoves, huncleared⟩
    rintro rfl
    obtain rfl := Option.some.inj (hc'.symm.trans hc)
    rw [hwaiting] at huncleared
    exact huncleared
  | turns _ hcalls => exact .inl ⟨c, hcalls ▸ hc, hremoves, huncleared⟩

/-- A removal that is served is yet to clear the cache. -/
theorem uncleared_of_removed? {ns : Namespace} (h : t.removed? move = some ns) :
    ∃ id, (t.step move).Reaches id ns Stage.IsUncleared := by
  obtain ⟨id, call, context, index, detached, again, rfl, hc, hserved, hremoves⟩ := of_removed? h
  refine ⟨id, ?_⟩
  rw [step_serve hc rfl]
  refine ⟨_, getElem?_place _ hc, hremoves, ?_⟩
  simp [Await.request, Engine.serve, hserved, Stage.IsUncleared]

theorem Backs.step (h : t.Backs) (horderly : t.Orderly)
    (hvalid : t.store.config.validate = .ok ()) (hpoised : t.Poised) : (t.step move).Backs := by
  have hsteps := t.steps move
  intro s r hheld
  have hkept : t.store.memory.cache.held? s = some r →
      ∃ (call : Call) (read : LatestRead), call.latest? = some read ∧ s = read.key.encode ∧
        ((t.step move).Covers read r ∨
          ∃ id, (t.step move).Reaches id read.key.scope Stage.IsUncleared) := by
    intro hbefore
    obtain ⟨call, read, hlatest, hkey, hcovers | ⟨id, huncleared⟩⟩ := h s r hbefore
    · refine ⟨call, read, hlatest, hkey, ?_⟩
      by_cases hremoved : t.removed? move = some read.key.scope
      · exact .inr (uncleared_of_removed? hremoved)
      · exact .inl (hcovers.step hlatest horderly hvalid hpoised hremoved)
    · rcases uncleared_step hpoised move huncleared with huncleared | hnone
      · exact ⟨call, read, hlatest, hkey, .inr ⟨id, huncleared⟩⟩
      · rw [hnone] at hheld
        cases hheld
  generalize t.step move = t' at hsteps hheld hkept
  cases hsteps with
  | begins | serves | stops => exact hkept hheld
  | turns _ _ _ hstore => exact hkept (hstore.cache.held s r hheld)
  | goes hc hproceeds =>
    rcases hproceeds.held? hheld with hheld | ⟨await, answer, key, hstage, -, hnoted, rfl, hr⟩
    · exact hkept hheld
    · obtain ⟨read, hlatest, rfl, hfinds⟩ := horderly.finds hpoised hc hstage hnoted hr
      have hindex := Store.index_of_config hproceeds.later.1
      exact ⟨_, read, hlatest, rfl, .inl (hfinds.covers.of_documents hindex rfl)⟩

end

/-! ### What later reads return -/

section
variable {t : Threads} {move : Move} {id : Nat} {call : Call} {read : LatestRead} {r s : Record}

/-- Whether nothing older than a record can be returned under a key: neither the engine finds such
a thing nor the cache holds it. -/
structure Bounds (t : Threads) (read : LatestRead) (r : Record) : Prop where
  covers : t.Covers read r
  held : ∀ s, t.store.memory.cache.held? read.key.encode = some s → r.NoLaterThan s

theorem Bounds.step (h : t.Bounds read r) (hlatest : call.latest? = some read)
    (horderly : t.Orderly) (hvalid : t.store.config.validate = .ok ()) (hpoised : t.Poised)
    (hkept : t.removed? move ≠ some read.key.scope) : (t.step move).Bounds read r where
  covers := h.covers.step hlatest horderly hvalid hpoised hkept
  held := by
    intro s hheld
    have hsteps := t.steps move
    generalize t.step move = t' at hsteps hheld
    cases hsteps with
    | begins | serves | stops => exact h.held s hheld
    | turns _ _ _ hstore => exact h.held s (hstore.cache.held _ s hheld)
    | goes hc hproceeds =>
      rcases hproceeds.held? hheld with hheld | ⟨await, answer, key, hstage, -, hnoted, hkey, hr⟩
      · exact h.held s hheld
      · obtain ⟨read', hlatest', rfl, hfinds⟩ := horderly.finds hpoised hc hstage hnoted hr
        have hkey := CacheKey.encode_injective hkey
        exact h.covers.noLaterThan (hfinds.of_key hlatest' hlatest hkey.symm)

/-- How a read comes to return a record. -/
inductive Returns (t : Threads) (id : Nat) (read : LatestRead) (r : Record) : Threads → Prop
  | hits {c : Thread} {outcome : Outcome} {later : Store} (hc : t.calls[id]? = some c)
    (hopen : c.stage.isEnded = false)
    (hheld : t.store.memory.cache.held? read.key.encode = some r) (h : t.store.Recedes later) :
    Returns t id read r ({t with store := later}.place id (.ended outcome))
  | finds {c : Thread} {outcome : Outcome} {epoch : Nat} (hc : t.calls[id]? = some c)
    (hopen : c.stage.isEnded = false) (hnoted : c.stage.noted? = some (read.key, epoch))
    (hfinds : t.Finds read r) :
    Returns t id read r ({t with store := t.store.keep read.key r epoch}.place id (.ended outcome))

theorem Orderly.returns (h : t.Orderly) (hpoised : t.Poised)
    (hcall : (t.step move).call? id = some call) (hlatest : call.latest? = some read)
    (hbefore : r ∉ t.returned id) (hafter : r ∈ (t.step move).returned id) :
    t.Returns id read r (t.step move) := by
  obtain ⟨context, reply, hc, hr⟩ := exists_of_mem_returned hcall hafter
  have hsteps := t.steps move
  generalize t.step move = t' at hsteps hc
  rcases hsteps.kept_or_arrives hc with hc | harrives
  · exact absurd (mem_returned hc hr) hbefore
  generalize hended : (⟨call, context, .ended (.ok reply)⟩ : Thread) = c at harrives
  cases harrives with
  | begins | serves | stops => cases hended
  | @goes c _ _ hc' hproceeds =>
    obtain ⟨call, context, before⟩ := c
    obtain ⟨rfl, rfl, rfl⟩ := Thread.mk.inj hended
    have hfits := hpoised id _ hc'
    cases hproceeds with
    | hits hfound hlater =>
      obtain rfl := List.mem_singleton.mp hr
      cases hfits.symm.trans hlatest
      exact .hits hc' rfl (Store.of_lookUp hfound).2 hlater
    | @ends await answer _ _ hresume =>
      obtain ⟨epoch, rfl⟩ := hfits.1.eq_latest hlatest
      rcases t.store.resume_latest read.key read.query (t.index read.key.scope) epoch answer with
        ⟨e, herror⟩ | ⟨documents, found, rfl, hdecode, hok⟩
      · cases herror.symm.trans hresume
      · cases hok.symm.trans hresume
        obtain rfl := List.mem_singleton.mp hr
        obtain ⟨read', hlatest', -, hfinds⟩ := h.finds hpoised hc' rfl rfl hdecode
        cases hlatest'.symm.trans hlatest
        exact .finds hc' rfl rfl hfinds
    | rests => exact absurd (mem_returned hc' hr) hbefore

/-- A call that returns something is the last that has begun. -/
theorem Orderly.succ_eq_of_returns (h : t.Orderly) {t' : Threads}
    (hreturns : t.Returns id read r t') : id + 1 = t'.calls.length := by
  cases hreturns with
  | hits hc hopen | finds hc hopen =>
    rw [place, List.length_modify]
    exact h.alone id _ hc hopen

/-- From then on nothing older is returned. -/
theorem Orderly.bounds_of_returns (h : t.Orderly) (hbacks : t.Backs) {t' : Threads}
    (hcall : t'.call? id = some call) (hlatest : call.latest? = some read)
    (hreturns : t.Returns id read r t') : t'.Bounds read r := by
  cases hreturns with
  | @hits c _ later hc hopen hheld hlater =>
    constructor
    · obtain ⟨other, read', hlatest', hkey, hcovers | ⟨removal, c', hc', hremoves, huncleared⟩⟩ :=
        hbacks _ r hheld
      · have hkey := CacheKey.encode_injective hkey
        refine (hcovers.of_key hlatest' hlatest hkey.symm).of_documents ?_ rfl
        exact Store.index_of_config hlater.config
      · -- a removal would be under way besides the read
        have hopen' : c'.stage.isEnded = false := by
          generalize c'.stage = stage at huncleared
          cases stage with
          | ended => exact huncleared.elim
          | _ => rfl
        obtain rfl := h.eq_of_open hc' hc hopen' hopen
        obtain rfl := Option.some.inj (hc'.symm.trans hc)
        obtain rfl : c'.call = call := by
          have hc' : ({t with store := later} : Threads).calls[removal]? = some c' := hc'
          rw [call?, getElem?_place _ hc'] at hcall
          exact Option.some.inj hcall
        rw [Call.latest?_of_removes? hremoves] at hlatest
        cases hlatest
    · intro s hs
      have hs := hlater.cache.held _ s hs
      obtain rfl := Option.some.inj (hs.symm.trans hheld)
      exact .refl s
  | finds hc hopen hnoted hfinds =>
    constructor
    · exact hfinds.covers.of_documents (Store.index_of_config (Store.config_keep ..)) rfl
    · intro s hs
      obtain rfl := Store.eq_of_held?_keep h.uncached (h.noted id _ hc _ _ hnoted) hs
      exact .refl s

/-- What a read returns is not older than what is bounded. -/
theorem Bounds.noLaterThan_of_returns (h : t.Bounds read r) (hlatest : call.latest? = some read)
    {other : Call} {read' : LatestRead} (hlatest' : other.latest? = some read')
    (hkey : read.key = read'.key) {t' : Threads} (hreturns : t.Returns id read' s t') :
    r.NoLaterThan s := by
  cases hreturns with
  | hits _ _ hheld =>
    rw [← hkey] at hheld
    exact h.held s hheld
  | finds _ _ _ hfinds => exact h.covers.noLaterThan (hfinds.of_key hlatest' hlatest hkey.symm)

end

/-! ### Runs -/

/-- What holds of a usable store whose calls are made one after the other. -/
structure Managed (t : Threads) : Prop where
  valid : t.store.config.validate = .ok ()
  poised : t.Poised
  orderly : t.Orderly
  backs : t.Backs

section
variable {start t : Threads} {moves : List Move} {a b id : Nat} {first second call : Call}
  {read read' : LatestRead} {r s : Record} {outcome : Outcome}

theorem managed_of_new (hvalid : start.store.config.validate = .ok ()) (hnew : start.calls = [])
    (hempty : start.store.memory.cache.generation = none) : start.Managed := by
  have hnone : ∀ (id : Nat) (c : Thread), start.calls[id]? ≠ some c := fun id c hc => by
    rw [hnew] at hc
    cases hc
  refine ⟨hvalid, fun id c hc => absurd hc (hnone id c), ?_, fun s r hheld => ?_⟩
  · exact {
      alone := fun id c hc => absurd hc (hnone id c)
      attached := fun id c hc => absurd hc (hnone id c)
      uncached := fun _ => hempty
      noted := fun id c hc => absurd hc (hnone id c)
      current := fun id c hc => absurd hc (hnone id c) }
  · simp [Cache.held?, Cache.entries, hempty] at hheld

theorem Managed.step (h : t.Managed) {move : Move} (hattached : move.isAttached = true)
    (hmay : t.mayBegin move = true) : (t.step move).Managed where
  valid := by rw [(t.steps move).later.1, h.valid]
  poised := h.poised.step move
  orderly := h.orderly.step hattached hmay
  backs := h.backs.step h.orderly h.valid h.poised

theorem Managed.run (h : t.Managed) (hattached : ∀ move ∈ moves, move.isAttached = true)
    (hsequential : t.isSequential moves = true) : (t.run moves).Managed := by
  induction moves generalizing t with
  | nil => exact h
  | cons move rest ih =>
    obtain ⟨hfirst, hrest⟩ := List.forall_mem_cons.mp hattached
    obtain ⟨hmay, hsequential⟩ := Bool.and_eq_true_iff.mp hsequential
    exact ih (h.step hfirst hmay) hrest hsequential

/-- What is bounded stays so until the namespace is removed. -/
theorem Bounds.run (h : t.Bounds read r) (hlatest : call.latest? = some read)
    (hmanaged : t.Managed) (hattached : ∀ move ∈ moves, move.isAttached = true)
    (hsequential : t.isSequential moves = true)
    (hkept : ∀ before move after, moves = before ++ move :: after →
      (t.run before).removed? move ≠ some read.key.scope) : (t.run moves).Bounds read r := by
  induction moves generalizing t with
  | nil => exact h
  | cons move rest ih =>
    obtain ⟨hfirst, hrest⟩ := List.forall_mem_cons.mp hattached
    obtain ⟨hmay, hsequential⟩ := Bool.and_eq_true_iff.mp hsequential
    have hstep := h.step hlatest hmanaged.orderly hmanaged.valid hmanaged.poised (hkept [] _ _ rfl)
    refine ih hstep (hmanaged.step hfirst hmay) hrest hsequential ?_
    rintro before next after rfl
    exact hkept (move :: before) next after rfl

/-- A call that has ended stays ended as it is. -/
theorem outcome?_run (h : t.outcome? id = some outcome) (moves : List Move) :
    (t.run moves).outcome? id = some outcome := by
  induction moves generalizing t with
  | nil => exact h
  | cons move rest ih =>
    refine ih ?_
    obtain ⟨c, hc, hended⟩ := Option.bind_eq_some_iff.mp h
    obtain ⟨call, context, stage⟩ := c
    cases stage with
    | ended found =>
      cases hended
      simp [outcome?, (t.steps move).of_ended hc rfl]
    | _ => cases hended

/-- What a call returned, it has returned from when it ended on. -/
theorem mem_returned_of_outcome? (h : t.outcome? id ≠ none) (moves : List Move)
    (hr : r ∈ (t.run moves).returned id) : r ∈ t.returned id := by
  obtain ⟨outcome, houtcome⟩ := Option.ne_none_iff_exists'.mp h
  unfold returned at hr ⊢
  rwa [outcome?_run houtcome, ← houtcome] at hr

theorem outcome?_ne_none_of_mem_returned (hr : r ∈ t.returned id) : t.outcome? id ≠ none := by
  intro hnone
  simp [returned, hnone] at hr

/-- **Reads never go back.** Let calls be made one after the other on a store that is new, over an
engine with any contents. Of two reads of a newest version with one key, as of one path, the
later returns nothing older than the earlier did, and the same record if the times are the same,
unless the namespace was removed between the two. Either may have been answered by the cache or
by the engine, and whatever else may happen at any time: the clock is set, generations run out,
the cache is cleared, contexts end, the engine fails. -/
theorem never_goes_back (hvalid : start.store.config.validate = .ok ()) (hnew : start.calls = [])
    (hempty : start.store.memory.cache.generation = none)
    (hattached : ∀ move ∈ moves, move.isAttached = true)
    (hsequential : start.isSequential moves = true)
    (hfirst : (start.run moves).call? a = some first)
    (hsecond : (start.run moves).call? b = some second)
    (hread : first.latest? = some read) (hread' : second.latest? = some read')
    (hkey : read.key = read'.key) (hlater : a < b) (hr : r ∈ (start.run moves).returned a)
    (hs : s ∈ (start.run moves).returned b)
    (hkept : ∀ before move after, moves = before ++ move :: after →
      (start.run before).removed? move = some read.key.scope →
        (start.run before).outcome? a = none ∨ (start.run before).outcome? b ≠ none) :
    r.timestamp ≤ s.timestamp ∧ (r.timestamp = s.timestamp → r = s) := by
  have hmanaged := managed_of_new hvalid hnew hempty
  have hnone : r ∉ start.returned a := by simp [returned, outcome?, hnew]
  obtain ⟨past, turn, rest, rfl, hbefore, hafter⟩ :=
    exists_turn (r ∈ ·.returned a) hnone hr
  simp only [List.forall_mem_append, List.forall_mem_cons] at hattached
  obtain ⟨hpast, hturn, hrest⟩ := hattached
  obtain ⟨hsequential, hsequential'⟩ := isSequential_append.mp hsequential
  obtain ⟨hmay, hsequential'⟩ := Bool.and_eq_true_iff.mp hsequential'
  replace hmanaged := hmanaged.run hpast hsequential
  have hrun : ∀ more, start.run (past ++ turn :: more) = ((start.run past).step turn).run more :=
    fun more => by rw [run_append, run]
  rw [hrun] at hfirst hsecond hs
  have hcall := call?_of_mem_returned hfirst hafter
  have hreturns := hmanaged.orderly.returns hmanaged.poised hcall hread hbefore hafter
  have hbounds := hmanaged.orderly.bounds_of_returns hmanaged.backs hcall hread hreturns
  have hlast := hmanaged.orderly.succ_eq_of_returns hreturns
  replace hmanaged := hmanaged.step hturn hmay
  -- the later read has not begun where the earlier returns
  have hlate : s ∉ ((start.run past).step turn).returned b := by
    have habsent : ((start.run past).step turn).calls[b]? = none :=
      List.getElem?_eq_none (by omega)
    simp [returned, outcome?, habsent]
  obtain ⟨between, turn', after, rfl, hbefore', hafter'⟩ := exists_turn (s ∈ ·.returned b) hlate hs
  simp only [List.forall_mem_append, List.forall_mem_cons] at hrest
  obtain ⟨hbetween, -⟩ := hrest
  obtain ⟨hsequential', -⟩ := isSequential_append.mp hsequential'
  have hnotRemoved : ∀ before move tail, between = before ++ move :: tail →
      (((start.run past).step turn).run before).removed? move ≠ some read.key.scope := by
    rintro before move tail rfl hremoved
    rcases hkept (past ++ turn :: before) move (tail ++ turn' :: after) (by simp)
      (by rw [hrun]; exact hremoved) with hnone | hended
    · rw [hrun] at hnone
      obtain ⟨outcome, houtcome⟩ :=
        Option.ne_none_iff_exists'.mp (outcome?_ne_none_of_mem_returned hafter)
      rw [outcome?_run houtcome] at hnone
      cases hnone
    · -- the later read would have returned before the move by which it returns
      rw [hrun] at hended
      obtain ⟨outcome, houtcome⟩ := Option.ne_none_iff_exists'.mp hended
      have hstays := outcome?_run houtcome (move :: tail)
      rw [← run_append] at hstays
      have hended := hstays.trans_ne (Option.some_ne_none outcome)
      exact hbefore' (mem_returned_of_outcome? hended [turn'] hafter')
  have hbounds' := hbounds.run hread hmanaged hbetween hsequential' hnotRemoved
  replace hmanaged := hmanaged.run hbetween hsequential'
  rw [run_append, run] at hsecond
  have hcall' := call?_of_mem_returned hsecond hafter'
  have hreturns' := hmanaged.orderly.returns hmanaged.poised hcall' hread' hbefore' hafter'
  exact (hbounds'.noLaterThan_of_returns hread hread' hkey hreturns').le_and

end

/-- A second version is written behind the cache. The read that bypasses the cache returns it, but
cannot keep it, for the cache is cleared during its search; the cached read after it does not
go back to the first version. -/
theorem never_goes_back_of_flush :
    let ns : Namespace := ⟨"a", by decide, by decide⟩
    let context : Context := ⟨⟨[0]⟩, none⟩
    let get : Call := .get ns "c" "p"
    let put : List Move := [.begin context (.put ns "c" "p" "k" "old"), .go 0, .serve 0, .go 0]
    let past : List Move := put ++ .begin context get ::
      [.go 1, .go 1, .go 1, .serve 1, .go 1,
       .begin context (.put ns "c" "p" "k" "new"), .go 2, .serve 2, .go 2,
       .begin context (.getFresh ns "c" "p"), .go 3, .go 3, .go 3, .serve 3, .clearCache, .go 3]
    let moves : List Move := past ++ .begin context get :: [.go 4, .go 4, .go 4, .serve 4, .go 4]
    let old := Record.make "c" "p" "k" "old" 7
    let new := Record.make "c" "p" "k" "new" 9
    let start := fresh .standard ⟨7, 1⟩
    (start.run moves).returned 1 = [old] ∧ (start.run moves).returned 3 = [new] ∧
      (start.run moves).returned 4 = [new] ∧ old.timestamp ≤ new.timestamp ∧
      (old.timestamp = new.timestamp → old = new) := by
  intro ns context get put past moves old new start
  have hreturned : (start.run moves).returned 1 = [old] ∧ (start.run moves).returned 3 = [new] ∧
      (start.run moves).returned 4 = [new] := by decide +kernel
  obtain ⟨hold, hfresh, hnew⟩ := hreturned
  have hput : (start.run put).calls.length = 1 := by decide +kernel
  have hpast : (start.run past).calls.length = 4 := by decide +kernel
  have hsecond : (start.run moves).call? 4 = some get := call?_begin hpast context get _
  have hfirst : (start.run moves).call? 1 = some get := by
    have hsplit : start.run moves = (start.run past).run _ := run_append start past _
    rw [hsplit]
    exact call?_run (call?_begin hput context get _) _
  have hnone : ∀ c ∈ (start.run moves).calls, c.call.removes? = none := by decide +kernel
  have hattached : ∀ move ∈ moves, move.isAttached = true := by decide +kernel
  have hsequential : start.isSequential moves = true := by decide +kernel
  have hr : old ∈ (start.run moves).returned 1 := by
    rw [hold]
    exact List.mem_singleton_self old
  have hs : new ∈ (start.run moves).returned 4 := by
    rw [hnew]
    exact List.mem_singleton_self new
  refine ⟨hold, hfresh, hnew, ?_⟩
  refine never_goes_back StoreConfig.validate_standard rfl rfl hattached hsequential
    hfirst hsecond rfl rfl rfl (by decide) hr hs ?_
  intro before move after hmoves hremoved
  -- no call removes anything
  obtain ⟨id, call, context, _, _, _, -, hc, -, hremoves⟩ := of_removed? hremoved
  have hcall : (start.run before).call? id = some call := by rw [call?, hc]; rfl
  have hend : (start.run moves).call? id = some call := by
    rw [hmoves, run_append]
    exact call?_run hcall _
  obtain ⟨c, hmem, rfl⟩ := Option.map_eq_some_iff.mp hend
  cases (hnone c (List.mem_of_getElem? hmem)).symm.trans hremoves

end Threads

end VersionStore
