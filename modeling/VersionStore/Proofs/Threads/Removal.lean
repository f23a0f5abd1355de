import VersionStore.Proofs.Threads.Provenance

/-! What was removed does not come back.

A removal takes effect when the engine serves it; from then on the documents of the
namespace are later writes. Some calls may still hold answers from before, and the cache
may still keep such records, until the removing call clears it. From that clear on a call
that began earlier can return what it holds, but cannot keep it: the epoch that it noted
is over. A call that begins after the removal has returned therefore finds later writes
only (`no_resurrection`). -/
namespace VersionStore

/-- The namespace that a call removes from the engine and the cache. -/
def Call.removes? : Call → Option Namespace
  | .delete ns false | .reset ns false => some ns
  | _ => none

theorem Call.latest?_of_removes? {call : Call} {ns : Namespace}
    (h : call.removes? = some ns) : call.latest? = none := by
  cases call <;> first | rfl | cases h

/-- A call that removes a namespace waits for that, or makes the index again. -/
theorem Asks.of_removes? {index : Namespace → String} {call : Call} {await : Await}
    {ns : Namespace} (h : Asks index call await) (hremoves : call.removes? = some ns) :
    (∃ again, await = .removal (index ns) false again) ∨ await = .creation (index ns) := by
  cases h with
  | @delete _ detached | @reset _ detached =>
    cases detached <;> cases hremoves
    exact .inl ⟨_, rfl⟩
  | @creation _ detached =>
    cases detached <;> cases hremoves
    exact .inr rfl
  | latest hlatest => rw [Call.latest?_of_removes? hremoves] at hlatest; cases hlatest
  | _ => cases hremoves

namespace Stage

/-- Whether a call that removes a namespace has cleared the cache. -/
def IsCleared : Stage → Prop
  | .waiting (.creation _) | .answered (.creation _) _ | .ended (.ok _) => True
  | _ => False

/-- Whether the removal that a call asked for was served. -/
def IsRemoved : Stage → Prop
  | .answered (.removal ..) (.ok _) => True
  | stage => stage.IsCleared

end Stage

/-- A removal that does not fail was served, and what follows it is done. -/
theorem Store.resume_removal_of_served {store : Store} {index : String} {detached again : Bool}
    {answer : Result Unit} (hserved : ∀ e, answer = .error e → e.IsUnserved)
    (hends : ∀ e, store.resume (.removal index detached again) answer ≠
      (.ended (.error e), store)) :
    ∃ done, answer = .ok done ∧ store.resume (.removal index detached again) answer =
      store.afterRemoval index detached again := by
  cases answer with
  | ok done => exact ⟨done, rfl, rfl⟩
  | error e => exact absurd (resume_of_unserved store _ (hserved e rfl)) (hends e)

/-- A call that removes a namespace clears the cache when it goes on with the answer. -/
theorem Store.Proceeds.clears {ended : Option Error} {call : Call} {store later : Store}
    {stage next : Stage} {ns : Namespace} (h : Proceeds ended call store stage (next, later))
    (hfits : stage.Fits store.index store.memory.cache.epoch call)
    (hremoves : call.removes? = some ns) (hnext : next.IsCleared) :
    stage.IsCleared ∨
      (∃ again done, stage = .answered (.removal (store.index ns) false again) (.ok done)) ∧
      ((∃ outcome, next = .ended outcome) ∨ ∃ index, next = .waiting (.creation index)) ∧
      later = {store with memory := store.memory.clear} := by
  cases h with
  | refused | reads | misses | fetches => exact hnext.elim
  | waits clock hasks hfirst =>
    rcases hasks.of_removes? hremoves with ⟨again, rfl⟩ | rfl
    · exact hnext.elim
    · exact hfirst.elim
  | hits =>
    rw [Stage.Fits, Call.latest?_of_removes? hremoves] at hfits
    cases hfits
  | stays | rests => exact .inl hnext
  | @ends await answer outcome _ hresume =>
    obtain ⟨hasks, -, hserved⟩ := hfits
    rcases hasks.of_removes? hremoves with ⟨again, rfl⟩ | rfl
    · right
      obtain ⟨done, rfl, hafter⟩ := resume_removal_of_served hserved (fun e he => by
        rw [hresume] at he
        cases he
        exact hnext)
      rw [hresume] at hafter
      exact ⟨⟨again, done, rfl⟩, .inl ⟨outcome, rfl⟩, congrArg Prod.snd hafter⟩
    · exact .inl trivial
  | @creates await answer index _ hresume =>
    obtain ⟨hasks, -, hserved⟩ := hfits
    rcases hasks.of_removes? hremoves with ⟨again, rfl⟩ | rfl
    · right
      obtain ⟨done, rfl, hafter⟩ := resume_removal_of_served hserved (fun e he => by
        rw [hresume] at he
        cases he)
      rw [hresume] at hafter
      exact ⟨⟨again, done, rfl⟩, .inr ⟨index, rfl⟩, congrArg Prod.snd hafter⟩
    · exact .inl trivial

/-- A call that goes on is not about to have its removal served. -/
theorem Store.Proceeds.isCleared {ended : Option Error} {call : Call} {store later : Store}
    {stage next : Stage} (h : Proceeds ended call store stage (next, later))
    (hnext : next.IsRemoved) : next.IsCleared := by
  cases h <;> exact hnext

theorem Stage.IsCleared.isRemoved {stage : Stage} (h : stage.IsCleared) : stage.IsRemoved := by
  unfold IsRemoved
  split
  · trivial
  · exact h

namespace Threads

/-- Whether a call that removes a namespace has come so far. -/
def Reaches (t : Threads) (id : Nat) (ns : Namespace) (P : Stage → Prop) : Prop :=
  ∃ c : Thread, t.calls[id]? = some c ∧ c.call.removes? = some ns ∧ P c.stage

/-- The namespace that a move removes: the engine serves the removal. -/
def removed? (t : Threads) : Move → Option Namespace
  | .serve id =>
    match t.calls[id]? with
    | some ⟨call, _, .waiting (.removal ..)⟩ =>
      if t.engine.unavailable then none else call.removes?
    | _ => none
  | _ => none

/-- Whether a call clears the cache as it goes on, and has no answer in hand then. -/
def Clears (t : Threads) (id : Nat) : Prop :=
  ∃ stage, ((∃ outcome, stage = .ended outcome) ∨ ∃ index, stage = .waiting (.creation index)) ∧
    t.step (.go id) = (t.withMemory t.store.memory.clear).place id stage

section
variable {t : Threads} {id : Nat} {ns : Namespace} {move : Move}

/-- The cache is cleared when the call goes on with the answer to its removal. -/
theorem clears_of_reaches (hfits : t.Fits) (hbefore : ¬t.Reaches id ns Stage.IsCleared)
    (hafter : (t.step move).Reaches id ns Stage.IsCleared) :
    move = .go id ∧ t.Reaches id ns Stage.IsRemoved ∧ t.Clears id := by
  have hsteps := t.steps move
  generalize hstep : t.step move = t' at hsteps hafter
  obtain ⟨c, hc, hremoves, hcleared⟩ := hafter
  rcases hsteps.kept_or_arrives hc with hc | harrives
  · exact absurd ⟨c, hc, hremoves, hcleared⟩ hbefore
  cases harrives with
  | begins => exact hcleared.elim
  | goes hc' hproceeds =>
    rcases hproceeds.clears (hfits id _ hc').2 hremoves hcleared with
      hcleared | ⟨⟨again, done, hstage⟩, hnext, rfl⟩
    · exact absurd ⟨_, hc', hremoves, hcleared⟩ hbefore
    · refine ⟨rfl, ⟨_, hc', hremoves, ?_⟩, _, hnext, hstep⟩
      rw [hstage]
      trivial
  | serves hc' hwaiting | stops hc' hwaiting =>
    -- only one who makes an index again has cleared the cache, and that before
    refine absurd ⟨_, hc', hremoves, ?_⟩ hbefore
    obtain ⟨-, hasks, -⟩ := hwaiting ▸ hfits id _ hc'
    rw [hwaiting]
    rcases hasks.of_removes? hremoves with ⟨again, rfl⟩ | rfl
    · exact hcleared.elim
    · trivial

/-- A removal takes effect when the engine serves it. -/
theorem removes_of_reaches (hfits : t.Fits) (hbefore : ¬t.Reaches id ns Stage.IsRemoved)
    (hafter : (t.step move).Reaches id ns Stage.IsRemoved) :
    move = .serve id ∧ t.removed? move = some ns := by
  have hsteps := t.steps move
  generalize t.step move = t' at hsteps hafter
  obtain ⟨c, hc, hremoves, hremoved⟩ := hafter
  rcases hsteps.kept_or_arrives hc with hc | harrives
  · exact absurd ⟨c, hc, hremoves, hremoved⟩ hbefore
  cases harrives with
  | begins => exact hremoved.elim
  | goes hc' hproceeds =>
    refine absurd ⟨_, hc', hremoves, ?_⟩ hbefore
    rcases hproceeds.clears (hfits id _ hc').2 hremoves (hproceeds.isCleared hremoved) with
      hcleared | ⟨⟨again, done, hstage⟩, -, -⟩
    · exact hcleared.isRemoved
    · rw [hstage]
      trivial
  | @serves c await hc' hwaiting =>
    obtain ⟨call, context, stage⟩ := c
    obtain rfl : stage = .waiting await := hwaiting
    obtain ⟨-, hasks, -⟩ := hfits id _ hc'
    rcases hasks.of_removes? hremoves with ⟨again, rfl⟩ | rfl
    · cases hserved : t.engine.unavailable with
      | true =>
        simp only [Await.request, Engine.serve_of_unavailable hserved] at hremoved
        exact hremoved.elim
      | false =>
        refine ⟨rfl, ?_⟩
        simpa [removed?, hc', hserved] using hremoves
    · exact absurd ⟨_, hc', hremoves, trivial⟩ hbefore
  | stops hc' hwaiting =>
    obtain ⟨-, hasks, -⟩ := hwaiting ▸ hfits id _ hc'
    rcases hasks.of_removes? hremoves with ⟨again, rfl⟩ | rfl
    · exact hremoved.elim
    · refine absurd ⟨_, hc', hremoves, ?_⟩ hbefore
      rw [hwaiting]
      trivial

theorem of_removed? (h : t.removed? move = some ns) :
    ∃ (id : Nat) (call : Call) (context : Context) (index : String) (detached again : Bool),
      move = .serve id ∧ t.calls[id]? = some ⟨call, context, .waiting (.removal index detached again)⟩ ∧
        t.engine.unavailable = false ∧ call.removes? = some ns := by
  unfold removed? at h
  split at h
  · split at h
    · next hc =>
      split at h
      · cases h
      · next hserved => exact ⟨_, _, _, _, _, _, rfl, hc, Bool.eq_false_iff.mpr hserved, h⟩
    · cases h
  · cases h

/-- No document of a namespace is left when its removal was served. -/
theorem stocked_of_removed? (hvalid : t.store.config.validate = .ok ()) (hfits : t.Fits)
    (h : t.removed? move = some ns) : Stocked (· = ns) [] (t.step move) where
  genuine := fun ns r hr => absurd hr List.not_mem_nil
  documents := by
    intro other hother d hd
    obtain ⟨id, call, context, index, detached, again, rfl, hc, hserved, hremoves⟩ := of_removed? h
    obtain ⟨-, hasks, -⟩ := hfits id _ hc
    rcases hasks.of_removes? hremoves with ⟨again, ⟨rfl, rfl, rfl⟩⟩ | ⟨⟨⟩⟩
    have hmatch : wildcardMatches (t.index ns) (t.index ns) = true :=
      (wildcardMatches_index hvalid ns ns).mpr rfl
    have hengine : (t.step (.serve id)).engine =
        (t.engine.serve (.deleteIndices (t.index ns))).2 := by
      rw [step_serve hc rfl]
      rfl
    rw [show other = ns from hother, (t.steps _).index, hengine,
      Engine.documents_serve_delete hserved, if_pos hmatch] at hd
    cases hd

/-- When the cache is cleared it holds nothing, and no call that is under way can add to it. -/
theorem Stocked.traced {written : List (Namespace × Record)} {c₀ : Thread} {stage : Stage}
    (h : Stocked (· = ns) written t) (hfits : t.Fits) (hc₀ : t.calls[id]? = some c₀)
    (hstage : (∃ outcome, stage = .ended outcome) ∨ ∃ index, stage = .waiting (.creation index)) :
    Traced (· = ns) (t.epoch + 1) t.calls.length written
      ((t.withMemory t.store.memory.clear).place id stage) where
  genuine := h.genuine
  documents := h.documents
  since_le := Cache.epoch_lt_clear t.store.memory.cache
  held := fun s r hheld => by
    have hheld : t.store.memory.clear.cache.held? s = some r := hheld
    rw [LiveCache.clear, Cache.held?_clear] at hheld
    cases hheld
  calls := fun other c hc ns hns hreads => by
    have hearly : other < t.calls.length := by
      have hlt := (List.getElem?_eq_some_iff.mp hc).1
      rwa [place, List.length_modify] at hlt
    have hc₀ : (t.withMemory t.store.memory.clear).calls[id]? = some c₀ := hc₀
    rcases of_getElem?_place hc₀ hc with ⟨-, rfl⟩ | ⟨-, hc⟩
    · rcases hstage with ⟨outcome, rfl⟩ | ⟨index, rfl⟩
      · exact fun hlate => absurd hearly (Nat.not_lt.mpr hlate)
      · trivial
    · obtain ⟨call, context, found⟩ := c
      cases found with
      | answered await answer =>
        refine .inr ⟨hearly, fun key noted hnoted => ?_⟩
        obtain ⟨-, -, hle, -⟩ := hfits other _ hc
        exact Nat.lt_succ_of_le (hle key noted hnoted)
      | ended outcome => exact fun hlate => absurd hearly (Nat.not_lt.mpr hlate)
      | _ => trivial

/-- What was written between a removal and the clear that follows it, and what is written from
then on, is all that the store holds of the namespace. -/
theorem Stocked.run_of_clears {written : List (Namespace × Record)}
    (h : Stocked (· = ns) written t) (hfits : t.Fits)
    (hremoved : t.Reaches id ns Stage.IsRemoved) (hclears : t.Clears id) {moves : List Move}
    (hown : ∀ move ∈ moves, move.isOwn = true) :
    Traced (· = ns) (t.epoch + 1) t.calls.length (written ++ t.writes (.go id :: moves))
      (t.run (.go id :: moves)) := by
  obtain ⟨c₀, hc₀, -⟩ := hremoved
  obtain ⟨stage, hstage, hclear⟩ := hclears
  have htraced := h.traced hfits hc₀ hstage
  rw [← hclear] at htraced
  exact htraced.run (hfits.step rfl) hown

end

section
variable {start : Threads} {moves : List Move} {removal : Nat} {call : Call} {ns : Namespace}
  {reply : Reply}

/-- A removal that has returned was served, and then cleared the cache. -/
theorem exists_removal (hnew : start.calls = []) (hown : ∀ move ∈ moves, move.isOwn = true)
    (hcall : (start.run moves).call? removal = some call) (hremoves : call.removes? = some ns)
    (hdone : (start.run moves).outcome? removal = some (.ok reply)) :
    ∃ before between rest,
      moves = before ++ .serve removal :: (between ++ .go removal :: rest) ∧
      (start.run before).removed? (.serve removal) = some ns ∧
      (start.run (before ++ .serve removal :: between)).Reaches removal ns Stage.IsRemoved ∧
      (start.run (before ++ .serve removal :: between)).Clears removal := by
  have hfits : start.Fits := fun id c hc => by rw [hnew] at hc; cases hc
  have hnone : ∀ P, ¬start.Reaches removal ns P := fun P h => by
    obtain ⟨c, hc, -⟩ := h
    rw [hnew] at hc
    cases hc
  obtain ⟨context, hc⟩ := exists_of_outcome? hcall hdone
  obtain ⟨a, clear, rest, rfl, ha, hclear⟩ := exists_turn (Reaches · removal ns Stage.IsCleared)
    (hnone _) ⟨_, hc, hremoves, trivial⟩
  have howna : ∀ move ∈ a, move.isOwn = true := fun move hmem =>
    hown move (List.mem_append_left _ hmem)
  obtain ⟨rfl, hremoved, hclears⟩ := clears_of_reaches (hfits.run howna) ha hclear
  obtain ⟨before, serve, between, rfl, hbefore, hserve⟩ :=
    exists_turn (Reaches · removal ns Stage.IsRemoved) (hnone _) hremoved
  obtain ⟨rfl, hserves⟩ := removes_of_reaches
    (hfits.run fun move hmem => howna move (List.mem_append_left _ hmem)) hbefore hserve
  exact ⟨before, between, rest, by simp, hserves, hremoved, hclears⟩

/-- Once a call has removed a namespace and has returned, calls that begin later read from
that namespace only what was written since the engine served the removal, whatever calls
were under way at the time, and whatever the engine and the cache held at the start. -/
theorem no_resurrection (hvalid : start.store.config.validate = .ok ())
    (hnew : start.calls = []) (hown : ∀ move ∈ moves, move.isOwn = true)
    (hcall : (start.run moves).call? removal = some call) (hremoves : call.removes? = some ns)
    (hdone : (start.run moves).outcome? removal = some (.ok reply)) :
    ∃ before after, moves = before ++ .serve removal :: after ∧
      (start.run before).removed? (.serve removal) = some ns ∧
      ∀ later : List Move, (∀ move ∈ later, move.isOwn = true) →
        ∀ reader read, (start.run moves).calls.length ≤ reader →
          (start.run (moves ++ later)).call? reader = some read → read.reads? = some ns →
          ∀ r ∈ (start.run (moves ++ later)).returned reader,
            (ns, r) ∈ ((start.run before).step (.serve removal)).writes (after ++ later) := by
  obtain ⟨before, between, rest, rfl, hserves, hremoved, hclears⟩ :=
    exists_removal hnew hown hcall hremoves hdone
  refine ⟨before, between ++ .go removal :: rest, rfl, hserves, ?_⟩
  intro later hownlater reader read hlate hread hreads r hr
  simp only [List.forall_mem_append, List.forall_mem_cons] at hown
  obtain ⟨hownbefore, -, hownbetween, -, hownrest⟩ := hown
  have hbefore : (start.run before).Fits :=
    Fits.run (fun id c hc => by rw [hnew] at hc; cases hc) hownbefore
  -- from the removal to the clear the documents are later writes
  have hserved : ((start.run before).step (.serve removal)).Fits := hbefore.step rfl
  have hstocked := (stocked_of_removed? (by rwa [config_run]) hbefore hserves).run hserved hownbetween
  -- from the clear on all that the store holds is
  have hrun : start.run (before ++ .serve removal :: between) =
      ((start.run before).step (.serve removal)).run between := by
    rw [run_append, run]
  rw [hrun] at hremoved hclears
  have htraced := hstocked.run_of_clears (hserved.run hownbetween) hremoved hclears
    (List.forall_mem_append.mpr ⟨hownrest, hownlater⟩)
  have hend : ∀ moves, start.run (before ++ .serve removal :: (between ++ .go removal :: moves)) =
      (((start.run before).step (.serve removal)).run between).run (.go removal :: moves) :=
    fun moves => by rw [run_append, run, run_append]
  rw [List.append_assoc, List.cons_append, List.append_assoc, List.cons_append, hend] at hread hr
  rw [hend] at hlate
  rw [List.append_assoc, List.cons_append, writes_append]
  exact (htraced.backed_of_returned hread hreads rfl
    (Nat.le_trans (length_le_run _ (.go removal :: rest)) hlate) hr).1

end

/-- A read is served before a removal and goes on after it; a later read finds what another put
has written in the meantime. -/
theorem no_resurrection_of_race :
    let ns : Namespace := ⟨"a", by decide, by decide⟩
    let context : Context := ⟨⟨[0]⟩, none⟩
    let begins : List Move :=
      [.begin context (.put ns "c" "p" "k" "old"), .begin context (.get ns "c" "p"),
       .begin context (.delete ns false), .begin context (.put ns "c" "p" "k" "new")]
    let moves : List Move := begins ++
      [.go 0, .serve 0, .go 0, .go 1, .go 1, .go 1, .serve 1, .go 2, .serve 2, .go 2]
    let later : List Move := .begin context (.get ns "c" "p") ::
      [.go 1, .go 3, .serve 3, .go 3, .go 4, .go 4, .go 4, .serve 4, .go 4]
    let old := Record.make "c" "p" "k" "old" 7
    let new := Record.make "c" "p" "k" "new" 8
    let start := fresh .standard ⟨7, 1⟩
    (start.run (moves ++ later)).returned 1 = [old] ∧
      (start.run (moves ++ later)).returned 4 = [new] ∧
      ∃ before after, moves = before ++ .serve 2 :: after ∧
        (ns, new) ∈ ((start.run before).step (.serve 2)).writes (after ++ later) := by
  intro ns context begins moves later old new start
  have hok : ((start.run moves).outcome? 2).any (·.isOk) = true := by decide +kernel
  obtain ⟨outcome, hdone, hok⟩ := (Option.any_eq_true _ _).mp hok
  cases outcome with
  | error e => cases hok
  | ok reply =>
    have hcall : (start.run moves).call? 2 = some (.delete ns false) := by
      rw [run_append]
      exact call?_run rfl _
    have hlength : (start.run moves).calls.length = 4 := by decide +kernel
    have hread : (start.run (moves ++ later)).call? 4 = some (.get ns "c" "p") :=
      call?_begin hlength context _ _
    have hreturned : (start.run (moves ++ later)).returned 4 = [new] := by decide +kernel
    obtain ⟨before, after, hmoves, -, hwrites⟩ :=
      no_resurrection StoreConfig.validate_standard rfl (by decide) hcall rfl hdone
    refine ⟨by decide +kernel, hreturned, before, after, hmoves, ?_⟩
    refine hwrites later (by decide) 4 _ (Nat.le_of_eq hlength) hread rfl new ?_
    rw [hreturned]
    exact List.mem_singleton_self new

end Threads

end VersionStore
