import VersionStore.Proofs.Engine
import VersionStore.Store.Sequential

/-! Removing a namespace again.

Removing a namespace takes one request or, if its index is to be made again, two, and each
of them may go unserved. Whatever such attempts left, one that succeeds leaves the engine
as it would have on the engine before all of them (`removal_reruns`): every index but that
of the namespace stays as it was, and that one is gone or empty. This is so because an
attempt, wherever it stops, changes nothing but that index (`Removes.without_eq`). -/
namespace VersionStore

/-! ### What a removal is to leave -/

namespace Engine

/-- An engine that does not have an index, and is otherwise the same. -/
def without (engine : Engine) (index : String) : Engine :=
  {engine with indices := engine.indices.filter (·.1 != index)}

/-- An engine that has an empty index, and is otherwise the same. -/
def emptied (engine : Engine) (index : String) : Engine := (engine.without index).create index

variable (engine : Engine) (index : String)

theorem get?_without (name : String) :
    (engine.without index).indices.get? name =
      if name = index then none else engine.indices.get? name := by
  unfold without
  rw [Table.get?_filter (· != index)]
  by_cases h : name = index <;> simp [h]

theorem get?_emptied (name : String) :
    (engine.emptied index).indices.get? name =
      if name = index then some [] else engine.indices.get? name := by
  unfold emptied create Table.update
  rw [Table.get?_put, get?_without, get?_without]
  by_cases h : name = index <;> simp [h]

theorem without_of_absent {engine : Engine} {index : String}
    (h : engine.indices.get? index = none) : engine.without index = engine := by
  unfold without
  rw [Table.filter_ne_of_get?_eq_none h]

/-- Removing a namespace removes its index, and that is all. -/
theorem delete_index {store : Store} (hvalid : store.config.validate = .ok ()) (ns : Namespace)
    (engine : Engine) : engine.delete (store.index ns) = engine.without (store.index ns) :=
  delete_indexName hvalid ns engine

@[simp] theorem without_without :
    (engine.without index).without index = engine.without index :=
  without_of_absent (by rw [get?_without, if_pos rfl])

@[simp] theorem without_emptied :
    (engine.emptied index).without index = engine.without index := by
  have hput : ((engine.emptied index).indices.filter (·.1 != index)) =
      (engine.without index).indices.filter (·.1 != index) := Table.filter_ne_put ..
  calc (engine.emptied index).without index = (engine.without index).without index := by
        unfold without at hput ⊢
        exact congrArg (fun indices => {engine with indices := indices}) hput
    _ = engine.without index := engine.without_without index

end Engine

/-! ### Attempts -/

/-- Serves a request, unless it is the turn of a failure. Each request takes one turn; after the
last turn nothing fails by itself. -/
def Engine.serveUnless (request : Request) (s : Engine × List (Option Error)) :
    Result request.Answer × Engine × List (Option Error) :=
  match s.2.head?.join with
  | some e => (.error e, s.1, s.2.tail)
  | none => ((s.1.serve request).1, (s.1.serve request).2, s.2.tail)

/-- An attempt at removing a namespace. -/
structure Attempt where
  /-- Whether the index is to be made again. -/
  again : Bool
  /-- Whether the cache is left alone. -/
  detached : Bool := false
  /-- How its requests fail, in turn. -/
  failures : List (Option Error) := []

namespace Attempt

def call (attempt : Attempt) (ns : Namespace) : Call :=
  if attempt.again then .reset ns attempt.detached else .delete ns attempt.detached

/-- Whether no failure says that there is no index to remove, which would pass for a removal. -/
def IsFair (attempt : Attempt) : Prop := ∀ e, some e ∈ attempt.failures → e.kind ≠ .index

/-- What the engine is to be after an attempt that succeeds. -/
def target (attempt : Attempt) (index : String) (engine : Engine) : Engine :=
  if attempt.again then engine.emptied index else engine.without index

/-- Carries out an attempt: how it ends, and what the store and the engine are then. -/
def carryOut (attempt : Attempt) (ns : Namespace) (store : Store) (engine : Engine) :
    Outcome × Store × Engine :=
  let (outcome, store, engine, _) :=
    store.perform Engine.serveUnless (attempt.call ns) (engine, attempt.failures)
  (outcome, store, engine)

/-- The store and the engine after some attempts, one after the other. -/
def carryOutAll (ns : Namespace) (store : Store) (engine : Engine) :
    List Attempt → Store × Engine
  | [] => (store, engine)
  | attempt :: rest =>
    let result := attempt.carryOut ns store engine
    carryOutAll ns result.2.1 result.2.2 rest

/-- What can become of an attempt: it fails at its first request or at its second, for which
there is a cause, or it succeeds. -/
inductive Removes (attempt : Attempt) (index : String) (store : Store) (engine : Engine) :
    Outcome × Store × Engine → Prop
  | fails (e : Error) (hcause : engine.unavailable = true ∨ attempt.failures ≠ []) :
    Removes attempt index store engine (.error e, store, engine)
  | halts (e : Error) (hcause : engine.unavailable = true ∨ attempt.failures ≠ []) :
    Removes attempt index store engine
      (.error e, (store.afterRemoval index attempt.detached true).2, engine.without index)
  | succeeds :
    Removes attempt index store engine
      (.ok .done, (store.afterRemoval index attempt.detached attempt.again).2,
        attempt.target index engine)

end Attempt

/-- A request fails, for which there is a cause, or the engine serves it. -/
theorem Engine.serveUnless_cases (request : Request) (engine : Engine)
    (failures : List (Option Error)) :
    (∃ e, (some e ∈ failures ∨ e = outage) ∧ (engine.unavailable = true ∨ failures ≠ []) ∧
      serveUnless request (engine, failures) = (.error e, engine, failures.tail)) ∨
      (engine.unavailable = false ∧ serveUnless request (engine, failures) =
        ((engine.serve request).1, (engine.serve request).2, failures.tail)) := by
  cases hturn : failures.head?.join with
  | some e =>
    have hmem : some e ∈ failures := List.mem_of_head? (Option.join_eq_some_iff.mp hturn)
    refine .inl ⟨e, .inl hmem, .inr (List.ne_nil_of_mem hmem), ?_⟩
    simp only [serveUnless, hturn]
  | none =>
    cases hunavailable : engine.unavailable with
    | true =>
      refine .inl ⟨outage, .inr rfl, .inl rfl, ?_⟩
      simp only [serveUnless, hturn, serve_of_unavailable hunavailable]
    | false => exact .inr ⟨rfl, by simp only [serveUnless, hturn]⟩

namespace Attempt

variable {attempt : Attempt} {store : Store} {engine : Engine} {ns : Namespace}

theorem removes (hvalid : store.config.validate = .ok ()) (hfair : attempt.IsFair) :
    Removes attempt (store.index ns) store engine (attempt.carryOut ns store engine) := by
  obtain ⟨again, detached, failures⟩ := attempt
  have hstart : store.start none (call ⟨again, detached, failures⟩ ns) =
      (.waits (.removal (store.index ns) detached again), store) := by
    cases again <;> rfl
  unfold carryOut
  rcases Engine.serveUnless_cases (.deleteIndices (store.index ns)) engine failures with
    ⟨e, hmem, hcause, hserve⟩ | ⟨hserved, hserve⟩
  · have hkind : e.kind ≠ .index := by
      rcases hmem with hmem | rfl
      · exact hfair e hmem
      · decide
    have hresume : store.resume (.removal (store.index ns) detached again) (.error e) =
        (.ended (.error e), store) := by
      rcases store.resume_removal (store.index ns) detached again (.error e) with
        ⟨-, hindex⟩ | ⟨_, ⟨rfl⟩, hresume⟩
      · exact absurd (hindex e rfl) hkind
      · exact hresume
    rw [Store.perform_of_ends hstart hserve hresume]
    exact .fails e hcause
  · have hdelete : engine.serve (.deleteIndices (store.index ns)) =
        (.ok (), engine.without (store.index ns)) := by
      rw [← Engine.delete_index hvalid ns engine]
      simp only [Engine.serve, hserved]
      rfl
    rw [hdelete] at hserve
    cases again with
    | false =>
      rw [Store.perform_of_ends hstart hserve rfl]
      exact .succeeds
    | true =>
      rcases Engine.serveUnless_cases (.createIndex (store.index ns))
        (engine.without (store.index ns)) failures.tail with
        ⟨e, -, hcause, hmake⟩ | ⟨hserved, hmake⟩
      · rw [Store.perform_of_creates hstart hserve rfl hmake]
        refine .halts e (hcause.imp_right ?_)
        rintro htail rfl
        exact htail rfl
      · have hcreate : (engine.without (store.index ns)).serve (.createIndex (store.index ns)) =
            (.ok (), engine.emptied (store.index ns)) := by
          simp only [Engine.serve, hserved]
          rfl
        rw [hcreate] at hmake
        rw [Store.perform_of_creates hstart hserve rfl hmake]
        exact .succeeds

section
variable {index : String} {result : Outcome × Store × Engine}

/-- An attempt changes nothing but the index that it is about. -/
theorem Removes.without_eq (h : Removes attempt index store engine result) :
    result.2.2.without index = engine.without index := by
  cases h with
  | fails => rfl
  | halts => exact engine.without_without index
  | succeeds =>
    show (attempt.target index engine).without index = _
    unfold target
    split
    · exact engine.without_emptied index
    · exact engine.without_without index

theorem Removes.config_eq (h : Removes attempt index store engine result) :
    result.2.1.config = store.config := by
  cases h with
  | fails => rfl
  | halts => exact (Store.recedes_afterRemoval index _ true store).config
  | succeeds => exact (Store.recedes_afterRemoval index _ attempt.again store).config

/-- An attempt succeeds for whose failure there is no cause. -/
theorem Removes.outcome_eq (h : Removes attempt index store engine result)
    (hserved : engine.unavailable = false) (hnone : attempt.failures = []) :
    result.1 = .ok .done := by
  cases h with
  | fails e hcause | halts e hcause =>
    rcases hcause with hcause | hcause
    · exact absurd (hcause.symm.trans hserved) nofun
    · exact absurd hnone hcause
  | succeeds => rfl

/-- What an attempt leaves that succeeds. -/
theorem Removes.of_ok (h : Removes attempt index store engine result)
    (hok : result.1 = .ok .done) :
    result.2.2 = attempt.target index engine ∧
      (attempt.detached = false → result.2.1.memory.cache.generation = none) := by
  cases h with
  | fails | halts => cases hok
  | succeeds =>
    refine ⟨rfl, fun hattached => ?_⟩
    rw [hattached]
    exact Cache.generation_flush _

end

theorem without_carryOutAll (hvalid : store.config.validate = .ok ()) {attempts : List Attempt}
    (hfair : ∀ attempt ∈ attempts, attempt.IsFair) :
    let later := carryOutAll ns store engine attempts
    later.1.config = store.config ∧
      later.2.without (store.index ns) = engine.without (store.index ns) := by
  induction attempts generalizing store engine with
  | nil => exact ⟨rfl, rfl⟩
  | cons attempt rest ih =>
    obtain ⟨hfirst, hrest⟩ := List.forall_mem_cons.mp hfair
    have hremoves : Removes attempt (store.index ns) store engine
        (attempt.carryOut ns store engine) := removes hvalid hfirst
    have hconfig := hremoves.config_eq
    obtain ⟨hlater, hengine⟩ := ih (hconfig ▸ hvalid) hrest
    rw [Store.index_of_config hconfig] at hengine
    exact ⟨hlater.trans hconfig, hengine.trans hremoves.without_eq⟩

/-- What an attempt is to leave does not depend on the index that it is about. -/
theorem target_without (attempt : Attempt) (index : String) (engine : Engine) :
    attempt.target index (engine.without index) = attempt.target index engine := by
  unfold target Engine.emptied
  rw [Engine.without_without]

end Attempt

/-- **Removing a namespace, again and again.** Whatever was attempted before, and however that
failed, an attempt to remove a namespace changes no index but that of the namespace. If the
engine is available and nothing fails the attempt succeeds. If it succeeds the engine is as it
was before all attempts, save that the index is gone or, if it is made again, empty; and the
cache is empty, if it is attached. The index of no other namespace goes with it, and where there
was no such index nothing changes at all. -/
theorem Store.removal_reruns {store : Store} (hvalid : store.config.validate = .ok ())
    (ns : Namespace) (engine : Engine) :
    let index := store.index ns
    (∀ name, (engine.without index).indices.get? name =
      if name = index then none else engine.indices.get? name) ∧
    (∀ name, (engine.emptied index).indices.get? name =
      if name = index then some [] else engine.indices.get? name) ∧
    (∀ other, other ≠ ns → store.index other ≠ index) ∧
    (engine.indices.get? index = none → engine.without index = engine) ∧
    ∀ (attempts : List Attempt) (last : Attempt), (∀ attempt ∈ attempts, attempt.IsFair) →
      last.IsFair →
      let before := Attempt.carryOutAll ns store engine attempts
      let result := last.carryOut ns before.1 before.2
      result.2.2.without index = engine.without index ∧
      (engine.unavailable = false → last.failures = [] → result.1 = .ok .done) ∧
      (result.1 = .ok .done → result.2.2 = last.target index engine ∧
        (last.detached = false → result.2.1.memory.cache.generation = none)) := by
  intro index
  refine ⟨engine.get?_without index, engine.get?_emptied index,
    fun other => mt Namespace.indexName_inj.mp, Engine.without_of_absent, ?_⟩
  intro attempts last hfair hlast before result
  obtain ⟨hconfig, hbefore⟩ : before.1.config = store.config ∧
      before.2.without index = engine.without index := Attempt.without_carryOutAll hvalid hfair
  have hremoves : last.Removes index before.1 before.2 result := by
    have hindex : before.1.index ns = index := congrFun (Store.index_of_config hconfig) ns
    rw [← hindex]
    exact Attempt.removes (hconfig ▸ hvalid) hlast
  have hunavailable : (before.2.without index).unavailable = (engine.without index).unavailable :=
    congrArg _ hbefore
  refine ⟨hremoves.without_eq.trans hbefore,
    fun hserved => hremoves.outcome_eq (hunavailable.trans hserved), fun hok => ?_⟩
  obtain ⟨hengine, hcache⟩ := hremoves.of_ok hok
  refine ⟨?_, hcache⟩
  calc result.2.2 = last.target index before.2 := hengine
    _ = last.target index (before.2.without index) := (last.target_without index _).symm
    _ = last.target index (engine.without index) := by rw [hbefore]
    _ = last.target index engine := last.target_without index engine

/-- A reset that made no index, a removal, and a reset that succeeds: of three indices whose names
begin alike the one is emptied. -/
theorem Store.removal_reruns_of_halted :
    let ns : Namespace := ⟨"org1", by decide, by decide⟩
    let store : Store := ⟨.standard, {
      cache := (Cache.make second).store 0 0 "key" (Record.make "c" "p" "k" "old" 1)
      clock := ⟨0, 0⟩ }⟩
    let engine : Engine :=
      {indices := [("org10_datastore", [.string "a"]), ("org1_datastore", [.string "b"]),
        ("org1_datastore_datastore", [.string "c"])]}
    let attempts : List Attempt :=
      [{again := true, failures := [none, some Engine.outage]}, {again := false}]
    let before := Attempt.carryOutAll ns store engine attempts
    let result := Attempt.carryOut {again := true} ns before.1 before.2
    let sizes := fun entry : String × List Json.Value => (entry.1, entry.2.length)
    (Attempt.carryOutAll ns store engine (attempts.take 1)).2.indices.keys =
      ["org10_datastore", "org1_datastore_datastore"] ∧
    result.1 = .ok .done ∧
    result.2.2.indices.map sizes =
      [("org10_datastore", 1), ("org1_datastore", 0), ("org1_datastore_datastore", 1)] ∧
    result.2.1.memory.cache.generation = none := by
  intro ns store engine attempts before result sizes
  have hfair : ∀ attempt ∈ attempts, attempt.IsFair := by
    intro attempt hattempt e he
    simp only [attempts, List.mem_cons, List.not_mem_nil, or_false] at hattempt
    rcases hattempt with rfl | rfl
    · obtain rfl : e = Engine.outage := by simpa using he
      decide
    · cases he
  obtain ⟨-, -, -, -, hreruns⟩ := @removal_reruns store StoreConfig.validate_standard ns engine
  obtain ⟨-, hsucceeds, hleaves⟩ := hreruns attempts {again := true} hfair nofun
  have hok : result.1 = .ok .done := hsucceeds rfl rfl
  obtain ⟨hengine, hcache⟩ := hleaves hok
  refine ⟨by decide +kernel, hok, ?_, hcache rfl⟩
  have hemptied : (engine.emptied (store.index ns)).indices.map sizes =
      [("org10_datastore", 1), ("org1_datastore", 0), ("org1_datastore_datastore", 1)] := by
    decide +kernel
  exact (congrArg (fun engine : Engine => engine.indices.map sizes) hengine).trans hemptied

end VersionStore
