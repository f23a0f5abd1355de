import VersionStore.Proofs.Threads.Memory

/-! A store that does not cache.

Where reads are not to be cached, nobody asks the cache or stores in it, so it stays as it
was made (`unused_run`). It then makes no difference whether a read of a path may be
answered by the cache: two runs that differ in that alone keep in step, each call standing
at the same stage in both (`uncached_run`), and end alike. -/
namespace VersionStore

/-! ### The cache -/

namespace LiveCache

/-- Whether nothing was ever asked of a cache or stored in it. -/
def IsUnused (live : LiveCache Record) : Prop :=
  live.cache.generation = none ∧ live.cache.counts = {}

theorem Touched.unused {live later : LiveCache Record} {clears : Bool}
    {stored : Option (CacheKey × Record)} (h : live.Touched false clears stored later)
    (hunused : live.IsUnused) : later.IsUnused := by
  obtain ⟨hnone, hcounts⟩ := hunused
  cases h with
  | spared hcache => exact ⟨hcache ▸ hnone, hcache ▸ hcounts⟩
  | asked _ hcaching | stored _ _ hcaching => cases hcaching
  | cleared =>
    have hclear : live.cache.clear = {live.cache with epoch := live.cache.epoch + 1} := by
      simp [Cache.clear, Cache.flush, hnone]
    unfold IsUnused LiveCache.clear
    rw [hclear]
    exact ⟨hnone, hcounts⟩
  | fired number =>
    have hflush : live.cache.flushNumber number = live.cache := by simp [Cache.flushNumber, hnone]
    unfold IsUnused LiveCache.fire
    rw [hflush]
    split <;> exact ⟨hnone, hcounts⟩

end LiveCache

/-! ### Calls that do not ask the cache -/

/-- The call that asks the engine where a call for a path may ask the cache. -/
def Call.uncached : Call → Call
  | .get ns classification path => .getFresh ns classification path
  | call => call

def LatestRead.uncached (read : LatestRead) : LatestRead := {read with cached := false}

def Stage.uncached : Stage → Stage
  | .admitted read => .admitted read.uncached
  | .missed read => .missed read.uncached
  | stage => stage

def Thread.uncached (c : Thread) : Thread :=
  {c with call := c.call.uncached, stage := c.stage.uncached}

/-- A move, of calls that do not ask the cache. -/
def Move.uncached : Move → Move
  | .begin context call => .begin context call.uncached
  | move => move

theorem Call.uncached_uncached (call : Call) : call.uncached.uncached = call.uncached := by
  cases call <;> rfl

theorem Stage.uncached_uncached (stage : Stage) : stage.uncached.uncached = stage.uncached := by
  cases stage <;> rfl

theorem Thread.uncached_uncached (c : Thread) : c.uncached.uncached = c.uncached := by
  simp only [uncached, Call.uncached_uncached, Stage.uncached_uncached]

/-- Where reads are not cached, a call goes on alike whether it may ask the cache or not. -/
theorem Store.proceed_uncached {store : Store} (h : store.config.caching = false)
    (ended : Option Error) (call : Call) (stage : Stage) :
    (store.proceed ended call.uncached stage.uncached).1.uncached =
        (store.proceed ended call stage).1.uncached ∧
      (store.proceed ended call.uncached stage.uncached).2 =
        (store.proceed ended call stage).2 := by
  have hlookUp (read : LatestRead) : store.lookUp read = (none, store) := by simp [lookUp, h]
  cases stage with
  | called =>
    cases call with
    | get ns classification path =>
      have hrequired : (Call.get ns classification path).uncached.required =
          (Call.get ns classification path).required := rfl
      simp only [Stage.uncached, proceed, accept, hrequired]
      cases missing? (Call.get ns classification path).required with
      | some e => exact ⟨rfl, rfl⟩
      | none => cases ended <;> exact ⟨rfl, rfl⟩
    | _ => exact ⟨rfl, rfl⟩
  | admitted read =>
    simp [Stage.uncached, LatestRead.uncached, proceed, hlookUp]
  | _ => exact ⟨rfl, rfl⟩

namespace Threads

/-- All calls, none of which asks the cache. -/
def uncached (t : Threads) : Threads := {t with calls := t.calls.map Thread.uncached}

theorem uncached_uncached (t : Threads) : t.uncached.uncached = t.uncached := by
  simp [uncached, Thread.uncached_uncached]

theorem uncached_place (t : Threads) (id : Nat) (stage : Stage) :
    (t.place id stage).uncached = t.uncached.place id stage.uncached := by
  unfold place uncached
  congr 1
  refine List.ext_getElem? fun other => ?_
  simp only [List.getElem?_map, List.getElem?_modify]
  cases t.calls[other]? with
  | none => rfl
  | some c => by_cases hother : id = other <;> simp [hother, Thread.uncached]

theorem getElem?_uncached (t : Threads) (id : Nat) :
    t.uncached.calls[id]? = t.calls[id]?.map Thread.uncached := List.getElem?_map

/-- A move of a store that does not cache is the same whether calls ask the cache or not. -/
theorem step_uncached {t : Threads} (h : t.store.config.caching = false) (move : Move) :
    (t.uncached.step move.uncached).uncached = (t.step move).uncached := by
  have of_eq {move' : Move} (heq : t.uncached.step move' = (t.step move).uncached) :
      (t.uncached.step move').uncached = (t.step move).uncached := by
    rw [heq, uncached_uncached]
  cases move with
  | begin context call => exact of_eq (by simp [Move.uncached, step, uncached]; rfl)
  | go id =>
    cases hc : t.calls[id]? with
    | none => exact of_eq (by simp [Move.uncached, step, go, getElem?_uncached, hc])
    | some c =>
      have hc' : t.uncached.calls[id]? = some c.uncached := by rw [getElem?_uncached, hc]; rfl
      obtain ⟨hstage, hstore⟩ :=
        Store.proceed_uncached h (c.context.ended? t.tokens t.now) c.call c.stage
      show (t.uncached.step (.go id)).uncached = _
      rw [step_go hc, step_go hc', uncached_place, uncached_place, ← hstage, ← hstore]
      exact congrArg (Threads.place · id _) (uncached_uncached {t with store := _})
  | serve id =>
    refine of_eq ?_
    show t.uncached.serve id = (t.serve id).uncached
    unfold serve
    rw [getElem?_uncached]
    cases t.calls[id]? with
    | none => rfl
    | some c =>
      obtain ⟨call, context, stage⟩ := c
      cases stage with
      | waiting await =>
        exact (uncached_place {t with engine := (t.engine.serve await.request).2} id
          (.answered await (t.engine.serve await.request).1)).symm
      | _ => rfl
  | stop id =>
    refine of_eq ?_
    show t.uncached.stop id = (t.stop id).uncached
    unfold stop
    rw [getElem?_uncached]
    cases t.calls[id]? with
    | none => rfl
    | some c =>
      obtain ⟨call, context, stage⟩ := c
      cases stage with
      | waiting await =>
        simp only [Option.map_some, Thread.uncached, Stage.uncached]
        have hended : context.ended? t.uncached.tokens t.uncached.now =
          context.ended? t.tokens t.now := rfl
        rw [hended]
        cases context.ended? t.tokens t.now with
        | none => rfl
        | some e => exact (uncached_place t id (.answered await (.error e))).symm
      | _ => rfl
  | _ => exact of_eq rfl

/-- Where reads are not cached, runs that differ in no more than in which calls may ask the cache
keep in step. -/
theorem uncached_run {t s : Threads} (h : t.store.config.caching = false)
    (hstart : t.uncached = s.uncached) {moves others : List Move}
    (hmoves : moves.map Move.uncached = others.map Move.uncached) :
    (t.run moves).uncached = (s.run others).uncached := by
  induction moves generalizing t s others with
  | nil =>
    obtain rfl := List.map_eq_nil_iff.mp hmoves.symm
    exact hstart
  | cons move rest ih =>
    obtain ⟨other, others, rfl, hmove, hrest⟩ := List.map_eq_cons_iff.mp hmoves.symm
    have hstore : t.store = s.store := congrArg (·.store) hstart
    have hstep : (t.step move).uncached = (s.step other).uncached :=
      calc (t.step move).uncached
        _ = (t.uncached.step move.uncached).uncached := (step_uncached h move).symm
        _ = (s.uncached.step other.uncached).uncached := by rw [hstart, hmove]
        _ = (s.step other).uncached := step_uncached (hstore ▸ h) other
    exact ih ((t.steps move).later.1 ▸ h) hstep hrest.symm

theorem outcome?_uncached (t : Threads) (id : Nat) : t.uncached.outcome? id = t.outcome? id := by
  unfold outcome?
  rw [getElem?_uncached]
  cases t.calls[id]? with
  | none => rfl
  | some c =>
    obtain ⟨call, context, stage⟩ := c
    cases stage <;> rfl

theorem unused_run {t : Threads} (h : t.store.config.caching = false)
    (hunused : t.store.memory.IsUnused) (moves : List Move) :
    (t.run moves).store.memory.IsUnused := by
  refine (run_of_step (P := fun t => t.store.config.caching = false ∧ t.store.memory.IsUnused)
    (fun t move h => ?_) ⟨h, hunused⟩ moves).2
  obtain ⟨hcaching, hunused⟩ := h
  have htouched := t.touched move
  rw [hcaching] at htouched
  exact ⟨(t.steps move).later.1 ▸ hcaching, htouched.unused hunused⟩

end Threads

end VersionStore
