import VersionStore.Proofs.Cache.Schedule
import VersionStore.Proofs.Threads.Step

/-! What one move does to the cache.

Most moves leave the cache alone. The others do one thing to it: a read asks it for a key
or stores what it found, a removal clears it, a timer fires (`touched`). That is all that
proofs about what the cache holds in the course of time have to look at; which call makes
the move, and at which stage, they need not know. -/
namespace VersionStore

/-- What a call at a stage stores in the cache as it goes on, with the key: the newest version
that it found, unless something was dropped since it noted the epoch. -/
def Store.stored? (store : Store) : Stage → Option (CacheKey × Record)
  | .answered (.latest key _ _ epoch) (.ok documents) =>
    match decodeAll documents with
    | .ok (r :: _) =>
      if store.config.caching && (store.memory.storeUnless key.encode r epoch).1 then some (key, r)
      else none
    | _ => none
  | _ => none

/-- Whether a call at a stage clears the cache as it goes on: it removed an index, or found that
there was none. -/
def Stage.clearsCache : Stage → Bool
  | .answered (.removal _ false _) (.ok _) => true
  | .answered (.removal _ false _) (.error (.storage (.indexMissing _))) => true
  | _ => false

namespace LiveCache

/-- What a move can do to a cache, which calls use or not (`caching`): whether it clears the cache,
what it stores there, and the cache after it. -/
inductive Touched (live : LiveCache Record) (caching : Bool) :
    Bool → Option (CacheKey × Record) → LiveCache Record → Prop where
  | spared {later : LiveCache Record} (hcache : later.cache = live.cache)
    (htimers : later.timers = live.timers) : Touched live caching false none later
  | asked (key : CacheKey) (hcaching : caching = true) :
    Touched live caching false none (live.get key.encode).2
  | stored (key : CacheKey) (r : Record) (hcaching : caching = true) :
    Touched live caching false (some (key, r)) (live.store key.encode r)
  | cleared : Touched live caching true none live.clear
  | fired (number : Nat) : Touched live caching false none (live.fire number)

end LiveCache

namespace Store

theorem touched_lookUp (read : LatestRead) (store : Store) :
    store.memory.Touched store.config.caching false none (store.lookUp read).2.memory := by
  unfold lookUp
  split
  · next h => exact .asked read.key (Bool.and_eq_true_iff.mp h).1
  · exact .spared rfl rfl

theorem touched_keep (key : CacheKey) (r : Record) (epoch : Nat) (store : Store) :
    store.memory.Touched store.config.caching false
      (if store.config.caching && (store.memory.storeUnless key.encode r epoch).1 then some (key, r)
        else none)
      (store.keep key r epoch).memory := by
  unfold keep LiveCache.storeUnless
  by_cases hcaching : store.config.caching = true
  · by_cases hepoch : epoch = store.memory.cache.epoch
    · simp only [hcaching, hepoch, if_true, Bool.and_self]
      exact .stored key r rfl
    · simp only [hcaching, hepoch, if_true, if_false, Bool.and_false, Bool.false_eq_true]
      exact .spared rfl rfl
  · simp only [hcaching, Bool.false_and, Bool.false_eq_true, if_false]
    exact .spared rfl rfl

/-- What becomes of the cache when a call goes on with its answer. -/
theorem touched_resume (store : Store) (await : Await) (answer : Result await.request.Answer) :
    store.memory.Touched store.config.caching (Stage.answered await answer).clearsCache
      (store.stored? (.answered await answer)) (store.resume await answer).2.memory := by
  cases await with
  | latest key query index epoch =>
    cases answer with
    | error e => exact .spared rfl rfl
    | ok documents =>
      simp only [stored?, resume]
      rcases decodeAll documents with e | _ | ⟨r, rest⟩
      · exact .spared rfl rfl
      · exact .spared rfl rfl
      · exact touched_keep key r epoch store
  | version ns identifier timestamp query index =>
    cases answer with
    | error e => exact .spared rfl rfl
    | ok documents =>
      simp only [resume]
      rcases decodeAll documents with e | _ | ⟨r, rest⟩ <;> exact .spared rfl rfl
  | removal index detached again =>
    cases detached with
    | true =>
      rcases resume_removal store index true again answer with ⟨h, -⟩ | ⟨e, rfl, h⟩ <;> rw [h] <;>
        exact .spared rfl rfl
    | false =>
      -- that there was no index is as good as having removed it
      cases answer with
      | ok done => exact .cleared
      | error e =>
        cases e with
        | storage cause =>
          cases cause with
          | indexMissing name => exact .cleared
          | _ => exact .spared rfl rfl
        | _ => exact .spared rfl rfl
  | write | versions | creation | listing | direct => cases answer <;> exact .spared rfl rfl

/-- What becomes of the cache when a call goes on. -/
theorem touched_proceed (ended : Option Error) (call : Call) (store : Store) (stage : Stage) :
    store.memory.Touched store.config.caching stage.clearsCache (store.stored? stage)
      (store.proceed ended call stage).2.memory := by
  cases stage with
  | called =>
    have haccepts := accepts_accept call store
    simp only [proceed]
    generalize store.accept call = accepted at haccepts
    cases haccepts with
    | refused | waits => exact .spared rfl rfl
    | reads => cases ended <;> exact .spared rfl rfl
  | admitted read =>
    have htouched := touched_lookUp read store
    cases hfound : store.lookUp read with
    | mk found later =>
      rw [hfound] at htouched
      cases found <;> simp only [proceed, hfound] <;> exact htouched
  | answered await answer =>
    have htouched := touched_resume store await answer
    cases hresumed : store.resume await answer with
    | mk resumed later =>
      rw [hresumed] at htouched
      cases resumed <;> simp only [proceed, hresumed] <;> exact htouched
  | missed | waiting | ended => exact .spared rfl rfl

end Store

namespace Threads

theorem step_go {t : Threads} {id : Nat} {c : Thread} (hc : t.calls[id]? = some c) :
    let proceeded := t.store.proceed (c.context.ended? t.tokens t.now) c.call c.stage
    t.step (.go id) = {t with store := proceeded.2}.place id proceeded.1 := by
  show t.go id = _
  unfold go
  rw [hc]

theorem getElem?_step_go {t : Threads} {id : Nat} {c : Thread} (hc : t.calls[id]? = some c) :
    (t.step (.go id)).calls[id]? = some {c with
      stage := (t.store.proceed (c.context.ended? t.tokens t.now) c.call c.stage).1} := by
  rw [step_go hc]
  exact getElem?_place _ hc

/-- What a move stores in the cache, with the key. -/
def stored? (t : Threads) : Move → Option (CacheKey × Record)
  | .go id => t.calls[id]?.bind fun c => t.store.stored? c.stage
  | _ => none

/-- Whether a move clears the cache. -/
def clearsCache (t : Threads) : Move → Bool
  | .go id => t.calls[id]?.any (·.stage.clearsCache)
  | .clearCache => true
  | _ => false

/-- What becomes of the cache in a move. -/
theorem touched (t : Threads) (move : Move) :
    t.store.memory.Touched t.store.config.caching (t.clearsCache move) (t.stored? move)
      (t.step move).store.memory := by
  cases move with
  | go id =>
    cases hc : t.calls[id]? with
    | none =>
      simp only [step, go, clearsCache, stored?, hc]
      exact .spared rfl rfl
    | some c =>
      rw [step_go hc]
      simp only [clearsCache, stored?, hc]
      exact Store.touched_proceed ..
  | serve id =>
    show LiveCache.Touched _ _ _ _ (t.serve id).store.memory
    unfold serve
    split <;> exact .spared rfl rfl
  | stop id =>
    show LiveCache.Touched _ _ _ _ (t.stop id).store.memory
    unfold stop
    split
    · split <;> exact .spared rfl rfl
    · exact .spared rfl rfl
  | fire generation => exact .fired generation
  | clearCache => exact .cleared
  | begin | advance | cancel | setUnavailable | setClock | advanceClock | draw =>
    exact .spared rfl rfl

end Threads

namespace LiveCache

variable {live later : LiveCache Record} {caching clears : Bool}
  {stored : Option (CacheKey × Record)}

/-- Timers stay punctual, whatever is done to the cache. -/
theorem Touched.punctual (h : live.Touched caching clears stored later)
    (hpunctual : live.Punctual) : later.Punctual := by
  cases h with
  | spared hcache htimers =>
    exact hpunctual.of_recedes (hcache ▸ .refl _) fun timer ht => htimers ▸ ht
  | asked key => exact hpunctual.call (.get key.encode)
  | stored key r => exact hpunctual.call (.store key.encode r)
  | cleared => exact hpunctual.call .clear
  | fired number => exact hpunctual.fire number

/-- Where nothing is stored, nothing is in the cache that was not there before. -/
theorem Touched.recedes (h : live.Touched caching clears none later) :
    live.cache.Recedes later.cache := by
  cases h with
  | spared hcache => rw [hcache]; exact .refl _
  | asked key => exact recedes_get key.encode live
  | cleared => exact Cache.recedes_clear _
  | fired number => exact recedes_fire number live

end LiveCache

end VersionStore
