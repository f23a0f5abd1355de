import VersionStore.Store

/-! A store with one caller at a time.

Where no two calls overlap and the engine answers every request in its turn, a call is a
function of the store and the engine. -/
namespace VersionStore.Store

variable {σ : Type}

/-- Carries out a call over an engine that serves requests from a state of type `σ`. -/
def perform (serve : (request : Request) → σ → Result request.Answer × σ) (call : Call)
    (store : Store) (s : σ) : Outcome × Store × σ :=
  match store.start none call with
  | (.ended outcome, store) => (outcome, store, s)
  | (.waits await, store) =>
    let (answer, s) := serve await.request s
    match store.resume await answer with
    | (.ended outcome, store) => (outcome, store, s)
    | (.creates index, store) =>
      let (answer, s) := serve (.createIndex index) s
      (answer.map fun _ => .done, store, s)

section
variable {serve : (request : Request) → σ → Result request.Answer × σ} {call : Call}
  {store first later : Store} {s s' s'' : σ} {await : Await} {answer : Result await.request.Answer}

/-- What a call comes to that makes one request. -/
theorem perform_of_ends {outcome : Outcome} (hstart : store.start none call = (.waits await, first))
    (hserve : serve await.request s = (answer, s'))
    (hresume : first.resume await answer = (.ended outcome, later)) :
    store.perform serve call s = (outcome, later, s') := by
  simp only [perform, hstart, hserve, hresume]

/-- How a call ends that makes one request. -/
theorem outcome_perform {ended : Outcome} (hstart : store.start none call = (.waits await, first))
    (hserve : (serve await.request s).1 = answer)
    (hresume : first.resume await answer = (.ended ended, later)) :
    (store.perform serve call s).1 = ended :=
  congrArg Prod.fst (perform_of_ends hstart (Prod.ext hserve rfl) hresume)

/-- What a call comes to that makes an index with a second request. -/
theorem perform_of_creates {index : String} {made : Result Unit}
    (hstart : store.start none call = (.waits await, first))
    (hserve : serve await.request s = (answer, s'))
    (hresume : first.resume await answer = (.creates index, later))
    (hmake : serve (.createIndex index) s' = (made, s'')) :
    store.perform serve call s = (made.map fun _ => .done, later, s'') := by
  simp only [perform, hstart, hserve, hresume, hmake]
  rfl

end

end VersionStore.Store
