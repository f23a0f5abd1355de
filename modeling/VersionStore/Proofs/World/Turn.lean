import Mathlib.Logic.Relation
import VersionStore.Proofs.Threads.Step
import VersionStore.World

/-! What a call does when its turn comes.

A world polls a call until it has to wait. On the way the call passes through the stages
that threads give it; here its way is cut into acts, each of which touches what the calls
share once (`Acts`). A turn is a series of acts that ends where the call has ended or waits
(`Takes`). Beginning a call is a turn from its first stage (`takes_begin`), and polling it is
none at all or a turn from where it waits (`takes_poll`).

No act takes time, and none touches what belongs to other calls (`Acts.frame`). -/
namespace VersionStore

namespace World

variable {w w' : World} {id : Nat} {context : Context} {call : Call}

/-- A call in hand goes on, has its request served, or gives up its wait. -/
inductive Acts (call : Call) (context : Context) : Stage × World → Stage × World → Prop
  | goes {w : World} {stage next : Stage} {later : Store}
    (h : w.store.proceed (w.ended? context) call stage = (next, later)) :
    Acts call context (stage, w) (next, {w with store := later})
  | serves {w : World} {await : Await} (h : w.ended? context = none) :
    Acts call context (.waiting await, w)
      (.answered await (w.engine.serve await.request).1,
        {w with engine := (w.engine.serve await.request).2})
  | stops {w : World} {await : Await} {e : Error} (h : w.ended? context = some e) :
    Acts call context (.waiting await, w) (.answered await (.error e), w)

/-- What no act changes. -/
structure Frame (a b : World) : Prop where
  config : b.store.config = a.store.config
  now : b.now = a.now
  tokens : b.tokens = a.tokens
  faults : b.faults = a.faults
  begun : b.begun = a.begun
  running : b.running = a.running
  finished : b.finished = a.finished

theorem Frame.refl (w : World) : Frame w w := ⟨rfl, rfl, rfl, rfl, rfl, rfl, rfl⟩

theorem Acts.frame {a b : Stage × World} (h : Acts call context a b) : Frame a.2 b.2 := by
  cases h with
  | @goes w stage next later h =>
    have hnow := Store.now_proceed (w.ended? context) call w.store stage
    have hproceeds := Store.proceeds (w.ended? context) call w.store stage
    rw [h] at hnow hproceeds
    exact ⟨hproceeds.later.1, hnow, rfl, rfl, rfl, rfl, rfl⟩
  | serves => exact ⟨rfl, rfl, rfl, rfl, rfl, rfl, rfl⟩
  | stops => exact .refl _

/-- Where a call in hand can be left: it has ended, or it waits. -/
inductive Rests (id : Nat) (context : Context) : Stage × World → World → Prop
  | ended (outcome : Outcome) (w : World) :
    Rests id context (.ended outcome, w) (w.finish id outcome)
  | waits (await : Await) (w : World) (h : w.ended? context = none) :
    Rests id context (.waiting await, w)
      (w.suspend id context (w.now + w.latency) (.request await))

/-- Whether a call that is taken in hand at a stage can be left in a world. -/
def Takes (id : Nat) (call : Call) (context : Context) (first : Stage × World) (w' : World) :
    Prop :=
  ∃ last, Relation.ReflTransGen (Acts call context) first last ∧ Rests id context last w'

theorem Takes.of_acts {a b : Stage × World} (hab : Acts call context a b)
    (h : Takes id call context b w') : Takes id call context a w' := by
  obtain ⟨last, hacts, hrests⟩ := h
  exact ⟨last, .head hab hacts, hrests⟩

theorem Takes.of_rests {a : Stage × World} (h : Rests id context a w') :
    Takes id call context a w' := ⟨a, .refl, h⟩

/-! ### Requests -/

/-- The request of a call that waits is answered at once, or the call has to wait. -/
theorem ask_cases (hfaults : w.faults = []) (call : Call) (context : Context) (await : Await) :
    (w.ask context await.request = (none, w) ∧ w.ended? context = none) ∨
      ∃ answer later, w.ask context await.request = (some answer, later) ∧ later.faults = [] ∧
        Acts call context (.waiting await, w) (.answered await answer, later) := by
  unfold ask
  cases hended : w.ended? context with
  | some e => exact .inr ⟨_, _, rfl, hfaults, .stops hended⟩
  | none =>
    dsimp only
    split
    · next hfault =>
      rw [hfaults] at hfault
      cases hfault
    · by_cases hlatency : w.latency = 0
      · simp only [if_pos hlatency]
        exact .inr ⟨_, _, rfl, hfaults, .serves hended⟩
      · exact .inl ⟨by simp only [if_neg hlatency], rfl⟩

theorem takes_create (hfaults : w.faults = []) (index : String) :
    Takes id call context (.waiting (.creation index), w) (w.create id context index) := by
  unfold create
  rcases ask_cases hfaults call context (.creation index) with
    ⟨hask, hended⟩ | ⟨answer, later, hask, -, hacts⟩
  · have hask : w.ask context (.createIndex index) = (none, w) := hask
    rw [hask]
    exact .of_rests (.waits _ w hended)
  · have hask : w.ask context (.createIndex index) = (some answer, later) := hask
    rw [hask]
    have hproceed : later.store.proceed (later.ended? context) call
        (.answered (.creation index) answer) =
          (.ended (answer.map fun _ => .done), later.store) := by
      cases answer <;> rfl
    exact .of_acts hacts (.of_acts (.goes hproceed) (.of_rests (.ended _ _)))

theorem takes_resume (hfaults : w.faults = []) (await : Await)
    (answer : Result await.request.Answer) :
    Takes id call context (.answered await answer, w) (w.resume id context await answer) := by
  unfold resume
  cases hresume : w.store.resume await answer with
  | mk resumed store =>
    cases resumed with
    | ended outcome =>
      have hproceed : w.store.proceed (w.ended? context) call (.answered await answer) =
          (.ended outcome, store) := by simp only [Store.proceed, hresume]
      exact .of_acts (.goes hproceed) (.of_rests (.ended _ _))
    | creates index =>
      have hproceed : w.store.proceed (w.ended? context) call (.answered await answer) =
          (.waiting (.creation index), store) := by simp only [Store.proceed, hresume]
      exact .of_acts (.goes hproceed) (takes_create (w := {w with store := store}) hfaults index)

theorem takes_request (hfaults : w.faults = []) (await : Await) :
    Takes id call context (.waiting await, w) (w.request id context await) := by
  unfold request
  rcases ask_cases hfaults call context await with
    ⟨hask, hended⟩ | ⟨answer, later, hask, hfaults, hacts⟩
  · rw [hask]
    exact .of_rests (.waits _ w hended)
  · rw [hask]
    exact .of_acts hacts (takes_resume hfaults await answer)

/-! ### Turns -/

/-- A read that was admitted gets as far as it can. -/
theorem takes_startLatest (hfaults : w.faults = []) (read : LatestRead) :
    Takes id call context (.admitted read, w)
      (match w.store.startLatest none read with
      | (.ended outcome, store) => {w with store := store}.finish id outcome
      | (.waits await, store) => {w with store := store}.request id context await) := by
  unfold Store.startLatest
  cases hfound : w.store.lookUp read with
  | mk found store =>
    cases found with
    | some record =>
      have hproceed : w.store.proceed (w.ended? context) call (.admitted read) =
          (.ended (.ok (.record record)), store) := by simp only [Store.proceed, hfound]
      exact .of_acts (.goes hproceed) (.of_rests (.ended _ _))
    | none =>
      have hproceed : w.store.proceed (w.ended? context) call (.admitted read) =
          (.missed read, store) := by simp only [Store.proceed, hfound]
      -- the epoch is noted in an act of its own
      exact .of_acts (.goes hproceed) (.of_acts (.goes rfl)
        (takes_request (w := {w with store := store}) hfaults _))

/-- A call gets as far as it can. -/
theorem takes_start (hfaults : w.faults = []) :
    Takes id call context (.called, w)
      (match w.store.start (w.ended? context) call with
      | (.ended outcome, store) => {w with store := store}.finish id outcome
      | (.waits await, store) => {w with store := store}.request id context await) := by
  unfold Store.start
  cases haccept : w.store.accept call with
  | mk accepted store =>
    cases accepted with
    | ended outcome =>
      have hproceed : w.store.proceed (w.ended? context) call .called =
          (.ended outcome, store) := by simp only [Store.proceed, haccept]
      exact .of_acts (.goes hproceed) (.of_rests (.ended _ _))
    | waits await =>
      have hproceed : w.store.proceed (w.ended? context) call .called =
          (.waiting await, store) := by simp only [Store.proceed, haccept]
      exact .of_acts (.goes hproceed) (takes_request (w := {w with store := store}) hfaults await)
    | reads read =>
      cases hended : w.ended? context with
      | some e =>
        have hproceed : w.store.proceed (w.ended? context) call .called =
            (.ended (.error e), store) := by simp only [Store.proceed, haccept, hended]
        exact .of_acts (.goes hproceed) (.of_rests (.ended _ _))
      | none =>
        have hproceed : w.store.proceed (w.ended? context) call .called =
            (.admitted read, store) := by simp only [Store.proceed, haccept, hended]
        exact .of_acts (.goes hproceed)
          (takes_startLatest (w := {w with store := store}) hfaults read)

/-- A call that begins has its first turn. -/
theorem takes_begin (hfaults : w.faults = []) (context : Context) (call : Call) :
    Takes w.begun call context (.called, {w with begun := w.begun + 1}) (w.begin context call) :=
  takes_start (w := {w with begun := w.begun + 1}) hfaults

theorem poll_of_absent (h : w.running? id = none) : w.poll id = w := by
  unfold poll
  rw [h]

/-- Polling a call that waits does nothing, or it is the call's turn. -/
theorem takes_poll (hfaults : w.faults = []) {r : Running} (hr : w.running? id = some r)
    {await : Await} (hwork : r.work = .request await) :
    w.poll id = w ∨ Takes r.id call r.context
      (.waiting await, {w with running := w.running.filter (·.id != id)}) (w.poll id) := by
  have hfaults : {w with running := w.running.filter (·.id != id)}.faults = [] := hfaults
  unfold poll
  simp only [hr]
  cases hended : w.ended? r.context with
  | some e =>
    simp only [stop, hwork]
    exact .inr (.of_acts (.stops hended) (takes_resume hfaults await (.error e)))
  | none =>
    by_cases hdue : r.wait.due ≤ w.now
    · simp only [if_pos hdue, complete, hwork]
      exact .inr (.of_acts (.serves hended) (takes_resume (by exact hfaults) await _))
    · exact .inl (if_neg hdue)

end World

end VersionStore
