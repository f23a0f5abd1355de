import VersionStore.Agenda
import VersionStore.Proofs.World.Apart
import VersionStore.Proofs.World.Failure

/-! Calls that race against their context.

Three instants decide about a call: when its token is cancelled, when its deadline comes, and
when its work is done. `Verdict` says which of them wins, and what the call ends with. Where
time never passes an instant at which the call is to be polled (`isPrompt`), a call ends as the
verdict says, or it has not ended and the instant of the verdict is still to come
(`InRace.decided`). A cancellation counts only as long as the call has not ended. -/
namespace VersionStore

/-- How a call ends that races against its context, and when. The earliest instant wins; of
equal ones the cancellation does, then the deadline. -/
inductive Verdict (cancelled deadline : Option Nat) (due : Nat) (outcome : Outcome) :
    Nat → Outcome → Prop
  | cancelled {c : Nat} (hc : cancelled = some c) (hdeadline : ∀ d, deadline = some d → c ≤ d)
    (hdue : c ≤ due) :
    Verdict cancelled deadline due outcome c (.error Error.cancelledByCaller)
  | expired {d : Nat} (hd : deadline = some d) (hcancelled : ∀ c, cancelled = some c → d < c)
    (hdue : d ≤ due) :
    Verdict cancelled deadline due outcome d (.error Error.deadlineExceeded)
  | done (hcancelled : ∀ c, cancelled = some c → due < c)
    (hdeadline : ∀ d, deadline = some d → due < d) :
    Verdict cancelled deadline due outcome due outcome

/-- An engine that has served a request to add a record to an index. -/
def Engine.append (engine : Engine) (index : String) (r : Record) : Engine :=
  {engine.insert index r.document with writes := engine.writes + 1}

/-- What comes of a write in a world: how the call ends, and the engine that it leaves. -/
def World.written (record : Record) (index : String) (w : World) : Outcome × Engine :=
  if w.engine.unavailable then (.error Engine.outage, w.engine)
  else (.ok (.record record), w.engine.append index record)

/-- What work comes to in a world, if it is over as soon as its wait is: how the call ends, and the
engine that it leaves. -/
inductive Work.Yields : Work → (World → Outcome × Engine) → Prop
  | pause (outcome : Result Json.Value) :
    Yields (.pause outcome) fun w => (outcome.map .value, w.engine)
  | write (record : Record) (index : String) :
    Yields (.request (.write record index)) (World.written record index)

namespace World

variable {w w' : World} {id : Nat} {context : Context} {event : Event} {events : List Event}
  {r : Running} {result : World → Outcome × Engine}

/-! ### Runs without delay -/

/-- Whether an event does not carry time past the instant at which a call is to be polled. -/
def keepsTime (id : Nat) (w : World) : Event → Bool
  | .advance amount => (w.running? id).all fun r => w.now + amount ≤ (Agenda.wakeup w r).due
  | _ => true

/-- Whether time never passes an instant at which a call is to be polled. -/
def isPrompt (id : Nat) (w : World) : List Event → Bool
  | [] => true
  | event :: rest => keepsTime id w event && isPrompt id (w.step event) rest

/-- When a token is cancelled in a run, if that is while a call has not ended. -/
def cancelledWhile? (id : Nat) (token : Token) (w : World) (events : List Event) : Option Nat :=
  if w.tokens.isCancelled token && (w.outcome? id).isNone then some w.now
  else
    match events with
    | [] => none
    | event :: rest => cancelledWhile? id token (w.step event) rest

/-- The last of the worlds of a run in which a call has not ended, if it ends in the run. -/
def ending? (id : Nat) (w : World) : List Event → Option World
  | [] => none
  | event :: rest =>
    if ((w.step event).outcome? id).isSome then some w else ending? id (w.step event) rest

/-- How the race of a call stands after a run, where `result` is what its work comes to in a
world. Either the call has ended as it had to, or that is still to come. -/
def Decided (id : Nat) (context : Context) (due : Nat) (result : World → Outcome) (w : World)
    (events : List Event) : Prop :=
  let cancelled := cancelledWhile? id context.token w events
  match ending? id w events with
  | some v => ∃ outcome, (w.run events).outcome? id = some outcome ∧
      Verdict cancelled context.deadline due (result v) v.now outcome
  | none =>
    let v := w.run events
    v.outcome? id = none ∧ ∃ instant outcome,
      Verdict cancelled context.deadline due (result v) instant outcome ∧ v.now ≤ instant ∧
        (v.now = instant → (v.poll id).outcome? id = some outcome)

theorem cancelledWhile?_of_over {outcome : Outcome} (h : w.Over id outcome) (token : Token)
    (events : List Event) : cancelledWhile? id token w events = none := by
  induction events generalizing w with
  | nil => simp [cancelledWhile?, h.outcome]
  | cons event rest ih =>
    unfold cancelledWhile?
    rw [h.outcome, Option.isNone_some, Bool.and_false]
    exact ih (h.step event)

/-- A token that is cancelled already is cancelled now. -/
theorem cancelledWhile?_of_cancelled {token : Token} (h : w.tokens.isCancelled token = true)
    (hnone : w.outcome? id = none) : cancelledWhile? id token w events = some w.now := by
  unfold cancelledWhile?
  simp [h, hnone]

theorem cancelledWhile?_cons_of_not_cancelled {token : Token} {rest : List Event}
    (h : w.tokens.isCancelled token = false) :
    cancelledWhile? id token w (event :: rest) = cancelledWhile? id token (w.step event) rest := by
  rw [cancelledWhile?, h]
  rfl

/-! ### A call under way -/

/-- A call is under way. -/
structure UnderWay (w : World) (r : Running) : Prop where
  begun : r.id < w.begun
  running : w.running? r.id = some r
  unfinished : w.outcome? r.id = none

theorem over_finish (hbegun : id < w.begun) (habsent : w.running? id = none)
    (hunfinished : w.outcome? id = none) (outcome : Outcome) :
    (w.finish id outcome).Over id outcome := by
  refine ⟨hbegun, habsent, ?_⟩
  rw [outcome?_finish, hunfinished, if_pos rfl]
  rfl

theorem running?_without (w : World) (id : Nat) : (w.without id).running? id = none := by
  simp [running?, without]

/-- A call that is polled after its context has ended stops. -/
theorem poll_of_ended (hr : w.running? r.id = some r) (hyields : r.work.Yields result) {e : Error}
    (he : w.ended? r.context = some e) : w.poll r.id = (w.without r.id).finish r.id (.error e) := by
  obtain ⟨id, context, wait, work⟩ := r
  unfold poll
  simp only [hr, he]
  cases hyields <;> rfl

/-- A call that is polled when its wait is over ends with what its work comes to. -/
theorem poll_of_due (hr : w.running? r.id = some r) (hyields : r.work.Yields result)
    (he : w.ended? r.context = none) (hdue : r.wait.due ≤ w.now) :
    w.poll r.id = ({w.without r.id with engine := (result w).2} : World).finish r.id (result w).1 := by
  obtain ⟨id, context, wait, work⟩ := r
  unfold poll
  simp only [hr, he, if_pos hdue, complete]
  cases hyields with
  | pause => rfl
  | write record index =>
    unfold written
    cases hunavailable : w.engine.unavailable <;>
      simp only [Engine.serve, Await.request, hunavailable] <;> rfl

/-- Polling a call that is under way does nothing, or ends it. -/
theorem UnderWay.poll_cases (h : w.UnderWay r) (hyields : r.work.Yields result) :
    (w.ended? r.context = none ∧ w.now < r.wait.due ∧ w.poll r.id = w) ∨
    (∃ e, w.ended? r.context = some e ∧ (w.poll r.id).Over r.id (.error e) ∧
      (w.poll r.id).engine = w.engine) ∨
    (w.ended? r.context = none ∧ r.wait.due ≤ w.now ∧ (w.poll r.id).Over r.id (result w).1 ∧
      (w.poll r.id).engine = (result w).2) := by
  obtain ⟨hbegun, hrunning, hunfinished⟩ := h
  have habsent := w.running?_without r.id
  cases he : w.ended? r.context with
  | some e =>
    rw [poll_of_ended hrunning hyields he]
    exact .inr (.inl ⟨e, rfl, over_finish (w := w.without r.id) hbegun habsent hunfinished _, rfl⟩)
  | none =>
    by_cases hdue : r.wait.due ≤ w.now
    · rw [poll_of_due hrunning hyields he hdue]
      have hover := over_finish (w := {w.without r.id with engine := (result w).2}) hbegun habsent
        hunfinished (result w).1
      exact .inr (.inr ⟨rfl, hdue, hover, rfl⟩)
    · refine .inl ⟨rfl, Nat.lt_of_not_le hdue, ?_⟩
      unfold poll
      simp only [hrunning, he, if_neg hdue]

theorem UnderWay.step (h : w.UnderWay r) (hpoll : event ≠ .poll r.id) :
    (w.step event).UnderWay r where
  begun := Nat.lt_of_lt_of_le h.begun (begun_le_step w event)
  running := (running?_step hpoll (Nat.ne_of_lt h.begun)).trans h.running
  unfinished := (outcome?_step hpoll (Nat.ne_of_lt h.begun)).trans h.unfinished

/-! ### The race -/

/-- A call is under way, and neither its wait nor its deadline was over in the past. -/
structure InRace (w : World) (r : Running) : Prop extends UnderWay w r where
  due : w.now ≤ r.wait.due
  deadline : ∀ d, r.context.deadline = some d → w.now ≤ d

theorem ended?_cases (w : World) (context : Context) :
    (w.tokens.isCancelled context.token = true ∧
      w.ended? context = some Error.cancelledByCaller) ∨
    (w.tokens.isCancelled context.token = false ∧ (∃ d, context.deadline = some d ∧ d ≤ w.now) ∧
      w.ended? context = some Error.deadlineExceeded) ∨
    (w.tokens.isCancelled context.token = false ∧
      (∀ d, context.deadline = some d → w.now < d) ∧ w.ended? context = none) := by
  unfold ended? Context.ended? Context.isOver
  cases hcancelled : w.tokens.isCancelled context.token with
  | true => exact .inl ⟨rfl, rfl⟩
  | false =>
    cases hdeadline : context.deadline with
    | none => exact .inr (.inr ⟨rfl, nofun, rfl⟩)
    | some d =>
      by_cases hd : d ≤ w.now
      · exact .inr (.inl ⟨rfl, ⟨d, rfl, hd⟩, by simp [hd]⟩)
      · refine .inr (.inr ⟨rfl, ?_, by simp [hd]⟩)
        rintro _ ⟨rfl⟩
        exact Nat.lt_of_not_le hd

theorem of_ended?_eq_none (h : w.ended? context = none) :
    w.tokens.isCancelled context.token = false ∧ ∀ d, context.deadline = some d → w.now < d := by
  rcases w.ended?_cases context with ⟨-, heq⟩ | ⟨-, -, heq⟩ | ⟨hcancelled, hdeadline, -⟩
  · cases heq.symm.trans h
  · cases heq.symm.trans h
  · exact ⟨hcancelled, hdeadline⟩

/-- The present, if a token is cancelled. -/
def cancelledNow? (token : Token) (w : World) : Option Nat :=
  if w.tokens.isCancelled token then some w.now else none

/-- A call whose context has ended loses its race, now. -/
theorem InRace.verdict_of_ended (h : w.InRace r) {e : Error} (he : w.ended? r.context = some e)
    (outcome : Outcome) :
    Verdict (w.cancelledNow? r.context.token) r.context.deadline r.wait.due outcome w.now
      (.error e) := by
  unfold cancelledNow?
  rcases w.ended?_cases r.context with
    ⟨hcancelled, heq⟩ | ⟨hcancelled, ⟨d, hd, hle⟩, heq⟩ | ⟨-, -, heq⟩
  all_goals
    rw [heq] at he
    cases he
  · rw [if_pos hcancelled]
    exact .cancelled rfl h.deadline h.due
  · obtain rfl : d = w.now := Nat.le_antisymm hle (h.deadline d hd)
    rw [hcancelled]
    exact .expired hd nofun h.due

/-- A call whose work is done in time wins its race, now. -/
theorem InRace.verdict_of_due (h : w.InRace r) (he : w.ended? r.context = none)
    (hdue : r.wait.due ≤ w.now) (outcome : Outcome) :
    Verdict (w.cancelledNow? r.context.token) r.context.deadline r.wait.due outcome w.now
      outcome := by
  obtain hnow : r.wait.due = w.now := Nat.le_antisymm hdue h.due
  obtain ⟨hcancelled, hdeadline⟩ := of_ended?_eq_none he
  unfold cancelledNow?
  rw [hcancelled, hnow]
  exact .done nofun hdeadline

/-- Some instant is still to come, or is now, at which the race is over. -/
theorem InRace.exists_verdict (h : w.InRace r) (hyields : r.work.Yields result) :
    ∃ instant outcome, Verdict (w.cancelledNow? r.context.token) r.context.deadline r.wait.due
        (result w).1 instant outcome ∧ w.now ≤ instant ∧
      (w.now = instant → (w.poll r.id).outcome? r.id = some outcome) := by
  rcases h.toUnderWay.poll_cases hyields with
    ⟨he, hlt, -⟩ | ⟨e, he, hover, -⟩ | ⟨he, hdue, hover, -⟩
  · obtain ⟨hcancelled, hdeadline⟩ := of_ended?_eq_none he
    have hnone : w.cancelledNow? r.context.token = none := by
      simp [cancelledNow?, hcancelled]
    rw [hnone]
    cases hd : r.context.deadline with
    | none =>
      exact ⟨_, _, .done nofun nofun, Nat.le_of_lt hlt, fun heq => absurd heq (Nat.ne_of_lt hlt)⟩
    | some d =>
      have hd := hdeadline d hd
      by_cases hle : d ≤ r.wait.due
      · exact ⟨_, _, .expired rfl nofun hle, Nat.le_of_lt hd,
          fun heq => absurd heq (Nat.ne_of_lt hd)⟩
      · refine ⟨_, _, .done nofun ?_, Nat.le_of_lt hlt, fun heq => absurd heq (Nat.ne_of_lt hlt)⟩
        rintro _ ⟨rfl⟩
        exact Nat.lt_of_not_le hle
  · exact ⟨_, _, h.verdict_of_ended he _, Nat.le_refl _, fun _ => hover.outcome⟩
  · exact ⟨_, _, h.verdict_of_due he hdue _, Nat.le_refl _, fun _ => hover.outcome⟩

/-- Time does not pass a call that is in its race, and stands still once its token is
cancelled. -/
theorem InRace.step (h : w.InRace r) (hpoll : event ≠ .poll r.id)
    (hkeeps : keepsTime r.id w event = true) :
    (w.step event).InRace r ∧
      (w.tokens.isCancelled r.context.token = true → (w.step event).now = w.now) := by
  have hunderway := h.toUnderWay.step hpoll
  by_cases hadvance : ∃ amount, event = .advance amount
  · obtain ⟨amount, rfl⟩ := hadvance
    have hnow := w.now_advance amount
    simp only [keepsTime, h.running, Option.all_some, decide_eq_true_eq, Agenda.wakeup] at hkeeps
    have hdue := h.due
    split at hkeeps
    · have hle : w.now + amount ≤ w.now := Nat.le_trans hkeeps (Nat.min_le_right ..)
      have hsame : (w.step (.advance amount)).now = w.now := by omega
      exact ⟨⟨hunderway, hsame ▸ h.due, hsame ▸ h.deadline⟩, fun _ => hsame⟩
    · next hcancelled =>
      refine ⟨⟨hunderway, ?_, ?_⟩, fun hcancelled' => absurd hcancelled' hcancelled⟩
      · have hbefore : w.now + amount ≤ r.wait.due := by
          split at hkeeps
          · exact Nat.le_trans hkeeps (Nat.min_le_left ..)
          · exact hkeeps
        omega
      · intro d hd
        rw [hd] at hkeeps
        dsimp only at hkeeps
        omega
  · have hsame := w.now_step (not_exists.mp hadvance)
    exact ⟨⟨hunderway, hsame ▸ h.due, hsame ▸ h.deadline⟩, fun _ => hsame⟩

/-! ### Runs -/

theorem cancelledWhile?_nil (token : Token) (h : w.outcome? id = none) :
    cancelledWhile? id token w [] = w.cancelledNow? token := by
  simp [cancelledWhile?, cancelledNow?, h]

/-- Where an event ends a call, only a token that was cancelled before counts. -/
theorem cancelledWhile?_of_ends {outcome : Outcome} (token : Token) (h : w.outcome? id = none)
    (hover : (w.step event).Over id outcome) (rest : List Event) :
    cancelledWhile? id token w (event :: rest) = w.cancelledNow? token := by
  have hrest := cancelledWhile?_of_over hover token rest
  rw [cancelledWhile?]
  simp only [h, hrest, Option.isNone_none, Bool.and_true, cancelledNow?]

/-- Where a call goes on, so does its race. -/
theorem Decided.cons {due : Nat} {result : World → Outcome} {rest : List Event}
    (hunfinished : w.outcome? id = none) (hunfinished' : (w.step event).outcome? id = none)
    (hnow : w.tokens.isCancelled context.token = true → (w.step event).now = w.now)
    (h : Decided id context due result (w.step event) rest) :
    Decided id context due result w (event :: rest) := by
  have hcancelled : cancelledWhile? id context.token w (event :: rest) =
      cancelledWhile? id context.token (w.step event) rest := by
    cases hcancelled : w.tokens.isCancelled context.token with
    | true =>
      rw [cancelledWhile?_of_cancelled hcancelled hunfinished,
        cancelledWhile?_of_cancelled (isCancelled_step hcancelled event) hunfinished',
        hnow hcancelled]
    | false => exact cancelledWhile?_cons_of_not_cancelled hcancelled
  unfold Decided
  rw [hcancelled, ending?, hunfinished']
  exact h

/-- Where an event ends a call, its race is over. -/
theorem Decided.of_ends {due : Nat} {result : World → Outcome} {outcome : Outcome}
    (hunfinished : w.outcome? id = none) (hover : (w.step event).Over id outcome)
    (hverdict : Verdict (w.cancelledNow? context.token) context.deadline due (result w) w.now
      outcome) (rest : List Event) : Decided id context due result w (event :: rest) := by
  unfold Decided
  rw [cancelledWhile?_of_ends _ hunfinished hover, ending?, hover.outcome]
  exact ⟨outcome, (hover.run rest).outcome, hverdict⟩

/-- A call in its race ends as it has to. -/
theorem InRace.decided (h : w.InRace r) (hyields : r.work.Yields result)
    (hprompt : isPrompt r.id w events = true) :
    Decided r.id r.context r.wait.due (fun v => (result v).1) w events := by
  induction events generalizing w with
  | nil =>
    unfold Decided
    rw [cancelledWhile?_nil _ h.unfinished]
    exact ⟨h.unfinished, h.exists_verdict hyields⟩
  | cons event rest ih =>
    obtain ⟨hkeeps, hrest⟩ := Bool.and_eq_true_iff.mp hprompt
    by_cases hpoll : event = .poll r.id
    · subst hpoll
      have hstep : w.step (.poll r.id) = w.poll r.id := rfl
      rw [hstep] at hrest
      rcases h.toUnderWay.poll_cases hyields with
        ⟨-, -, hself⟩ | ⟨e, he, hover, -⟩ | ⟨he, hdue, hover, -⟩
      · rw [hself] at hrest hstep
        refine .cons h.unfinished ?_ (fun _ => ?_) ?_ <;> rw [hstep]
        · exact h.unfinished
        · exact ih h hrest
      · rw [← hstep] at hover
        exact .of_ends h.unfinished hover (h.verdict_of_ended he _) rest
      · rw [← hstep] at hover
        exact .of_ends h.unfinished hover (h.verdict_of_due he hdue _) rest
    · obtain ⟨hstep, hnow⟩ := h.step hpoll hkeeps
      exact .cons h.unfinished hstep.unfinished hnow (ih hstep hrest)

end World

end VersionStore
