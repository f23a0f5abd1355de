import VersionStore.Proofs.World.Course

/-! What is nobody else's business.

Nothing that happens touches a call that is under way or has ended, apart from its being polled
(`running?_step`, `outcome?_step`). No event but `advance` takes time (`now_step`), and none but
`cancel` touches a token (`tokens_step`). This holds of every event: other work may take a
while, and failures may be in store. -/
namespace VersionStore.World

variable {w w' : World} {id other : Nat} {context : Context} {event : Event}

/-- Whether a call, time and tokens are as they were. -/
structure Untouched (id : Nat) (a b : World) : Prop where
  running : b.running? id = a.running? id
  outcome : b.outcome? id = a.outcome? id
  begun : b.begun = a.begun
  now : b.now = a.now
  tokens : b.tokens = a.tokens

namespace Untouched

theorem refl (id : Nat) (w : World) : Untouched id w w := ⟨rfl, rfl, rfl, rfl, rfl⟩

theorem trans {a b c : World} (hab : Untouched id a b) (hbc : Untouched id b c) :
    Untouched id a c where
  running := hbc.running.trans hab.running
  outcome := hbc.outcome.trans hab.outcome
  begun := hbc.begun.trans hab.begun
  now := hbc.now.trans hab.now
  tokens := hbc.tokens.trans hab.tokens

theorem of_store {store : Store} (h : store.memory.now = w.store.memory.now) :
    Untouched id w {w with store := store} := ⟨rfl, rfl, rfl, h, rfl⟩

end Untouched

/-! ### What calls do to one another -/

theorem untouched_finish (h : id ≠ other) (w : World) (outcome : Outcome) :
    Untouched id w (w.finish other outcome) := by
  refine ⟨rfl, ?_, rfl, rfl, rfl⟩
  rw [outcome?_finish, if_neg h, Option.or_none]

theorem untouched_suspend (h : id ≠ other) (w : World) (context : Context) (due : Nat)
    (work : Work) : Untouched id w (w.suspend other context due work) := by
  refine ⟨?_, rfl, rfl, rfl, rfl⟩
  unfold running? suspend
  simp [List.find?_append, withMemory, Time.wait, Ne.symm h]

theorem untouched_ask (id : Nat) (w : World) (context : Context) (request : Request) :
    Untouched id w (w.ask context request).2 := by
  unfold ask
  split
  · exact .refl id w
  · dsimp only
    repeat' split
    all_goals exact ⟨rfl, rfl, rfl, rfl, rfl⟩

theorem untouched_create (h : id ≠ other) (w : World) (context : Context) (index : String) :
    Untouched id w (w.create other context index) := by
  have hask := untouched_ask id w context (.createIndex index)
  unfold create
  split
  · next hasked =>
    rw [hasked] at hask
    exact hask.trans (untouched_finish h _ _)
  · next hasked =>
    rw [hasked] at hask
    exact hask.trans (untouched_suspend h ..)

theorem untouched_resume (h : id ≠ other) (w : World) (context : Context) (await : Await)
    (answer : Result await.request.Answer) :
    Untouched id w (w.resume other context await answer) := by
  have hnow := Store.now_resume w.store await answer
  unfold resume
  split
  · next hresumed =>
    rw [hresumed] at hnow
    exact (Untouched.of_store hnow).trans (untouched_finish h _ _)
  · next hresumed =>
    rw [hresumed] at hnow
    exact (Untouched.of_store hnow).trans (untouched_create h _ context _)

theorem untouched_request (h : id ≠ other) (w : World) (context : Context) (await : Await) :
    Untouched id w (w.request other context await) := by
  have hask := untouched_ask id w context await.request
  unfold request
  split
  · next hasked =>
    rw [hasked] at hask
    exact hask.trans (untouched_resume h _ context await _)
  · next hasked =>
    rw [hasked] at hask
    exact hask.trans (untouched_suspend h ..)

theorem untouched_begin (h : id ≠ w.begun) (context : Context) (call : Call) :
    Untouched id {w with begun := w.begun + 1} (w.begin context call) := by
  have hnow := Store.now_start (w.ended? context) call w.store
  have hstored {store : Store} (h : store.memory.now = w.store.memory.now) :
      Untouched id {w with begun := w.begun + 1}
        {w with store := store, begun := w.begun + 1} := ⟨rfl, rfl, rfl, h, rfl⟩
  unfold begin
  dsimp only
  split
  · next outcome later hstarted =>
    have hstarted : w.store.start (w.ended? context) call = (.ended outcome, later) := hstarted
    rw [hstarted] at hnow
    exact (hstored hnow).trans (untouched_finish h _ _)
  · next await later hstarted =>
    have hstarted : w.store.start (w.ended? context) call = (.waits await, later) := hstarted
    rw [hstarted] at hnow
    exact (hstored hnow).trans (untouched_request h _ context _)

theorem untouched_pause (h : id ≠ w.begun) (context : Context) (duration : Nat)
    (outcome : Result Json.Value) :
    Untouched id {w with begun := w.begun + 1} (w.pause context duration outcome) := by
  unfold pause
  dsimp only
  split
  · exact untouched_finish h _ _
  · split
    · exact untouched_finish h _ _
    · exact untouched_suspend h ..

theorem untouched_poll (h : id ≠ other) (w : World) : Untouched id w (w.poll other) := by
  have hrest : Untouched id w (w.without other) := by
    refine ⟨?_, rfl, rfl, rfl, rfl⟩
    unfold running? without
    rw [List.find?_filter]
    refine congrArg (List.find? · w.running) (funext fun r => ?_)
    by_cases hid : r.id = id <;> simp [hid, h]
  unfold poll
  split
  · exact .refl id w
  · next r hr =>
    have hother : r.id = other := by simpa using List.find?_some hr
    have hne : id ≠ r.id := hother ▸ h
    dsimp only
    split
    · unfold stop
      split
      · exact hrest.trans (untouched_resume hne _ _ _ _)
      · exact hrest.trans (untouched_finish hne _ _)
    · split
      · unfold complete
        split
        · refine hrest.trans (.trans ?_ (untouched_resume hne _ _ _ _))
          exact ⟨rfl, rfl, rfl, rfl, rfl⟩
        · exact hrest.trans (untouched_finish hne _ _)
      · exact .refl id w

/-! ### What events do -/

/-- An event that is not the turn of a call does nothing to it. -/
theorem untouched_step (hpoll : event ≠ .poll id) (hbegun : id ≠ w.begun)
    (hadvance : ∀ amount, event ≠ .advance amount) (hcancel : ∀ token, event ≠ .cancel token) :
    ∃ begun, w.begun ≤ begun ∧ Untouched id {w with begun := begun} (w.step event) := by
  cases event with
  | advance amount => exact absurd rfl (hadvance amount)
  | cancel token => exact absurd rfl (hcancel token)
  | begin context call => exact ⟨_, Nat.le_succ _, untouched_begin hbegun context call⟩
  | pause context duration outcome =>
    exact ⟨_, Nat.le_succ _, untouched_pause hbegun context duration outcome⟩
  | poll other =>
    have hne : id ≠ other := by
      rintro rfl
      exact hpoll rfl
    exact ⟨_, Nat.le_refl _, untouched_poll hne w⟩
  | fire generation =>
    exact ⟨_, Nat.le_refl _, rfl, rfl, rfl, LiveCache.now_fire generation w.store.memory, rfl⟩
  | insert | setUnavailable | fault | setClock | advanceClock | clearCache =>
    exact ⟨_, Nat.le_refl _, rfl, rfl, rfl, rfl, rfl⟩

theorem running?_step (hpoll : event ≠ .poll id) (hbegun : id ≠ w.begun) :
    (w.step event).running? id = w.running? id := by
  by_cases hadvance : ∃ amount, event = .advance amount
  · obtain ⟨amount, rfl⟩ := hadvance
    rfl
  by_cases hcancel : ∃ token, event = .cancel token
  · obtain ⟨token, rfl⟩ := hcancel
    rfl
  obtain ⟨_, -, h⟩ := untouched_step hpoll hbegun (not_exists.mp hadvance) (not_exists.mp hcancel)
  exact h.running

theorem outcome?_step (hpoll : event ≠ .poll id) (hbegun : id ≠ w.begun) :
    (w.step event).outcome? id = w.outcome? id := by
  by_cases hadvance : ∃ amount, event = .advance amount
  · obtain ⟨amount, rfl⟩ := hadvance
    rfl
  by_cases hcancel : ∃ token, event = .cancel token
  · obtain ⟨token, rfl⟩ := hcancel
    rfl
  obtain ⟨_, -, h⟩ := untouched_step hpoll hbegun (not_exists.mp hadvance) (not_exists.mp hcancel)
  exact h.outcome

/-- There is always a call that an event does not concern. -/
theorem exists_other (w : World) (event : Event) : ∃ id, event ≠ .poll id ∧ id ≠ w.begun := by
  cases event with
  | poll other =>
    refine ⟨w.begun + other + 1, fun heq => ?_, by omega⟩
    have := Event.poll.inj heq
    omega
  | _ => exact ⟨w.begun + 1, nofun, by omega⟩

theorem begun_le_step (w : World) (event : Event) : w.begun ≤ (w.step event).begun := by
  obtain ⟨id, hpoll, hbegun⟩ := exists_other w event
  by_cases hadvance : ∃ amount, event = .advance amount
  · obtain ⟨amount, rfl⟩ := hadvance
    exact Nat.le_refl _
  by_cases hcancel : ∃ token, event = .cancel token
  · obtain ⟨token, rfl⟩ := hcancel
    exact Nat.le_refl _
  obtain ⟨_, hle, h⟩ := untouched_step hpoll hbegun (not_exists.mp hadvance) (not_exists.mp hcancel)
  exact h.begun ▸ hle

theorem now_step (w : World) {event : Event} (h : ∀ amount, event ≠ .advance amount) :
    (w.step event).now = w.now := by
  obtain ⟨id, hpoll, hbegun⟩ := exists_other w event
  by_cases hcancel : ∃ token, event = .cancel token
  · obtain ⟨token, rfl⟩ := hcancel
    rfl
  obtain ⟨_, -, h⟩ := untouched_step hpoll hbegun h (not_exists.mp hcancel)
  exact h.now

theorem now_advance (w : World) (amount : Nat) : (w.step (.advance amount)).now = w.now + amount :=
  Nat.max_eq_right (Nat.le_add_right ..)

theorem tokens_step (w : World) {event : Event} (h : ∀ token, event ≠ .cancel token) :
    (w.step event).tokens = w.tokens := by
  obtain ⟨id, hpoll, hbegun⟩ := exists_other w event
  by_cases hadvance : ∃ amount, event = .advance amount
  · obtain ⟨amount, rfl⟩ := hadvance
    rfl
  obtain ⟨_, -, h⟩ := untouched_step hpoll hbegun (not_exists.mp hadvance) h
  exact h.tokens

/-- A token that was cancelled stays so. -/
theorem isCancelled_step {token : Token} (h : w.tokens.isCancelled token = true) (event : Event) :
    (w.step event).tokens.isCancelled token = true := by
  by_cases hcancel : ∃ token, event = .cancel token
  · obtain ⟨other, rfl⟩ := hcancel
    obtain ⟨number, hnumber, hmem⟩ := List.any_eq_true.mp h
    refine List.any_eq_true.mpr ⟨number, hnumber, ?_⟩
    simp only [List.contains_iff_mem] at hmem ⊢
    exact List.mem_append_right _ hmem
  · rw [tokens_step w (not_exists.mp hcancel)]
    exact h

/-! ### Calls that are over, and calls to come -/

/-- A call has ended, and nothing of it is under way. -/
structure Over (w : World) (id : Nat) (outcome : Outcome) : Prop where
  begun : id < w.begun
  absent : w.running? id = none
  outcome : w.outcome? id = some outcome

theorem Over.step {outcome : Outcome} (h : w.Over id outcome) (event : Event) :
    (w.step event).Over id outcome := by
  by_cases hpoll : event = .poll id
  · have hself : w.step event = w := by
      rw [hpoll]
      exact poll_of_absent h.absent
    rwa [hself]
  · have hne : id ≠ w.begun := Nat.ne_of_lt h.begun
    exact ⟨Nat.lt_of_lt_of_le h.begun (begun_le_step w event),
      (running?_step hpoll hne).trans h.absent, (outcome?_step hpoll hne).trans h.outcome⟩

theorem Over.run {outcome : Outcome} (h : w.Over id outcome) (events : List Event) :
    (w.run events).Over id outcome := by
  induction events generalizing w with
  | nil => exact h
  | cons event rest ih => exact ih (h.step event)

/-- Nothing is known of a call that has not begun. -/
def Numbered (w : World) : Prop :=
  ∀ id, w.begun ≤ id → w.running? id = none ∧ w.outcome? id = none

theorem IsNew.numbered (h : w.IsNew) : w.Numbered := by
  intro id _
  unfold running? outcome?
  rw [h.running, h.finished]
  exact ⟨rfl, rfl⟩

theorem begun_begin (w : World) (context : Context) (call : Call) :
    (w.begin context call).begun = w.begun + 1 :=
  (untouched_begin (Nat.succ_ne_self w.begun) context call).begun

theorem begun_pause (w : World) (context : Context) (duration : Nat)
    (outcome : Result Json.Value) : (w.pause context duration outcome).begun = w.begun + 1 :=
  (untouched_pause (Nat.succ_ne_self w.begun) context duration outcome).begun

theorem Numbered.step (h : w.Numbered) (event : Event) : (w.step event).Numbered := by
  intro id hid
  have hnone := h id (Nat.le_trans (begun_le_step w event) hid)
  by_cases hpoll : event = .poll id
  · have hself : w.step event = w := by
      rw [hpoll]
      exact poll_of_absent hnone.1
    rwa [hself]
  by_cases hbegun : id = w.begun
  · -- then the event begins nothing, and leaves what is under way alone
    cases event with
    | begin context call =>
      have := begun_begin w context call
      have hid : (w.begin context call).begun ≤ id := hid
      omega
    | pause context duration outcome =>
      have := begun_pause w context duration outcome
      have hid : (w.pause context duration outcome).begun ≤ id := hid
      omega
    | poll other =>
      have hne : id ≠ other := by
        rintro rfl
        exact hpoll rfl
      have huntouched := untouched_poll hne w
      exact ⟨huntouched.running.trans hnone.1, huntouched.outcome.trans hnone.2⟩
    | _ => exact hnone
  · rw [running?_step hpoll hbegun, outcome?_step hpoll hbegun]
    exact hnone

theorem Numbered.run (h : w.Numbered) (events : List Event) : (w.run events).Numbered := by
  induction events generalizing w with
  | nil => exact h
  | cons event rest ih => exact ih (h.step event)

end VersionStore.World
