import Mathlib.Data.List.Basic
import VersionStore.Proofs.World.Turn

/-! The course of a call through a run.

Between two events every call that has begun either waits or has ended (`At`). An event is
the turn of at most one call, the one that begins or is polled; apart from turns nothing is
ever stored in the cache (`Sound.steps`). A call stays where it is until its own next turn,
and that turn starts where the last one left it (`At.steps`). -/
namespace VersionStore

/-- Whether an event is one of a store over an engine that fails only by being unavailable, all
work being calls. -/
def Event.isRegular : Event → Bool
  | .pause .. | .fault .. => false
  | _ => true

namespace World

variable {w w' : World} {id : Nat} {context : Context} {call : Call} {stage : Stage}
  {event : Event}

def epoch (w : World) : Nat := w.store.memory.cache.epoch

/-! ### What holds between events -/

/-- All that is under way are calls that have begun, and each waits for what some call asks for. -/
structure Sound (w : World) : Prop where
  faults : w.faults = []
  running : ∀ r ∈ w.running, r.id < w.begun ∧ w.outcome? r.id = none
  waiting : ∀ r ∈ w.running, ∃ await call, r.work = .request await ∧
    (Stage.waiting await).Fits w.store.index w.epoch call
  finished : ∀ id outcome, (id, outcome) ∈ w.finished → id < w.begun

/-- Nothing has begun. -/
structure IsNew (w : World) : Prop where
  faults : w.faults = []
  begun : w.begun = 0
  running : w.running = []
  finished : w.finished = []

theorem IsNew.sound (h : w.IsNew) : w.Sound where
  faults := h.faults
  running := by rw [h.running]; nofun
  waiting := by rw [h.running]; nofun
  finished := by rw [h.finished]; nofun

theorem outcome?_of_finished (h : w'.finished = w.finished) (id : Nat) :
    w'.outcome? id = w.outcome? id := by
  unfold outcome?
  rw [h]

/-- A world in which less is under way, at a later epoch. -/
theorem Sound.mono (h : w.Sound) (hconfig : w'.store.config = w.store.config)
    (hepoch : w.epoch ≤ w'.epoch) (hfaults : w'.faults = w.faults) (hbegun : w.begun ≤ w'.begun)
    (hrunning : ∀ r ∈ w'.running, r ∈ w.running) (hfinished : w'.finished = w.finished) :
    w'.Sound where
  faults := hfaults.trans h.faults
  running r hr := by
    obtain ⟨hlt, hnone⟩ := h.running r (hrunning r hr)
    exact ⟨Nat.lt_of_lt_of_le hlt hbegun, (outcome?_of_finished hfinished _).trans hnone⟩
  waiting r hr := by
    obtain ⟨await, call, hwork, hfits⟩ := h.waiting r (hrunning r hr)
    have hindex : w'.store.index = w.store.index := Store.index_of_config hconfig
    exact ⟨await, call, hwork, hindex ▸ hfits.mono hepoch⟩
  finished other outcome hmem :=
    Nat.lt_of_lt_of_le (h.finished other outcome (hfinished ▸ hmem)) hbegun

/-! ### A call in hand -/

/-- A call is in hand at a stage where it may be, and nothing else of it is around. -/
structure Holds (id : Nat) (call : Call) (scene : Stage × World) : Prop where
  sound : scene.2.Sound
  begun : id < scene.2.begun
  fits : scene.1.Fits scene.2.store.index scene.2.epoch call
  absent : ∀ r ∈ scene.2.running, r.id ≠ id
  unfinished : scene.2.outcome? id = none

theorem Acts.epoch_le {a b : Stage × World} (hact : Acts call context a b) :
    a.2.epoch ≤ b.2.epoch := by
  cases hact with
  | @goes w stage next later h =>
    have hproceeds := Store.proceeds (w.ended? context) call w.store stage
    rw [h] at hproceeds
    exact hproceeds.later.2
  | serves | stops => exact Nat.le_refl _

theorem Acts.holds {a b : Stage × World} (hact : Acts call context a b) (h : Holds id call a) :
    Holds id call b := by
  have hframe := hact.frame
  obtain ⟨hsound, hbegun, hfits, habsent, hunfinished⟩ := h
  have hindex : b.2.store.index = a.2.store.index := Store.index_of_config hframe.config
  have hfits : b.1.Fits a.2.store.index b.2.epoch call := by
    cases hact with
    | @goes w stage next later h =>
      have hproceeds := Store.proceeds (w.ended? context) call w.store stage
      rw [h] at hproceeds
      exact hproceeds.fits hfits
    | serves => exact ⟨hfits.1, hfits.2, fun e he => Engine.isUnserved_of_serve he⟩
    | stops he =>
      refine ⟨hfits.1, hfits.2, ?_⟩
      rintro _ ⟨rfl⟩
      exact Context.isUnserved_of_ended? he
  have hsound : b.2.Sound :=
    hsound.mono hframe.config hact.epoch_le hframe.faults (Nat.le_of_eq hframe.begun.symm)
      (fun r hr => hframe.running ▸ hr) hframe.finished
  exact ⟨hsound, hframe.begun ▸ hbegun, hindex ▸ hfits, hframe.running ▸ habsent,
    (outcome?_of_finished hframe.finished _).trans hunfinished⟩

theorem Holds.acts {first last : Stage × World} (h : Holds id call first)
    (hacts : Relation.ReflTransGen (Acts call context) first last) : Holds id call last := by
  induction hacts with
  | refl => exact h
  | tail _ hact ih => exact hact.holds ih

/-- A call that begins is in hand. -/
theorem Sound.holds_begin (h : w.Sound) (call : Call) :
    Holds w.begun call (.called, {w with begun := w.begun + 1}) where
  sound := h.mono rfl (Nat.le_refl _) rfl (Nat.le_succ _) (fun _ hr => hr) rfl
  begun := Nat.lt_succ_self _
  fits := trivial
  absent r hr := Nat.ne_of_lt (h.running r hr).1
  unfinished := by
    refine List.lookup_eq_none_iff.mpr fun entry he => ?_
    simpa using Nat.ne_of_gt (h.finished entry.1 entry.2 he)

/-- Where a call is between events. -/
inductive At (w : World) (id : Nat) (call : Call) (context : Context) : Stage → Prop
  | waiting {await : Await} {r : Running} (hbegun : id < w.begun) (hr : r ∈ w.running)
    (hid : r.id = id)
    (honly : ∀ r ∈ w.running, r.id = id → r.context = context ∧ r.work = .request await)
    (hunfinished : w.outcome? id = none)
    (hfits : (Stage.waiting await).Fits w.store.index w.epoch call) :
    At w id call context (.waiting await)
  | ended {outcome : Outcome} (hbegun : id < w.begun) (habsent : ∀ r ∈ w.running, r.id ≠ id)
    (houtcome : w.outcome? id = some outcome) : At w id call context (.ended outcome)

theorem outcome?_finish (w : World) (id : Nat) (outcome : Outcome) (other : Nat) :
    (w.finish id outcome).outcome? other =
      (w.outcome? other).or (if other = id then some outcome else none) := by
  unfold outcome? finish
  rw [List.lookup_append]
  by_cases h : other = id <;> simp [h, List.lookup_cons, beq_eq_false_iff_ne.mpr]

/-- A call that was in hand is where it was left. -/
theorem Holds.at_of_rests {v : World} (h : Holds id call (stage, v))
    (hrests : Rests id context (stage, v) w') : w'.At id call context stage := by
  obtain ⟨hsound, hbegun, hfits, habsent, hunfinished⟩ := h
  cases hrests with
  | ended outcome =>
    refine .ended hbegun habsent ?_
    have hnone : v.outcome? id = none := hunfinished
    rw [outcome?_finish, hnone, if_pos rfl]
    rfl
  | waits await =>
    refine .waiting hbegun (List.mem_append_right _ List.mem_cons_self) rfl ?_ hunfinished hfits
    intro r hr hid
    rcases List.mem_append.mp hr with hr | hr
    · exact absurd hid (habsent r hr)
    · obtain rfl := List.mem_singleton.mp hr
      exact ⟨rfl, rfl⟩

/-- A call that was in hand leaves all as it should be. -/
theorem Holds.sound_of_rests {v : World} (h : Holds id call (stage, v))
    (hrests : Rests id context (stage, v) w') : w'.Sound := by
  obtain ⟨hsound, hbegun, hfits, habsent, hunfinished⟩ := h
  cases hrests with
  | ended outcome =>
    refine ⟨hsound.faults, fun r hr => ⟨(hsound.running r hr).1, ?_⟩, hsound.waiting,
      fun other found hmem => ?_⟩
    · rw [outcome?_finish, (hsound.running r hr).2, if_neg (habsent r hr)]
      rfl
    rcases List.mem_append.mp hmem with hmem | hmem
    · exact hsound.finished other found hmem
    · obtain ⟨rfl, rfl⟩ := Prod.mk.inj (List.mem_singleton.mp hmem)
      exact hbegun
  | waits await =>
    refine ⟨hsound.faults, fun r hr => ?_, fun r hr => ?_, hsound.finished⟩ <;>
      rcases List.mem_append.mp hr with hr | hr
    · exact hsound.running r hr
    · obtain rfl := List.mem_singleton.mp hr
      exact ⟨hbegun, hunfinished⟩
    · exact hsound.waiting r hr
    · obtain rfl := List.mem_singleton.mp hr
      exact ⟨await, call, rfl, hfits⟩

/-- What a turn makes of a call that was taken in hand. -/
def Turn (id : Nat) (call : Call) (context : Context) (first : Stage × World) (next : Stage)
    (w' : World) : Prop :=
  Holds id call first ∧ ∃ v, Relation.ReflTransGen (Acts call context) first (next, v) ∧
    Rests id context (next, v) w'

namespace Turn

variable {first : Stage × World} {next : Stage}

theorem of_takes (h : Holds id call first) (htakes : Takes id call context first w') :
    ∃ next, Turn id call context first next w' := by
  obtain ⟨⟨next, v⟩, hacts, hrests⟩ := htakes
  exact ⟨next, h, v, hacts, hrests⟩

/-- What each act keeps holds when the call is left. -/
theorem induct {P : Stage × World → Prop} (h : Turn id call context first next w')
    (hfirst : P first) (hstep : ∀ a b, Holds id call a → P a → Acts call context a b → P b) :
    ∃ v, P (next, v) ∧ Rests id context (next, v) w' := by
  obtain ⟨hholds, v, hacts, hrests⟩ := h
  refine ⟨v, ?_, hrests⟩
  clear hrests
  generalize (next, v) = last at hacts
  induction hacts with
  | refl => exact hfirst
  | tail hacts hact ih => exact hstep _ _ (hholds.acts hacts) ih hact

theorem sound (h : Turn id call context first next w') : w'.Sound := by
  obtain ⟨hholds, v, hacts, hrests⟩ := h
  exact (hholds.acts hacts).sound_of_rests hrests

theorem at_next (h : Turn id call context first next w') : w'.At id call context next := by
  obtain ⟨hholds, v, hacts, hrests⟩ := h
  exact (hholds.acts hacts).at_of_rests hrests

/-- No turn changes the settings. -/
theorem config (h : Turn id call context first next w') :
    w'.store.config = first.2.store.config := by
  obtain ⟨v, hv, hrests⟩ := h.induct (P := fun scene => scene.2.store.config = first.2.store.config)
    rfl fun _ _ _ h hact => hact.frame.config.trans h
  cases hrests <;> exact hv

end Turn

/-! ### Events -/

/-- A world without what is under way by a number. -/
def without (w : World) (id : Nat) : World := {w with running := w.running.filter (·.id != id)}

/-- A call that waits is in hand when it is polled. -/
theorem Sound.holds_poll (h : w.Sound) {r : Running} (hr : r ∈ w.running) {await : Await}
    (hfits : (Stage.waiting await).Fits w.store.index w.epoch call) :
    Holds r.id call (.waiting await, w.without r.id) where
  sound := h.mono rfl (Nat.le_refl _) rfl (Nat.le_refl _)
    (fun _ hother => (List.mem_filter.mp hother).1) rfl
  begun := (h.running r hr).1
  fits := hfits
  absent other hother := by
    obtain ⟨-, hne⟩ := List.mem_filter.mp hother
    simpa using hne
  unfinished := (h.running r hr).2

/-- What an event can be: the turn of a call, or something that concerns no call. -/
inductive Steps (w : World) : Event → World → Prop
  | begins {context : Context} {call : Call} {next : Stage} {w' : World}
    (h : Turn w.begun call context (.called, {w with begun := w.begun + 1}) next w') :
    Steps w (.begin context call) w'
  | polls {r : Running} {await : Await} {w' : World} (hr : r ∈ w.running)
    (hwork : r.work = .request await)
    (hasks : ∃ call, (Stage.waiting await).Fits w.store.index w.epoch call)
    (h : ∀ call, (Stage.waiting await).Fits w.store.index w.epoch call →
      ∃ next, Turn r.id call r.context (.waiting await, w.without r.id) next w') :
    Steps w (.poll r.id) w'
  | passes {event : Event} {w' : World} (hpoll : ∀ id, event = .poll id → w' = w)
    (hstore : w.store.Recedes w'.store)
    (hfaults : w'.faults = w.faults) (hbegun : w'.begun = w.begun)
    (hrunning : w'.running = w.running) (hfinished : w'.finished = w.finished) :
    Steps w event w'

theorem Sound.steps (h : w.Sound) (hregular : event.isRegular = true) :
    Steps w event (w.step event) := by
  cases event with
  | begin context call =>
    obtain ⟨next, hturn⟩ := Turn.of_takes (h.holds_begin call) (takes_begin h.faults context call)
    exact .begins hturn
  | poll id =>
    have hnothing : Steps w (.poll id) w :=
      .passes (fun _ _ => rfl) (.refl _) rfl rfl rfl rfl
    show Steps w (.poll id) (w.poll id)
    cases hr : w.running? id with
    | none =>
      rw [poll_of_absent hr]
      exact hnothing
    | some r =>
      obtain rfl : r.id = id := by simpa using List.find?_some hr
      have hmem : r ∈ w.running := List.mem_of_find?_eq_some hr
      obtain ⟨await, asking, hwork, hasks⟩ := h.waiting r hmem
      by_cases hpoll : w.poll r.id = w
      · rw [hpoll]
        exact hnothing
      · refine .polls hmem hwork ⟨asking, hasks⟩ fun call hfits => ?_
        exact Turn.of_takes (h.holds_poll hmem hfits)
          ((takes_poll h.faults hr hwork).resolve_left hpoll)
  | fire generation =>
    exact .passes nofun ⟨rfl, LiveCache.recedes_fire ..⟩ rfl rfl rfl rfl
  | clearCache => exact .passes nofun ⟨rfl, Cache.recedes_clear _⟩ rfl rfl rfl rfl
  | advance | cancel | insert | setUnavailable | setClock | advanceClock =>
    exact .passes nofun ⟨rfl, .refl _⟩ rfl rfl rfl rfl
  | pause | fault => cases hregular

theorem Sound.step (h : w.Sound) (hregular : event.isRegular = true) : (w.step event).Sound := by
  have hsteps := h.steps hregular
  generalize w.step event = w' at hsteps
  cases hsteps with
  | begins hturn => exact hturn.sound
  | polls _ _ hasks hturn =>
    obtain ⟨call, hfits⟩ := hasks
    obtain ⟨next, hturn⟩ := hturn call hfits
    exact hturn.sound
  | passes _ hstore hfaults hbegun hrunning hfinished =>
    exact h.mono hstore.config hstore.cache.epoch_le hfaults (Nat.le_of_eq hbegun.symm)
      (fun r hr => hrunning ▸ hr) hfinished

theorem Sound.config_step (h : w.Sound) (hregular : event.isRegular = true) :
    (w.step event).store.config = w.store.config := by
  have hsteps := h.steps hregular
  generalize w.step event = w' at hsteps
  cases hsteps with
  | begins hturn => exact hturn.config
  | polls _ _ hasks hturn =>
    obtain ⟨call, hfits⟩ := hasks
    obtain ⟨next, hturn⟩ := hturn call hfits
    exact hturn.config
  | passes _ hstore => exact hstore.config

theorem Sound.config_run (h : w.Sound) {events : List Event}
    (hregular : ∀ event ∈ events, event.isRegular = true) :
    (w.run events).store.config = w.store.config := by
  induction events generalizing w with
  | nil => rfl
  | cons event rest ih =>
    obtain ⟨hfirst, hrest⟩ := List.forall_mem_cons.mp hregular
    exact (ih (h.step hfirst) hrest).trans (h.config_step hfirst)

theorem Sound.run (h : w.Sound) {events : List Event}
    (hregular : ∀ event ∈ events, event.isRegular = true) : (w.run events).Sound := by
  induction events generalizing w with
  | nil => exact h
  | cons event rest ih =>
    obtain ⟨hfirst, hrest⟩ := List.forall_mem_cons.mp hregular
    exact ih (h.step hfirst) hrest

/-! ### A call between its turns -/

namespace At

theorem mono (h : w.At id call context stage) (hconfig : w'.store.config = w.store.config)
    (hepoch : w.epoch ≤ w'.epoch) (hbegun : w.begun ≤ w'.begun)
    (hrunning : ∀ r, r.id = id → (r ∈ w'.running ↔ r ∈ w.running))
    (houtcome : w'.outcome? id = w.outcome? id) : w'.At id call context stage := by
  cases h with
  | waiting hlt hr hid honly hunfinished hfits =>
    have hindex : w'.store.index = w.store.index := Store.index_of_config hconfig
    exact .waiting (Nat.lt_of_lt_of_le hlt hbegun) ((hrunning _ hid).mpr hr) hid
      (fun r hr hid => honly r ((hrunning r hid).mp hr) hid) (houtcome.trans hunfinished)
      (hindex ▸ hfits.mono hepoch)
  | ended hlt habsent hended =>
    exact .ended (Nat.lt_of_lt_of_le hlt hbegun)
      (fun r hr hid => habsent r ((hrunning r hid).mp hr) hid) (houtcome.trans hended)

/-- The turn of another call. -/
theorem of_turn {other : Nat} {call' : Call} {context' : Context} {first : Stage × World}
    {next : Stage} (h : first.2.At id call context stage) (hne : other ≠ id)
    (hturn : Turn other call' context' first next w') : w'.At id call context stage := by
  have hkept : ∀ a b : Stage × World, a.2.At id call context stage → Acts call' context' a b →
      b.2.At id call context stage := by
    intro a b h hact
    have hframe := hact.frame
    exact h.mono hframe.config hact.epoch_le (Nat.le_of_eq hframe.begun.symm)
      (fun r _ => by rw [hframe.running]) (outcome?_of_finished hframe.finished _)
  obtain ⟨v, hv, hrests⟩ := hturn.induct h fun a b _ h hact => hkept a b h hact
  cases hrests with
  | ended outcome =>
    refine hv.mono rfl (Nat.le_refl _) (Nat.le_refl _) (fun _ _ => Iff.rfl) ?_
    rw [outcome?_finish, if_neg (Ne.symm hne), Option.or_none]
  | waits await =>
    refine hv.mono rfl (Nat.le_refl _) (Nat.le_refl _) (fun r hid => ?_) rfl
    refine ⟨fun hr => ?_, List.mem_append_left _⟩
    rcases List.mem_append.mp hr with hr | hr
    · exact hr
    · obtain rfl := List.mem_singleton.mp hr
      exact absurd hid hne

/-- A call stays where it is, or the event is its own turn. -/
theorem steps (h : w.At id call context stage) (hsteps : Steps w event w') :
    (w'.At id call context stage ∧ (event = .poll id → w' = w)) ∨
      ∃ await next, event = .poll id ∧ stage = .waiting await ∧
        Turn id call context (.waiting await, w.without id) next w' := by
  cases hsteps with
  | begins hturn =>
    have hlt : id < w.begun := by cases h <;> assumption
    have hbegun : {w with begun := w.begun + 1}.At id call context stage :=
      h.mono rfl (Nat.le_refl _) (Nat.le_succ _) (fun _ _ => Iff.rfl) rfl
    exact .inl ⟨hbegun.of_turn (Nat.ne_of_gt hlt) hturn, nofun⟩
  | @polls r await _ hr hwork hasks hturn =>
    by_cases hid : r.id = id
    · subst hid
      cases h with
      | waiting _ _ _ honly _ hfits =>
        obtain ⟨rfl, hwork'⟩ := honly r hr rfl
        obtain rfl := Work.request.inj (hwork'.symm.trans hwork)
        obtain ⟨next, hturn⟩ := hturn call hfits
        exact .inr ⟨_, next, rfl, rfl, hturn⟩
      | ended _ habsent => exact absurd rfl (habsent r hr)
    · obtain ⟨other, hfits⟩ := hasks
      obtain ⟨next, hturn⟩ := hturn other hfits
      have hwithout : (w.without r.id).At id call context stage := by
        refine h.mono rfl (Nat.le_refl _) (Nat.le_refl _) (fun r' hid' => ?_) rfl
        simp [without, hid', Ne.symm hid]
      exact .inl ⟨hwithout.of_turn hid hturn, fun heq => absurd (Event.poll.inj heq) hid⟩
  | passes hpoll hstore _ hbegun hrunning hfinished =>
    exact .inl ⟨h.mono hstore.config hstore.cache.epoch_le (Nat.le_of_eq hbegun.symm)
      (fun r _ => by rw [hrunning]) (outcome?_of_finished hfinished _), hpoll id⟩

end At

/-- How a call is taken in hand: it begins, or it waits. -/
inductive Opens (w : World) : Nat → Stage × World → Prop
  | begins : Opens w w.begun (.called, {w with begun := w.begun + 1})
  | polls {id : Nat} (await : Await) : Opens w id (.waiting await, w.without id)

end World

end VersionStore
