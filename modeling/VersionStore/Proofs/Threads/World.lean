import VersionStore.Proofs.Threads.Prompt
import VersionStore.Proofs.World.Course

/-! A world is a store used from many threads.

A world polls a call until it has to wait; with threads every act of its turn is a move of
its own. As long as nobody interferes with the engine, a world therefore runs through states that
threads reach by moves which begin the same calls (`Mirrors.step`), and the calls end alike.

A turn takes no time, so these moves are prompt; and since no turn changes the documents twice,
all that a search could see on the way is what it sees before the turn or after it
(`Acts.view_eq`). So what holds after all prompt moves holds for worlds (`follows_run`). -/
namespace VersionStore

/-- Whether an event is one that threads know of: no other work, no failure in store, and no
document that comes from elsewhere. -/
def Event.isPlain : Event → Bool
  | .pause .. | .insert .. | .fault .. => false
  | _ => true

def Event.call? : Event → Option Call
  | .begin _ call => some call
  | _ => none

def Move.call? : Move → Option Call
  | .begin _ call => some call
  | _ => none

namespace Threads

theorem calls_place (t : Threads) (id : Nat) (stage : Stage) :
    (t.place id stage).calls.map (·.call) = t.calls.map (·.call) := by
  apply List.ext_getElem?
  intro other
  rw [place, List.getElem?_map, List.getElem?_map, List.getElem?_modify]
  cases t.calls[other]? with
  | none => rfl
  | some c => by_cases hid : id = other <;> simp [hid]

theorem calls_step (t : Threads) (move : Move) :
    (t.step move).calls.map (·.call) = t.calls.map (·.call) ++ move.call?.toList := by
  have hquiet : t.calls.map (·.call) = t.calls.map (·.call) ++ [] := (List.append_nil _).symm
  cases move with
  | begin context call => exact List.map_append
  | go id =>
    show (t.go id).calls.map (·.call) = _
    unfold go
    split
    · exact hquiet
    · exact (calls_place ..).trans hquiet
  | serve id =>
    show (t.serve id).calls.map (·.call) = _
    unfold serve
    split
    · exact (calls_place ..).trans hquiet
    · exact hquiet
  | stop id =>
    show (t.stop id).calls.map (·.call) = _
    unfold stop
    split
    · split
      · exact (calls_place ..).trans hquiet
      · exact hquiet
    · exact hquiet
  | _ => exact hquiet

/-- The calls that there are were all begun. -/
theorem calls_run (t : Threads) (moves : List Move) :
    (t.run moves).calls.map (·.call) = t.calls.map (·.call) ++ moves.filterMap Move.call? := by
  induction moves generalizing t with
  | nil => exact (List.append_nil _).symm
  | cons move rest ih =>
    rw [run, ih, calls_step, List.append_assoc, List.filterMap_cons]
    cases move.call? <;> rfl

/-- A call that has ended has begun. -/
theorem lt_of_outcome? {t : Threads} {id : Nat} {outcome : Outcome}
    (h : t.outcome? id = some outcome) : id < t.calls.length := by
  obtain ⟨c, hc, -⟩ := Option.bind_eq_some_iff.mp h
  exact (List.getElem?_eq_some_iff.mp hc).1

/-- A call that begins has not ended. -/
theorem outcome?_begin (t : Threads) (context : Context) (call : Call) (id : Nat) :
    (t.step (.begin context call)).outcome? id = t.outcome? id := by
  show (t.calls ++ [⟨call, context, .called⟩])[id]?.bind _ = t.calls[id]?.bind _
  by_cases hlt : id < t.calls.length
  · rw [List.getElem?_append_left hlt]
  · rw [List.getElem?_append_right (Nat.le_of_not_lt hlt), List.getElem?_singleton,
      List.getElem?_eq_none (Nat.le_of_not_lt hlt)]
    split <;> rfl

end Threads

namespace World

variable {moments : View → Prop} {w w' : World} {t : Threads} {id : Nat} {call : Call}
  {context : Context}

def view (w : World) : View := ⟨w.now, w.store.config, w.engine.documents⟩

/-! ### What is seen during a turn -/

/-- Whether a call in hand changes no documents any more in its turn: it has its answer, or is to
make its index again. -/
inductive Settled : Stage → Prop
  | answered (await : Await) (answer : Result await.request.Answer) :
    Settled (.answered await answer)
  | creates (index : String) : Settled (.waiting (.creation index))
  | ended (outcome : Outcome) : Settled (.ended outcome)

theorem Frame.view_eq {a b : World} (h : Frame a b)
    (hdocuments : b.engine.documents = a.engine.documents) : b.view = a.view := by
  rw [view, view, h.now, h.config, hdocuments]

theorem Acts.settled {a b : Stage × World} (hact : Acts call context a b) (h : Settled a.1) :
    Settled b.1 ∧ b.2.view = a.2.view := by
  have hframe := hact.frame
  cases hact with
  | @goes w stage next later hproceed =>
    refine ⟨?_, hframe.view_eq rfl⟩
    have hproceeds := Store.proceeds (w.ended? context) call w.store stage
    rw [hproceed] at hproceeds
    cases hproceeds with
    | ends | rests => exact .ended _
    | creates => exact .creates _
    | stays => exact h
    | _ => cases h
  | serves =>
    obtain ⟨index⟩ := h
    exact ⟨.answered .., hframe.view_eq (funext fun _ => Engine.documents_serve_create ..)⟩
  | stops => exact ⟨.answered .., rfl⟩

theorem view_of_settled {a b : Stage × World} (h : Settled a.1)
    (hacts : Relation.ReflTransGen (Acts call context) a b) : b.2.view = a.2.view := by
  have hlast : Settled b.1 ∧ b.2.view = a.2.view := by
    induction hacts with
    | refl => exact ⟨h, rfl⟩
    | tail _ hact ih =>
      obtain ⟨hsettled, hview⟩ := hact.settled ih.1
      exact ⟨hsettled, hview.trans ih.2⟩
  exact hlast.2

/-- What is seen after an act is what was seen before it, or what is seen when the turn is over. -/
theorem Acts.view_eq {a b last : Stage × World} (hact : Acts call context a b)
    (hacts : Relation.ReflTransGen (Acts call context) b last) :
    b.2.view = a.2.view ∨ b.2.view = last.2.view := by
  have hframe := hact.frame
  cases hact with
  | goes => exact .inl (hframe.view_eq rfl)
  | serves => exact .inr (view_of_settled (.answered ..) hacts).symm
  | stops => exact .inl rfl

theorem Rests.view_eq {last : Stage × World} (h : Rests id context last w') :
    w'.view = last.2.view := by
  cases h <;> rfl

/-! ### Where threads and a world are alike -/

/-- Whether a world is where threads are, but for a call that may be in hand. No other call has an
answer that it has not gone on with. -/
structure Mirrors (hand : Option Nat) (w : World) (t : Threads) : Prop where
  store : w.store = t.store
  engine : w.engine = t.engine
  tokens : w.tokens = t.tokens
  faults : w.faults = []
  begun : w.begun = t.calls.length
  running : ∀ r ∈ w.running, some r.id ≠ hand ∧ ∃ call await,
    r.work = .request await ∧ t.calls[r.id]? = some ⟨call, r.context, .waiting await⟩
  finished : ∀ id outcome, (id, outcome) ∈ w.finished →
    some id ≠ hand ∧ t.outcome? id = some outcome
  ended : ∀ id outcome, some id ≠ hand → t.outcome? id = some outcome →
    ∃ other, (id, other) ∈ w.finished
  unanswered : ∀ (id : Nat) (c : Thread), some id ≠ hand → t.calls[id]? = some c →
    c.stage.isAnswered = false

/-- Whether threads come to where a world is by moves that begin some calls. Calls go on at once
in these moves, and a search sees on the way what there is to see at some moments. -/
def Follows (w : World) (moments : View → Prop) (calls : List Call) (t : Threads) : Prop :=
  ∃ moves : List Move, moves.filterMap Move.call? = calls ∧ t.isPrompt moves = true ∧
    t.Shows moments moves ∧ w.Mirrors none (t.run moves)

theorem Follows.of_step {calls : List Call} (move : Move) (hmay : t.mayPass move = true)
    (hmoment : moments t.view) (h : w.Follows moments calls (t.step move)) :
    w.Follows moments (move.call?.toList ++ calls) t := by
  obtain ⟨moves, hcalls, hprompt, hshows, hmirrors⟩ := h
  refine ⟨move :: moves, ?_, Bool.and_eq_true_iff.mpr ⟨hmay, hprompt⟩, ⟨hmoment, hshows⟩, hmirrors⟩
  rw [List.filterMap_cons, hcalls]
  cases move.call? <;> rfl

namespace Mirrors

theorem view_eq {hand : Option Nat} (h : w.Mirrors hand t) : t.view = w.view := by
  unfold World.view Threads.view World.now Threads.now
  rw [h.store, h.engine]

theorem follows (h : w.Mirrors none t) (hmoment : moments w.view) : w.Follows moments [] t := by
  rw [← h.view_eq] at hmoment
  exact ⟨[], rfl, rfl, hmoment, h⟩

theorem ended?_eq {hand : Option Nat} (h : w.Mirrors hand t) (context : Context) :
    context.ended? t.tokens t.now = w.ended? context := by
  unfold World.ended? World.now Threads.now
  rw [h.tokens, h.store]

/-- The call in hand goes to another stage. -/
theorem place {w' : World} {t' : Threads} {stage : Stage} (h : w.Mirrors (some id) t)
    (hstore : w'.store = t'.store) (hengine : w'.engine = t'.engine)
    (htokens : w'.tokens = t'.tokens) (hfaults : w'.faults = w.faults)
    (hbegun : w'.begun = w.begun) (hrunning : w'.running = w.running)
    (hfinished : w'.finished = w.finished) (hcalls : t'.calls = t.calls) :
    w'.Mirrors (some id) (t'.place id stage) := by
  have hother : ∀ other, some other ≠ some id →
      (t'.place id stage).calls[other]? = t.calls[other]? := by
    intro other hother
    rw [Threads.getElem?_place_of_ne stage fun heq => hother (congrArg some heq), hcalls]
  have houtcome : ∀ other, some other ≠ some id →
      (t'.place id stage).outcome? other = t.outcome? other := by
    intro other hne
    rw [Threads.outcome?, hother other hne, Threads.outcome?]
  refine ⟨hstore, hengine, htokens, hfaults.trans h.faults, ?_, ?_, ?_, ?_, ?_⟩
  · show w'.begun = (t'.calls.modify id _).length
    rw [List.length_modify, hbegun, hcalls, h.begun]
  · intro r hr
    obtain ⟨hne, call, await, hwork, hc⟩ := h.running r (hrunning ▸ hr)
    exact ⟨hne, call, await, hwork, (hother r.id hne).trans hc⟩
  · intro other outcome hmem
    obtain ⟨hne, hended⟩ := h.finished other outcome (hfinished ▸ hmem)
    exact ⟨hne, (houtcome other hne).trans hended⟩
  · intro other outcome hne hended
    rw [hfinished]
    exact h.ended other outcome hne ((houtcome other hne).symm.trans hended)
  · intro other c hne hc
    exact h.unanswered other c hne ((hother other hne).symm.trans hc)

/-- The call in hand goes on. -/
theorem go {stage next : Stage} {later : Store} (h : w.Mirrors (some id) t)
    (hc : t.calls[id]? = some ⟨call, context, stage⟩)
    (hproceed : w.store.proceed (w.ended? context) call stage = (next, later)) :
    {w with store := later}.Mirrors (some id) (t.step (.go id)) ∧
      (t.step (.go id)).calls[id]? = some ⟨call, context, next⟩ := by
  have hgo : t.step (.go id) = ({t with store := later} : Threads).place id next := by
    show t.go id = _
    unfold Threads.go
    rw [hc]
    simp only [h.ended?_eq, ← h.store, hproceed]
  rw [hgo]
  exact ⟨h.place rfl h.engine h.tokens rfl rfl rfl rfl rfl, Threads.getElem?_place _ hc⟩

/-- When the call in hand is left without an answer, no call has one. -/
theorem unanswered_of (h : w.Mirrors (some id) t) {stage : Stage}
    (hc : t.calls[id]? = some ⟨call, context, stage⟩) (hstage : stage.isAnswered = false) :
    ∀ (other : Nat) (c : Thread), some other ≠ none → t.calls[other]? = some c →
      c.stage.isAnswered = false := by
  intro other c _ hc'
  by_cases hother : other = id
  · subst hother
    obtain rfl := Option.some.inj (hc.symm.trans hc')
    exact hstage
  · exact h.unanswered other c (fun heq => hother (Option.some.inj heq)) hc'

/-- The call in hand has ended. -/
theorem finish {outcome : Outcome} (h : w.Mirrors (some id) t)
    (hc : t.calls[id]? = some ⟨call, context, .ended outcome⟩) :
    (w.finish id outcome).Mirrors none t := by
  have houtcome : t.outcome? id = some outcome := by simp [Threads.outcome?, hc]
  refine ⟨h.store, h.engine, h.tokens, h.faults, h.begun, ?_, ?_, ?_, h.unanswered_of hc rfl⟩
  · intro r hr
    exact ⟨nofun, (h.running r hr).2⟩
  · intro other found hmem
    refine ⟨nofun, ?_⟩
    rcases List.mem_append.mp hmem with hmem | hmem
    · exact (h.finished other found hmem).2
    · obtain ⟨rfl, rfl⟩ := Prod.mk.inj (List.mem_singleton.mp hmem)
      exact houtcome
  · intro other found _ hended
    by_cases hother : other = id
    · exact ⟨outcome, List.mem_append_right _ (by rw [hother]; exact List.mem_cons_self)⟩
    · obtain ⟨found', hmem⟩ := h.ended other found (fun heq => hother (Option.some.inj heq)) hended
      exact ⟨found', List.mem_append_left _ hmem⟩

/-- The call in hand waits. -/
theorem suspend {await : Await} (h : w.Mirrors (some id) t)
    (hc : t.calls[id]? = some ⟨call, context, .waiting await⟩) (due : Nat) :
    (w.suspend id context due (.request await)).Mirrors none (t.step .draw) := by
  have houtcome : t.outcome? id = none := by simp [Threads.outcome?, hc]
  refine ⟨?_, h.engine, h.tokens, h.faults, h.begun, ?_, ?_, ?_, h.unanswered_of hc rfl⟩
  · have hstore : (w.suspend id context due (.request await)).store = {w.store with
        memory := {w.store.memory with time := (w.store.memory.time.wait due).2}} := rfl
    rw [hstore, h.store]
    rfl
  · intro r hr
    refine ⟨nofun, ?_⟩
    rcases List.mem_append.mp hr with hr | hr
    · exact (h.running r hr).2
    · obtain rfl := List.mem_singleton.mp hr
      exact ⟨call, await, rfl, hc⟩
  · intro other outcome hmem
    exact ⟨nofun, (h.finished other outcome hmem).2⟩
  · intro other outcome _ hended
    have hended : t.outcome? other = some outcome := hended
    refine h.ended other outcome (fun heq => ?_) hended
    rw [Option.some.inj heq, houtcome] at hended
    cases hended

/-- The call in hand gives up its wait. -/
theorem stop {await : Await} {e : Error} (h : w.Mirrors (some id) t)
    (hc : t.calls[id]? = some ⟨call, context, .waiting await⟩) (he : w.ended? context = some e) :
    w.Mirrors (some id) (t.step (.stop id)) ∧
      (t.step (.stop id)).calls[id]? = some ⟨call, context, .answered await (.error e)⟩ := by
  have hstop : t.step (.stop id) = t.place id (.answered await (.error e)) := by
    show t.stop id = _
    unfold Threads.stop
    simp only [hc, h.ended?_eq, he]
  rw [hstop]
  exact ⟨h.place h.store h.engine h.tokens rfl rfl rfl rfl rfl, Threads.getElem?_place _ hc⟩

/-- The engine serves the request of the call in hand. -/
theorem serve {await : Await} (h : w.Mirrors (some id) t)
    (hc : t.calls[id]? = some ⟨call, context, .waiting await⟩) :
    {w with engine := (w.engine.serve await.request).2}.Mirrors (some id) (t.step (.serve id)) ∧
      (t.step (.serve id)).calls[id]? =
        some ⟨call, context, .answered await (w.engine.serve await.request).1⟩ := by
  rw [Threads.step_serve hc rfl, h.engine]
  exact ⟨h.place h.store rfl h.tokens rfl rfl rfl rfl rfl, Threads.getElem?_place _ hc⟩

/-- Each act of the call in hand is a move. -/
theorem act {a b : Stage × World} (h : a.2.Mirrors (some id) t)
    (hc : t.calls[id]? = some ⟨call, context, a.1⟩) (hact : Acts call context a b) :
    ∃ move : Move, move.call? = none ∧ t.mayPass move = true ∧
      b.2.Mirrors (some id) (t.step move) ∧
      (t.step move).calls[id]? = some ⟨call, context, b.1⟩ := by
  cases hact with
  | goes hproceed => exact ⟨.go id, rfl, rfl, h.go hc hproceed⟩
  | serves => exact ⟨.serve id, rfl, rfl, h.serve hc⟩
  | stops he => exact ⟨.stop id, rfl, rfl, h.stop hc he⟩

/-- The call in hand gets as far as its turn takes it. What is seen on the way is what there is to
see at the start of the turn and at its end. -/
theorem follows_of_takes {first : Stage × World} (h : first.2.Mirrors (some id) t)
    (hc : t.calls[id]? = some ⟨call, context, first.1⟩) (htakes : Takes id call context first w')
    (hbefore : moments first.2.view) (hafter : moments w'.view) : w'.Follows moments [] t := by
  obtain ⟨last, hacts, hrests⟩ := htakes
  induction hacts using Relation.ReflTransGen.head_induction_on generalizing t with
  | refl =>
    cases hrests with
    | ended => exact (h.finish hc).follows hafter
    | waits => exact .of_step .draw rfl (h.view_eq ▸ hbefore) ((h.suspend hc _).follows hafter)
  | @head a b hact hacts ih =>
    obtain ⟨move, hcall, hmay, h', hc'⟩ := h.act hc hact
    have hmoment : moments b.2.view := by
      rcases hact.view_eq hacts with hview | hview
      · rwa [hview]
      · rwa [hview, ← hrests.view_eq]
    have hfollows := Follows.of_step move hmay (h.view_eq ▸ hbefore) (ih h' hc' hmoment)
    rwa [hcall] at hfollows

/-- A call begins. -/
theorem begin (h : w.Mirrors none t) (context : Context) (hbefore : moments w.view)
    (hafter : moments (w.begin context call).view) :
    (w.begin context call).Follows moments [call] t := by
  have hc : (t.step (.begin context call)).calls[w.begun]? = some ⟨call, context, .called⟩ := by
    rw [h.begun]
    exact List.getElem?_concat_length
  have hmirrors : {w with begun := w.begun + 1}.Mirrors (some w.begun)
      (t.step (.begin context call)) := by
    refine ⟨h.store, h.engine, h.tokens, h.faults, ?_, ?_, ?_, ?_, ?_⟩
    · show w.begun + 1 = (t.calls ++ [_]).length
      rw [List.length_append, h.begun]
      rfl
    · intro r hr
      obtain ⟨-, call', await, hwork, hc'⟩ := h.running r hr
      have hlt : r.id < t.calls.length := (List.getElem?_eq_some_iff.mp hc').1
      exact ⟨fun heq => absurd ((Option.some.inj heq).trans h.begun) (Nat.ne_of_lt hlt), call',
        await, hwork, (List.getElem?_append_left hlt).trans hc'⟩
    · intro id outcome hmem
      obtain ⟨-, hended⟩ := h.finished id outcome hmem
      have hlt : id < t.calls.length := Threads.lt_of_outcome? hended
      exact ⟨fun heq => absurd ((Option.some.inj heq).trans h.begun) (Nat.ne_of_lt hlt),
        (t.outcome?_begin context call id).trans hended⟩
    · intro id outcome _ hended
      exact h.ended id outcome nofun ((t.outcome?_begin context call id).symm.trans hended)
    · intro id c hne hc'
      rcases Threads.of_getElem?_begin hc' with ⟨rfl, -⟩ | hc'
      · exact absurd (congrArg some h.begun.symm) hne
      · exact h.unanswered id c nofun hc'
  exact .of_step (.begin context call) rfl (h.view_eq ▸ hbefore)
    (hmirrors.follows_of_takes hc (takes_begin h.faults context call) hbefore hafter)

/-- A call is taken in hand. -/
theorem take (h : w.Mirrors none t) {r : Running} (hr : r ∈ w.running) :
    {w with running := w.running.filter (·.id != r.id)}.Mirrors (some r.id) t := by
  obtain ⟨-, call, await, -, hc⟩ := h.running r hr
  have houtcome : t.outcome? r.id = none := by simp [Threads.outcome?, hc]
  refine ⟨h.store, h.engine, h.tokens, h.faults, h.begun, ?_, ?_, ?_,
    fun id c _ => h.unanswered id c nofun⟩
  · intro other hother
    obtain ⟨hother, hne⟩ := List.mem_filter.mp hother
    refine ⟨fun heq => ?_, (h.running other hother).2⟩
    rw [Option.some.inj heq] at hne
    simp at hne
  · intro id outcome hmem
    obtain ⟨-, hended⟩ := h.finished id outcome hmem
    refine ⟨fun heq => ?_, hended⟩
    rw [Option.some.inj heq, houtcome] at hended
    cases hended
  · intro id outcome _ hended
    exact h.ended id outcome nofun hended

/-- A call is polled. -/
theorem poll (h : w.Mirrors none t) (id : Nat) (hbefore : moments w.view)
    (hafter : moments (w.poll id).view) : (w.poll id).Follows moments [] t := by
  cases hr : w.running? id with
  | none =>
    rw [poll_of_absent hr]
    exact h.follows hbefore
  | some r =>
    obtain rfl : r.id = id := by simpa using List.find?_some hr
    have hmem : r ∈ w.running := List.mem_of_find?_eq_some hr
    obtain ⟨-, call, await, hwork, hc⟩ := h.running r hmem
    rcases takes_poll h.faults hr hwork with hpoll | htakes
    · rw [hpoll]
      exact h.follows hbefore
    · exact (h.take hmem).follows_of_takes hc htakes hbefore hafter

/-- What happens apart from the calls happens to both alike. -/
theorem turn {w' : World} {t' : Threads} (h : w.Mirrors none t) (hstore : w'.store = t'.store)
    (hengine : w'.engine = t'.engine) (htokens : w'.tokens = t'.tokens)
    (hfaults : w'.faults = w.faults) (hbegun : w'.begun = w.begun)
    (hrunning : w'.running = w.running) (hfinished : w'.finished = w.finished)
    (hcalls : t'.calls = t.calls) : w'.Mirrors none t' := by
  obtain ⟨-, -, -, hnone, hlength, hwaiting, hover, hended, hunanswered⟩ := h
  have houtcome : t'.outcome? = t.outcome? := by
    funext id
    rw [Threads.outcome?, Threads.outcome?, hcalls]
  exact ⟨hstore, hengine, htokens, hfaults.trans hnone, by rw [hbegun, hcalls, hlength],
    by rw [hrunning, hcalls]; exact hwaiting, by rw [hfinished, houtcome]; exact hover,
    by rw [hfinished, houtcome]; exact hended, by rw [hcalls]; exact hunanswered⟩

theorem withMemory (h : w.Mirrors none t) (f : LiveCache Record → LiveCache Record) :
    (w.withMemory (f w.store.memory)).Mirrors none (t.withMemory (f t.store.memory)) := by
  refine h.turn ?_ h.engine h.tokens rfl rfl rfl rfl rfl
  rw [World.withMemory, h.store]
  rfl

/-- No call has an answer in hand, so time may pass. -/
theorem mayPass (h : w.Mirrors none t) (amount : Nat) : t.mayPass (.advance amount) = true := by
  refine List.all_eq_true.mpr fun c hc => ?_
  obtain ⟨id, hid⟩ := List.getElem?_of_mem hc
  rw [h.unanswered id c nofun hid]
  rfl

/-- Threads follow every event of a world. -/
theorem step (h : w.Mirrors none t) {event : Event} (hplain : event.isPlain = true)
    (hbefore : moments w.view) (hafter : moments (w.step event).view) :
    (w.step event).Follows moments event.call?.toList t := by
  have hmoment : moments t.view := h.view_eq ▸ hbefore
  cases event with
  | begin context call => exact h.begin context hbefore hafter
  | poll id => exact h.poll id hbefore hafter
  | advance amount =>
    exact .of_step (.advance amount) (h.mayPass amount) hmoment
      ((h.withMemory (·.advance amount)).follows hafter)
  | fire generation =>
    exact .of_step (.fire generation) rfl hmoment
      ((h.withMemory (·.fire generation)).follows hafter)
  | setClock time =>
    exact .of_step (.setClock time) rfl hmoment
      ((h.withMemory fun memory => {memory with clock := memory.clock.set time}).follows hafter)
  | advanceClock amount =>
    exact .of_step (.advanceClock amount) rfl hmoment
      ((h.withMemory fun memory =>
        {memory with clock := memory.clock.advance amount}).follows hafter)
  | clearCache =>
    exact .of_step .clearCache rfl hmoment ((h.withMemory (·.clear)).follows hafter)
  | cancel token =>
    have htokens : w.tokens.cancel token = t.tokens.cancel token := by rw [h.tokens]
    have hturn : (w.step (.cancel token)).Mirrors none (t.step (.cancel token)) :=
      h.turn h.store h.engine htokens rfl rfl rfl rfl rfl
    exact .of_step (.cancel token) rfl hmoment (hturn.follows hafter)
  | setUnavailable unavailable =>
    have hengine : {w.engine with unavailable := unavailable} =
        {t.engine with unavailable := unavailable} := by rw [h.engine]
    have hturn : (w.step (.setUnavailable unavailable)).Mirrors none
        (t.step (.setUnavailable unavailable)) :=
      h.turn h.store hengine h.tokens rfl rfl rfl rfl rfl
    exact .of_step (.setUnavailable unavailable) rfl hmoment (hturn.follows hafter)
  | pause | insert | fault => cases hplain

theorem outcome?_eq (h : w.Mirrors none t) (id : Nat) : w.outcome? id = t.outcome? id := by
  unfold World.outcome?
  cases hlookup : w.finished.lookup id with
  | some outcome =>
    obtain ⟨before, after, hfinished, -⟩ := List.lookup_eq_some_iff.mp hlookup
    have hmem : (id, outcome) ∈ w.finished := by simp [hfinished]
    exact (h.finished id outcome hmem).2.symm
  | none =>
    cases hended : t.outcome? id with
    | none => rfl
    | some outcome =>
      obtain ⟨other, hmem⟩ := h.ended id outcome nofun hended
      have hne := List.lookup_eq_none_iff.mp hlookup _ hmem
      simp at hne

end Mirrors

/-- Threads follow every run of a world. -/
theorem Mirrors.run (h : w.Mirrors none t) {events : List Event}
    (hplain : ∀ event ∈ events, event.isPlain = true)
    (hmoments : ∀ before after, events = before ++ after → moments (w.run before).view) :
    (w.run events).Follows moments (events.filterMap Event.call?) t := by
  induction events generalizing w t with
  | nil => exact h.follows (hmoments [] [] rfl)
  | cons event rest ih =>
    obtain ⟨hfirst, hrest⟩ := List.forall_mem_cons.mp hplain
    obtain ⟨moves, hcalls, hprompt, hshows, hstep⟩ :=
      h.step hfirst (hmoments [] _ rfl) (hmoments [event] _ rfl)
    obtain ⟨more, hcalls', hprompt', hshows', hend⟩ := ih hstep hrest
      fun before after heq => hmoments (event :: before) after (by rw [heq]; rfl)
    refine ⟨moves ++ more, ?_, Threads.isPrompt_append.mpr ⟨hprompt, hprompt'⟩,
      hshows.append hshows', ?_⟩
    · rw [List.filterMap_append, hcalls, hcalls', List.filterMap_cons]
      cases event.call? <;> rfl
    · rw [Threads.run_append]
      exact hend

/-- The calls of a world as threads, before any has begun. -/
def threads (w : World) : Threads where
  store := w.store
  engine := w.engine
  tokens := w.tokens

theorem IsNew.mirrors (h : w.IsNew) : w.Mirrors none w.threads where
  store := rfl
  engine := rfl
  tokens := rfl
  faults := h.faults
  begun := h.begun
  running r hr := by
    rw [h.running] at hr
    cases hr
  finished id outcome hmem := by
    rw [h.finished] at hmem
    cases hmem
  ended id outcome _ hended := by simp [threads, Threads.outcome?] at hended
  unanswered id c _ hc := by simp [threads] at hc

/-- Where a new world gets, over any engine, threads get by prompt moves that begin the same calls:
store and engine are the same, and each call has ended in the same way or has not ended. On
the way a search sees nothing but what there is to see between two of the events. -/
theorem follows_run (h : w.IsNew) {events : List Event}
    (hplain : ∀ event ∈ events, event.isPlain = true) :
    (w.run events).Follows
      (fun v => ∃ before after, events = before ++ after ∧ v = (w.run before).view)
      (events.filterMap Event.call?) w.threads :=
  h.mirrors.run hplain fun before after heq => ⟨before, after, heq, rfl⟩

end World

end VersionStore
