import VersionStore.Proofs.Threads.Staleness
import VersionStore.Proofs.Threads.World
import VersionStore.Proofs.World.Apart

/-! How old an answer can be.

Whatever a read of a newest version returns, a search for it gave the same less than a time to
live ago (`answered_recently`). Time may pass between any two events, by any amount, and timers
may be late or never fire; what a world never does is to let time pass between the answer of
the engine and what its call makes of it.

This is where a world is followed by threads: they come to where it is by prompt moves
(`follows_run`), and prompt moves keep what is held and in hand timely (`Timely.run`). -/
namespace VersionStore.World

variable {w : World} {t : Threads} {moments : View → Prop} {ttl : Nat} {past : List Event}
  {event : Event} {id : Nat} {call : Call} {read : LatestRead} {r : Record}

theorem poised_threads (w : World) : w.threads.Poised := by
  intro id c hc
  cases hc

/-- Letting time pass ends no call. -/
theorem ne_advance_of_outcome? (hbefore : w.outcome? id = none) {outcome : Outcome}
    (hafter : (w.step event).outcome? id = some outcome) (amount : Nat) :
    event ≠ .advance amount := by
  rintro rfl
  cases hbefore.symm.trans hafter

/-- When an event makes a read return a record, a search gave that record recently. -/
theorem Mirrors.recent (h : w.Mirrors none t) (htimely : Threads.Timely moments ttl t)
    (hpoised : t.Poised) (hpositive : 0 < ttl) (hplain : event.isPlain = true)
    (hfirst : moments w.view) (hlast : moments (w.step event).view)
    (hcall : (t.calls.map (·.call) ++ event.call?.toList)[id]? = some call)
    (hread : call.latest? = some read) (hbefore : w.outcome? id = none)
    (hafter : (w.step event).outcome? id = some (.ok (.record r))) :
    Threads.Recent moments ttl (w.step event).now read r := by
  have hsame : (w.step event).now = w.now := now_step w (ne_advance_of_outcome? hbefore hafter)
  -- the moves that follow the event take no time
  let present : View → Prop := fun v => moments v ∧ v.now = (w.step event).now
  obtain ⟨moves, hcalls, hprompt, hshows, hmirrors⟩ :
      (w.step event).Follows present event.call?.toList t :=
    h.step hplain ⟨hfirst, hsame.symm⟩ ⟨hlast, rfl⟩
  have hmissing : r ∉ t.returned id := by
    simp [Threads.returned, ← h.outcome?_eq, hbefore]
  have hreturned : r ∈ (t.run moves).returned id := by
    simp [Threads.returned, ← hmirrors.outcome?_eq, hafter, Reply.contents]
  have hcall : (t.run moves).call? id = some call := by
    rw [Threads.call?, ← List.getElem?_map, Threads.calls_run, hcalls, hcall]
  obtain ⟨before, move, after, rfl, hrecent⟩ := htimely.recent_run hpoised hpositive hprompt
    (hshows.mono fun _ h => h.1) hcall hread hmissing hreturned
  have hnow : ((t.run before).step move).now = (w.step event).now :=
    hshows.of_append.2.2.first.2
  exact hnow ▸ hrecent

/-- **A read returns nothing that is older than the time to live.** Let a new store run over an
engine with any contents and any latency: calls begin and are polled in any order, removals that
leave the cache alone among them, time passes by any amount, timers fire or not; only calls
change documents, and no failure is put in store (`isPlain`). When a read of a newest version ends
with a record, there was a moment, now or less than a time to live ago, at which a search for what
it reads gave that record. -/
theorem answered_recently (hnew : w.IsNew) (hconfig : w.store.config.validate = .ok ())
    (hcache : w.store.memory.cache = .make w.store.config.ttl)
    (hplain : ∀ e ∈ past ++ [event], e.isPlain = true)
    (hcall : ((past ++ [event]).filterMap Event.call?)[id]? = some call)
    (hread : call.latest? = some read) (hbefore : (w.run past).outcome? id = none)
    (hafter : (w.run (past ++ [event])).outcome? id = some (.ok (.record r))) :
    let now := (w.run (past ++ [event])).now
    ∃ before after, past ++ [event] = before ++ after ∧ (w.run before).now ≤ now ∧
      now < (w.run before).now + w.store.config.ttl ∧ (w.run before).view.Finds read r := by
  intro now
  obtain ⟨hpositive, hcapped⟩ := StoreConfig.ttl_of_validate hconfig
  obtain ⟨hpast, hevent⟩ := List.forall_mem_append.mp hplain
  let moments : View → Prop := fun v =>
    ∃ before after, past ++ [event] = before ++ after ∧ v = (w.run before).view
  obtain ⟨moves, hcalls, hprompt, hshows, hmirrors⟩ := follows_run hnew hpast
  have hshows : w.threads.Shows moments moves := by
    refine hshows.mono ?_
    rintro _ ⟨before, after, rfl, rfl⟩
    exact ⟨before, after ++ [event], List.append_assoc .., rfl⟩
  obtain ⟨htimely, hpoised⟩ :=
    (Threads.timely_of_new hcache hcapped rfl).run w.poised_threads hprompt hshows
  have hlast : w.run (past ++ [event]) = (w.run past).step event := by
    rw [run_append]
    rfl
  have hcall : ((w.threads.run moves).calls.map (·.call) ++ event.call?.toList)[id]? =
      some call := by
    rw [Threads.calls_run, hcalls, ← hcall, List.filterMap_append]
    cases hfirst : event.call? <;> simp [hfirst, threads]
  have hrecent : Threads.Recent moments w.store.config.ttl ((w.run past).step event).now read r :=
    hmirrors.recent htimely hpoised hpositive (hevent event List.mem_cons_self)
      ⟨past, [event], rfl, rfl⟩ ⟨past ++ [event], [], (List.append_nil _).symm, by rw [hlast]⟩
      hcall hread hbefore (hlast ▸ hafter)
  obtain ⟨_, ⟨before, after, hsplit, rfl⟩, hle, hlt, hfinds⟩ := hrecent
  have hnow : now = ((w.run past).step event).now := congrArg World.now hlast
  exact ⟨before, after, hsplit, hnow ▸ hle, hnow ▸ hlt, hfinds⟩

instance : (found : Option Outcome) → (r : Record) → Decidable (found = some (.ok (.record r)))
  | some (.ok (.record s)), r => decidable_of_iff (s = r) (by simp)
  | none, _ | some (.error _), _ | some (.ok .done), _ | some (.ok (.records _)), _
  | some (.ok (.namespaces _)), _ | some (.ok (.documents _)), _ | some (.ok (.names _)), _
  | some (.ok (.value _)), _ => isFalse nofun

/-- A search is under way when the index is removed by a removal that leaves the cache alone, and
what it found is kept: two seconds later a read still returns what is gone. -/
theorem answered_recently_after_removal :
    let ns : Namespace := ⟨"a", by decide, by decide⟩
    let context : Context := ⟨⟨[0]⟩, none⟩
    let get : Call := .get ns "c" "p"
    let w : World :=
      {store := ⟨.standard, {cache := .make (60 * second), clock := ⟨7, 0⟩}⟩, latency := second}
    let past : List Event :=
      [.begin context (.put ns "c" "p" "k" "v"), .advance second, .poll 0,
       .begin context get, .begin context (.delete ns true), .advance second, .poll 1, .poll 2,
       .advance (2 * second)]
    let event : Event := .begin context get
    let now := (w.run (past ++ [event])).now
    let r := Record.make "c" "p" "k" "v" 7
    (w.run past).engine.documents (w.store.index ns) = [] ∧
      (w.run (past ++ [event])).outcome? 3 = some (.ok (.record r)) ∧
      ∃ before after, past ++ [event] = before ++ after ∧ (w.run before).now ≤ now ∧
        now < (w.run before).now + w.store.config.ttl ∧
        (w.run before).view.Finds (.ofPath true ns "c" "p") r := by
  intro ns context get w past event now r
  have hempty : (w.run past).engine.documents (w.store.index ns) = [] :=
    List.isEmpty_iff.mp (by decide +kernel)
  have hbefore : (w.run past).outcome? 3 = none := by decide +kernel
  have hafter : (w.run (past ++ [event])).outcome? 3 = some (.ok (.record r)) := by
    decide +kernel
  exact ⟨hempty, hafter,
    answered_recently ⟨rfl, rfl, rfl, rfl⟩ StoreConfig.validate_standard rfl (by decide) rfl rfl
      hbefore hafter⟩

end VersionStore.World
