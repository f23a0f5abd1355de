import VersionStore.Proofs.World.Race

/-! What becomes of calls that race against their context, and of the documents of puts.

A call begins by finding its context ended, and then nothing of it is ever under way
(`Refused`); or it is done at once, or has to wait (`Starts`). For a put the race also decides
about the document: it is added in the turn in which the call ends well, and in no other
(`AppendsOnce`). `race_decided` puts it all together. -/
namespace VersionStore

/-- The engine after a put that ended with an outcome. -/
def Engine.afterPut (engine : Engine) (index : String) (r : Record) : Outcome → Engine
  | .ok _ => engine.append index r
  | .error _ => engine

namespace World

variable {w : World} {id : Nat} {context : Context} {event : Event} {r : Running}

/-! ### What the turns of a put do -/

/-- Whether the turns of a put add its document just once, in the turn in which the call ends well,
if it does, and do nothing to the engine otherwise. -/
def AppendsOnce (id : Nat) (record : Record) (index : String) (w : World) (events : List Event)
    (turns : List (World × World)) : Prop :=
  match (w.run events).outcome? id with
  | some (.ok _) => ∃ a turn b, turns = a ++ turn :: b ∧ ending? id w events = some turn.1 ∧
      turn.2.engine = turn.1.engine.append index record ∧
      ∀ other ∈ a ++ b, other.2.engine = other.1.engine
  | _ => ∀ turn ∈ turns, turn.2.engine = turn.1.engine

/-- A call that is over has no turns that do anything. -/
theorem Over.turnsOf {outcome : Outcome} (h : w.Over id outcome) (events : List Event) :
    ∀ turn ∈ turnsOf id w events, turn.2.engine = turn.1.engine := by
  induction events generalizing w with
  | nil => exact List.forall_mem_nil _
  | cons event rest ih =>
    have hrest := ih (h.step event)
    rcases turnsOf_cons id w event rest with ⟨rfl, heq⟩ | ⟨-, heq⟩ <;> rw [heq]
    · refine List.forall_mem_cons.mpr ⟨?_, hrest⟩
      exact congrArg World.engine (poll_of_absent h.absent)
    · exact hrest

variable {record : Record} {index : String} {rest : List Event} {turns : List (World × World)}

theorem ending?_cons (h : (w.step event).outcome? id = none) :
    ending? id w (event :: rest) = ending? id (w.step event) rest := by
  rw [ending?, h]
  rfl

theorem AppendsOnce.skip (hunfinished : (w.step event).outcome? id = none)
    (h : AppendsOnce id record index (w.step event) rest turns) :
    AppendsOnce id record index w (event :: rest) turns := by
  unfold AppendsOnce
  rw [ending?_cons hunfinished]
  exact h

theorem AppendsOnce.cons (hunfinished : (w.step event).outcome? id = none)
    (hengine : (w.step event).engine = w.engine)
    (h : AppendsOnce id record index (w.step event) rest turns) :
    AppendsOnce id record index w (event :: rest) ((w, w.step event) :: turns) := by
  have h := h.skip hunfinished
  unfold AppendsOnce at h ⊢
  split at h
  · obtain ⟨a, turn, b, rfl, hending, happends, hothers⟩ := h
    exact ⟨(w, w.step event) :: a, turn, b, rfl, hending, happends,
      List.forall_mem_cons.mpr ⟨hengine, hothers⟩⟩
  · exact List.forall_mem_cons.mpr ⟨hengine, h⟩

/-- An event that ends a put adds the document if the put ends well. -/
theorem AppendsOnce.of_ends {outcome : Outcome} (hover : (w.step event).Over id outcome)
    (hengine : (w.step event).engine = w.engine.afterPut index record outcome)
    (rest : List Event) :
    AppendsOnce id record index w (event :: rest)
      ((w, w.step event) :: turnsOf id (w.step event) rest) := by
  have hrest := hover.turnsOf rest
  have houtcome : (w.run (event :: rest)).outcome? id = some outcome := (hover.run rest).outcome
  unfold AppendsOnce
  rw [houtcome]
  cases outcome with
  | ok reply =>
    refine ⟨[], _, _, rfl, ?_, hengine, hrest⟩
    rw [ending?, hover.outcome]
    rfl
  | error e => exact List.forall_mem_cons.mpr ⟨hengine, hrest⟩

/-- How a write ends decides about the document. -/
theorem engine_written (record : Record) (index : String) (w : World) :
    (w.written record index).2 = w.engine.afterPut index record (w.written record index).1 := by
  unfold written
  cases w.engine.unavailable <;> rfl

theorem UnderWay.appendsOnce (h : w.UnderWay r) (hwork : r.work = .request (.write record index))
    (events : List Event) :
    AppendsOnce r.id record index w events (turnsOf r.id w events) := by
  induction events generalizing w with
  | nil =>
    unfold AppendsOnce
    rw [run, h.unfinished]
    exact List.forall_mem_nil _
  | cons event rest ih =>
    by_cases hpoll : event = .poll r.id
    · subst hpoll
      obtain ⟨-, heq⟩ | ⟨hne, -⟩ := turnsOf_cons r.id w (.poll r.id) rest
      · rw [heq]
        have hstep : w.step (.poll r.id) = w.poll r.id := rfl
        have hyields : r.work.Yields _ := hwork ▸ Work.Yields.write record index
        rcases h.poll_cases hyields with
          ⟨-, -, hself⟩ | ⟨e, -, hover, hengine⟩ | ⟨-, -, hover, hengine⟩
        · rw [hself] at hstep
          refine .cons ?_ ?_ ?_ <;> rw [hstep]
          · exact h.unfinished
          · exact ih h
        · rw [← hstep] at hover hengine
          exact .of_ends hover hengine rest
        · rw [← hstep] at hover hengine
          exact .of_ends hover (hengine.trans (engine_written record index w)) rest
      · exact absurd rfl hne
    · obtain ⟨rfl, -⟩ | ⟨-, heq⟩ := turnsOf_cons r.id w event rest
      · exact absurd rfl hpoll
      · rw [heq]
        have hstep := h.step hpoll
        exact .skip hstep.unfinished (ih hstep)

/-! ### Beginning -/

/-- What a world is as a call begins that has done nothing yet. -/
structure Admits (w v : World) : Prop where
  begun : v.begun = w.begun + 1
  running : v.running = w.running
  finished : v.finished = w.finished
  tokens : v.tokens = w.tokens
  time : v.store.memory.time = w.store.memory.time
  engine : v.engine = w.engine

/-- What becomes of a call that begins: its context has ended, or its work is done at once, or it
has to wait. -/
inductive Starts (w v : World) (context : Context) (duration : Nat) (work : Work)
    (result : World → Outcome × Engine) : World → Prop
  | refused {e : Error} (he : w.ended? context = some e) :
    Starts w v context duration work result (v.finish w.begun (.error e))
  | done (he : w.ended? context = none) (hduration : duration = 0) :
    Starts w v context duration work result
      (({v with engine := (result w).2} : World).finish w.begun (result w).1)
  | waits (he : w.ended? context = none) :
    Starts w v context duration work result
      (v.suspend w.begun context (w.now + duration) work)

/-- A call fails as it begins: it stays failed, nothing of it is ever under way, no wait begins,
and the engine is not asked. -/
structure Refused (id : Nat) (e : Error) (w w' : World) : Prop where
  outcome : ∀ future, (w'.run future).outcome? id = some (.error e)
  running : w'.running = w.running
  time : w'.store.memory.time = w.store.memory.time
  engine : w'.engine = w.engine

variable {v w' : World} {duration : Nat} {work : Work} {result : World → Outcome × Engine}

theorem Admits.now (h : w.Admits v) : v.now = w.now := congrArg Time.now h.time

theorem Admits.absent (h : w.Admits v) (hnumbered : w.Numbered) :
    v.running? w.begun = none ∧ v.outcome? w.begun = none := by
  unfold running? outcome?
  rw [h.running, h.finished]
  exact hnumbered w.begun (Nat.le_refl _)

theorem Admits.lt (h : w.Admits v) : w.begun < v.begun := h.begun ▸ Nat.lt_succ_self _

/-- A call that has to wait is in its race. -/
theorem Admits.inRace (h : w.Admits v) (hnumbered : w.Numbered) (he : w.ended? context = none)
    (duration : Nat) (work : Work) :
    ∃ ticket, (v.suspend w.begun context (w.now + duration) work).InRace
      ⟨w.begun, context, ⟨w.now + duration, ticket⟩, work⟩ := by
  obtain ⟨habsent, hunfinished⟩ := h.absent hnumbered
  have hnow : (v.suspend w.begun context (w.now + duration) work).now = w.now := h.now
  refine ⟨v.store.memory.time.tickets, ⟨h.lt, ?_, hunfinished⟩, ?_, fun d hd => ?_⟩
  · unfold running? at habsent ⊢
    simp [suspend, withMemory, Time.wait, List.find?_append, habsent]
  · rw [hnow]
    exact Nat.le_add_right ..
  · rw [hnow]
    exact Nat.le_of_lt ((of_ended?_eq_none he).2 d hd)

theorem Starts.refused_of_ended (h : Starts w v context duration work result w')
    (hadmits : w.Admits v) (hnumbered : w.Numbered) {e : Error} (he : w.ended? context = some e) :
    Refused w.begun e w w' := by
  obtain ⟨habsent, hunfinished⟩ := hadmits.absent hnumbered
  cases h with
  | @refused e' he' =>
    obtain rfl := Option.some.inj (he'.symm.trans he)
    have hover := over_finish hadmits.lt habsent hunfinished (.error e')
    exact ⟨fun future => (hover.run future).outcome, hadmits.running, hadmits.time,
      hadmits.engine⟩
  | done he' | waits he' => cases he'.symm.trans he

/-- A call whose context has not ended as it begins races against it. -/
theorem Starts.decided (h : Starts w v context duration work result w')
    (hstep : w.step event = w') (hadmits : w.Admits v) (hnumbered : w.Numbered)
    (he : w.ended? context = none) (hyields : work.Yields result) {future : List Event}
    (hprompt : isPrompt w.begun w (event :: future) = true) :
    Decided w.begun context (w.now + duration) (fun v => (result v).1) w (event :: future) := by
  obtain ⟨habsent, hunfinished⟩ := hadmits.absent hnumbered
  have hbefore := (hnumbered w.begun (Nat.le_refl _)).2
  have hprompt := (Bool.and_eq_true_iff.mp hprompt).2
  obtain ⟨hcancelled, hdeadline⟩ := of_ended?_eq_none he
  cases h with
  | refused he' => cases he'.symm.trans he
  | done _ hduration =>
    have hover := over_finish (w := {v with engine := (result w).2}) hadmits.lt habsent
      hunfinished (result w).1
    rw [← hstep] at hover
    refine .of_ends hbefore hover ?_ future
    subst hduration
    unfold cancelledNow?
    rw [hcancelled]
    exact .done nofun hdeadline
  | waits _ =>
    obtain ⟨ticket, hrace⟩ := hadmits.inRace hnumbered he duration work
    rw [← hstep] at hrace
    exact .cons hbefore hrace.unfinished
      (fun hcancelled' => by cases hcancelled.symm.trans hcancelled')
      (hrace.decided hyields hprompt)

/-- A put adds its document once, if it ends well. -/
theorem Starts.appendsOnce {record : Record} {index : String}
    (h : Starts w v context duration (.request (.write record index)) result w')
    (hstep : w.step event = w') (hadmits : w.Admits v) (hnumbered : w.Numbered)
    (hyields : (Work.request (.write record index)).Yields result) (future : List Event) :
    AppendsOnce w.begun record index w (event :: future)
      ((w, w.step event) :: turnsOf w.begun (w.step event) future) := by
  obtain ⟨habsent, hunfinished⟩ := hadmits.absent hnumbered
  cases h with
  | @refused e he =>
    have hover := over_finish hadmits.lt habsent hunfinished (.error e)
    rw [← hstep] at hover
    exact .of_ends hover ((congrArg World.engine hstep).trans hadmits.engine) future
  | done he hduration =>
    have hover := over_finish (w := {v with engine := (result w).2}) hadmits.lt habsent
      hunfinished (result w).1
    rw [← hstep] at hover
    cases hyields
    exact .of_ends hover ((congrArg World.engine hstep).trans (engine_written record index w))
      future
  | waits he =>
    obtain ⟨ticket, hrace⟩ := hadmits.inRace hnumbered he duration (.request (.write record index))
    rw [← hstep] at hrace
    exact .cons hrace.unfinished ((congrArg World.engine hstep).trans hadmits.engine)
      (hrace.toUnderWay.appendsOnce rfl future)

/-! ### Work that takes a while, and puts -/

theorem starts_pause (w : World) (context : Context) (duration : Nat)
    (outcome : Result Json.Value) :
    Starts w {w with begun := w.begun + 1} context duration (.pause outcome)
      (fun v => (outcome.map .value, v.engine)) (w.pause context duration outcome) := by
  have hsame : World.ended? {w with begun := w.begun + 1} context = w.ended? context := rfl
  unfold pause
  simp only [hsame]
  cases he : w.ended? context with
  | some e => exact .refused he
  | none =>
    by_cases hduration : duration = 0
    · simp only [if_pos hduration]
      exact .done he hduration
    · simp only [if_neg hduration]
      exact .waits he

/-- A world in which a call begins that stamps its record. -/
def stamped (w : World) : World :=
  {w with
    begun := w.begun + 1
    store := {w.store with
      memory := {w.store.memory with clock := w.store.memory.clock.read.2}}}

theorem begin_put {ns : Namespace} {classification path kind : String} (payload : String)
    (hmissing : Store.missing? (Call.put ns classification path kind payload).required = none)
    (w : World) (context : Context) :
    w.begin context (.put ns classification path kind payload) =
      w.stamped.request w.begun context
        (.write (.make classification path kind payload w.store.memory.clock.now)
          (w.store.index ns)) := by
  unfold begin Store.start Store.accept
  simp only [hmissing]
  rfl

theorem Admits.ended? (h : w.Admits v) (context : Context) :
    v.ended? context = w.ended? context := by
  unfold World.ended?
  rw [h.tokens, h.now]

/-- A write is served at once, or it waits. -/
theorem starts_request (hadmits : w.Admits v) (hfaults : v.faults = [])
    (hlatency : v.latency = w.latency) (context : Context) (record : Record) (index : String) :
    Starts w v context w.latency (.request (.write record index)) (written record index)
      (v.request w.begun context (.write record index)) := by
  have hended := hadmits.ended? context
  have hnow := hadmits.now
  obtain ⟨store, engine, latency, tokens, faults, begun, running, finished⟩ := v
  obtain rfl : faults = [] := hfaults
  obtain rfl : latency = w.latency := hlatency
  obtain rfl : engine = w.engine := hadmits.engine
  unfold request ask
  rw [hended]
  cases he : w.ended? context with
  | some e => exact .refused he
  | none =>
    by_cases hzero : w.latency = 0
    · have hdone : Starts w ⟨store, w.engine, w.latency, tokens, [], begun, running, finished⟩
          context w.latency (.request (.write record index)) (written record index) _ :=
        .done he hzero
      simp only [if_pos hzero]
      convert hdone using 1
      unfold written Engine.serve
      cases w.engine.unavailable <;> rfl
    · simp only [if_neg hzero]
      rw [hnow]
      exact .waits he

theorem admits_stamped (w : World) : w.Admits w.stamped := ⟨rfl, rfl, rfl, rfl, rfl, rfl⟩

/-! ### The race of a call -/

/-- How a call fares that an event begins: it is refused if its context has ended, and otherwise
races against it in every run without delay. -/
def Races (id : Nat) (context : Context) (due : Nat) (result : World → Outcome) (w : World)
    (event : Event) : Prop :=
  (w.tokens.isCancelled context.token = true →
    Refused id Error.cancelledByCaller w (w.step event)) ∧
  (w.tokens.isCancelled context.token = false →
    (∃ d, context.deadline = some d ∧ d ≤ w.now) →
      Refused id Error.deadlineExceeded w (w.step event)) ∧
  (w.tokens.isCancelled context.token = false →
    (∀ d, context.deadline = some d → w.now < d) →
      ∀ future, isPrompt id w (event :: future) = true →
        Decided id context due result w (event :: future))

theorem Starts.races (h : Starts w v context duration work result w')
    (hstep : w.step event = w') (hadmits : w.Admits v) (hnumbered : w.Numbered)
    (hyields : work.Yields result) :
    Races w.begun context (w.now + duration) (fun v => (result v).1) w event := by
  subst hstep
  refine ⟨fun hcancelled => ?_, fun hcancelled hover => ?_, fun hcancelled hlater future => ?_⟩
  all_goals rcases w.ended?_cases context with ⟨hc, he⟩ | ⟨hc, hd, he⟩ | ⟨hc, hd, he⟩
  · exact h.refused_of_ended hadmits hnumbered he
  · cases hc.symm.trans hcancelled
  · cases hc.symm.trans hcancelled
  · cases hc.symm.trans hcancelled
  · exact h.refused_of_ended hadmits hnumbered he
  · obtain ⟨d, hd', hle⟩ := hover
    exact absurd (hd d hd') (Nat.not_lt.mpr hle)
  · cases hc.symm.trans hcancelled
  · obtain ⟨d, hd', hle⟩ := hd
    exact absurd (hlater d hd') (Nat.not_lt.mpr hle)
  · exact h.decided rfl hadmits hnumbered he hyields

/-- **The race of a call.** Whatever has happened before: a call that begins after its token was
cancelled or its deadline has come fails at once and is never under way; that the caller gave up
weighs more. Any other ends, as long as time never passes an instant at which it is to be polled,
at the first of three instants: when its token is cancelled, when its deadline comes, when its
work is done. At one instant the cancellation counts before the deadline and the deadline before
the result, provided that the token is cancelled by the time the call is polled. At the instant at
which the call begins the order of events decides as well: a cancellation that comes before it
refuses it, and one that comes after it is in the race. A put adds its document in the turn in
which it ends well, which takes an engine that is available then, and at no other time. -/
theorem race_decided {start : World} (hnew : start.IsNew) (past : List Event)
    (context : Context) :
    let w := start.run past
    (∀ (duration : Nat) (outcome : Result Json.Value),
      Races w.begun context (w.now + duration) (fun _ => outcome.map .value) w
        (.pause context duration outcome)) ∧
    ∀ (ns : Namespace) (classification path kind payload : String), w.faults = [] →
      classification ≠ "" → path ≠ "" → kind ≠ "" →
      let record := Record.make classification path kind payload w.store.memory.clock.now
      let index := w.store.index ns
      let event := Event.begin context (.put ns classification path kind payload)
      Races w.begun context (w.now + w.latency) (fun v => (v.written record index).1) w event ∧
        ∀ future, AppendsOnce w.begun record index w (event :: future)
          ((w, w.step event) :: turnsOf w.begun (w.step event) future) := by
  intro w
  have hnumbered : w.Numbered := hnew.numbered.run past
  refine ⟨fun duration outcome => ?_, ?_⟩
  · have hstarts := w.starts_pause context duration outcome
    exact hstarts.races rfl ⟨rfl, rfl, rfl, rfl, rfl, rfl⟩ hnumbered (.pause outcome)
  · intro ns classification path kind payload hfaults hclassification hpath hkind record index event
    have hmissing : Store.missing? (Call.put ns classification path kind payload).required =
        none := by
      simp [Store.missing?, Call.required, hclassification, hpath, hkind]
    have hstarts := starts_request w.admits_stamped hfaults rfl context record index
    rw [← begin_put payload hmissing w context] at hstarts
    have hyields := Work.Yields.write record index
    exact ⟨hstarts.races rfl w.admits_stamped hnumbered hyields,
      hstarts.appendsOnce rfl w.admits_stamped hnumbered hyields⟩

/-- All three instants of a put are one, and the token is cancelled just before the call is polled:
the cancellation counts, and the document is not added. -/
theorem race_decided_of_ties :
    let ns : Namespace := ⟨"a", by decide, by decide⟩
    let context : Context := ⟨⟨[0]⟩, some 5⟩
    let start : World :=
      {store := ⟨.standard, {cache := .make second, clock := ⟨7, 0⟩}⟩, latency := 5}
    let record := Record.make "c" "p" "k" "v" 7
    let event := Event.begin context (.put ns "c" "p" "k" "v")
    let future : List Event := [.advance 5, .cancel ⟨[0]⟩, .poll 0]
    isPrompt 0 start (event :: future) = true ∧
      cancelledWhile? 0 context.token start (event :: future) = some 5 ∧
      (start.run (event :: future)).outcome? 0 = some (.error Error.cancelledByCaller) ∧
      Decided 0 context 5 (fun v => (v.written record "a_datastore").1) start (event :: future) ∧
      AppendsOnce 0 record "a_datastore" start (event :: future)
        ((start, start.step event) :: turnsOf 0 (start.step event) future) := by
  intro ns context start record event future
  have hnew : start.IsNew := ⟨rfl, rfl, rfl, rfl⟩
  obtain ⟨-, hput⟩ := race_decided hnew [] context
  obtain ⟨⟨-, -, hraces⟩, happends⟩ :=
    hput ns "c" "p" "k" "v" rfl (by decide) (by decide) (by decide)
  have hprompt : isPrompt 0 start (event :: future) = true := by decide +kernel
  have hdeadline : ∀ d, context.deadline = some d → start.now < d := by
    rintro _ ⟨rfl⟩
    decide
  exact ⟨hprompt, by decide +kernel, rfl, hraces rfl hdeadline future hprompt, happends future⟩

end World

/-- A cancellation that is announced for the instant at which a call is done, and that the call is
ahead of: the three instants call for a cancellation, and the call ends with its result. -/
theorem Agenda.result_of_tie :
    let token : Token := ⟨[0]⟩
    let result : Json.Value := .integer 7
    let start : Agenda := {world := {store := ⟨.standard, {cache := .make second, clock := ⟨7, 0⟩}⟩}}
    let ended := (start.cancelLater token 5).pause ⟨token, none⟩ 5 (.ok result)
    let settled := ended.settle
    ended.now = 5 ∧ ended.world.outcome? 0 = some (.ok (.value result)) ∧
      settled.now = 5 ∧ settled.world.tokens.isCancelled token = true ∧
      ¬Verdict (some 5) none 5 (.ok (.value result)) 5 (.ok (.value result)) := by
  refine ⟨by decide +kernel, rfl, by decide +kernel, by decide +kernel, ?_⟩
  intro h
  cases h with
  | done hcancelled => exact absurd (hcancelled 5 rfl) (Nat.lt_irrefl 5)

end VersionStore
