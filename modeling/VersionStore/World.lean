import VersionStore.Context
import VersionStore.Engine.Memory
import VersionStore.Store

/-! A store at work.

Many calls may be under way at one store, each under a context of its own. The engine
serves a request some time after it was made, at the moment when the waiting call is
polled; a call whose context has ended by then stops instead, and its request is never
served. What happens is a list of events in any order: time passes, calls begin and are
polled, timers of the cache fire, tokens are cancelled, somebody interferes with the
engine or the clock. Nothing here says when a call is polled or a timer fires; an agenda
does. -/
namespace VersionStore

/-- What a call is busy with: a request to the engine, or work that takes a while and has a
given result. -/
inductive Work where
  | request (await : Await)
  | pause (outcome : Result Json.Value)

/-- A call under way. It is over, if its context lasts, when its wait is. -/
structure Running where
  id : Nat
  context : Context
  wait : Wait
  work : Work

/-- A store, its engine, and all that is under way. -/
structure World where
  store : Store
  engine : Engine := {}
  /-- How long the engine takes to serve a request. -/
  latency : Nat := 0
  tokens : Tokens := {}
  /-- Failures in store: the first one meets the next request of its kind. -/
  faults : List (RequestKind × Error) := []
  /-- How many calls have begun. -/
  begun : Nat := 0
  running : List Running := []
  finished : List (Nat × Outcome) := []

/-- What can happen. A call that begins gets the number of calls begun before it. -/
inductive Event where
  | advance (amount : Nat)
  | begin (context : Context) (call : Call)
  | pause (context : Context) (duration : Nat) (outcome : Result Json.Value)
  | poll (id : Nat)
  | fire (generation : Nat)
  | cancel (token : Token)
  | insert (index : String) (document : Json.Value)
  | setUnavailable (unavailable : Bool)
  | fault (kind : RequestKind) (error : Error)
  | setClock (time : Int64)
  | advanceClock (amount : Int64)
  | clearCache

namespace World

def now (w : World) : Nat := w.store.memory.now

def withMemory (w : World) (memory : LiveCache Record) : World :=
  {w with store := {w.store with memory := memory}}

/-- Why a context has ended, if it has. -/
def ended? (w : World) (context : Context) : Option Error := context.ended? w.tokens w.now

def running? (w : World) (id : Nat) : Option Running := w.running.find? (·.id == id)

def outcome? (w : World) (id : Nat) : Option Outcome := w.finished.lookup id

def finish (w : World) (id : Nat) (outcome : Outcome) : World :=
  {w with finished := w.finished ++ [(id, outcome)]}

/-- Lets a call wait until an instant. -/
def suspend (w : World) (id : Nat) (context : Context) (due : Nat) (work : Work) : World :=
  let (wait, time) := w.store.memory.time.wait due
  let w := w.withMemory {w.store.memory with time := time}
  {w with running := w.running ++ [⟨id, context, wait, work⟩]}

/-- Makes a request. It is answered at once if the context has ended, if a failure is in
store for it, or if the engine takes no time. -/
def ask (w : World) (context : Context) (request : Request) :
    Option (Result request.Answer) × World :=
  match w.ended? context with
  | some e => (some (.error e), w)
  | none =>
    let serve : Option (Result request.Answer) × World :=
      if w.latency = 0 then
        let (answer, engine) := w.engine.serve request
        (some answer, {w with engine := engine})
      else (none, w)
    match w.faults with
    | (kind, e) :: faults =>
      if kind = request.kind then (some (.error e), {w with faults := faults}) else serve
    | [] => serve

/-- Makes the index of a call that has removed it. The call ends with the answer. -/
def create (w : World) (id : Nat) (context : Context) (index : String) : World :=
  match w.ask context (.createIndex index) with
  | (some answer, w) => w.finish id (answer.map fun _ => .done)
  | (none, w) => w.suspend id context (w.now + w.latency) (.request (.creation index))

/-- Goes on with a call that got its answer. -/
def resume (w : World) (id : Nat) (context : Context) (await : Await)
    (answer : Result await.request.Answer) : World :=
  match w.store.resume await answer with
  | (.ended outcome, store) => {w with store := store}.finish id outcome
  | (.creates index, store) => {w with store := store}.create id context index

/-- Makes the request that a call waits for. -/
def request (w : World) (id : Nat) (context : Context) (await : Await) : World :=
  match w.ask context await.request with
  | (some answer, w) => w.resume id context await answer
  | (none, w) => w.suspend id context (w.now + w.latency) (.request await)

def begin (w : World) (context : Context) (call : Call) : World :=
  let id := w.begun
  let w := {w with begun := w.begun + 1}
  match w.store.start (w.ended? context) call with
  | (.ended outcome, store) => {w with store := store}.finish id outcome
  | (.waits await, store) => {w with store := store}.request id context await

/-- Begins a piece of work that takes a while, unless the context has ended. -/
def pause (w : World) (context : Context) (duration : Nat) (outcome : Result Json.Value) : World :=
  let id := w.begun
  let w := {w with begun := w.begun + 1}
  match w.ended? context with
  | some e => w.finish id (.error e)
  | none =>
    if duration = 0 then w.finish id (outcome.map .value)
    else w.suspend id context (w.now + duration) (.pause outcome)

/-- Ends the wait of a call with an error. -/
def stop (w : World) (r : Running) (e : Error) : World :=
  match r.work with
  | .request await => w.resume r.id r.context await (.error e)
  | .pause _ => w.finish r.id (.error e)

/-- Ends the wait of a call: the engine serves its request. -/
def complete (w : World) (r : Running) : World :=
  match r.work with
  | .request await =>
    let (answer, engine) := w.engine.serve await.request
    {w with engine := engine}.resume r.id r.context await answer
  | .pause outcome => w.finish r.id (outcome.map .value)

/-- Polls a call. It stops if its context has ended; otherwise it goes on if its wait is over. -/
def poll (w : World) (id : Nat) : World :=
  match w.running? id with
  | none => w
  | some r =>
    let rest := {w with running := w.running.filter (·.id != id)}
    match w.ended? r.context with
    | some e => rest.stop r e
    | none => if r.wait.due ≤ w.now then rest.complete r else w

def step (w : World) : Event → World
  | .advance amount => w.withMemory (w.store.memory.advance amount)
  | .begin context call => w.begin context call
  | .pause context duration outcome => w.pause context duration outcome
  | .poll id => w.poll id
  | .fire generation => w.withMemory (w.store.memory.fire generation)
  | .cancel token => {w with tokens := w.tokens.cancel token}
  | .insert index document => {w with engine := w.engine.insert index document}
  | .setUnavailable unavailable => {w with engine := {w.engine with unavailable := unavailable}}
  | .fault kind error => {w with faults := w.faults ++ [(kind, error)]}
  | .setClock time =>
    w.withMemory {w.store.memory with clock := w.store.memory.clock.set time}
  | .advanceClock amount =>
    w.withMemory {w.store.memory with clock := w.store.memory.clock.advance amount}
  | .clearCache => w.withMemory w.store.memory.clear

def run (w : World) : List Event → World
  | [] => w
  | event :: rest => run (w.step event) rest

theorem run_append (w : World) (a b : List Event) : w.run (a ++ b) = (w.run a).run b := by
  induction a generalizing w with
  | nil => rfl
  | cons event rest ih => exact ih _

end World

end VersionStore
