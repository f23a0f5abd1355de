import VersionStore.World

/-! When things happen.

An agenda carries a world through time. It polls a waiting call as soon as its wait is
over or its context ends, fires the timers of the cache when they are due, and cancels
tokens at announced times. What is due earlier happens earlier; of several things due at
one instant, the call that is waited for goes first, then the one whose wait began first.
Time can also jump: then whatever came due on the way happens only afterwards. -/
namespace VersionStore

/-- A world, and the tokens that will be cancelled later. -/
structure Agenda where
  world : World
  cancellations : List (Wait × Token) := []

/-- Something that becomes due. -/
inductive Task where
  | poll (id : Nat)
  | fire (generation : Nat)
  | cancel (ticket : Nat) (token : Token)

/-- Whether a task is what goes on with a call. -/
def Task.isFor (call : Option Nat) : Task → Bool
  | .poll id => call == some id
  | _ => false

namespace Agenda

def now (a : Agenda) : Nat := a.world.now

/-- When a waiting call is to be polled: when its wait is over, or its context ends before. -/
def wakeup (w : World) (r : Running) : Wait :=
  if w.tokens.isCancelled r.context.token then {r.wait with due := min r.wait.due w.now}
  else
    match r.context.deadline with
    | some deadline => {r.wait with due := min r.wait.due deadline}
    | none => r.wait

def tasks (a : Agenda) : List (Wait × Task) :=
  a.cancellations.map (fun (wait, token) => (wait, .cancel wait.ticket token)) ++
    a.world.store.memory.timers.map (fun timer => (timer.wait, .fire timer.number)) ++
    a.world.running.map fun r => (wakeup a.world r, .poll r.id)

/-- Whether a task comes before another. What is due earlier does; of tasks due at one
instant, the one that goes on with the call in front, then the one whose wait began first. -/
def precedes (front : Option Nat) (a b : Wait × Task) : Bool :=
  decide (a.1.due < b.1.due) ||
    (a.1.due == b.1.due && (a.2.isFor front || (!b.2.isFor front && a.1.precedes b.1)))

/-- The task that comes first. -/
def first (front : Option Nat) : List (Wait × Task) → Option (Wait × Task)
  | [] => none
  | task :: rest =>
    match first front rest with
    | none => some task
    | some other => if precedes front task other then some task else some other

def next? (front : Option Nat) (a : Agenda) : Option (Wait × Task) := first front a.tasks

def passTo (a : Agenda) (instant : Nat) : Agenda :=
  {a with world := a.world.step (.advance (instant - a.now))}

def perform (a : Agenda) : Task → Agenda
  | .poll id => {a with world := a.world.step (.poll id)}
  | .fire generation => {a with world := a.world.step (.fire generation)}
  | .cancel ticket token =>
    {a with
      world := a.world.step (.cancel token)
      cancellations := a.cancellations.filter (·.1.ticket != ticket)}

/-- Carries out the tasks that are due by an instant, each at its time, as long as `goOn`
holds; at most `count` of them. -/
def proceed (front : Option Nat) (goOn : Agenda → Bool) (limit : Option Nat) :
    Nat → Agenda → Agenda
  | 0, a => a
  | count + 1, a =>
    if goOn a then
      match a.next? front with
      | none => a
      | some (wait, task) =>
        if limit.all (wait.due ≤ ·) then
          proceed front goOn limit count ((a.passTo wait.due).perform task)
        else a
    else a

/-- A bound on the number of tasks to come: a call may be polled twice, and each answer may
start a timer. -/
def bound (a : Agenda) : Nat :=
  a.cancellations.length + a.world.store.memory.timers.length + 4 * a.world.running.length

/-- Carries out all that is due now. -/
def settle (a : Agenda) : Agenda := a.proceed none (fun _ => true) (some a.now) a.bound

/-- Lets time pass; things happen as they become due. -/
def sleep (a : Agenda) (amount : Nat) : Agenda :=
  let instant := a.now + amount
  (a.proceed none (fun _ => true) (some instant) a.bound).passTo instant

/-- Moves time at once; nothing happens by that. -/
def jump (a : Agenda) (amount : Nat) : Agenda := a.passTo (a.now + amount)

def join (a : Agenda) (id : Nat) (front : Option Nat := none) : Agenda :=
  a.proceed front (fun a => (a.world.outcome? id).isNone) none a.bound

/-- Begins a call and waits until it has ended. -/
def call (a : Agenda) (context : Context) (call : Call) : Agenda :=
  let id := a.world.begun
  {a with world := a.world.step (.begin context call)}.join id (some id)

/-- Begins a piece of work and waits until it has ended. -/
def pause (a : Agenda) (context : Context) (duration : Nat) (outcome : Result Json.Value) :
    Agenda :=
  let id := a.world.begun
  {a with world := a.world.step (.pause context duration outcome)}.join id (some id)

/-- Announces that a token will be cancelled. -/
def cancelLater (a : Agenda) (token : Token) (delay : Nat) : Agenda :=
  let memory := a.world.store.memory
  let (wait, time) := memory.time.wait (a.now + delay)
  { world := a.world.withMemory {memory with time := time}
    cancellations := a.cancellations ++ [(wait, token)] }

end Agenda

end VersionStore
