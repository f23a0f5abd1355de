import VersionStore.Context
import VersionStore.Engine.Memory
import VersionStore.Store

/-! A store used from many threads.

Calls on threads of their own meet wherever they touch what they share: the clock, the
cache, the engine. Each call is therefore cut into stages, and one move takes one call
from a stage to the next, by the functions that the store is made of. Which call moves
next is left open, and so is how long the engine takes: a request that waits may be
served at any later move, or given up once its context has ended.

A world polls a call until it has to wait, and so makes several moves in a row. What
holds after every list of moves holds for a world as well. -/
namespace VersionStore

/-- Where a call stands. -/
inductive Stage where
  /-- Nothing has been done. -/
  | called
  /-- A read of a newest version, under a context that had not ended, is to ask the cache. -/
  | admitted (read : LatestRead)
  /-- A read that the cache did not answer is to note the epoch and make its request. -/
  | missed (read : LatestRead)
  /-- A request is with the engine. -/
  | waiting (await : Await)
  /-- The answer is there, and nothing has been made of it. -/
  | answered (await : Await) (answer : Result await.request.Answer)
  | ended (outcome : Outcome)

/-- Takes a call to its next stage. A call that waits or has ended stays where it is. -/
def Store.proceed (ended : Option Error) (call : Call) (store : Store) : Stage → Stage × Store
  | .called =>
    match store.accept call, ended with
    | (.ended outcome, store), _ => (.ended outcome, store)
    | (.waits await, store), _ => (.waiting await, store)
    | (.reads _, store), some e => (.ended (.error e), store)
    | (.reads read, store), none => (.admitted read, store)
  | .admitted read =>
    match store.lookUp read with
    | (some record, store) => (.ended (.ok (.record record)), store)
    | (none, store) => (.missed read, store)
  | .missed read => (.waiting (store.fetching read), store)
  | .answered await answer =>
    match store.resume await answer with
    | (.ended outcome, store) => (.ended outcome, store)
    | (.creates index, store) => (.waiting (.creation index), store)
  | stage => (stage, store)

/-- A call, what it runs under, and where it stands. -/
structure Thread where
  call : Call
  context : Context
  stage : Stage := .called

/-- A store, its engine, and all calls ever made, in the order in which they began. -/
structure Threads where
  store : Store
  engine : Engine := {}
  tokens : Tokens := {}
  calls : List Thread := []

/-- What can happen. Calls are known by how many began before them. -/
inductive Move where
  | begin (context : Context) (call : Call)
  /-- A call does what is next in it. -/
  | go (id : Nat)
  /-- The engine serves the request of a waiting call. -/
  | serve (id : Nat)
  /-- A waiting call finds that its context has ended. -/
  | stop (id : Nat)
  | advance (amount : Nat)
  | fire (generation : Nat)
  | cancel (token : Token)
  | setUnavailable (unavailable : Bool)
  | setClock (time : Int64)
  | advanceClock (amount : Int64)
  | clearCache
  /-- A wait begins that has nothing to do with the store. -/
  | draw

/-- Whether a call is one of the store's own operations. -/
def Call.isOwn : Call → Bool
  | .direct _ => false
  | _ => true

/-- Whether a move leaves the engine to the store's own operations. -/
def Move.isOwn : Move → Bool
  | .begin _ call => call.isOwn
  | _ => true

namespace Threads

/-- A new store over an engine, before any call. `timed` says whether timers can be started. -/
def fresh (config : StoreConfig) (clock : Clock) (timed : Bool := true) (engine : Engine := {}) :
    Threads where
  store := ⟨config, {cache := .make config.ttl, clock := clock, timed := timed}⟩
  engine := engine

def now (t : Threads) : Nat := t.store.memory.now

def index (t : Threads) (ns : Namespace) : String := t.store.index ns

def epoch (t : Threads) : Nat := t.store.memory.cache.epoch

def call? (t : Threads) (id : Nat) : Option Call := t.calls[id]?.map (·.call)

def outcome? (t : Threads) (id : Nat) : Option Outcome :=
  t.calls[id]?.bind fun c =>
    match c.stage with
    | .ended outcome => some outcome
    | _ => none

def withMemory (t : Threads) (memory : LiveCache Record) : Threads :=
  {t with store := {t.store with memory := memory}}

def place (t : Threads) (id : Nat) (stage : Stage) : Threads :=
  {t with calls := t.calls.modify id ({· with stage := stage})}

/-- A call does what is next in it. -/
def go (t : Threads) (id : Nat) : Threads :=
  match t.calls[id]? with
  | none => t
  | some c =>
    let (stage, store) := t.store.proceed (c.context.ended? t.tokens t.now) c.call c.stage
    {t with store := store}.place id stage

/-- The engine serves the request of a call, if it waits. -/
def serve (t : Threads) (id : Nat) : Threads :=
  match t.calls[id]? with
  | some ⟨_, _, .waiting await⟩ =>
    let (answer, engine) := t.engine.serve await.request
    {t with engine := engine}.place id (.answered await answer)
  | _ => t

/-- A call gives up its wait, if its context has ended. -/
def stop (t : Threads) (id : Nat) : Threads :=
  match t.calls[id]? with
  | some ⟨_, context, .waiting await⟩ =>
    match context.ended? t.tokens t.now with
    | some e => t.place id (.answered await (.error e))
    | none => t
  | _ => t

def step (t : Threads) : Move → Threads
  | .begin context call => {t with calls := t.calls ++ [{ call := call, context := context }]}
  | .go id => t.go id
  | .serve id => t.serve id
  | .stop id => t.stop id
  | .advance amount => t.withMemory (t.store.memory.advance amount)
  | .fire generation => t.withMemory (t.store.memory.fire generation)
  | .cancel token => {t with tokens := t.tokens.cancel token}
  | .setUnavailable unavailable => {t with engine := {t.engine with unavailable := unavailable}}
  | .setClock time => t.withMemory {t.store.memory with clock := t.store.memory.clock.set time}
  | .advanceClock amount =>
    t.withMemory {t.store.memory with clock := t.store.memory.clock.advance amount}
  | .clearCache => t.withMemory t.store.memory.clear
  | .draw => t.withMemory {t.store.memory with time := (t.store.memory.time.wait t.now).2}

def run (t : Threads) : List Move → Threads
  | [] => t
  | move :: rest => run (t.step move) rest

theorem run_append (t : Threads) (a b : List Move) : t.run (a ++ b) = (t.run a).run b := by
  induction a generalizing t with
  | nil => rfl
  | cons move rest ih => exact ih _

end Threads

end VersionStore
