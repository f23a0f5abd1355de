import VersionStore.Cache.Key
import VersionStore.Cache.Live
import VersionStore.Config
import VersionStore.Engine.Request
import VersionStore.Record

/-! A store of versioned records.

A write appends a new version of a path and leaves the cache alone. A read asks the cache
first; on a miss it searches the index of its namespace for the newest version and keeps
what it finds, unless the cache was flushed in the meantime. Removing a namespace clears
the cache.

A call makes at most two requests to the engine. The store is therefore given in two
steps: `start` says what a call asks for first, and `resume` what follows from the
answer. Between the two anything may happen to the store. A read of a newest version
starts in three steps of its own (`accept`, `lookUp`, `fetching`), each of which touches
the store once. -/
namespace VersionStore

/-- A store: its settings, and its cache with the clock that stamps its records. -/
structure Store where
  config : StoreConfig
  memory : LiveCache Record

/-- What can be asked of a store. -/
inductive Call where
  /-- Appends a version. -/
  | put (ns : Namespace) (classification path kind payload : String)
  /-- The newest version of a path, possibly from the cache. -/
  | get (ns : Namespace) (classification path : String)
  /-- The newest version of a path, from the engine. -/
  | getFresh (ns : Namespace) (classification path : String)
  /-- The newest version among the identifiers that start with a text. -/
  | getStarting (ns : Namespace) (classification start : String)
  /-- The version of a path that was written at a given time. -/
  | getVersion (ns : Namespace) (classification path : String) (timestamp : Int64)
  /-- The versions of a path, the newest first. -/
  | history (ns : Namespace) (classification path : String) (limit : UInt64)
  /-- Removes a namespace; a detached removal leaves the cache alone. -/
  | delete (ns : Namespace) (detached : Bool)
  /-- Removes a namespace and makes it again, empty. -/
  | reset (ns : Namespace) (detached : Bool)
  /-- The namespaces there are. -/
  | listNamespaces
  /-- A request to the engine, past the store. -/
  | direct (request : Request)

/-- What a call returns. -/
inductive Reply where
  | done
  | record (r : Record)
  | records (rs : List Record)
  | namespaces (nss : List Namespace)
  | documents (documents : List Json.Value)
  | names (names : List String)
  | value (v : Json.Value)

/-- How a call ends. -/
abbrev Outcome := Result Reply

/-- What a call is waiting for, with all it needs to go on. -/
inductive Await where
  | write (record : Record) (index : String)
  | latest (key : CacheKey) (query : Query) (index : String) (epoch : Nat)
  | version (ns : Namespace) (identifier : Identifier) (timestamp : Int64) (query : Query)
      (index : String)
  | versions (query : Query) (index : String)
  | removal (index : String) (detached : Bool) (again : Bool)
  | creation (index : String)
  | listing
  | direct (request : Request)

def Await.request : Await → Request
  | .write record index =>
    .index index record.classification record.identifier.text record.document
  | .latest _ query index _ => .search index query
  | .version _ _ _ query index => .search index query
  | .versions query index => .search index query
  | .removal index _ _ => .deleteIndices index
  | .creation index => .createIndex index
  | .listing => .listIndices
  | .direct request => request

/-- A read of a newest version: whether the cache may answer it, the key that its result is
kept under, and the query that finds it. -/
structure LatestRead where
  cached : Bool
  key : CacheKey
  query : Query

namespace LatestRead

def ofPath (cached : Bool) (ns : Namespace) (classification path : String) : LatestRead :=
  let identifier := Identifier.derive path
  ⟨cached, .ofIdentifier ns classification identifier, .latest identifier classification⟩

def ofStart (ns : Namespace) (classification start : String) : LatestRead :=
  ⟨true, .ofStart ns classification start, .latestStarting start classification⟩

end LatestRead

/-- The arguments of a call that must not be empty, by name. -/
def Call.required : Call → List (String × String)
  | .put _ classification path kind _ =>
    [("classification", classification), ("path", path), ("kind", kind)]
  | .get _ classification _ | .getFresh _ classification _ | .getVersion _ classification _ _
  | .history _ classification _ _ => [("classification", classification)]
  | .getStarting _ classification text =>
    [("classification", classification), ("identifier prefix", text)]
  | .delete .. | .reset .. | .listNamespaces | .direct _ => []

/-- A call whose arguments were looked at has ended, waits for an answer, or reads a newest
version. -/
inductive Accepted where
  | ended (outcome : Outcome)
  | waits (await : Await)
  | reads (read : LatestRead)

/-- A call that has started has either ended or waits for an answer. -/
inductive Started where
  | ended (outcome : Outcome)
  | waits (await : Await)

/-- A call that got its answer has ended, or goes on to make an index that it removed. -/
inductive Resumed where
  | ended (outcome : Outcome)
  | creates (index : String)

/-- Orders namespaces by name, without repetitions. -/
def sortedNamespaces (nss : List Namespace) : List Namespace :=
  (Table.ofList (nss.map fun ns => (ns.text, ns))).map (·.2)

/-- The answer to a request past the store, as a reply. -/
def Request.reply : (request : Request) → request.Answer → Reply
  | .index .., _ => .done
  | .search .., documents => .documents documents
  | .createIndex _, _ => .done
  | .deleteIndices _, _ => .done
  | .listIndices, names => .names names

/-- Reads documents, all of which must be records. -/
def decodeAll (documents : List Json.Value) : Result (List Record) := documents.mapM Record.decode

namespace Store

def index (store : Store) (ns : Namespace) : String := ns.indexName store.config.suffix

/-- The error of an argument that is empty, if one is; the first is reported. -/
def missing? : List (String × String) → Option Error
  | [] => none
  | (name, value) :: rest =>
    if value.toList.isEmpty then some (Error.missing name) else missing? rest

/-- Looks at the arguments of a call. A write is stamped by the clock. -/
def accept (call : Call) (store : Store) : Accepted × Store :=
  match missing? call.required with
  | some e => (.ended (.error e), store)
  | none =>
    match call with
    | .put ns classification path kind payload =>
      let (stamp, clock) := store.memory.clock.read
      let record := Record.make classification path kind payload stamp
      (.waits (.write record (store.index ns)),
        {store with memory := {store.memory with clock := clock}})
    | .get ns classification path => (.reads (.ofPath true ns classification path), store)
    | .getFresh ns classification path => (.reads (.ofPath false ns classification path), store)
    | .getStarting ns classification start => (.reads (.ofStart ns classification start), store)
    | .getVersion ns classification path timestamp =>
      let identifier := Identifier.derive path
      (.waits (.version ns identifier timestamp (.version identifier classification timestamp)
        (store.index ns)), store)
    | .history ns classification path limit =>
      if limit = 0 then (.ended (.error (Error.invalid "limit" "must be > 0")), store)
      else
        let identifier := Identifier.derive path
        (.waits (.versions (.versions identifier classification limit) (store.index ns)), store)
    | .delete ns detached => (.waits (.removal (store.index ns) detached false), store)
    | .reset ns detached => (.waits (.removal (store.index ns) detached true), store)
    | .listNamespaces => (.waits .listing, store)
    | .direct request => (.waits (.direct request), store)

/-- Asks the cache for a newest version, if it may answer. -/
def lookUp (read : LatestRead) (store : Store) : Option Record × Store :=
  if store.config.caching && read.cached then
    let (hit, memory) := store.memory.get read.key.encode
    (hit.map (·.value), {store with memory := memory})
  else (none, store)

/-- What a read waits for that the cache did not answer. The epoch is noted now: what is found
is kept only if nothing is dropped until then. -/
def fetching (read : LatestRead) (store : Store) : Await :=
  .latest read.key read.query (store.index read.key.scope) store.memory.cache.epoch

/-- A read of a newest version. Nothing is read under a context that has `ended`. -/
def startLatest (ended : Option Error) (read : LatestRead) (store : Store) : Started × Store :=
  match ended with
  | some e => (.ended (.error e), store)
  | none =>
    match store.lookUp read with
    | (some record, store) => (.ended (.ok (.record record)), store)
    | (none, store) => (.waits (store.fetching read), store)

/-- Starts a call, under a context that may have `ended`. -/
def start (ended : Option Error) (call : Call) (store : Store) : Started × Store :=
  match store.accept call with
  | (.ended outcome, store) => (.ended outcome, store)
  | (.waits await, store) => (.waits await, store)
  | (.reads read, store) => store.startLatest ended read

/-- The error of a read that found nothing. -/
def notFound (ns : Namespace) (key : String) : Error := .storage (.notFound ns.text key)

/-- Keeps a record that was fetched at an epoch, if reads are cached. -/
def keep (key : CacheKey) (record : Record) (epoch : Nat) (store : Store) : Store :=
  if store.config.caching then
    {store with memory := (store.memory.storeUnless key.encode record epoch).2}
  else store

/-- What follows a removal: that there was no index to remove is as good as having removed it. -/
def afterRemoval (index : String) (detached again : Bool) (store : Store) : Resumed × Store :=
  let store := if detached then store else {store with memory := store.memory.clear}
  (if again then .creates index else .ended (.ok .done), store)

def resume (store : Store) : (await : Await) → Result await.request.Answer → Resumed × Store
  | .write record _, .ok _ => (.ended (.ok (.record record)), store)
  | .latest key _ _ epoch, .ok documents =>
    match decodeAll documents with
    | .error e => (.ended (.error e), store)
    | .ok [] => (.ended (.error (notFound key.scope key.text)), store)
    | .ok (record :: _) => (.ended (.ok (.record record)), store.keep key record epoch)
  | .version ns identifier timestamp _ _, .ok documents =>
    match decodeAll documents with
    | .error e => (.ended (.error e), store)
    | .ok [] =>
      (.ended (.error (notFound ns (identifier.text ++ "@" ++ toString timestamp.toInt))), store)
    | .ok (record :: _) => (.ended (.ok (.record record)), store)
  | .versions .., .ok documents => (.ended ((decodeAll documents).map .records), store)
  | .removal index detached again, .ok _ => store.afterRemoval index detached again
  | .removal index detached again, .error (.storage (.indexMissing _)) =>
    store.afterRemoval index detached again
  | .creation _, .ok _ => (.ended (.ok .done), store)
  | .listing, .ok names =>
    (.ended (.ok (.namespaces (sortedNamespaces
      (names.filterMap (Namespace.ofIndexName? · store.config.suffix))))), store)
  | .direct request, .ok answer => (.ended (.ok (request.reply answer)), store)
  | _, .error e => (.ended (.error e), store)

end Store

end VersionStore
