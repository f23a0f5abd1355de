import VersionStore.Proofs.Cache.Entries
import VersionStore.Proofs.Record

/-! What a call asks for, and what it makes of the answer.

Each call waits for requests of its own (`Asks`), and a read returns only records that its
documents hold (`decode_of_resume`). A cache gets nothing from a call but the record of a
read of a newest version, under the key of that read and at the epoch that it noted
(`recedes_or_keep`). -/
namespace VersionStore

def Reply.contents : Reply → List Record
  | .record r => [r]
  | .records rs => rs
  | _ => []

/-- Whether an error says no more than that a request was not served. -/
def Error.IsUnserved (e : Error) : Prop := e.kind = .unavailable ∨ e.kind = .cancelled

namespace Call

/-- The read of a newest version that a call stands for, if it is one. -/
def latest? : Call → Option LatestRead
  | .get ns classification path => some (.ofPath true ns classification path)
  | .getFresh ns classification path => some (.ofPath false ns classification path)
  | .getStarting ns classification start => some (.ofStart ns classification start)
  | _ => none

/-- The namespace that a call reads records from, if it reads any. -/
def reads? : Call → Option Namespace
  | .get ns _ _ | .getFresh ns _ _ | .getStarting ns _ _ | .getVersion ns _ _ _
  | .history ns _ _ _ => some ns
  | _ => none

/-- Whether a record is one that a read asks for. -/
def Suits : Call → Record → Prop
  | .get _ classification path, r | .getFresh _ classification path, r
  | .history _ classification path _, r =>
    r.classification = classification ∧ r.identifier = Identifier.derive path
  | .getStarting _ classification start, r =>
    r.classification = classification ∧ r.identifier.startsWith start = true
  | .getVersion _ classification path timestamp, r =>
    r.classification = classification ∧ r.identifier = Identifier.derive path ∧
      r.timestamp = timestamp
  | _, _ => False

end Call

namespace CacheKey

/-- Whether a record is one that belongs under a key. -/
def Suits (key : CacheKey) (r : Record) : Prop :=
  r.classification = key.classification ∧
    match key.lookup with
    | .identifier => r.identifier.text = key.text
    | .start => r.identifier.startsWith key.text = true

theorem suits_ofIdentifier {ns : Namespace} {classification : String} {identifier : Identifier}
    {r : Record} : (ofIdentifier ns classification identifier).Suits r ↔
      r.classification = classification ∧ r.identifier = identifier := by
  obtain ⟨text⟩ := identifier
  obtain ⟨⟨_⟩, _⟩ := r
  simp [Suits, ofIdentifier]

end CacheKey

namespace Call

variable {call : Call} {read : LatestRead}

theorem reads?_of_latest? (h : call.latest? = some read) : call.reads? = some read.key.scope := by
  cases call <;> cases h <;> rfl

/-- A read asks for what belongs under its key. -/
theorem suits_iff_of_latest? (h : call.latest? = some read) (r : Record) :
    call.Suits r ↔ read.key.Suits r := by
  cases call <;> cases h
  case get => exact CacheKey.suits_ofIdentifier.symm
  case getFresh => exact CacheKey.suits_ofIdentifier.symm
  case getStarting => rfl

/-- The query of a read finds only what belongs under its key. -/
theorem suits_of_accepts (h : call.latest? = some read) {r : Record}
    (haccepts : read.query.filter.accepts r.document = true) : call.Suits r := by
  cases call <;> cases h
  case get =>
    simpa [LatestRead.ofPath, Query.latest, Filter.accepts_newest, Filter.accepts_id, Suits,
      and_comm] using haccepts
  case getFresh =>
    simpa [LatestRead.ofPath, Query.latest, Filter.accepts_newest, Filter.accepts_id, Suits,
      and_comm] using haccepts
  case getStarting =>
    simpa [LatestRead.ofStart, Query.latestStarting, Filter.accepts_newest, Filter.accepts_start,
      Suits, and_comm] using haccepts

end Call

/-! ### What a call waits for -/

/-- What a call may wait for, where `index` names the indices of namespaces. -/
inductive Asks (index : Namespace → String) : Call → Await → Prop
  | write {ns : Namespace} {classification path kind payload : String} (stamp : Int64) :
    Asks index (.put ns classification path kind payload)
      (.write (.make classification path kind payload stamp) (index ns))
  | latest {call : Call} {read : LatestRead} (h : call.latest? = some read) (epoch : Nat) :
    Asks index call (.latest read.key read.query (index read.key.scope) epoch)
  | version {ns : Namespace} {classification path : String} {timestamp : Int64} :
    Asks index (.getVersion ns classification path timestamp)
      (.version ns (.derive path) timestamp (.version (.derive path) classification timestamp)
        (index ns))
  | versions {ns : Namespace} {classification path : String} {limit : UInt64} :
    Asks index (.history ns classification path limit)
      (.versions (.versions (.derive path) classification limit) (index ns))
  | delete {ns : Namespace} {detached : Bool} :
    Asks index (.delete ns detached) (.removal (index ns) detached false)
  | reset {ns : Namespace} {detached : Bool} :
    Asks index (.reset ns detached) (.removal (index ns) detached true)
  | creation {ns : Namespace} {detached : Bool} :
    Asks index (.reset ns detached) (.creation (index ns))
  | listing : Asks index .listNamespaces .listing
  | direct {request : Request} : Asks index (.direct request) (.direct request)

namespace Await

/-- The key and the epoch at which a read of a newest version will keep what it finds. -/
def noted? : Await → Option (CacheKey × Nat)
  | .latest key _ _ epoch => some (key, epoch)
  | _ => none

/-- What a call waits for as soon as its arguments are accepted. A write bears the stamp. -/
def IsFirst (stamp : Int64) : Await → Prop
  | .write record _ => record.timestamp = stamp
  | .latest .. | .creation _ => False
  | _ => True

/-- The documents in the answer to a read. -/
def documents : (await : Await) → Result await.request.Answer → List Json.Value
  | .latest .., answer => answer.toOption.getD []
  | .version .., answer => answer.toOption.getD []
  | .versions .., answer => answer.toOption.getD []
  | _, _ => []

@[simp] theorem documents_error (await : Await) (e : Error) : await.documents (.error e) = [] := by
  cases await <;> rfl

end Await

/-- Only a read of a newest version notes an epoch. -/
theorem Asks.latest?_of_noted? {index : Namespace → String} {call : Call} {await : Await}
    {key : CacheKey} {epoch : Nat} (h : Asks index call await)
    (hnoted : await.noted? = some (key, epoch)) :
    ∃ read, call.latest? = some read ∧ read.key = key := by
  cases h with
  | latest hlatest =>
    cases hnoted
    exact ⟨_, hlatest, rfl⟩
  | _ => cases hnoted

/-! ### Accepting a call -/

namespace Store

/-- The settings decide how indices are named. -/
theorem index_of_config {a b : Store} (h : b.config = a.config) : b.index = a.index := by
  funext ns
  unfold index
  rw [h]

theorem missing?_eq_some {required : List (String × String)} {e : Error}
    (h : missing? required = some e) : ∃ cause, e = .argument cause := by
  induction required with
  | nil => cases h
  | cons argument rest ih =>
    unfold missing? at h
    split at h
    · exact ⟨_, (Option.some.inj h).symm⟩
    · exact ih h

/-- What can become of a call whose arguments are looked at. -/
inductive Accepts (call : Call) (store : Store) : Accepted × Store → Prop
  | refused (cause : ArgumentError) :
    Accepts call store (.ended (.error (.argument cause)), store)
  | waits {await : Await} (clock : Clock) (hasks : Asks store.index call await)
    (hfirst : await.IsFirst store.memory.clock.now) :
    Accepts call store (.waits await, {store with memory := {store.memory with clock := clock}})
  | reads {read : LatestRead} (hlatest : call.latest? = some read) :
    Accepts call store (.reads read, store)

theorem accepts_accept (call : Call) (store : Store) :
    Accepts call store (store.accept call) := by
  unfold accept
  cases hmissing : missing? call.required with
  | some e =>
    obtain ⟨cause, rfl⟩ := missing?_eq_some hmissing
    exact .refused cause
  | none =>
    have hself : store = {store with memory := {store.memory with clock := store.memory.clock}} :=
      rfl
    cases call with
    | put ns classification path kind payload => exact .waits _ (.write _) rfl
    | get | getFresh | getStarting => exact .reads rfl
    | getVersion => rw [hself]; exact .waits _ .version trivial
    | history ns classification path limit =>
      by_cases hlimit : limit = 0
      · simp only [if_pos hlimit]
        exact .refused _
      · simp only [if_neg hlimit]
        exact .waits _ .versions trivial
    | delete => exact .waits _ .delete trivial
    | reset => exact .waits _ .reset trivial
    | listNamespaces => exact .waits _ .listing trivial
    | direct => exact .waits _ .direct trivial

/-! ### Asking the cache, and keeping what was found -/

/-- A later state of a store whose cache holds nothing new. -/
structure Recedes (a b : Store) : Prop where
  config : b.config = a.config
  cache : a.memory.cache.Recedes b.memory.cache

theorem Recedes.refl (store : Store) : Recedes store store := ⟨rfl, .refl _⟩

theorem recedes_lookUp (read : LatestRead) (store : Store) :
    Recedes store (store.lookUp read).2 := by
  unfold lookUp
  split
  · exact ⟨rfl, LiveCache.recedes_get read.key.encode store.memory⟩
  · exact .refl store

/-- What the cache answers it holds, and it answers only a read that it may answer. -/
theorem of_lookUp {read : LatestRead} {store : Store} {r : Record}
    (h : (store.lookUp read).1 = some r) :
    read.cached = true ∧ store.memory.cache.held? read.key.encode = some r := by
  unfold lookUp at h
  split at h
  · next hcached =>
    obtain ⟨hit, hhit, rfl⟩ := Option.map_eq_some_iff.mp h
    exact ⟨(Bool.and_eq_true_iff.mp hcached).2, Cache.held?_of_get hhit⟩
  · cases h

theorem recedes_afterRemoval (index : String) (detached again : Bool) (store : Store) :
    Recedes store (store.afterRemoval index detached again).2 := by
  cases detached with
  | false => exact ⟨rfl, Cache.recedes_clear store.memory.cache⟩
  | true => exact .refl store

theorem config_keep (key : CacheKey) (r : Record) (epoch : Nat) (store : Store) :
    (store.keep key r epoch).config = store.config := by
  unfold keep
  split <;> rfl

theorem epoch_le_keep (key : CacheKey) (r : Record) (epoch : Nat) (store : Store) :
    store.memory.cache.epoch ≤ (store.keep key r epoch).memory.cache.epoch := by
  unfold keep
  split
  · exact (LiveCache.passed_storeUnless key.encode r epoch store.memory).epoch_le
  · exact Nat.le_refl _

theorem held?_keep {key : CacheKey} {r found : Record} {epoch : Nat} {store : Store}
    {other : String} (h : (store.keep key r epoch).memory.cache.held? other = some found) :
    (other = key.encode ∧ found = r ∧ epoch = store.memory.cache.epoch) ∨
      store.memory.cache.held? other = some found := by
  unfold keep at h
  split at h
  · exact LiveCache.held?_storeUnless h
  · exact .inr h

end Store

/-! ### Going on with an answer -/

theorem decode_of_mem_decodeAll {documents : List Json.Value} {rs : List Record} {r : Record}
    (h : decodeAll documents = .ok rs) (hr : r ∈ rs) :
    ∃ d ∈ documents, Record.decode d = .ok r := by
  induction documents generalizing rs with
  | nil =>
    cases h
    cases hr
  | cons d rest ih =>
    unfold decodeAll at h ih
    rw [List.mapM_cons] at h
    cases hd : Record.decode d with
    | error e => rw [hd] at h; cases h
    | ok first =>
      cases hrest : rest.mapM Record.decode with
      | error e => rw [hd, hrest] at h; cases h
      | ok others =>
        rw [hd, hrest] at h
        cases h
        rcases List.mem_cons.mp hr with rfl | hr
        · exact ⟨d, List.mem_cons_self, hd⟩
        · obtain ⟨d', hmem, hd'⟩ := ih hrest hr
          exact ⟨d', List.mem_cons_of_mem _ hmem, hd'⟩

/-- The first of some documents is a record, or they cannot be read, or there is none. -/
theorem decodeAll_cases (documents : List Json.Value) :
    (∃ e, decodeAll documents = .error e) ∨ decodeAll documents = .ok [] ∨
      ∃ r rest, decodeAll documents = .ok (r :: rest) ∧
        ∃ d ∈ documents, Record.decode d = .ok r := by
  cases h : decodeAll documents with
  | error e => exact .inl ⟨e, rfl⟩
  | ok records =>
    cases records with
    | nil => exact .inr (.inl rfl)
    | cons r rest =>
      exact .inr (.inr ⟨r, rest, rfl, decode_of_mem_decodeAll h List.mem_cons_self⟩)

namespace Store

variable {store : Store} {await : Await} {answer : Result await.request.Answer}

theorem resume_latest (store : Store) (key : CacheKey) (query : Query) (index : String)
    (epoch : Nat) (answer : Result (List Json.Value)) :
    (∃ e, store.resume (.latest key query index epoch) answer = (.ended (.error e), store)) ∨
      ∃ documents r, answer = .ok documents ∧ (∃ d ∈ documents, Record.decode d = .ok r) ∧
        store.resume (.latest key query index epoch) answer =
          (.ended (.ok (.record r)), store.keep key r epoch) := by
  cases answer with
  | error e => exact .inl ⟨e, rfl⟩
  | ok documents =>
    rcases decodeAll_cases documents with ⟨e, h⟩ | h | ⟨r, rest, h, hr⟩
    · exact .inl ⟨e, by simp only [resume, h]⟩
    · exact .inl ⟨notFound key.scope _, by simp only [resume, h]; rfl⟩
    · exact .inr ⟨documents, r, rfl, hr, by simp only [resume, h]⟩

theorem resume_version (store : Store) (ns : Namespace) (identifier : Identifier)
    (timestamp : Int64) (query : Query) (index : String) (answer : Result (List Json.Value)) :
    (∃ e, store.resume (.version ns identifier timestamp query index) answer =
        (.ended (.error e), store)) ∨
      ∃ documents r, answer = .ok documents ∧ (∃ d ∈ documents, Record.decode d = .ok r) ∧
        store.resume (.version ns identifier timestamp query index) answer =
          (.ended (.ok (.record r)), store) := by
  cases answer with
  | error e => exact .inl ⟨e, rfl⟩
  | ok documents =>
    rcases decodeAll_cases documents with ⟨e, h⟩ | h | ⟨r, rest, h, hr⟩
    · exact .inl ⟨e, by simp only [resume, h]⟩
    · exact .inl ⟨notFound ns _, by simp only [resume, h]; rfl⟩
    · exact .inr ⟨documents, r, rfl, hr, by simp only [resume, h]⟩

/-- A removal fails as its request did, unless all that was amiss is that there was no index. -/
theorem resume_removal (store : Store) (index : String) (detached again : Bool)
    (answer : Result Unit) :
    (store.resume (.removal index detached again) answer =
        store.afterRemoval index detached again ∧ ∀ e, answer = .error e → e.kind = .index) ∨
      ∃ e, answer = .error e ∧
        store.resume (.removal index detached again) answer = (.ended (.error e), store) := by
  cases answer with
  | ok => exact .inl ⟨rfl, nofun⟩
  | error e =>
    cases e with
    | storage cause =>
      cases cause with
      | indexMissing name => exact .inl ⟨rfl, by rintro _ ⟨rfl⟩; rfl⟩
      | _ => exact .inr ⟨_, rfl, rfl⟩
    | _ => exact .inr ⟨_, rfl, rfl⟩

/-- A call whose request was not served ends with that error. -/
theorem resume_of_unserved (store : Store) (await : Await) {e : Error} (h : e.IsUnserved) :
    store.resume await (.error e) = (.ended (.error e), store) := by
  cases await with
  | removal index detached again =>
    rcases resume_removal store index detached again (.error e) with ⟨-, hmissing⟩ | ⟨_, ⟨rfl⟩, h'⟩
    · rcases h with h | h <;> exact absurd ((hmissing e rfl).symm.trans h) (by decide)
    · exact h'
  | _ => rfl

/-- What can become of a store that goes on with an answer. -/
inductive Resumes (store : Store) :
    (await : Await) → Result await.request.Answer → Resumed × Store → Prop
  | ends {await : Await} {answer : Result await.request.Answer} (outcome : Outcome) :
    Resumes store await answer (.ended outcome, store)
  | keeps {key : CacheKey} {query : Query} {index : String} {epoch : Nat}
    {documents : List Json.Value} {r : Record} (hr : ∃ d ∈ documents, Record.decode d = .ok r) :
    Resumes store (.latest key query index epoch) (.ok documents)
      (.ended (.ok (.record r)), store.keep key r epoch)
  | removes {index : String} {detached again : Bool} {answer : Result Unit} :
    Resumes store (.removal index detached again) answer (store.afterRemoval index detached again)

theorem resumes (store : Store) (await : Await) (answer : Result await.request.Answer) :
    Resumes store await answer (store.resume await answer) := by
  cases await with
  | latest key query index epoch =>
    rcases resume_latest store key query index epoch answer with
      ⟨e, h⟩ | ⟨_, r, rfl, hr, h⟩ <;> rw [h]
    · exact .ends _
    · exact .keeps hr
  | version ns identifier timestamp query index =>
    rcases resume_version store ns identifier timestamp query index answer with
      ⟨e, h⟩ | ⟨_, r, -, -, h⟩ <;> rw [h] <;> exact .ends _
  | removal index detached again =>
    rcases resume_removal store index detached again answer with ⟨h, -⟩ | ⟨e, -, h⟩ <;> rw [h]
    · exact .removes
    · exact .ends _
  | write | versions | creation | listing | direct => cases answer <;> exact .ends _

/-- A store goes on by forgetting, or by keeping the record that a read of a newest version
returns. -/
theorem recedes_or_keep (store : Store) (await : Await) (answer : Result await.request.Answer) :
    Recedes store (store.resume await answer).2 ∨
      ∃ key epoch r, await.noted? = some (key, epoch) ∧
        (∃ d ∈ await.documents answer, Record.decode d = .ok r) ∧
        store.resume await answer = (.ended (.ok (.record r)), store.keep key r epoch) := by
  have hresumes := resumes store await answer
  generalize store.resume await answer = resumed at hresumes
  cases hresumes with
  | ends => exact .inl (.refl store)
  | keeps hr => exact .inr ⟨_, _, _, rfl, hr, rfl⟩
  | removes => exact .inl (recedes_afterRemoval ..)

/-- A call that reads returns only records that its documents hold. -/
theorem decode_of_resume {reply : Reply} {r : Record}
    (h : (store.resume await answer).1 = .ended (.ok reply)) (hr : r ∈ reply.contents) :
    (∃ index, await = .write r index) ∨
      ∃ d ∈ await.documents answer, Record.decode d = .ok r := by
  cases await with
  | write record index =>
    cases answer <;> cases h
    obtain rfl := List.mem_singleton.mp hr
    exact .inl ⟨index, rfl⟩
  | latest key query index epoch =>
    right
    rcases resume_latest store key query index epoch answer with ⟨e, h'⟩ | ⟨_, _, rfl, hfound, h'⟩
    all_goals
      rw [h'] at h
      cases h
    obtain rfl := List.mem_singleton.mp hr
    exact hfound
  | version ns identifier timestamp query index =>
    right
    rcases resume_version store ns identifier timestamp query index answer with
      ⟨e, h'⟩ | ⟨_, _, rfl, hfound, h'⟩
    all_goals
      rw [h'] at h
      cases h
    obtain rfl := List.mem_singleton.mp hr
    exact hfound
  | versions query index =>
    cases answer with
    | error e => cases h
    | ok documents =>
      cases hrecords : decodeAll documents <;> simp only [resume, hrecords] at h <;> cases h
      exact .inr (decode_of_mem_decodeAll hrecords hr)
  | removal index detached again =>
    rcases resume_removal store index detached again answer with ⟨h', -⟩ | ⟨e, _, h'⟩
    all_goals rw [h'] at h
    · cases again with
      | false =>
        cases h
        cases hr
      | true => cases h
    · cases h
  | creation | listing =>
    cases answer <;> cases h
    cases hr
  | direct request =>
    cases answer <;> cases h
    cases request <;> cases hr

/-- Only a removal makes an index again. -/
theorem eq_removal_of_creates {index : String}
    (h : (store.resume await answer).1 = .creates index) :
    ∃ detached, await = .removal index detached true := by
  have hresumes := resumes store await answer
  generalize store.resume await answer = resumed at hresumes h
  cases hresumes with
  | ends | keeps => cases h
  | @removes _ detached again =>
    cases again with
    | false => cases h
    | true =>
      cases h
      exact ⟨detached, rfl⟩

end Store

end VersionStore
