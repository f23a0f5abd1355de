import VersionStore.Proofs.Record.Reading
import VersionStore.Proofs.Threads.Provenance

/-! Records from a backend that may answer anything.

An engine keeps its promises; what stands behind a store need not. In an open run any request
may be answered by anything at all, whenever its call waits. Nothing gets past the reading of
the documents: the cache, the writes under way and the calls that have returned hold only
records whose identifier is that of their path (`IsGenuine`), and every open move keeps it so
(`IsGenuine.openStep`). -/
namespace VersionStore

/-- What can happen to a store whose requests anything may answer. -/
inductive OpenMove where
  | move (move : Move)
  /-- The request of a call, if it waits, is answered by a backend. -/
  | answer (id : Nat) (backend : (request : Request) → Result request.Answer)

/-- Whether the records that a call is about are genuine. An answer may hold any documents. -/
def Stage.IsGenuine : Stage → Prop
  | .waiting await | .answered await _ => ∀ r index, await = .write r index → r.IsGenuine
  | .ended outcome => ∀ reply, outcome = .ok reply → ∀ r ∈ reply.contents, r.IsGenuine
  | _ => True

namespace Threads

def openStep (t : Threads) : OpenMove → Threads
  | .move move => t.step move
  | .answer id backend =>
    match t.calls[id]? with
    | some ⟨_, _, .waiting await⟩ => t.place id (.answered await (backend await.request))
    | _ => t

def openRun (t : Threads) : List OpenMove → Threads
  | [] => t
  | move :: rest => openRun (t.openStep move) rest

/-- Whether the records that a store holds are genuine. -/
structure IsGenuine (t : Threads) : Prop where
  held : ∀ s r, t.store.memory.cache.held? s = some r → r.IsGenuine
  calls : ∀ (id : Nat) (c : Thread), t.calls[id]? = some c → c.stage.IsGenuine

variable {t : Threads}

theorem isGenuine_fresh (config : StoreConfig) (clock : Clock) (timed : Bool) (engine : Engine) :
    (fresh config clock timed engine).IsGenuine where
  held := by
    intro s r hheld
    cases hheld
  calls := by
    intro id c hc
    cases hc

/-- A call that goes on is about genuine records, as before. -/
theorem IsGenuine.proceeds (h : t.IsGenuine) {ended : Option Error} {call : Call}
    {stage next : Stage} {later : Store} (hstage : stage.IsGenuine)
    (hproceeds : Store.Proceeds ended call t.store stage (next, later)) : next.IsGenuine := by
  cases hproceeds with
  | refused => exact nofun
  | waits clock hasks =>
    rintro r index rfl
    cases hasks
    exact Record.isGenuine_make ..
  | reads | misses => trivial
  | hits hfound =>
    rintro _ ⟨rfl⟩ r hr
    obtain rfl := List.mem_singleton.mp hr
    exact h.held _ _ (Store.of_lookUp hfound).2
  | fetches | creates => exact nofun
  | ends hresume =>
    rintro reply rfl r hr
    rcases Store.decode_of_resume (congrArg Prod.fst hresume) hr with ⟨index, hwrite⟩ | ⟨d, -, hd⟩
    · exact hstage r index hwrite
    · exact Record.isGenuine_of_decode hd
  | stays | rests => exact hstage

theorem IsGenuine.step (h : t.IsGenuine) (move : Move) : (t.step move).IsGenuine := by
  have hsteps := t.steps move
  generalize t.step move = t' at hsteps
  refine ⟨fun s r hheld => ?_, fun id c hc => ?_⟩
  · cases hsteps with
    | begins | serves | stops => exact h.held s r hheld
    | turns _ _ _ hstore => exact h.held s r (hstore.cache.held s r hheld)
    | goes _ hproceeds =>
      rcases hproceeds.held? hheld with hheld | ⟨_, _, _, -, -, -, -, d, -, hd⟩
      · exact h.held s r hheld
      · exact Record.isGenuine_of_decode hd
  · rcases hsteps.kept_or_arrives hc with hc | harrives
    · exact h.calls id c hc
    cases harrives with
    | begins => trivial
    | goes hc' hproceeds => exact h.proceeds (h.calls id _ hc') hproceeds
    | serves hc' hwaiting | stops hc' hwaiting => exact (hwaiting ▸ h.calls id _ hc' :)

theorem IsGenuine.openStep (h : t.IsGenuine) (move : OpenMove) :
    (t.openStep move).IsGenuine := by
  cases move with
  | move move => exact h.step move
  | answer id backend =>
    unfold Threads.openStep
    dsimp only
    split
    · next hwaiting =>
      refine ⟨h.held, fun other c hc => ?_⟩
      rcases of_getElem?_place hwaiting hc with ⟨rfl, rfl⟩ | ⟨-, hc⟩
      · exact (h.calls _ _ hwaiting :)
      · exact h.calls other c hc
    · exact h

theorem IsGenuine.openRun (h : t.IsGenuine) (moves : List OpenMove) :
    (t.openRun moves).IsGenuine := by
  induction moves generalizing t with
  | nil => exact h
  | cons move rest ih => exact ih (h.openStep move)

theorem IsGenuine.of_returned (h : t.IsGenuine) {id : Nat} {r : Record} (hr : r ∈ t.returned id) :
    r.IsGenuine := by
  unfold returned at hr
  split at hr
  · next reply houtcome =>
    obtain ⟨c, hc, hstage⟩ := Option.bind_eq_some_iff.mp houtcome
    have hgenuine := h.calls id c hc
    split at hstage
    · next hended =>
      cases hstage
      rw [hended] at hgenuine
      exact hgenuine reply rfl r hr
    · cases hstage
  · cases hr

end Threads

/-- **What is read is what was written.** A record is read back from its document. A document is
read as a record exactly if it is an object whose members hold the fields, whatever else it holds,
or an array of just the fields in their order, and the identifier is that of the path; the document
of the record is then the object, less its other members. Any other document is corrupt. So the
identifier of every record that a call returns is that of its path, whatever the requests of all
calls were answered by. -/
theorem Record.decode_exactly :
    (∀ (classification path kind payload : String) (timestamp : Int64),
      let r := make classification path kind payload timestamp
      decode r.document = .ok r) ∧
    (∀ d : Json.Value, d.IsTidy →
      (∀ r, decode d = .ok r ↔ Written r d ∧ r.identifier = Identifier.derive r.path) ∧
      (∀ members r, d = .object members → decode d = .ok r →
        r.document = .object (members.filter fun member =>
          ["id", "kind", "path", "payload", "doc_type", "timestamp"].contains member.1)) ∧
      ((∀ r, decode d ≠ .ok r) →
        ∃ reason, decode d = .error (.storage (.corrupt (nameOf d) reason)))) ∧
    ∀ (config : StoreConfig) (clock : Clock) (timed : Bool) (engine : Engine)
      (moves : List OpenMove) (id : Nat),
      ∀ r ∈ ((Threads.fresh config clock timed engine).openRun moves).returned id,
        r.identifier = Identifier.derive r.path := by
  refine ⟨fun classification path kind payload timestamp => ?_, fun d htidy => ⟨?_, ?_, ?_⟩, ?_⟩
  · exact decode_document (isGenuine_make classification path kind payload timestamp)
  · exact fun r => decode_eq_ok_iff htidy
  · rintro members r rfl hr
    exact ((decode_eq_ok_iff htidy).mp hr).1.document_eq htidy
  · intro hnone
    rcases decode_cases d with ⟨r, hr, -⟩ | hcorrupt
    · exact absurd hr (hnone r)
    · exact hcorrupt
  · intro config clock timed engine moves id r hr
    exact ((Threads.isGenuine_fresh config clock timed engine).openRun moves).of_returned hr

/-- A document with a member that is no field is a record. A backend that answers a read with the
record of another path gets it returned for what it is. -/
theorem Record.decode_exactly_with_extra :
    let ns : Namespace := ⟨"a", by decide, by decide⟩
    let context : Context := ⟨⟨[0]⟩, none⟩
    let r := make "c" "q" "k" "v" 2
    let fields := [("doc_type", .string "c"), ("id", .string r.identifier.text),
      ("kind", .string "k"), ("path", .string "q"), ("payload", .string "v"),
      ("timestamp", .integer 2)]
    let d : Json.Value := .object (fields ++ [("zone", .null)])
    let moves : List OpenMove :=
      [.move (.begin context (.getFresh ns "c" "p")), .move (.go 0), .move (.go 0), .move (.go 0),
       .answer 0 fun
        | .search .. => .ok [d]
        | _ => .error (.storage (.unavailable "down")),
       .move (.go 0)]
    d.IsTidy ∧ decode d = .ok r ∧ r.document = .object fields ∧
      r ∈ ((Threads.fresh .standard ⟨7, 1⟩).openRun moves).returned 0 ∧
      r.identifier = Identifier.derive r.path := by
  intro ns context r fields d moves
  obtain ⟨-, hread, hreturned⟩ := decode_exactly
  have htidy : d.IsTidy := List.pairwise_map.mp
    (show List.Pairwise (· < ·)
      ["doc_type", "id", "kind", "path", "payload", "timestamp", "zone"] by decide)
  obtain ⟨hiff, hdocument, -⟩ := hread d htidy
  have hdecode : decode d = .ok r := (hiff r).mpr ⟨.members rfl rfl rfl rfl rfl rfl, rfl⟩
  have hr : r ∈ ((Threads.fresh .standard ⟨7, 1⟩).openRun moves).returned 0 := by
    decide +kernel
  exact ⟨htidy, hdecode, hdocument _ r rfl hdecode, hr, hreturned _ _ _ _ _ _ r hr⟩

end VersionStore
