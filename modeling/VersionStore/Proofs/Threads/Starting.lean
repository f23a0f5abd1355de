import VersionStore.Proofs.Threads.Refinement
import VersionStore.Store.Sequential

/-! Reads by the start of an identifier.

Identifiers of several paths may start alike, and a read by that start ranks the versions of
all of them together. What it returns, unless the cache answers, is the newest record among
them, and of several of one time the one that was written first (`starting_newest`). So a
shorter start finds a record at least as new, a whole identifier finds what a read of its path
finds, and a text that no identifier starts with finds nothing. -/
namespace VersionStore

/-! ### The newest of some records -/

namespace Ledger

/-- The records of a classification whose paths have identifiers that start with a text, in the
order in which they were written. -/
def starting (ledger : Ledger) (ns : Namespace) (classification start : String) : List Record :=
  (ledger ns).filter fun r =>
    (Identifier.derive r.path).startsWith start && decide (r.classification = classification)

/-- Whether a record is the newest of some, and of several of one time the first; if there are
none there is no such record. -/
def IsNewest (records : List Record) : Option Record → Prop
  | none => records = []
  | some r => ∃ before after, records = before ++ r :: after ∧
      (∀ s ∈ before, s.timestamp < r.timestamp) ∧ ∀ s ∈ after, s.timestamp ≤ r.timestamp

/-- The newest of some records. -/
def newest? (records : List Record) : Option Record :=
  (stableSort Query.compareNewest records).head?

theorem isNewest_newest? (records : List Record) : IsNewest records (newest? records) := by
  unfold newest?
  cases hsorted : stableSort Query.compareNewest records with
  | nil =>
    have hperm := stableSort_perm Query.compareNewest records
    rw [hsorted] at hperm
    exact hperm.symm.eq_nil
  | cons r rest =>
    obtain ⟨before, after, hsplit, hbefore, hafter⟩ :=
      split_of_stableSort_eq_cons (Query.orderedOn_compareNewest records) hsorted
    refine ⟨before, after, hsplit, fun s hs => ?_, fun s hs => ?_⟩
    · rw [Int64.lt_iff_toInt_lt]
      exact Int.compare_eq_lt.mp (hbefore s hs)
    · exact of_decide_eq_true ((Query.isLE_compareNewest r s).symm.trans (hafter s hs))

variable {records : List Record} {found : Option Record} {r s : Record}

theorem IsNewest.mem (h : IsNewest records (some r)) : r ∈ records := by
  obtain ⟨before, after, rfl, -, -⟩ := h
  simp

theorem IsNewest.le (h : IsNewest records (some r)) (hs : s ∈ records) :
    s.timestamp ≤ r.timestamp := by
  obtain ⟨before, after, rfl, hbefore, hafter⟩ := h
  rcases List.mem_append.mp hs with hs | hs
  · exact Int64.le_of_lt (hbefore s hs)
  · rcases List.mem_cons.mp hs with rfl | hs
    · exact Int64.le_refl _
    · exact hafter s hs

/-- What is returned as the newest is one of the records. -/
theorem mem_of_answer_eq_ok {ns : Namespace} {key : String}
    (h : answer ns key (newest? records) = .ok (.record r)) : r ∈ records := by
  have hnewest := isNewest_newest? records
  cases hfound : newest? records with
  | none =>
    rw [hfound] at h
    cases h
  | some s =>
    rw [hfound] at h hnewest
    cases h
    exact hnewest.mem

/-- Where there are records, one is the newest. -/
theorem IsNewest.exists_of_mem (h : IsNewest records found) (hr : r ∈ records) :
    ∃ s, found = some s ∧ r.timestamp ≤ s.timestamp := by
  cases found with
  | none =>
    obtain rfl : records = [] := h
    cases hr
  | some s => exact ⟨s, rfl, h.le hr⟩

section
variable {ledger : Ledger} {ns : Namespace} {classification start : String}

theorem mem_starting : r ∈ ledger.starting ns classification start ↔ r ∈ ledger ns ∧
    (Identifier.derive r.path).startsWith start = true ∧ r.classification = classification := by
  simp [starting]

/-- The shorter the text, the more start with it. -/
theorem mem_starting_of_shorter {shorter : String} (hbegins : shorter.toList <+: start.toList)
    (hr : r ∈ ledger.starting ns classification start) :
    r ∈ ledger.starting ns classification shorter := by
  obtain ⟨hmem, hstarts, hclassification⟩ := mem_starting.mp hr
  refine mem_starting.mpr ⟨hmem, ?_, hclassification⟩
  rw [Identifier.startsWith_eq_true_iff] at hstarts ⊢
  exact hbegins.trans hstarts

/-- No identifier starts with a text that is longer than all of them or not in hexadecimal. -/
theorem starting_eq_nil (h : 32 < start.length ∨ ∃ c ∈ start.toList, c ∉ Text.hexDigits) :
    ledger.starting ns classification start = [] := by
  refine List.eq_nil_iff_forall_not_mem.mpr fun r hr => ?_
  obtain ⟨hlength, hdigits⟩ := Identifier.of_startsWith_derive (mem_starting.mp hr).2.1
  rcases h with h | ⟨c, hc, h⟩
  · omega
  · exact h (hdigits c hc)

end

namespace Written

variable {index : Namespace → String} {engine : Engine} {ledger : Ledger}

theorem isGenuine_of_newest? (h : Written index engine ledger) {ns : Namespace}
    {classification start : String} :
    ∀ r ∈ newest? (ledger.starting ns classification start), r.IsGenuine := by
  intro r hr
  have hnewest := isNewest_newest? (ledger.starting ns classification start)
  rw [Option.mem_def.mp hr] at hnewest
  exact h.genuine ns r (mem_starting.mp hnewest.mem).1

/-- A query by the start of an identifier selects the newest record that it is about. -/
theorem select_starting (h : Written index engine ledger) (ns : Namespace)
    (classification start : String) :
    (Query.latestStarting start classification).select (engine.documents (index ns)) =
      (newest? (ledger.starting ns classification start)).toList.map Record.document := by
  rw [h.documents, Query.latestStarting, Query.select_newest_one]
  have hfilter : ((ledger ns).filter fun r => (Filter.start "id" start).accepts r.document &&
      decide (r.classification = classification)) = ledger.starting ns classification start :=
    List.filter_congr fun r hr => by rw [Filter.accepts_start, h.genuine ns r hr]
  rw [hfilter]
  rfl

/-- So does a query for a path, as one by its whole identifier would. -/
theorem select_whole (h : Written index engine ledger) (ns : Namespace)
    (classification path : String) :
    (Query.latest (.derive path) classification).select (engine.documents (index ns)) =
      (newest? (ledger.starting ns classification (Identifier.derive path).text)).toList.map
        Record.document := by
  rw [h.documents, Query.latest, Query.select_newest_one]
  have hfilter : ((ledger ns).filter fun r =>
      (Filter.term "id" (.string (Identifier.derive path).text)).accepts r.document &&
        decide (r.classification = classification)) =
      ledger.starting ns classification (Identifier.derive path).text :=
    List.filter_congr fun r hr => by
      have hsame : decide (Identifier.derive r.path = Identifier.derive path) =
          (Identifier.derive r.path).startsWith (Identifier.derive path).text := by
        rw [Bool.eq_iff_iff, decide_eq_true_iff, Identifier.startsWith_derive_iff]
      rw [Filter.accepts_id, h.genuine ns r hr, hsame]
  rw [hfilter]
  rfl

end Written

end Ledger

/-! ### Reads -/

/-- What a read of a newest version comes to that the cache does not answer. -/
theorem Store.perform_latest {store first : Store} {call : Call} {read : LatestRead}
    {engine : Engine} {found : Option Record} (haccept : store.accept call = (.reads read, store))
    (hmiss : store.lookUp read = (none, first))
    (hselect : read.query.select (engine.documents (store.index read.key.scope)) =
      found.toList.map Record.document)
    (hgenuine : ∀ r ∈ found, r.IsGenuine) :
    (store.perform (fun request engine => engine.serve request) call engine).1 =
      if engine.unavailable then .error Engine.outage
      else Ledger.answer read.key.scope read.key.text found := by
  have hstart : store.start none call = (.waits (first.fetching read), first) := by
    simp [start, haccept, startLatest, hmiss]
  have hindex : first.index = store.index := by
    have hrecedes := recedes_lookUp read store
    rw [hmiss] at hrecedes
    exact index_of_config hrecedes.config
  cases hunavailable : engine.unavailable with
  | true =>
    have hserve := congrArg Prod.fst
      (Engine.serve_of_unavailable hunavailable (first.fetching read).request)
    exact outcome_perform hstart hserve rfl
  | false =>
    obtain ⟨later, hresume⟩ := first.resume_latest_of_found read.key read.query
      (first.index read.key.scope) first.memory.cache.epoch hgenuine
    have hserve : (engine.serve (.search (first.index read.key.scope) read.query)).1 =
        .ok (found.toList.map Record.document) := by
      rw [hindex, ← hselect]
      simp [Engine.serve, hunavailable]
    exact outcome_perform hstart hserve hresume

/-- What a call comes to that reads records of a classification, if it is to have a certain answer:
the classification must not be empty, and the engine must serve. -/
def Engine.answers (engine : Engine) (classification : String) (answer : Outcome) : Outcome :=
  if classification = "" then .error (Error.missing "classification")
  else if engine.unavailable then .error outage
  else answer

namespace Ledger.Written

variable {store : Store} {engine : Engine} {ledger : Ledger}

theorem perform_getStarting (h : Written store.index engine ledger) (ns : Namespace)
    (classification : String) {start : String} (hstart : start ≠ "")
    (huncached : (store.lookUp (.ofStart ns classification start)).1 = none) :
    (store.perform (fun request engine => engine.serve request)
        (.getStarting ns classification start) engine).1 =
      engine.answers classification
        (answer ns start (newest? (ledger.starting ns classification start))) := by
  by_cases hempty : classification = ""
  · subst hempty
    simp [Engine.answers, Store.perform, Store.start, Store.accept, Call.required, Store.missing?]
  · have haccept : store.accept (.getStarting ns classification start) =
        (.reads (.ofStart ns classification start), store) := by
      simp [Store.accept, Call.required, Store.missing?, hempty, hstart]
    rw [Engine.answers, if_neg hempty]
    exact Store.perform_latest haccept (Prod.ext huncached rfl) (h.select_starting ..)
      h.isGenuine_of_newest?

theorem perform_getFresh (h : Written store.index engine ledger) (ns : Namespace)
    (classification path : String) :
    (store.perform (fun request engine => engine.serve request)
        (.getFresh ns classification path) engine).1 =
      engine.answers classification (answer ns (Identifier.derive path).text
        (newest? (ledger.starting ns classification (Identifier.derive path).text))) := by
  by_cases hempty : classification = ""
  · subst hempty
    simp [Engine.answers, Store.perform, Store.start, Store.accept, Call.required, Store.missing?]
  · have haccept : store.accept (.getFresh ns classification path) =
        (.reads (.ofPath false ns classification path), store) := by
      simp [Store.accept, Call.required, Store.missing?, hempty]
    have hmiss : store.lookUp (.ofPath false ns classification path) = (none, store) := by
      simp [Store.lookUp, LatestRead.ofPath]
    rw [Engine.answers, if_neg hempty]
    exact Store.perform_latest haccept hmiss (h.select_whole ..) h.isGenuine_of_newest?

end Ledger.Written

theorem Engine.of_answers_eq_ok {engine : Engine} {classification : String} {answer : Outcome}
    {reply : Reply} (h : engine.answers classification answer = .ok reply) :
    answer = .ok reply ∧ ∀ other, engine.answers classification other = other := by
  unfold answers at h ⊢
  split at h
  · cases h
  · next hclassification =>
    split at h
    · cases h
    · next hserved => exact ⟨h, fun other => by rw [if_neg hclassification, if_neg hserved]⟩

namespace Threads

/-- **Reads by the start of an identifier.** After any run of a new store's own calls, let a text
be read for that is not empty and that the cache does not answer. Unless the classification is
empty or the engine serves nothing, the read returns the newest of all records of the
namespace and the classification whose paths have an identifier that starts with the text, of
several of one time the one written first, and it finds nothing only if there are none. So a
whole identifier gives what a read of its path from the engine gives; a shorter text gives a
record that is not older; and a text gives nothing that is longer than an identifier or has a
character that is no hexadecimal digit. -/
theorem starting_newest {config : StoreConfig} (hvalid : config.validate = .ok ()) (clock : Clock)
    (timed : Bool) {moves : List Move} (hown : ∀ move ∈ moves, move.isOwn = true) :
    let start := fresh config clock timed
    let t := start.run moves
    let ledger := (({} : Account).run start moves).ledger
    let read := fun call =>
      (t.store.perform (fun request engine => engine.serve request) call t.engine).1
    let uncached := fun ns classification text =>
      (t.store.lookUp (.ofStart ns classification text)).1 = none
    (∀ ns, t.engine.documents (t.index ns) = (ledger ns).map Record.document) ∧
    (∀ ns classification text, text ≠ "" → uncached ns classification text →
      ∃ found, Ledger.IsNewest (ledger.starting ns classification text) found ∧
        read (.getStarting ns classification text) =
          t.engine.answers classification (Ledger.answer ns text found)) ∧
    (∀ ns classification path, uncached ns classification (Identifier.derive path).text →
      read (.getStarting ns classification (Identifier.derive path).text) =
        read (.getFresh ns classification path)) ∧
    (∀ ns classification text shorter r, shorter ≠ "" → Text.startsWith text shorter = true →
      uncached ns classification text → uncached ns classification shorter →
      read (.getStarting ns classification text) = .ok (.record r) →
      ∃ s, read (.getStarting ns classification shorter) = .ok (.record s) ∧
        r.timestamp ≤ s.timestamp) ∧
    ∀ ns classification text, uncached ns classification text →
      (32 < text.length ∨ ∃ c ∈ text.toList, c ∉ Text.hexDigits) →
      read (.getStarting ns classification text) =
        t.engine.answers classification (.error (Store.notFound ns text)) := by
  intro start t ledger read uncached
  have hwritten : ledger.Written t.store.index t.engine :=
    ((agrees_fresh config clock timed).run (fits_fresh config clock timed {}) hvalid hown).written
  have hread : ∀ ns classification text, text ≠ "" → uncached ns classification text →
      read (.getStarting ns classification text) = t.engine.answers classification
        (Ledger.answer ns text (Ledger.newest? (ledger.starting ns classification text))) :=
    fun ns classification text hne huncached => hwritten.perform_getStarting ns classification hne
      huncached
  refine ⟨hwritten.documents, ?_, ?_, ?_, ?_⟩
  · exact fun ns classification text hne huncached =>
      ⟨_, Ledger.isNewest_newest? _, hread ns classification text hne huncached⟩
  · intro ns classification path huncached
    exact (hread ns classification _ (Identifier.derive_text_ne_empty path) huncached).trans
      (hwritten.perform_getFresh ns classification path).symm
  · intro ns classification text shorter r hne hshorter huncached huncached' hok
    have hbegins : shorter.toList <+: text.toList := List.isPrefixOf_iff_prefix.mp hshorter
    have htext : text ≠ "" := by
      rintro rfl
      exact hne (String.toList_inj.mp (List.prefix_nil.mp hbegins))
    rw [hread ns classification text htext huncached] at hok
    obtain ⟨hanswer, hserved⟩ := Engine.of_answers_eq_ok hok
    obtain ⟨s, hs, hle⟩ := (Ledger.isNewest_newest? _).exists_of_mem
      (Ledger.mem_starting_of_shorter hbegins (Ledger.mem_of_answer_eq_ok hanswer))
    refine ⟨s, ?_, hle⟩
    rw [hread ns classification shorter hne huncached', hserved, hs]
    rfl
  · intro ns classification text huncached hbad
    have hne : text ≠ "" := by
      rintro rfl
      rcases hbad with hbad | ⟨c, hc, -⟩
      · cases hbad
      · cases hc
    rw [hread ns classification text hne huncached, Ledger.starting_eq_nil hbad]
    rfl

/-- Two paths whose identifiers begin with the same digit, and three versions of which the later
two have one time. -/
theorem starting_newest_of_ties :
    let ns : Namespace := ⟨"a", by decide, by decide⟩
    let context : Context := ⟨⟨[0]⟩, none⟩
    let moves : List Move :=
      [.setClock 5, .begin context (.put ns "c" "p" "k" "one"), .go 0, .serve 0,
       .setClock 9, .begin context (.put ns "c" "d" "k" "two"), .go 1, .serve 1,
       .begin context (.put ns "c" "p" "k" "three"), .go 2, .serve 2]
    let one := Record.make "c" "p" "k" "one" 5
    let two := Record.make "c" "d" "k" "two" 9
    let three := Record.make "c" "p" "k" "three" 9
    let start := fresh .standard ⟨0, 0⟩
    let read := fun call => ((start.run moves).store.perform
      (fun request engine => engine.serve request) call (start.run moves).engine).1
    (∃ found, Ledger.IsNewest [one, two, three] found ∧
      read (.getStarting ns "c" "1") = Ledger.answer ns "1" found) ∧
    (read (.getStarting ns "c" "1")).toOption.map Reply.contents = some [two] ∧
    read (.getStarting ns "c" (Identifier.derive "p").text) = read (.getFresh ns "c" "p") ∧
    read (.getStarting ns "c" "1g") = .error (Store.notFound ns "1g") := by
  intro ns context moves one two three start read
  have hown : ∀ move ∈ moves, move.isOwn = true := by decide
  have havailable : (start.run moves).engine.unavailable = false := by decide +kernel
  have hanswers (answer : Outcome) : (start.run moves).engine.answers "c" answer = answer := by
    simp [Engine.answers, havailable]
  have huncached (text : String) :
      ((start.run moves).store.lookUp (.ofStart ns "c" text)).1 = none := by
    have hnone : (start.run moves).store.memory.cache.generation = none := by decide +kernel
    cases hfound : ((start.run moves).store.lookUp (.ofStart ns "c" text)).1 with
    | none => rfl
    | some r =>
      obtain ⟨-, hheld⟩ := Store.of_lookUp hfound
      simp [Cache.held?, Cache.entries, hnone] at hheld
  have hstarting : (({} : Account).run start moves).ledger.starting ns "c" "1" =
      [one, two, three] := by decide +kernel
  obtain ⟨-, hnewest, hwhole, -, hnothing⟩ :=
    starting_newest StoreConfig.validate_standard ⟨0, 0⟩ true hown
  refine ⟨?_, by decide +kernel, hwhole ns "c" "p" (huncached _), ?_⟩
  · obtain ⟨found, hfound, hread⟩ := hnewest ns "c" "1" (by decide) (huncached "1")
    rw [hstarting] at hfound
    exact ⟨found, hfound, hread.trans (hanswers _)⟩
  · exact (hnothing ns "c" "1g" (huncached "1g") (.inr ⟨'g', by decide, by decide⟩)).trans
      (hanswers _)

end Threads

end VersionStore
