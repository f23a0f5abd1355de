import VersionStore.Proofs.Ledger
import VersionStore.Proofs.Threads.Step

/-! Every call happens at once.

An account of a run keeps a ledger beside the store. It lets each call happen on the
ledger as a whole, at the moment when the engine serves the first request of the call.
The documents of the engine stay those of the ledger, no call happens twice, and a call
that returns a result returns what it returned when it happened (`refines_ledger`). -/
namespace VersionStore

/-- Whether a ledger says what a call does: one that the cache may answer need not happen. -/
def Ledger.knows : Call → Bool
  | .put .. | .delete .. | .reset .. | .getFresh .. | .getVersion .. | .history .. => true
  | _ => false

theorem Ledger.exists_perform? (ledger : Ledger) (stamp : Int64) {call : Call}
    (h : knows call = true) : ∃ outcome later, ledger.perform? stamp call = some (outcome, later) := by
  cases call <;> first | exact ⟨_, _, rfl⟩ | cases h

theorem Ledger.perform?_of_unknown (ledger : Ledger) (stamp : Int64) {call : Call}
    (h : knows call = false) : ledger.perform? stamp call = none := by
  cases call <;> first | rfl | cases h

/-- Whether a call has come to a result: it succeeded, or it found nothing. -/
def Outcome.IsResult : Outcome → Prop
  | .ok _ => True
  | .error e => e.kind = .notFound

theorem Error.IsUnserved.not_isResult {e : Error} (h : e.IsUnserved) :
    ¬Outcome.IsResult (.error e) := by
  intro hresult
  rcases h with h | h <;> exact absurd (h.symm.trans hresult) (by decide)

/-- Whether a call waits to make an index again that it has removed. -/
def Await.IsAgain (await : Await) : Prop := ∃ name, await = .creation name

/-! ### Accounts -/

/-- What a run comes to: the ledger, what the clock showed when the arguments of each call were
looked at, and the calls that have happened, in order, with what they returned. -/
structure Account where
  ledger : Ledger := .empty
  stamps : Nat → Int64 := fun _ => 0
  answers : List (Nat × Outcome) := []

namespace Account

/-- Lets a call happen. -/
def perform (account : Account) (id : Nat) (call : Call) : Account :=
  match account.ledger.perform? (account.stamps id) call with
  | some (outcome, ledger) =>
    {account with ledger := ledger, answers := account.answers ++ [(id, outcome)]}
  | none => account

/-- A move, as the account has it. -/
def step (account : Account) (t : Threads) : Move → Account
  | .go id =>
    match t.calls[id]? with
    | some ⟨_, _, .called⟩ =>
      {account with
        stamps := fun other =>
          if other = id then t.store.memory.clock.now else account.stamps other}
    | _ => account
  | .serve id =>
    match t.calls[id]? with
    | some ⟨_, _, .waiting (.creation _)⟩ => account
    | some ⟨call, _, .waiting _⟩ =>
      if t.engine.unavailable then account else account.perform id call
    | _ => account
  | _ => account

def run (account : Account) (t : Threads) : List Move → Account
  | [] => account
  | move :: rest => run (account.step t move) (t.step move) rest

section
variable {account : Account} {t : Threads} {id : Nat} {c : Thread}

theorem step_of_quiet {move : Move} (h : t.IsQuiet move) : account.step t move = account := by
  cases move with
  | go id =>
    cases hc : t.calls[id]? with
    | none => simp [step, hc]
    | some c => exact absurd rfl (h id c hc).1
  | serve id =>
    cases hc : t.calls[id]? with
    | none => simp [step, hc]
    | some c =>
      obtain ⟨call, context, stage⟩ := c
      cases stage with
      | waiting await => exact absurd rfl ((h id _ hc).2 rfl await)
      | _ => simp [step, hc]
  | _ => rfl

/-- A call that goes on changes no more of an account than what the clock showed when its
arguments were looked at. -/
theorem exists_step_go (hc : t.calls[id]? = some c) :
    ∃ stamps, account.step t (.go id) = {account with stamps := stamps} ∧
      (∀ other, other ≠ id → stamps other = account.stamps other) ∧
      (c.stage = .called → stamps id = t.store.memory.clock.now) ∧
      (c.stage ≠ .called → stamps id = account.stamps id) := by
  obtain ⟨call, context, stage⟩ := c
  cases stage with
  | called =>
    refine ⟨fun other => if other = id then t.store.memory.clock.now else account.stamps other,
      by simp only [step, hc], fun other hother => if_neg hother, fun _ => if_pos rfl, ?_⟩
    exact fun hcalled => absurd rfl hcalled
  | _ => exact ⟨account.stamps, by simp only [step, hc], fun _ _ => rfl, nofun, fun _ => rfl⟩

theorem step_serve {await : Await} (hc : t.calls[id]? = some c) (hwaiting : c.stage = .waiting await)
    (hserved : t.engine.unavailable = false) (hfirst : ¬await.IsAgain) :
    account.step t (.serve id) = account.perform id c.call := by
  obtain ⟨call, context, stage⟩ := c
  obtain rfl : stage = .waiting await := hwaiting
  cases await with
  | creation name => exact absurd ⟨name, rfl⟩ hfirst
  | _ => simp [step, hc, hserved]

theorem step_serve_of_unserved {await : Await} (hc : t.calls[id]? = some c)
    (hwaiting : c.stage = .waiting await) (h : t.engine.unavailable = true ∨ await.IsAgain) :
    account.step t (.serve id) = account := by
  obtain ⟨call, context, stage⟩ := c
  obtain rfl : stage = .waiting await := hwaiting
  cases await with
  | creation name => simp [step, hc]
  | _ =>
    rcases h with h | ⟨name, ⟨⟩⟩
    simp [step, hc, h]

end

end Account

/-! ### What calls have in hand -/

/-- Whether a call that has got so far agrees with the answer it got when it happened, if it has
happened. `stamp` is what the clock showed when its arguments were looked at. -/
def Stage.Agrees (answered : Outcome → Prop) (stamp : Int64) (call : Call) : Stage → Prop
  | .called | .admitted _ | .missed _ => ∀ outcome, ¬answered outcome
  | .waiting await =>
    (await.IsAgain → answered (.ok .done)) ∧
      (¬await.IsAgain → (∀ outcome, ¬answered outcome) ∧
        ∀ r name, await = .write r name → r.timestamp = stamp)
  | .answered await answer =>
    (await.IsAgain → answered (.ok .done)) ∧
      (¬await.IsAgain →
        (∀ e, answer = .error e → ∀ outcome, ¬answered outcome) ∧
        ∀ a, answer = .ok a → ∀ store : Store, answered (store.resume await (.ok a)).1.outcome)
  | .ended outcome =>
    answered outcome ∨
      ¬outcome.IsResult ∧ ((∀ outcome, ¬answered outcome) ∨ ∃ ns detached, call = .reset ns detached)

/-- A call agrees with its answer when it goes on. -/
theorem Store.Proceeds.agrees {ended : Option Error} {call : Call} {store later : Store}
    {stage next : Stage} (h : Proceeds ended call store stage (next, later))
    (hfits : stage.Fits store.index store.memory.cache.epoch call)
    (hended : ∀ e, ended = some e → e.IsUnserved) (hknows : Ledger.knows call = true)
    {answered : Outcome → Prop} {stamp stamp' : Int64}
    (hcalled : stage = .called → stamp' = store.memory.clock.now)
    (hlater : stage ≠ .called → stamp' = stamp) (hagrees : stage.Agrees answered stamp call) :
    next.Agrees answered stamp' call := by
  cases h with
  | @refused e hrefused =>
    refine .inr ⟨?_, .inl hagrees⟩
    rcases hrefused with ⟨cause, rfl⟩ | he
    · nofun
    · exact (hended e he).not_isResult
  | @waits await clock hasks hfirst =>
    refine ⟨?_, fun _ => ⟨hagrees, ?_⟩⟩
    · rintro ⟨name, rfl⟩
      exact hfirst.elim
    · rintro r name rfl
      exact hfirst.trans (hcalled rfl).symm
  | reads | misses => exact hagrees
  | hits hfound =>
    -- no read that a ledger knows is answered by the cache
    obtain ⟨hcached, -⟩ := of_lookUp hfound
    cases call <;> cases hknows <;> cases hfits
    cases hcached
  | fetches => exact ⟨nofun, fun _ => ⟨hagrees, nofun⟩⟩
  | stays => rwa [hlater nofun]
  | rests => exact hagrees
  | @ends await answer outcome _ hresume =>
    obtain ⟨hasks, -, hserved⟩ := hfits
    obtain ⟨hdone, hfirst⟩ := hagrees
    cases answer with
    | error e =>
      rw [resume_of_unserved store await (hserved e rfl)] at hresume
      cases hresume
      refine .inr ⟨(hserved e rfl).not_isResult, ?_⟩
      by_cases hagain : await.IsAgain
      · obtain ⟨name, rfl⟩ := hagain
        cases hasks
        exact .inr ⟨_, _, rfl⟩
      · exact .inl ((hfirst hagain).1 e rfl)
    | ok a =>
      left
      by_cases hagain : await.IsAgain
      · obtain ⟨name, rfl⟩ := hagain
        cases hresume
        exact hdone ⟨name, rfl⟩
      · have houtcome := (hfirst hagain).2 a rfl store
        rwa [hresume] at houtcome
  | @creates await answer index _ hresume =>
    obtain ⟨-, -, hserved⟩ := hfits
    obtain ⟨detached, rfl⟩ := eq_removal_of_creates (congrArg Prod.fst hresume)
    refine ⟨fun _ => ?_, fun hfirst => absurd ⟨index, rfl⟩ hfirst⟩
    cases answer with
    | error e =>
      rw [resume_of_unserved store _ (hserved e rfl)] at hresume
      cases hresume
    | ok a =>
      have houtcome := (hagrees.2 (by rintro ⟨name, ⟨⟩⟩)).2 a rfl store
      rwa [hresume] at houtcome

/-- Whether an account is right about a store. -/
structure Account.Agrees (account : Account) (t : Threads) : Prop where
  written : account.ledger.Written t.index t.engine
  nodup : (account.answers.map (·.1)).Nodup
  known : ∀ id outcome, (id, outcome) ∈ account.answers → id < t.calls.length
  calls : ∀ (id : Nat) (c : Thread), t.calls[id]? = some c → Ledger.knows c.call = true →
    c.stage.Agrees (fun outcome => (id, outcome) ∈ account.answers) (account.stamps id) c.call

namespace Account.Agrees

variable {account : Account} {t : Threads}

/-- A call that has not happened may happen now. -/
theorem nodup_append (h : account.Agrees t) {id : Nat} {outcome : Outcome}
    (hnew : ∀ outcome, (id, outcome) ∉ account.answers) :
    ((account.answers ++ [(id, outcome)]).map (·.1)).Nodup := by
  rw [List.map_append, List.nodup_append]
  refine ⟨h.nodup, by simp, ?_⟩
  rintro a ha b hb rfl
  obtain rfl := List.mem_singleton.mp hb
  obtain ⟨⟨_, old⟩, hold, rfl⟩ := List.mem_map.mp ha
  exact hnew old hold

/-- What other calls have in hand has nothing to do with the one that goes on. -/
theorem place (h : account.Agrees t) {account' : Account} {t' : Threads} {id : Nat} {c : Thread}
    {stage : Stage} (hcalls : t'.calls = t.calls) (hc : t.calls[id]? = some c)
    (hwritten : account'.ledger.Written t'.index t'.engine)
    (hnodup : (account'.answers.map (·.1)).Nodup)
    (hanswers : ∀ other outcome, other ≠ id →
      ((other, outcome) ∈ account'.answers ↔ (other, outcome) ∈ account.answers))
    (hstamps : ∀ other, other ≠ id → account'.stamps other = account.stamps other)
    (hstage : Ledger.knows c.call = true →
      stage.Agrees (fun outcome => (id, outcome) ∈ account'.answers) (account'.stamps id) c.call) :
    account'.Agrees (t'.place id stage) where
  written := hwritten
  nodup := hnodup
  known := fun other outcome hmem => by
    show other < (t'.calls.modify id _).length
    rw [List.length_modify, hcalls]
    by_cases hother : other = id
    · rw [hother]
      exact (List.getElem?_eq_some_iff.mp hc).1
    · exact h.known other outcome ((hanswers other outcome hother).mp hmem)
  calls := fun other c' hc' hknows => by
    rcases Threads.of_getElem?_place (hcalls ▸ hc) hc' with ⟨rfl, rfl⟩ | ⟨hother, hc'⟩
    · exact hstage hknows
    · have hsame : (fun outcome => (other, outcome) ∈ account'.answers) =
          fun outcome => (other, outcome) ∈ account.answers :=
        funext fun outcome => propext (hanswers other outcome hother)
      rw [hsame, hstamps other hother]
      exact h.calls other c' (hcalls ▸ hc') hknows

/-- A request that is not served, and one to make an index again, changes no record. -/
theorem serve_of_unserved (h : account.Agrees t) {id : Nat} {c : Thread} {await : Await}
    (hc : t.calls[id]? = some c) (hwaiting : c.stage = .waiting await)
    (hunserved : t.engine.unavailable = true ∨ await.IsAgain) :
    account.Agrees (t.step (.serve id)) := by
  have hagrees := hwaiting ▸ h.calls id c hc
  rw [Threads.step_serve hc hwaiting]
  refine h.place rfl hc ?_ h.nodup (fun _ _ _ => Iff.rfl) (fun _ _ => rfl) fun hknows => ?_
  · rcases hunserved with hunavailable | ⟨name, rfl⟩
    · rw [Engine.serve_of_unavailable hunavailable]
      exact h.written
    · exact h.written.of_documents fun _ => Engine.documents_serve_create ..
  · obtain ⟨hdone, hfirst⟩ := hagrees hknows
    refine ⟨hdone, fun hnot => ?_⟩
    rw [Engine.serve_of_unavailable (hunserved.resolve_right hnot)]
    exact ⟨fun _ _ => (hfirst hnot).1, nofun⟩

/-- A call happens when the engine serves its first request. -/
theorem serve_of_first (h : account.Agrees t) (hfits : t.Fits)
    (hindex : ∀ ns other, wildcardMatches (t.index ns) (t.index other) = true ↔ other = ns)
    {id : Nat} {c : Thread} {await : Await} (hc : t.calls[id]? = some c)
    (hwaiting : c.stage = .waiting await) (hserved : t.engine.unavailable = false)
    (hfirst : ¬await.IsAgain) :
    (account.perform id c.call).Agrees (t.step (.serve id)) := by
  have hagrees := hwaiting ▸ h.calls id c hc
  obtain ⟨hown, hasks, -⟩ := hwaiting ▸ hfits id c hc
  rw [Threads.step_serve hc hwaiting]
  unfold perform
  cases hknows : Ledger.knows c.call with
  | false =>
    have hperform := account.ledger.perform?_of_unknown (account.stamps id) hknows
    rw [hperform]
    refine h.place rfl hc (h.written.serve_of_unknown hasks hown hperform) h.nodup
      (fun _ _ _ => Iff.rfl) (fun _ _ => rfl) fun hknows' => ?_
    rw [hknows] at hknows'
    cases hknows'
  | true =>
    obtain ⟨outcome, later, hperform⟩ :=
      account.ledger.exists_perform? (account.stamps id) hknows
    obtain ⟨-, hwaits⟩ := hagrees hknows
    obtain ⟨hnew, hstamp⟩ := hwaits hfirst
    obtain ⟨⟨a, ha, houtcome⟩, hwritten⟩ := h.written.serve hserved hindex hasks
      (fun name heq => hfirst ⟨name, heq⟩) hstamp hperform
    rw [hperform]
    refine h.place rfl hc hwritten (h.nodup_append hnew) ?_ (fun _ _ => rfl) fun _ => ?_
    · intro other o hother
      simp [hother]
    · refine ⟨fun hagain => absurd hagain hfirst, fun _ => ⟨?_, ?_⟩⟩
      · intro e he
        rw [ha] at he
        cases he
      · intro a' ha' store
        obtain rfl := Except.ok.inj (ha.symm.trans ha')
        rw [houtcome]
        exact List.mem_append_right _ List.mem_cons_self

/-- A call that begins has not happened yet. -/
theorem begins (h : account.Agrees t) (context : Context) (call : Call) :
    account.Agrees {t with calls := t.calls ++ [{ call := call, context := context }]} where
  written := h.written
  nodup := h.nodup
  known := fun id outcome hmem => by
    rw [List.length_append]
    exact Nat.lt_add_right _ (h.known id outcome hmem)
  calls := fun id c hc hknows => by
    rcases Threads.of_getElem?_begin hc with ⟨rfl, rfl⟩ | hc
    · exact fun outcome hmem => absurd (h.known _ outcome hmem) (Nat.lt_irrefl _)
    · exact h.calls id c hc hknows

/-- Every move keeps the account right. -/
theorem step (h : account.Agrees t) (hfits : t.Fits)
    (hindex : ∀ ns other, wildcardMatches (t.index ns) (t.index other) = true ↔ other = ns)
    (move : Move) : (account.step t move).Agrees (t.step move) := by
  have hsteps := t.steps move
  generalize hstep : t.step move = t' at hsteps
  cases hsteps with
  | begins context call => exact h.begins context call
  | @goes id c stage later hc hproceeds =>
    obtain ⟨stamps, haccount, hothers, hcalled, hlater⟩ := account.exists_step_go hc
    rw [haccount]
    refine h.place rfl hc ?_ h.nodup (fun _ _ _ => Iff.rfl) hothers fun hknows => ?_
    · rw [Threads.index_of_config (t := t) hproceeds.later.1]
      exact h.written
    · exact hproceeds.agrees (hfits id c hc).2 (fun e he => Context.isUnserved_of_ended? he)
        hknows hcalled hlater (h.calls id c hc hknows)
  | @serves id c await hc hwaiting =>
    rw [← hstep]
    by_cases hunserved : t.engine.unavailable = true ∨ await.IsAgain
    · rw [step_serve_of_unserved hc hwaiting hunserved]
      exact h.serve_of_unserved hc hwaiting hunserved
    · rw [not_or, Bool.not_eq_true] at hunserved
      obtain ⟨hserved, hfirst⟩ := hunserved
      rw [step_serve hc hwaiting hserved hfirst]
      exact h.serve_of_first hfits hindex hc hwaiting hserved hfirst
  | @stops id c await e hc hwaiting he =>
    have hagrees := hwaiting ▸ h.calls id c hc
    refine h.place rfl hc h.written h.nodup (fun _ _ _ => Iff.rfl) (fun _ _ => rfl) fun hknows => ?_
    obtain ⟨hdone, hfirst⟩ := hagrees hknows
    exact ⟨hdone, fun hnot => ⟨fun _ _ => (hfirst hnot).1, nofun⟩⟩
  | turns hquiet hcalls hindices hstore =>
    rw [step_of_quiet hquiet]
    refine ⟨?_, h.nodup, fun id outcome hmem => ?_, fun id c hc hknows => ?_⟩
    · rw [Threads.index_of_config hstore.config]
      refine h.written.of_documents fun name => ?_
      rw [Engine.documents, Engine.documents, hindices]
    · rw [hcalls]
      exact h.known id outcome hmem
    · rw [hcalls] at hc
      exact h.calls id c hc hknows

theorem run (h : account.Agrees t) (hfits : t.Fits)
    (hvalid : t.store.config.validate = .ok ()) {moves : List Move}
    (hown : ∀ move ∈ moves, move.isOwn = true) : (account.run t moves).Agrees (t.run moves) := by
  induction moves generalizing account t with
  | nil => exact h
  | cons move rest ih =>
    obtain ⟨hfirst, hrest⟩ := List.forall_mem_cons.mp hown
    refine ih (h.step hfits (wildcardMatches_index hvalid) move) (hfits.step hfirst) ?_ hrest
    rw [(t.steps move).later.1]
    exact hvalid

end Account.Agrees

namespace Threads

theorem agrees_fresh (config : StoreConfig) (clock : Clock) (timed : Bool) :
    ({} : Account).Agrees (fresh config clock timed) where
  written := ⟨fun ns r hr => absurd hr List.not_mem_nil, fun ns => rfl⟩
  nodup := List.nodup_nil
  known := fun id outcome hmem => absurd hmem List.not_mem_nil
  calls := fun id c hc => by cases hc

/-- The calls of a new store happen one after the other. Each happens as a whole on a ledger, at
the moment when the engine serves its first request, and none happens twice; the documents
of the engine are the records of the ledger. A call that has ended returned just what it
returned when it happened. Only if it came to no result is that different: then it has not
happened, or it has removed a namespace and failed to make its index again. -/
theorem refines_ledger {config : StoreConfig} (hvalid : config.validate = .ok ()) (clock : Clock)
    (timed : Bool) {moves : List Move} (hown : ∀ move ∈ moves, move.isOwn = true) :
    let start := fresh config clock timed
    let t := start.run moves
    let account := ({} : Account).run start moves
    (∀ ns, t.engine.documents (t.index ns) = (account.ledger ns).map Record.document) ∧
      (account.answers.map (·.1)).Nodup ∧
      ∀ id call outcome, t.call? id = some call → Ledger.knows call = true →
        t.outcome? id = some outcome →
        (id, outcome) ∈ account.answers ∨ ¬outcome.IsResult ∧
          ((∀ answer, (id, answer) ∉ account.answers) ∨ ∃ ns detached, call = .reset ns detached) := by
  intro start t account
  have hagrees : account.Agrees t :=
    (agrees_fresh config clock timed).run (fits_fresh config clock timed {}) hvalid hown
  refine ⟨hagrees.written.documents, hagrees.nodup, ?_⟩
  intro id call outcome hcall hknows houtcome
  obtain ⟨context, hc⟩ := exists_of_outcome? hcall houtcome
  exact hagrees.calls id _ hc hknows

/-- Two puts at one time, served in the other order than they began, and a history of their path. -/
theorem refines_ledger_of_history :
    let ns : Namespace := ⟨"a", by decide, by decide⟩
    let context : Context := ⟨⟨[0]⟩, none⟩
    let begins : List Move :=
      [.begin context (.put ns "c" "p" "k" "one"), .begin context (.put ns "c" "p" "k" "two"),
       .begin context (.history ns "c" "p" 5)]
    let moves : List Move :=
      begins ++ [.go 0, .go 1, .go 2, .serve 1, .serve 0, .serve 2, .go 0, .go 1, .go 2]
    let one := Record.make "c" "p" "k" "one" 7
    let two := Record.make "c" "p" "k" "two" 7
    let start := fresh .standard ⟨7, 0⟩
    ∃ reply, (start.run moves).outcome? 2 = some (.ok reply) ∧ reply.contents = [two, one] ∧
      (2, .ok reply) ∈ (({} : Account).run start moves).answers := by
  intro ns context begins moves one two start
  have hdone : ((start.run moves).outcome? 2).any (fun outcome =>
      outcome.toOption.any fun reply => decide (reply.contents = [two, one])) = true := by
    decide +kernel
  obtain ⟨outcome, houtcome, hreply⟩ := (Option.any_eq_true _ _).mp hdone
  cases outcome with
  | error e => cases hreply
  | ok reply =>
    have hcall : (start.run moves).call? 2 = some (.history ns "c" "p" 5) := by
      rw [run_append]
      exact call?_run rfl _
    have hown : ∀ move ∈ moves, move.isOwn = true := by decide
    obtain ⟨-, -, hall⟩ := refines_ledger StoreConfig.validate_standard ⟨7, 0⟩ true hown
    refine ⟨reply, houtcome, of_decide_eq_true hreply, ?_⟩
    exact (hall 2 _ _ hcall rfl houtcome).resolve_right fun hfailed => hfailed.1 trivial

end Threads

end VersionStore
