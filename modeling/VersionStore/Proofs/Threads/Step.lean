import VersionStore.Proofs.Engine

/-! What one move does to a store that is used from many threads.

A move that concerns a call takes that call from one stage to the next (`Store.Proceeds`)
and leaves the others where they are; any other move leaves the calls and the documents
alone, and the cache holds nothing new after it (`steps`). What holds of every call on its
own, `Fits`, is kept by every move: a call waits for nothing but what it asks for, and the
epoch that it noted is not ahead of the cache. -/
namespace VersionStore

/-! ### A call goes on -/

namespace Store

/-- What can become of a call that goes on from a stage. -/
inductive Proceeds (ended : Option Error) (call : Call) (store : Store) :
    Stage → Stage × Store → Prop
  | refused {e : Error} (h : (∃ cause, e = .argument cause) ∨ ended = some e) :
    Proceeds ended call store .called (.ended (.error e), store)
  | waits {await : Await} (clock : Clock) (hasks : Asks store.index call await)
    (hfirst : await.IsFirst store.memory.clock.now) :
    Proceeds ended call store .called
      (.waiting await, {store with memory := {store.memory with clock := clock}})
  | reads {read : LatestRead} (hlatest : call.latest? = some read) (hended : ended = none) :
    Proceeds ended call store .called (.admitted read, store)
  | hits {read : LatestRead} {r : Record} {later : Store}
    (hfound : (store.lookUp read).1 = some r) (h : Recedes store later) :
    Proceeds ended call store (.admitted read) (.ended (.ok (.record r)), later)
  | misses {read : LatestRead} {later : Store} (h : Recedes store later) :
    Proceeds ended call store (.admitted read) (.missed read, later)
  | fetches {read : LatestRead} :
    Proceeds ended call store (.missed read) (.waiting (store.fetching read), store)
  | ends {await : Await} {answer : Result await.request.Answer} {outcome : Outcome}
    {later : Store} (h : store.resume await answer = (.ended outcome, later)) :
    Proceeds ended call store (.answered await answer) (.ended outcome, later)
  | creates {await : Await} {answer : Result await.request.Answer} {index : String}
    {later : Store} (h : store.resume await answer = (.creates index, later)) :
    Proceeds ended call store (.answered await answer) (.waiting (.creation index), later)
  | stays {await : Await} :
    Proceeds ended call store (.waiting await) (.waiting await, store)
  | rests {outcome : Outcome} :
    Proceeds ended call store (.ended outcome) (.ended outcome, store)

theorem proceeds (ended : Option Error) (call : Call) (store : Store) (stage : Stage) :
    Proceeds ended call store stage (store.proceed ended call stage) := by
  cases stage with
  | called =>
    have haccepts := accepts_accept call store
    simp only [proceed]
    generalize store.accept call = accepted at haccepts
    cases haccepts with
    | refused cause => exact .refused (.inl ⟨cause, rfl⟩)
    | waits clock hasks hfirst => exact .waits clock hasks hfirst
    | reads hlatest =>
      cases ended with
      | some e => exact .refused (.inr rfl)
      | none => exact .reads hlatest rfl
  | admitted read =>
    have hlater := recedes_lookUp read store
    cases hfound : store.lookUp read with
    | mk found later =>
      rw [hfound] at hlater
      cases found with
      | some r =>
        simp only [proceed, hfound]
        exact .hits (congrArg Prod.fst hfound) hlater
      | none =>
        simp only [proceed, hfound]
        exact .misses hlater
  | missed read => exact .fetches
  | answered await answer =>
    cases hresumed : store.resume await answer with
    | mk resumed later =>
      cases resumed with
      | ended outcome => simp only [proceed, hresumed]; exact .ends hresumed
      | creates index => simp only [proceed, hresumed]; exact .creates hresumed
  | waiting await => exact .stays
  | ended outcome => exact .rests

/-- Going on adds nothing to the cache but the record that a read of a newest version returns. -/
theorem Proceeds.recedes_or_keeps {ended : Option Error} {call : Call} {store later : Store}
    {stage next : Stage} (h : Proceeds ended call store stage (next, later)) :
    Recedes store later ∨ ∃ await answer key epoch r, stage = .answered await answer ∧
      next = .ended (.ok (.record r)) ∧ await.noted? = some (key, epoch) ∧
      (∃ d ∈ await.documents answer, Record.decode d = .ok r) ∧ later = store.keep key r epoch := by
  cases h with
  | refused | reads | fetches | stays | rests => exact .inl (.refl store)
  | waits => exact .inl ⟨rfl, .refl _⟩
  | hits _ h | misses h => exact .inl h
  | @ends await answer _ _ hresume =>
    rcases recedes_or_keep store await answer with h | ⟨key, epoch, r, hnoted, hr, h⟩
    · rw [hresume] at h
      exact .inl h
    · obtain ⟨hended, hkept⟩ := Prod.mk.inj (hresume.symm.trans h)
      exact .inr ⟨await, answer, key, epoch, r, rfl, congrArg _ (Resumed.ended.inj hended), hnoted,
        hr, hkept⟩
  | @creates await answer _ _ hresume =>
    rcases recedes_or_keep store await answer with h | ⟨_, _, _, -, -, h⟩
    · rw [hresume] at h
      exact .inl h
    · cases hresume.symm.trans h

/-- Going on leaves the settings alone, and the epoch never goes back. -/
theorem Proceeds.later {ended : Option Error} {call : Call} {store later : Store}
    {stage next : Stage} (h : Proceeds ended call store stage (next, later)) :
    later.config = store.config ∧ store.memory.cache.epoch ≤ later.memory.cache.epoch := by
  rcases h.recedes_or_keeps with h | ⟨_, _, key, epoch, r, -, -, -, -, rfl⟩
  · exact ⟨h.config, h.cache.epoch_le⟩
  · exact ⟨config_keep .., epoch_le_keep ..⟩

/-- What the cache holds later it held before, or it is what a read returns that noted the
present epoch. -/
theorem Proceeds.held? {ended : Option Error} {call : Call} {store later : Store}
    {stage next : Stage} (h : Proceeds ended call store stage (next, later)) {s : String}
    {r : Record} (hheld : later.memory.cache.held? s = some r) :
    store.memory.cache.held? s = some r ∨
      ∃ await answer key, stage = .answered await answer ∧ next = .ended (.ok (.record r)) ∧
        await.noted? = some (key, store.memory.cache.epoch) ∧ s = key.encode ∧
        ∃ d ∈ await.documents answer, Record.decode d = .ok r := by
  rcases h.recedes_or_keeps with
    h | ⟨await, answer, key, epoch, kept, hstage, hnext, hnoted, hd, rfl⟩
  · exact .inl (h.cache.held _ _ hheld)
  · rcases held?_keep hheld with ⟨rfl, rfl, rfl⟩ | hheld
    · exact .inr ⟨await, answer, key, hstage, hnext, hnoted, rfl, hd⟩
    · exact .inl hheld

theorem now_accept (call : Call) (store : Store) :
    (store.accept call).2.memory.now = store.memory.now := by
  have haccepts := accepts_accept call store
  generalize store.accept call = accepted at haccepts
  cases haccepts <;> rfl

theorem now_lookUp (read : LatestRead) (store : Store) :
    (store.lookUp read).2.memory.now = store.memory.now := by
  unfold lookUp
  split <;> rfl

theorem now_resume (store : Store) (await : Await) (answer : Result await.request.Answer) :
    (store.resume await answer).2.memory.now = store.memory.now := by
  have hresumes := resumes store await answer
  generalize store.resume await answer = resumed at hresumes
  cases hresumes with
  | ends => rfl
  | keeps =>
    unfold keep LiveCache.storeUnless
    split
    · split
      · exact LiveCache.now_put ..
      · rfl
    · rfl
  | @removes _ detached _ => cases detached <;> rfl

/-- Going on takes no time. -/
theorem now_proceed (ended : Option Error) (call : Call) (store : Store) (stage : Stage) :
    (store.proceed ended call stage).2.memory.now = store.memory.now := by
  cases stage with
  | called =>
    have hnow := now_accept call store
    cases haccepted : store.accept call with
    | mk accepted later =>
      rw [haccepted] at hnow
      cases accepted <;> cases ended <;> simpa only [proceed, haccepted] using hnow
  | admitted read =>
    have hnow := now_lookUp read store
    cases hfound : store.lookUp read with
    | mk found later =>
      rw [hfound] at hnow
      cases found <;> simpa only [proceed, hfound] using hnow
  | answered await answer =>
    have hnow := now_resume store await answer
    cases hresumed : store.resume await answer with
    | mk resumed later =>
      rw [hresumed] at hnow
      cases resumed <;> simpa only [proceed, hresumed] using hnow
  | missed | waiting | ended => rfl

/-- Neither does starting. -/
theorem now_start (ended : Option Error) (call : Call) (store : Store) :
    (store.start ended call).2.memory.now = store.memory.now := by
  have haccept := now_accept call store
  unfold start
  cases haccepted : store.accept call with
  | mk accepted later =>
    rw [haccepted] at haccept
    cases accepted with
    | ended | waits => exact haccept
    | reads read =>
      cases ended with
      | some e => exact haccept
      | none =>
        have hnow := now_lookUp read later
        cases hfound : later.lookUp read with
        | mk found last =>
          rw [hfound] at hnow
          cases found <;> simpa only [startLatest, hfound] using hnow.trans haccept

end Store

/-! ### Moves -/

namespace Threads

/-- Where calls stand after one was put at another stage. -/
theorem of_getElem?_place {t : Threads} {id other : Nat} {stage : Stage} {c c' : Thread}
    (hc : t.calls[id]? = some c) (h : (t.place id stage).calls[other]? = some c') :
    (other = id ∧ c' = {c with stage := stage}) ∨ (other ≠ id ∧ t.calls[other]? = some c') := by
  unfold place at h
  rw [List.getElem?_modify] at h
  by_cases hother : other = id
  · subst hother
    simp only [hc, if_true, Option.map_eq_map, Option.map_some, Option.some.injEq] at h
    exact .inl ⟨rfl, h.symm⟩
  · simp only [if_neg (Ne.symm hother), Option.map_eq_map, Option.map_id'] at h
    exact .inr ⟨hother, h⟩

theorem getElem?_place {t : Threads} {id : Nat} (stage : Stage) {c : Thread}
    (hc : t.calls[id]? = some c) :
    (t.place id stage).calls[id]? = some {c with stage := stage} := by
  unfold place
  rw [List.getElem?_modify]
  simp [hc]

theorem getElem?_place_of_ne {t : Threads} {id other : Nat} (stage : Stage)
    (h : other ≠ id) : (t.place id stage).calls[other]? = t.calls[other]? := by
  unfold place
  rw [List.getElem?_modify]
  simp [Ne.symm h]

/-- The calls after one began. -/
theorem of_getElem?_begin {t : Threads} {id : Nat} {c c' : Thread}
    (h : (t.calls ++ [c])[id]? = some c') :
    (id = t.calls.length ∧ c' = c) ∨ t.calls[id]? = some c' := by
  rw [List.getElem?_append] at h
  split at h
  · exact .inr h
  · rw [List.getElem?_singleton] at h
    split at h
    · obtain rfl := Option.some.inj h
      exact .inl ⟨by omega, rfl⟩
    · cases h

theorem step_serve {t : Threads} {id : Nat} {c : Thread} {await : Await}
    (hc : t.calls[id]? = some c) (hwaiting : c.stage = .waiting await) :
    t.step (.serve id) = ({t with engine := (t.engine.serve await.request).2}.place id
      (.answered await (t.engine.serve await.request).1)) := by
  obtain ⟨call, context, stage⟩ := c
  obtain rfl : stage = .waiting await := hwaiting
  show t.serve id = _
  unfold serve
  rw [hc]

/-- Whether a move takes no call any further. -/
def IsQuiet (t : Threads) (move : Move) : Prop :=
  ∀ (id : Nat) (c : Thread), t.calls[id]? = some c →
    move ≠ .go id ∧ (move = .serve id → ∀ await, c.stage ≠ .waiting await)

/-- What a move can do. -/
inductive Steps (t : Threads) : Move → Threads → Prop
  | begins (context : Context) (call : Call) :
    Steps t (.begin context call)
      {t with calls := t.calls ++ [{ call := call, context := context }]}
  | goes {id : Nat} {c : Thread} {stage : Stage} {later : Store} (hc : t.calls[id]? = some c)
    (h : Store.Proceeds (c.context.ended? t.tokens t.now) c.call t.store c.stage (stage, later)) :
    Steps t (.go id) ({t with store := later}.place id stage)
  | serves {id : Nat} {c : Thread} {await : Await} (hc : t.calls[id]? = some c)
    (hwaiting : c.stage = .waiting await) :
    Steps t (.serve id) ({t with engine := (t.engine.serve await.request).2}.place id
      (.answered await (t.engine.serve await.request).1))
  | stops {id : Nat} {c : Thread} {await : Await} {e : Error} (hc : t.calls[id]? = some c)
    (hwaiting : c.stage = .waiting await) (he : c.context.ended? t.tokens t.now = some e) :
    Steps t (.stop id) (t.place id (.answered await (.error e)))
  | turns {move : Move} {t' : Threads} (hquiet : t.IsQuiet move) (hcalls : t'.calls = t.calls)
    (hindices : t'.engine.indices = t.engine.indices) (hstore : t.store.Recedes t'.store) :
    Steps t move t'

theorem Steps.of_quiet {t : Threads} {move : Move} (h : t.IsQuiet move) : Steps t move t :=
  .turns h rfl rfl (.refl _)

theorem steps (t : Threads) (move : Move) : Steps t move (t.step move) := by
  cases move with
  | begin context call => exact .begins context call
  | go id =>
    show Steps t _ (t.go id)
    unfold go
    cases hc : t.calls[id]? with
    | none =>
      refine .of_quiet fun other c hother => ⟨?_, nofun⟩
      rintro ⟨rfl⟩
      rw [hc] at hother
      cases hother
    | some c => exact .goes hc (Store.proceeds ..)
  | serve id =>
    show Steps t _ (t.serve id)
    unfold serve
    split
    · next call context await hc => exact .serves hc rfl
    · next hnone =>
      refine .of_quiet fun other c hother => ⟨nofun, ?_⟩
      rintro ⟨rfl⟩ await hstage
      obtain ⟨call, context, stage⟩ := c
      cases hstage
      exact hnone _ _ _ hother
  | stop id =>
    show Steps t _ (t.stop id)
    unfold stop
    have hquiet : t.IsQuiet (.stop id) := fun other c hother => ⟨nofun, nofun⟩
    split
    · next call context await hc =>
      split
      · next e he => exact .stops hc rfl he
      · exact .of_quiet hquiet
    · exact .of_quiet hquiet
  | fire generation =>
    exact .turns (fun _ _ _ => ⟨nofun, nofun⟩) rfl rfl ⟨rfl, LiveCache.recedes_fire _ _⟩
  | clearCache =>
    exact .turns (fun _ _ _ => ⟨nofun, nofun⟩) rfl rfl ⟨rfl, Cache.recedes_clear _⟩
  | advance | cancel | setUnavailable | setClock | advanceClock | draw =>
    exact .turns (fun _ _ _ => ⟨nofun, nofun⟩) rfl rfl ⟨rfl, .refl _⟩

/-- The settings stay, and the epoch never goes back. -/
theorem Steps.later {t t' : Threads} {move : Move} (h : Steps t move t') :
    t'.store.config = t.store.config ∧ t.epoch ≤ t'.epoch := by
  cases h with
  | begins | serves | stops => exact ⟨rfl, Nat.le_refl _⟩
  | goes _ h => exact h.later
  | turns _ _ _ hstore => exact ⟨hstore.config, hstore.cache.epoch_le⟩

theorem index_of_config {t t' : Threads} (h : t'.store.config = t.store.config) :
    t'.index = t.index := Store.index_of_config h

theorem Steps.index {t t' : Threads} {move : Move} (h : Steps t move t') : t'.index = t.index :=
  index_of_config h.later.1

/-- Nothing but waiting takes time. -/
theorem now_step (t : Threads) {move : Move} (h : ∀ amount, move ≠ .advance amount) :
    (t.step move).now = t.now := by
  cases move with
  | advance amount => exact absurd rfl (h amount)
  | go id =>
    show (t.go id).now = _
    unfold go
    split
    · rfl
    · exact Store.now_proceed ..
  | serve id =>
    show (t.serve id).now = _
    unfold serve
    split <;> rfl
  | stop id =>
    show (t.stop id).now = _
    unfold stop
    split
    · split <;> rfl
    · rfl
  | fire generation => exact LiveCache.now_fire generation t.store.memory
  | begin | cancel | setUnavailable | setClock | advanceClock | clearCache | draw => rfl

theorem now_le_step (t : Threads) (move : Move) : t.now ≤ (t.step move).now := by
  by_cases h : ∃ amount, move = .advance amount
  · obtain ⟨amount, rfl⟩ := h
    exact Time.now_le_passTo ..
  · exact Nat.le_of_eq (t.now_step fun amount heq => h ⟨amount, heq⟩).symm

/-- How a call can come to stand where it did not stand before. -/
inductive Arrives (t : Threads) (id : Nat) : Move → Threads → Thread → Prop
  | begins (context : Context) (call : Call) :
    Arrives t id (.begin context call)
      {t with calls := t.calls ++ [{ call := call, context := context }]}
      { call := call, context := context }
  | goes {c : Thread} {stage : Stage} {later : Store} (hc : t.calls[id]? = some c)
    (h : Store.Proceeds (c.context.ended? t.tokens t.now) c.call t.store c.stage (stage, later)) :
    Arrives t id (.go id) ({t with store := later}.place id stage) {c with stage := stage}
  | serves {c : Thread} {await : Await} (hc : t.calls[id]? = some c)
    (hwaiting : c.stage = .waiting await) :
    Arrives t id (.serve id) ({t with engine := (t.engine.serve await.request).2}.place id
      (.answered await (t.engine.serve await.request).1))
      {c with stage := .answered await (t.engine.serve await.request).1}
  | stops {c : Thread} {await : Await} {e : Error} (hc : t.calls[id]? = some c)
    (hwaiting : c.stage = .waiting await) (he : c.context.ended? t.tokens t.now = some e) :
    Arrives t id (.stop id) (t.place id (.answered await (.error e)))
      {c with stage := .answered await (.error e)}

/-- A move leaves a call where it stands, or it is the move of that call. -/
theorem Steps.kept_or_arrives {t t' : Threads} {move : Move} (h : Steps t move t') {id : Nat}
    {c : Thread} (hc : t'.calls[id]? = some c) :
    t.calls[id]? = some c ∨ Arrives t id move t' c := by
  cases h with
  | begins context call =>
    rcases of_getElem?_begin hc with ⟨-, rfl⟩ | hc
    · exact .inr (.begins context call)
    · exact .inl hc
  | goes hc' hproceeds =>
    rcases of_getElem?_place hc' hc with ⟨rfl, rfl⟩ | ⟨-, hc⟩
    · exact .inr (.goes hc' hproceeds)
    · exact .inl hc
  | serves hc' hwaiting =>
    rcases of_getElem?_place hc' hc with ⟨rfl, rfl⟩ | ⟨-, hc⟩
    · exact .inr (.serves hc' hwaiting)
    · exact .inl hc
  | stops hc' hwaiting he =>
    rcases of_getElem?_place hc' hc with ⟨rfl, rfl⟩ | ⟨-, hc⟩
    · exact .inr (.stops hc' hwaiting he)
    · exact .inl hc
  | turns _ hcalls =>
    rw [hcalls] at hc
    exact .inl hc

/-- A call that has ended stays as it is. -/
theorem Steps.of_ended {t t' : Threads} {move : Move} (h : Steps t move t') {id : Nat}
    {c : Thread} {outcome : Outcome} (hc : t.calls[id]? = some c)
    (hended : c.stage = .ended outcome) : t'.calls[id]? = some c := by
  cases h with
  | begins => exact List.getElem?_append_left (List.getElem?_eq_some_iff.mp hc).1 ▸ hc
  | @goes other c' stage later hc' h =>
    by_cases hid : id = other
    · subst hid
      obtain rfl := Option.some.inj (hc'.symm.trans hc)
      obtain ⟨call, context, stage⟩ := c'
      cases hended
      cases h
      exact getElem?_place _ hc
    · exact (getElem?_place_of_ne _ hid).trans hc
  | serves hc' hwaiting | stops hc' hwaiting =>
    refine (getElem?_place_of_ne _ ?_).trans hc
    rintro rfl
    obtain rfl := Option.some.inj (hc'.symm.trans hc)
    rw [hended] at hwaiting
    cases hwaiting
  | turns _ hcalls => rw [hcalls]; exact hc

end Threads

/-! ### What holds of every call -/

/-- Whether a call may stand at a stage: what it waits for is what it asks for, the epoch that
it noted is not ahead of the cache, and it was refused an answer only by not being served. -/
def Stage.Fits (index : Namespace → String) (epoch : Nat) (call : Call) : Stage → Prop
  | .called | .ended _ => True
  | .admitted read | .missed read => call.latest? = some read
  | .waiting await =>
    Asks index call await ∧ ∀ key noted, await.noted? = some (key, noted) → noted ≤ epoch
  | .answered await answer =>
    Asks index call await ∧ (∀ key noted, await.noted? = some (key, noted) → noted ≤ epoch) ∧
      ∀ e, answer = .error e → e.IsUnserved

theorem Stage.Fits.mono {index : Namespace → String} {epoch later : Nat} {call : Call}
    {stage : Stage} (h : stage.Fits index epoch call) (hle : epoch ≤ later) :
    stage.Fits index later call := by
  cases stage with
  | waiting => exact ⟨h.1, fun key noted hnoted => Nat.le_trans (h.2 key noted hnoted) hle⟩
  | answered =>
    obtain ⟨hasks, hle', hserved⟩ := h
    exact ⟨hasks, fun key noted hnoted => Nat.le_trans (hle' key noted hnoted) hle, hserved⟩
  | _ => exact h

theorem Store.Proceeds.fits {ended : Option Error} {call : Call} {store later : Store}
    {stage next : Stage} (h : Proceeds ended call store stage (next, later))
    (hfits : stage.Fits store.index store.memory.cache.epoch call) :
    next.Fits store.index later.memory.cache.epoch call := by
  have hle := h.later.2
  cases h with
  | refused | hits | ends | rests => trivial
  | waits clock hasks hfirst =>
    refine ⟨hasks, fun key noted hnoted => ?_⟩
    cases hasks <;> first | exact hfirst.elim | cases hnoted
  | reads hlatest => exact hlatest
  | misses => exact hfits
  | fetches =>
    refine ⟨.latest hfits _, ?_⟩
    rintro key noted ⟨rfl, rfl⟩
    exact Nat.le_refl _
  | creates h =>
    obtain ⟨detached, rfl⟩ := Store.eq_removal_of_creates (congrArg Prod.fst h)
    obtain ⟨hasks, -⟩ := hfits
    cases hasks
    exact ⟨.creation, nofun⟩
  | stays => exact hfits

namespace Threads

/-- Each call stands where it may. -/
def Poised (t : Threads) : Prop :=
  ∀ (id : Nat) (c : Thread), t.calls[id]? = some c → c.stage.Fits t.index t.epoch c.call

theorem Poised.step {t : Threads} (h : t.Poised) (move : Move) : (t.step move).Poised := by
  have hsteps := t.steps move
  generalize t.step move = t' at hsteps
  intro id c hc
  rw [hsteps.index]
  rcases hsteps.kept_or_arrives hc with hc | harrives
  · exact (h id c hc).mono hsteps.later.2
  cases harrives with
  | begins context call => trivial
  | goes hc' hproceeds => exact hproceeds.fits (h id _ hc')
  | serves hc' hwaiting =>
    obtain ⟨hasks, hnoted⟩ := hwaiting ▸ h id _ hc'
    exact ⟨hasks, hnoted, fun e he => Engine.isUnserved_of_serve he⟩
  | stops hc' hwaiting he =>
    obtain ⟨hasks, hnoted⟩ := hwaiting ▸ h id _ hc'
    refine ⟨hasks, hnoted, ?_⟩
    rintro _ ⟨rfl⟩
    exact Context.isUnserved_of_ended? he

/-- All calls are the store's own, and each stands where it may. -/
def Fits (t : Threads) : Prop :=
  ∀ (id : Nat) (c : Thread), t.calls[id]? = some c →
    c.call.isOwn = true ∧ c.stage.Fits t.index t.epoch c.call

theorem fits_fresh (config : StoreConfig) (clock : Clock) (timed : Bool) (engine : Engine) :
    (fresh config clock timed engine).Fits := by
  intro id c hc
  cases hc

theorem Fits.poised {t : Threads} (h : t.Fits) : t.Poised := fun id c hc => (h id c hc).2

theorem Fits.step {t : Threads} (h : t.Fits) {move : Move} (hown : move.isOwn = true) :
    (t.step move).Fits := by
  have hpoised := h.poised.step move
  have hsteps := t.steps move
  generalize t.step move = t' at hsteps hpoised
  intro id c hc
  refine ⟨?_, hpoised id c hc⟩
  rcases hsteps.kept_or_arrives hc with hc | harrives
  · exact (h id c hc).1
  cases harrives with
  | begins context call => exact hown
  | goes hc' | serves hc' | stops hc' => exact (h id _ hc').1

theorem Fits.run {t : Threads} (h : t.Fits) {moves : List Move}
    (hown : ∀ move ∈ moves, move.isOwn = true) : (t.run moves).Fits := by
  induction moves generalizing t with
  | nil => exact h
  | cons move rest ih =>
    obtain ⟨hfirst, hrest⟩ := List.forall_mem_cons.mp hown
    exact ih (h.step hfirst) hrest

/-! ### Runs -/

/-- What every move keeps, a run keeps. -/
theorem run_of_step {P : Threads → Prop} (hstep : ∀ t move, P t → P (t.step move)) {t : Threads}
    (h : P t) (moves : List Move) : P (t.run moves) := by
  induction moves generalizing t with
  | nil => exact h
  | cons move rest ih => exact ih (hstep t move h)

theorem config_run (t : Threads) (moves : List Move) :
    (t.run moves).store.config = t.store.config :=
  run_of_step (P := fun later => later.store.config = t.store.config)
    (fun later move h => (later.steps move).later.1.trans h) rfl moves

/-- No call is forgotten. -/
theorem length_le_run (t : Threads) (moves : List Move) :
    t.calls.length ≤ (t.run moves).calls.length := by
  induction moves generalizing t with
  | nil => exact Nat.le_refl _
  | cons move rest ih =>
    refine Nat.le_trans ?_ (ih _)
    have hsteps := t.steps move
    generalize t.step move = t' at hsteps
    cases hsteps with
    | begins => simp
    | goes | serves | stops => simp [place]
    | turns _ hcalls => exact Nat.le_of_eq (congrArg List.length hcalls.symm)

theorem exists_of_outcome? {t : Threads} {id : Nat} {call : Call} {outcome : Outcome}
    (hcall : t.call? id = some call) (houtcome : t.outcome? id = some outcome) :
    ∃ context, t.calls[id]? = some ⟨call, context, .ended outcome⟩ := by
  obtain ⟨⟨call, context, stage⟩, hc, rfl⟩ := Option.map_eq_some_iff.mp hcall
  unfold outcome? at houtcome
  rw [hc, Option.bind_some] at houtcome
  cases stage with
  | ended => cases houtcome; exact ⟨context, hc⟩
  | _ => cases houtcome

/-- A call stays the call that it is. -/
theorem Steps.call? {t t' : Threads} {move : Move} (h : Steps t move t') {id : Nat} {call : Call}
    (hcall : t.call? id = some call) : t'.call? id = some call := by
  obtain ⟨c, hc, rfl⟩ := Option.map_eq_some_iff.mp hcall
  refine Option.map_eq_some_iff.mpr ?_
  cases h with
  | begins => exact ⟨c, List.getElem?_append_left (List.getElem?_eq_some_iff.mp hc).1 ▸ hc, rfl⟩
  | @goes other _ _ _ hc' | @serves other _ _ hc' | @stops other _ _ _ hc' =>
    by_cases hid : id = other
    · subst hid
      obtain rfl := Option.some.inj (hc'.symm.trans hc)
      exact ⟨_, getElem?_place _ hc, rfl⟩
    · exact ⟨c, (getElem?_place_of_ne _ hid).trans hc, rfl⟩
  | turns _ hcalls => exact ⟨c, hcalls ▸ hc, rfl⟩

theorem call?_run {t : Threads} {id : Nat} {call : Call} (hcall : t.call? id = some call)
    (moves : List Move) : (t.run moves).call? id = some call :=
  run_of_step (P := fun later => later.call? id = some call)
    (fun later move h => (later.steps move).call? h) hcall moves

/-- A call that begins after some moves bears the number of calls that began before. -/
theorem call?_begin {t : Threads} {moves : List Move} {id : Nat}
    (h : (t.run moves).calls.length = id) (context : Context) (call : Call) (rest : List Move) :
    (t.run (moves ++ .begin context call :: rest)).call? id = some call := by
  subst h
  rw [run_append, run]
  apply call?_run
  simp [call?, step]

/-- What holds after a run but not before it came about by one of its moves. -/
theorem exists_turn (P : Threads → Prop) {t : Threads} {moves : List Move} (hbefore : ¬P t)
    (hafter : P (t.run moves)) :
    ∃ a move b, moves = a ++ move :: b ∧ ¬P (t.run a) ∧ P ((t.run a).step move) := by
  induction moves generalizing t with
  | nil => exact absurd hafter hbefore
  | cons move rest ih =>
    by_cases hnow : P (t.step move)
    · exact ⟨[], move, rest, rfl, hbefore, hnow⟩
    · obtain ⟨a, turn, b, rfl, ha, hturn⟩ := ih hnow hafter
      exact ⟨move :: a, turn, b, rfl, ha, hturn⟩

end Threads

end VersionStore
