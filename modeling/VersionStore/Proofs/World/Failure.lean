import VersionStore.Proofs.World.Course

/-! What a call that fails leaves behind.

A call changes an index or the cache only on its way to success, with one exception: to
reset a namespace is to remove its index and to make it again, and the second may fail after
the first was done. So all turns of a call that fails leave the documents and the cache as they
are, except that a lookup may notice that the time of a generation has come (`Spares`); or
the call is a reset, and one of its turns does what a removal does and the others nothing
(`Removes`). `failed_spares` says so of every run, and that a call whose context has ended
before it begins does not even count anything.

The invariant follows a turn act by act (`Leaves`): a stage tells what may have been done on the
way to it. -/
namespace VersionStore

namespace Await

def isCreation : Await → Bool
  | .creation _ => true
  | _ => false

/-- Whether nothing but an answer is asked for. -/
def isRead : Await → Bool
  | .latest .. | .version .. | .versions .. | .listing => true
  | _ => false

end Await

namespace Stage

/-- Whether a call at a stage has done nothing at all in this turn. -/
def isFirst : Stage → Bool
  | .called => true
  | .waiting await => !await.isCreation
  | _ => false

/-- Whether a call at a stage has done nothing but look. -/
def isSparing : Stage → Bool
  | .admitted _ | .missed _ => true
  | .waiting await => await.isRead
  | .answered await (.error _) => !await.isCreation
  | .answered await (.ok _) => await.isRead
  | .ended (.error _) => true
  | _ => false

/-- Whether a call is left with an index to be made again, or has failed. -/
def isLate : Stage → Bool
  | .waiting await => await.isCreation
  | .ended (.error _) => true
  | _ => false

/-- A read that is refused an answer has done no more than before. -/
theorem isSparing_error {await : Await} (h : await.isRead = true) (e : Error) :
    (Stage.answered await (.error e)).isSparing = true := by
  cases await with
  | latest | version | versions | listing => rfl
  | _ => cases h

end Stage

namespace World

variable {w v w' : World} {id : Nat} {context : Context} {call : Call} {stage next : Stage}

def cache (w : World) : Cache Record := w.store.memory.cache

/-- Whether nothing has been changed from one world to another, down to the counts. -/
structure Equals (a b : World) : Prop where
  engine : b.engine = a.engine
  cache : b.cache = a.cache

/-- Whether a call has changed nothing, except that a read may have dropped a generation whose time
had come. A call that reads no records has not even counted. -/
structure Spares (call : Call) (a b : World) : Prop where
  indices : b.engine.indices = a.engine.indices
  generation : b.cache.generation = a.cache.generation ∨
    a.cache.isOverdue a.now = true ∧ b.cache.generation = none
  equals : call.reads? = none → Equals a b

/-- Whether an index has been removed, and the cache cleared that is attached to it. -/
structure Removes (index : String) (detached : Bool) (a b : World) : Prop where
  engine : b.engine = {a.engine with indices := a.engine.indices.filter (·.1 != index)}
  cache : b.cache = if detached then a.cache else a.cache.clear

theorem Equals.refl (w : World) : Equals w w := ⟨rfl, rfl⟩

theorem Equals.trans {a b c : World} (hab : Equals a b) (hbc : Equals b c) : Equals a c :=
  ⟨hbc.engine.trans hab.engine, hbc.cache.trans hab.cache⟩

theorem Equals.spares {a b : World} (h : Equals a b) (call : Call) : Spares call a b :=
  ⟨congrArg Engine.indices h.engine, .inl (congrArg Cache.generation h.cache), fun _ => h⟩

/-! ### Making an index again -/

/-- What a call in hand has done that is to make an index again: nothing, or it will succeed. -/
inductive Remakes (w : World) : Stage × World → Prop
  | waiting {index : String} {v : World} (h : Equals w v) :
    Remakes w (.waiting (.creation index), v)
  | refused {index : String} {e : Error} {v : World} (h : Equals w v) :
    Remakes w (.answered (.creation index) (.error e), v)
  | failed {e : Error} {v : World} (h : Equals w v) : Remakes w (.ended (.error e), v)
  | made {index : String} {v : World} : Remakes w (.answered (.creation index) (.ok ()), v)
  | succeeded {reply : Reply} {v : World} : Remakes w (.ended (.ok reply), v)

theorem Remakes.act {a b : Stage × World} (h : Remakes w a) (hact : Acts call context a b) :
    Remakes w b := by
  cases hact with
  | goes hproceed =>
    cases h with
    | waiting h => cases hproceed; exact .waiting ⟨h.engine, h.cache⟩
    | refused h => cases hproceed; exact .failed ⟨h.engine, h.cache⟩
    | failed h => cases hproceed; exact .failed ⟨h.engine, h.cache⟩
    | made | succeeded => cases hproceed; exact .succeeded
  | @serves v await =>
    cases h with
    | waiting h =>
      cases hunavailable : v.engine.unavailable with
      | true =>
        rw [Engine.serve_of_unavailable hunavailable]
        exact .refused ⟨h.engine, h.cache⟩
      | false =>
        simp only [Engine.serve, Await.request, hunavailable]
        exact .made
  | stops =>
    cases h with
    | waiting h => exact .refused h

/-! ### A turn of any call -/

/-- What a call in hand has done that was taken in hand in a world. -/
inductive Leaves (call : Call) (w : World) : Stage × World → Prop
  | first {stage : Stage} {v : World} (hstage : stage.isFirst = true) (h : Equals w v) :
    Leaves call w (stage, v)
  | sparing {stage : Stage} {v : World} (hstage : stage.isSparing = true) (h : Spares call w v) :
    Leaves call w (stage, v)
  | wrote {record : Record} {index : String} {v : World} :
    Leaves call w (.answered (.write record index) (.ok ()), v)
  | removed {index : String} {detached again : Bool} {v : World}
    (hengine : v.engine = {w.engine with indices := w.engine.indices.filter (·.1 != index)})
    (hcache : v.cache = w.cache) :
    Leaves call w (.answered (.removal index detached again) (.ok ()), v)
  | remakes {ns : Namespace} {detached : Bool} {m : World} {scene : Stage × World}
    (hcall : call = .reset ns detached) (h : Removes (w.store.index ns) detached w m)
    (hrest : Remakes m scene) : Leaves call w scene
  | succeeded {reply : Reply} {v : World} : Leaves call w (.ended (.ok reply), v)

/-- The request of a call that has done nothing is served. -/
theorem Leaves.serve_first {await : Await} (hstage : (Stage.waiting await).isFirst = true)
    (h : Equals w v) (hasks : Asks v.store.index call await) (hown : call.isOwn = true)
    (hconfig : v.store.config.validate = .ok ()) :
    Leaves call w (.answered await (v.engine.serve await.request).1,
      {v with engine := (v.engine.serve await.request).2}) := by
  have hindices := congrArg Engine.indices h.engine
  cases hunavailable : v.engine.unavailable with
  | true =>
    rw [Engine.serve_of_unavailable hunavailable]
    exact .sparing hstage (Equals.spares ⟨h.engine, h.cache⟩ call)
  | false =>
    simp only [Engine.serve, hunavailable]
    cases hasks with
    | write => exact .wrote
    | latest hlatest =>
      exact .sparing rfl ⟨hindices, .inl (congrArg Cache.generation h.cache),
        fun hnone => by cases (Call.reads?_of_latest? hlatest).symm.trans hnone⟩
    | version | versions =>
      exact .sparing rfl ⟨hindices, .inl (congrArg Cache.generation h.cache),
        fun hnone => by cases hnone⟩
    | listing => exact .sparing rfl (Equals.spares ⟨h.engine, h.cache⟩ _)
    | @delete ns | @reset ns =>
      refine .removed ?_ h.cache
      rw [← h.engine]
      exact Engine.delete_indexName hconfig ns v.engine
    | creation => cases hstage
    | direct => cases hown

/-- A call that has looked at most has its request served. -/
theorem Leaves.serve_sparing {await : Await} (hread : await.isRead = true) (h : Spares call w v)
    (hasks : Asks v.store.index call await) :
    Leaves call w (.answered await (v.engine.serve await.request).1,
      {v with engine := (v.engine.serve await.request).2}) := by
  cases hunavailable : v.engine.unavailable with
  | true =>
    rw [Engine.serve_of_unavailable hunavailable]
    exact .sparing (Stage.isSparing_error hread _) h
  | false =>
    simp only [Engine.serve, hunavailable]
    cases hasks with
    | latest hlatest =>
      exact .sparing rfl ⟨h.indices, h.generation,
        fun hnone => by cases (Call.reads?_of_latest? hlatest).symm.trans hnone⟩
    | version | versions =>
      exact .sparing rfl ⟨h.indices, h.generation, fun hnone => by cases hnone⟩
    | listing => exact .sparing rfl h
    | _ => cases hread

/-- The cache is asked. A generation that it finds over it drops. -/
theorem Spares.lookUp (h : Spares call w v) (hnow : v.now = w.now) {read : LatestRead}
    (hlatest : call.latest? = some read) :
    Spares call w {v with store := (v.store.lookUp read).2} := by
  refine ⟨h.indices, ?_, fun hnone => by cases (Call.reads?_of_latest? hlatest).symm.trans hnone⟩
  unfold Store.lookUp
  split
  · show (v.cache.get v.now _).2.generation = _ ∨ _ ∧ (v.cache.get v.now _).2.generation = _
    rw [Cache.generation_get, hnow]
    have hcases := v.cache.generation_expire_cases w.now
    rcases h.generation with hsame | ⟨hover, hnone⟩
    · unfold Cache.isOverdue at hcases ⊢
      rwa [hsame] at hcases
    · rcases hcases with hkept | ⟨-, hdropped⟩
      · exact .inr ⟨hover, hkept.trans hnone⟩
      · exact .inr ⟨hover, hdropped⟩
  · exact h.generation

/-- A call that has looked at most goes on: it has an outcome, or has looked once more. -/
theorem Leaves.go_sparing {later : Store} (hstage : stage.isSparing = true) (h : Spares call w v)
    (hnow : v.now = w.now) (hholds : Holds id call (stage, v))
    (hproceed : v.store.proceed (v.ended? context) call stage = (next, later)) :
    Leaves call w (next, {v with store := later}) := by
  cases stage with
  | admitted read =>
    have hlookUp := h.lookUp hnow hholds.fits
    cases hfound : v.store.lookUp read with
    | mk found store =>
      rw [hfound] at hlookUp
      simp only [Store.proceed, hfound] at hproceed
      cases found with
      | some r =>
        cases hproceed
        exact .succeeded
      | none =>
        cases hproceed
        exact .sparing rfl hlookUp
  | missed read =>
    cases hproceed
    exact .sparing rfl h
  | waiting await =>
    cases hproceed
    exact .sparing hstage h
  | answered await answer =>
    cases answer with
    | error e =>
      have hresume := Store.resume_of_unserved v.store await (hholds.fits.2.2 e rfl)
      simp only [Store.proceed, hresume] at hproceed
      cases hproceed
      exact .sparing rfl h
    | ok answer =>
      have hresumes := Store.resumes v.store await (.ok answer)
      simp only [Store.proceed] at hproceed
      generalize v.store.resume await (.ok answer) = resumed at hresumes hproceed
      cases hresumes with
      | ends outcome =>
        cases hproceed
        cases outcome with
        | error e => exact .sparing rfl h
        | ok reply => exact .succeeded
      | keeps =>
        cases hproceed
        exact .succeeded
      | removes => cases hstage
  | ended outcome =>
    cases hproceed
    exact .sparing hstage h
  | called => cases hstage

/-- A call that has done nothing goes on. -/
theorem Leaves.go_first {later : Store} (hstage : stage.isFirst = true) (h : Equals w v)
    (hproceed : v.store.proceed (v.ended? context) call stage = (next, later)) :
    Leaves call w (next, {v with store := later}) := by
  have hproceeds := Store.proceeds (v.ended? context) call v.store stage
  rw [hproceed] at hproceeds
  cases stage with
  | called =>
    cases hproceeds with
    | refused | reads => exact .sparing rfl (Equals.spares ⟨h.engine, h.cache⟩ call)
    | @waits await _ _ hfirst =>
      refine .first ?_ ⟨h.engine, h.cache⟩
      cases await with
      | creation => exact hfirst.elim
      | _ => rfl
  | waiting await =>
    cases hproceed
    exact .first hstage h
  | _ => cases hstage

/-- A call whose index was removed clears the cache, and may have to make the index again. -/
theorem Leaves.go_removed {index : String} {detached again : Bool} {later : Store}
    (hengine : v.engine = {w.engine with indices := w.engine.indices.filter (·.1 != index)})
    (hcache : v.cache = w.cache) (hindex : v.store.index = w.store.index)
    (hasks : Asks v.store.index call (.removal index detached again))
    (hproceed : v.store.proceed (v.ended? context) call
      (.answered (.removal index detached again) (.ok ())) = (next, later)) :
    Leaves call w (next, {v with store := later}) := by
  cases again with
  | false =>
    cases hproceed
    exact .succeeded
  | true =>
    cases hasks with
    | @reset ns =>
      rw [hindex] at hengine
      have hremoves : Removes (w.store.index ns) detached w {v with store := later} := by
        cases hproceed
        refine ⟨hengine, ?_⟩
        rw [← hcache]
        cases detached <;> rfl
      have hnext : next = .waiting (.creation (v.store.index ns)) :=
        (congrArg Prod.fst hproceed).symm
      rw [hnext]
      exact .remakes rfl hremoves (.waiting (.refl _))

theorem Leaves.act {a b : Stage × World} (h : Leaves call w a) (hholds : Holds id call a)
    (hact : Acts call context a b) (hnow : a.2.now = w.now)
    (hsettings : a.2.store.config = w.store.config) (hown : call.isOwn = true)
    (hconfig : w.store.config.validate = .ok ()) : Leaves call w b := by
  cases h with
  | remakes hcall h hrest => exact .remakes hcall h (hrest.act hact)
  | @first stage v hstage h =>
    cases hact with
    | goes hproceed => exact .go_first hstage h hproceed
    | serves => exact .serve_first hstage h hholds.fits.1 hown (by rw [hsettings]; exact hconfig)
    | stops => exact .sparing hstage (h.spares call)
  | @sparing stage v hstage h =>
    cases hact with
    | goes hproceed => exact .go_sparing hstage h hnow hholds hproceed
    | serves => exact .serve_sparing hstage h hholds.fits.1
    | stops => exact .sparing (Stage.isSparing_error hstage _) h
  | wrote =>
    cases hact with
    | goes hproceed => cases hproceed; exact .succeeded
  | @removed index detached again v hengine hcache =>
    have hindex : v.store.index = w.store.index := Store.index_of_config hsettings
    cases hact with
    | goes hproceed => exact .go_removed hengine hcache hindex hholds.fits.1 hproceed
  | succeeded =>
    cases hact with
    | goes hproceed => cases hproceed; exact .succeeded

/-! ### What a turn has done -/

theorem Rests.equals (h : Rests id context (next, v) w') : Equals v w' := by
  cases h <;> exact ⟨rfl, rfl⟩

theorem Spares.trans_equals {a b c : World} (h : Spares call a b) (heq : Equals b c) :
    Spares call a c :=
  ⟨(congrArg Engine.indices heq.engine).trans h.indices, by rw [heq.cache]; exact h.generation,
    fun hnone => (h.equals hnone).trans heq⟩

theorem Removes.trans_equals {index : String} {detached : Bool} {a b c : World}
    (h : Removes index detached a b) (heq : Equals b c) : Removes index detached a c :=
  ⟨heq.engine.trans h.engine, heq.cache.trans h.cache⟩

/-- The turn of a call that is to make an index again does so, or nothing. -/
theorem Turn.late_cases {index : String}
    (hturn : Turn id call context (.waiting (.creation index), w.without id) next w') :
    (∃ reply, next = .ended (.ok reply)) ∨ (Equals w w' ∧ next.isLate = true) := by
  have hfirst : Remakes w (.waiting (.creation index), w.without id) := .waiting ⟨rfl, rfl⟩
  obtain ⟨v, hv, hrests⟩ := hturn.induct hfirst fun _ _ _ h hact => h.act hact
  have hequals := hrests.equals
  cases hv with
  | waiting h | failed h => exact .inr ⟨h.trans hequals, rfl⟩
  | succeeded => exact .inl ⟨_, rfl⟩
  | refused | made => cases hrests

/-- A turn of a call succeeds, or changes nothing, or it is a reset that removes the index. -/
theorem Turn.first_cases {first : Stage × World} (hopens : Opens w id first)
    (hstage : first.1.isFirst = true) (hturn : Turn id call context first next w')
    (hown : call.isOwn = true) (hconfig : w.store.config.validate = .ok ()) :
    (∃ reply, next = .ended (.ok reply)) ∨
      (Spares call w w' ∧ (next.isFirst = true ∨ next.isLate = true)) ∨
      ∃ ns detached, call = .reset ns detached ∧ Removes (w.store.index ns) detached w w' ∧
        next.isLate = true := by
  have hfirst : Leaves call w first ∧ first.2.now = w.now ∧
      first.2.store.config = w.store.config := by
    cases hopens <;> exact ⟨.first hstage ⟨rfl, rfl⟩, rfl, rfl⟩
  obtain ⟨v, ⟨hv, -, -⟩, hrests⟩ := hturn.induct
    (P := fun scene => Leaves call w scene ∧ scene.2.now = w.now ∧
      scene.2.store.config = w.store.config) hfirst fun a b hholds h hact =>
      ⟨h.1.act hholds hact h.2.1 h.2.2 hown hconfig, hact.frame.now.trans h.2.1,
        hact.frame.config.trans h.2.2⟩
  have hequals := hrests.equals
  cases hv with
  | first hstage h => exact .inr (.inl ⟨(h.spares call).trans_equals hequals, .inl hstage⟩)
  | sparing hstage h =>
    refine .inr (.inl ⟨h.trans_equals hequals, ?_⟩)
    cases hrests with
    | ended outcome => cases outcome with
      | error e => exact .inr rfl
      | ok reply => cases hstage
    | waits await => cases await <;> first | exact .inl rfl | cases hstage
  | remakes hcall h hrest =>
    cases hrest with
    | waiting hsame | failed hsame =>
      exact .inr (.inr ⟨_, _, hcall, (h.trans_equals hsame).trans_equals hequals, rfl⟩)
    | succeeded => exact .inl ⟨_, rfl⟩
    | refused | made => cases hrests
  | succeeded => exact .inl ⟨_, rfl⟩
  | wrote | removed => cases hrests

/-! ### A context that has ended -/

/-- Where a call in hand is whose context had ended before it began: it waits or has failed, and
nothing at all has been done. -/
inductive Idles (w : World) : Stage × World → Prop
  | called {v : World} (h : Equals w v) : Idles w (.called, v)
  | waiting {await : Await} {v : World} (h : Equals w v) : Idles w (.waiting await, v)
  | refused {await : Await} {e : Error} {v : World} (h : Equals w v) :
    Idles w (.answered await (.error e), v)
  | failed {e : Error} {v : World} (h : Equals w v) : Idles w (.ended (.error e), v)

theorem Idles.act {a b : Stage × World} (h : Idles w a) (hholds : Holds id call a)
    (hact : Acts call context a b) {e : Error} (hended : a.2.ended? context = some e) :
    Idles w b := by
  cases hact with
  | @goes v stage next later hproceed =>
    cases h with
    | called h =>
      have hproceeds := Store.proceeds (v.ended? context) call v.store .called
      rw [hproceed] at hproceeds
      cases hproceeds with
      | refused => exact .failed ⟨h.engine, h.cache⟩
      | waits => exact .waiting ⟨h.engine, h.cache⟩
      | reads _ hnone => cases hended.symm.trans hnone
    | waiting h => cases hproceed; exact .waiting ⟨h.engine, h.cache⟩
    | @refused await e' _ h =>
      have hresume := Store.resume_of_unserved v.store await (hholds.fits.2.2 e' rfl)
      simp only [Store.proceed, hresume] at hproceed
      cases hproceed
      exact .failed ⟨h.engine, h.cache⟩
    | failed h => cases hproceed; exact .failed ⟨h.engine, h.cache⟩
  | serves hnone => cases hended.symm.trans hnone
  | stops => cases h with
    | waiting h => exact .refused h

theorem Frame.ended? {a b : World} (h : Frame a b) (context : Context) :
    b.ended? context = a.ended? context := by
  unfold World.ended?
  rw [h.tokens, h.now]

/-- The first turn of a call whose context has ended is its last, and does nothing at all. -/
theorem Turn.of_ended {e : Error} (hended : w.ended? context = some e)
    (hturn : Turn id call context (.called, {w with begun := w.begun + 1}) next w') :
    Equals w w' ∧ ∃ e, next = .ended (.error e) := by
  have hfirst : Idles w (.called, {w with begun := w.begun + 1}) := .called ⟨rfl, rfl⟩
  obtain ⟨v, ⟨hv, hended⟩, hrests⟩ := hturn.induct
    (P := fun scene => Idles w scene ∧ scene.2.ended? context = some e) ⟨hfirst, hended⟩
    fun a b hholds h hact => ⟨h.1.act hholds hact h.2, (hact.frame.ended? context).trans h.2⟩
  have hequals := hrests.equals
  cases hv with
  | failed h => exact ⟨h.trans hequals, _, rfl⟩
  | waiting => cases hrests with
    | waits _ _ hnone => cases hended.symm.trans hnone
  | called | refused => cases hrests

/-! ### All turns of a call -/

/-- The turns that a call gets by being polled: the worlds before and after each. -/
def turnsOf (id : Nat) (w : World) : List Event → List (World × World)
  | [] => []
  | .poll other :: rest =>
    (if other = id then [(w, w.poll other)] else []) ++ turnsOf id (w.poll other) rest
  | event :: rest => turnsOf id (w.step event) rest

/-- Whether none of some turns changes anything. -/
def AllSpare (call : Call) (turns : List (World × World)) : Prop :=
  ∀ turn ∈ turns, Spares call turn.1 turn.2

/-- Whether one of some turns removes the index of the namespace that a call resets, and the
others change nothing. -/
def OneRemoves (call : Call) (config : StoreConfig) (turns : List (World × World)) : Prop :=
  ∃ ns detached a removal b, call = .reset ns detached ∧ turns = a ++ removal :: b ∧
    Removes (ns.indexName config.suffix) detached removal.1 removal.2 ∧ AllSpare call (a ++ b)

/-- An event may be a turn of a call. -/
theorem turnsOf_cons (id : Nat) (w : World) (event : Event) (rest : List Event) :
    (event = .poll id ∧ turnsOf id w (event :: rest) =
      (w, w.step event) :: turnsOf id (w.step event) rest) ∨
    (event ≠ .poll id ∧ turnsOf id w (event :: rest) = turnsOf id (w.step event) rest) := by
  cases event with
  | poll other =>
    by_cases hid : other = id
    · subst hid
      exact .inl ⟨rfl, by simp [turnsOf, step]⟩
    · exact .inr ⟨fun heq => hid (Event.poll.inj heq), by simp [turnsOf, step, hid]⟩
  | _ => exact .inr ⟨nofun, rfl⟩

theorem AllSpare.cons {turn : World × World} {turns : List (World × World)}
    (h : Spares call turn.1 turn.2) (hrest : AllSpare call turns) : AllSpare call (turn :: turns) :=
  List.forall_mem_cons.mpr ⟨h, hrest⟩

theorem OneRemoves.cons {config : StoreConfig} {turn : World × World}
    {turns : List (World × World)} (h : Spares call turn.1 turn.2)
    (hrest : OneRemoves call config turns) : OneRemoves call config (turn :: turns) := by
  obtain ⟨ns, detached, a, removal, b, hcall, rfl, hremoves, hspare⟩ := hrest
  exact ⟨ns, detached, turn :: a, removal, b, hcall, rfl, hremoves, hspare.cons h⟩

/-- A call that has ended has no turns that do anything. -/
theorem At.turnsOf_ended {outcome : Outcome} (h : w.At id call context (.ended outcome))
    (hsound : w.Sound) {events : List Event}
    (hregular : ∀ event ∈ events, event.isRegular = true) :
    (w.run events).outcome? id = some outcome ∧ ∀ turn ∈ turnsOf id w events, turn.2 = turn.1 := by
  induction events generalizing w with
  | nil =>
    cases h with
    | ended _ _ houtcome => exact ⟨houtcome, List.forall_mem_nil _⟩
  | cons event rest ih =>
    obtain ⟨hfirst, hrest⟩ := List.forall_mem_cons.mp hregular
    rcases h.steps (hsound.steps hfirst) with ⟨hat, hpoll⟩ | ⟨_, _, _, hstage, _⟩
    · obtain ⟨houtcome, hturns⟩ := ih hat (hsound.step hfirst) hrest
      refine ⟨houtcome, ?_⟩
      rcases turnsOf_cons id w event rest with ⟨hevent, heq⟩ | ⟨-, heq⟩ <;> rw [heq]
      · exact List.forall_mem_cons.mpr ⟨hpoll hevent, hturns⟩
      · exact hturns
    · cases hstage

theorem Spares.refl (call : Call) (w : World) : Spares call w w := (Equals.refl w).spares call

/-- A call that fails to make an index again, or has failed, changes nothing any more. -/
theorem At.turnsOf_late {e : Error} (h : w.At id call context stage) (hsound : w.Sound)
    (hlate : stage.isLate = true) {events : List Event}
    (hregular : ∀ event ∈ events, event.isRegular = true)
    (hfails : (w.run events).outcome? id = some (.error e)) : AllSpare call (turnsOf id w events) := by
  induction events generalizing w stage with
  | nil => exact List.forall_mem_nil _
  | cons event rest ih =>
    obtain ⟨hfirst, hrest⟩ := List.forall_mem_cons.mp hregular
    have hsound' := hsound.step hfirst
    rcases h.steps (hsound.steps hfirst) with ⟨hat, hpoll⟩ | ⟨await, next, rfl, rfl, hturn⟩
    · have hturns := ih hat hsound' hlate hrest hfails
      rcases turnsOf_cons id w event rest with ⟨hevent, heq⟩ | ⟨-, heq⟩ <;> rw [heq]
      · refine hturns.cons ?_
        rw [hpoll hevent]
        exact .refl call w
      · exact hturns
    · obtain ⟨index, rfl⟩ : ∃ index, await = .creation index := by
        cases await <;> first | exact ⟨_, rfl⟩ | cases hlate
      rcases hturn.late_cases with ⟨reply, rfl⟩ | ⟨hequals, hnext⟩
      · obtain ⟨hok, -⟩ := hturn.at_next.turnsOf_ended hsound' hrest
        cases hok.symm.trans hfails
      · rcases turnsOf_cons id w (.poll id) rest with ⟨-, heq⟩ | ⟨hne, -⟩
        · rw [heq]
          exact (ih hturn.at_next hsound' hnext hrest hfails).cons (hequals.spares call)
        · exact absurd rfl hne

/-- The turns of a call that fails, from one on before which it had done nothing: what is left
to show is that the later ones are as they should be if this one did nothing either. -/
theorem Turn.turnsOf {first : Stage × World} {e : Error} {config : StoreConfig}
    (hturn : Turn id call context first next w') (hopens : Opens w id first)
    (hstage : first.1.isFirst = true) (hown : call.isOwn = true)
    (hsettings : w.store.config = config) (hconfig : config.validate = .ok ())
    {rest : List Event} (hregular : ∀ event ∈ rest, event.isRegular = true)
    (hfails : (w'.run rest).outcome? id = some (.error e))
    (hlater : next.isFirst = true →
      AllSpare call (turnsOf id w' rest) ∨ OneRemoves call config (turnsOf id w' rest)) :
    AllSpare call ((w, w') :: turnsOf id w' rest) ∨
      OneRemoves call config ((w, w') :: turnsOf id w' rest) := by
  have hat := hturn.at_next
  have hsound := hturn.sound
  rcases hturn.first_cases hopens hstage hown (hsettings ▸ hconfig) with
    ⟨reply, rfl⟩ | ⟨hspares, hnext | hnext⟩ | ⟨ns, detached, hcall, hremoves, hnext⟩
  · obtain ⟨hok, -⟩ := hat.turnsOf_ended hsound hregular
    cases hok.symm.trans hfails
  · exact (hlater hnext).imp (.cons hspares) (.cons hspares)
  · exact .inl ((hat.turnsOf_late hsound hnext hregular hfails).cons hspares)
  · have hindex : w.store.index ns = ns.indexName config.suffix := by
      unfold Store.index
      rw [hsettings]
    exact .inr ⟨ns, detached, [], _, _, hcall, rfl, hindex ▸ hremoves,
      hat.turnsOf_late hsound hnext hregular hfails⟩

/-- A call that has done nothing yet and fails changes nothing, or is a reset that removes the
index. -/
theorem At.turnsOf_first {e : Error} {config : StoreConfig} (h : w.At id call context stage)
    (hsound : w.Sound) (hstage : stage.isFirst = true) (hown : call.isOwn = true)
    (hsettings : w.store.config = config) (hconfig : config.validate = .ok ())
    {events : List Event} (hregular : ∀ event ∈ events, event.isRegular = true)
    (hfails : (w.run events).outcome? id = some (.error e)) :
    AllSpare call (turnsOf id w events) ∨ OneRemoves call config (turnsOf id w events) := by
  induction events generalizing w stage with
  | nil => exact .inl (List.forall_mem_nil _)
  | cons event rest ih =>
    obtain ⟨hfirst, hrest⟩ := List.forall_mem_cons.mp hregular
    have hsound' := hsound.step hfirst
    have hsettings' := (hsound.config_step hfirst).trans hsettings
    rcases h.steps (hsound.steps hfirst) with ⟨hat, hpoll⟩ | ⟨await, next, rfl, rfl, hturn⟩
    · have hturns := ih hat hsound' hstage hsettings' hrest hfails
      rcases turnsOf_cons id w event rest with ⟨hevent, heq⟩ | ⟨-, heq⟩ <;> rw [heq]
      · have hspares : Spares call w (w.step event) := by
          rw [hpoll hevent]
          exact .refl call w
        exact hturns.imp (.cons hspares) (.cons hspares)
      · exact hturns
    · rcases turnsOf_cons id w (.poll id) rest with ⟨-, heq⟩ | ⟨hne, -⟩
      · rw [heq]
        exact hturn.turnsOf (.polls await) hstage hown hsettings hconfig hrest hfails fun hnext =>
          ih hturn.at_next hsound' hnext hsettings' hrest hfails
      · exact absurd rfl hne

/-- **A call that fails changes nothing.** Whatever state a store is in and whatever happens
around a call, if it ends with an error, then none of its turns changes an index, a document
or a cached entry, except that a read may drop a generation whose time had come. Only a reset
may have come so far as to remove the index, with the cache cleared if it is attached: then
one of its turns does that, and the others change nothing. If the context had ended when the
call began, engine and cache are left as they were, with all their counts. -/
theorem failed_spares {start : World} (hnew : start.IsNew)
    (hconfig : start.store.config.validate = .ok ()) {past future : List Event}
    {context : Context} {call : Call} (hown : call.isOwn = true)
    (hregular : ∀ event ∈ past ++ .begin context call :: future, event.isRegular = true)
    {e : Error} (hfails : (start.run (past ++ .begin context call :: future)).outcome?
      (start.run past).begun = some (.error e)) :
    let w := start.run past
    let turns := (w, w.begin context call) :: turnsOf w.begun (w.begin context call) future
    (AllSpare call turns ∨ OneRemoves call start.store.config turns) ∧
      ((w.ended? context).isSome = true → ∀ turn ∈ turns, Equals turn.1 turn.2) := by
  intro w turns
  obtain ⟨hpast, hlater⟩ := List.forall_mem_append.mp hregular
  obtain ⟨hbegin, hfuture⟩ := List.forall_mem_cons.mp hlater
  have hsound : w.Sound := hnew.sound.run hpast
  have hsettings : w.store.config = start.store.config := hnew.sound.config_run hpast
  have hsettings' : (w.begin context call).store.config = start.store.config :=
    (hsound.config_step hbegin).trans hsettings
  rw [run_append] at hfails
  obtain ⟨next, hturn⟩ := Turn.of_takes (hsound.holds_begin call)
    (takes_begin hsound.faults context call)
  constructor
  · exact hturn.turnsOf .begins rfl hown hsettings hconfig hfuture hfails fun hnext =>
      hturn.at_next.turnsOf_first hturn.sound hnext hown hsettings' hconfig hfuture hfails
  · intro hended
    obtain ⟨e, hended⟩ := Option.isSome_iff_exists.mp hended
    obtain ⟨hequals, e, rfl⟩ := hturn.of_ended hended
    obtain ⟨-, hturns⟩ := hturn.at_next.turnsOf_ended hturn.sound hfuture
    refine List.forall_mem_cons.mpr ⟨hequals, fun turn hmem => ?_⟩
    rw [hturns turn hmem]
    exact .refl _

/-- A reset comes to its deadline after the index was removed and before it is made again. -/
theorem failed_spares_after_removal :
    let ns : Namespace := ⟨"a", by decide, by decide⟩
    let past : List Event :=
      [.begin ⟨⟨[0]⟩, none⟩ (.put ns "c" "p" "k" "v"), .advance 5, .poll 0]
    let context : Context := ⟨⟨[1]⟩, some 13⟩
    let call : Call := .reset ns false
    let future : List Event := [.advance 5, .poll 1, .advance 5, .poll 1]
    let start : World :=
      {store := ⟨.standard, {cache := .make second, clock := ⟨7, 0⟩}⟩, latency := 5}
    let w := start.run past
    let turns := (w, w.begin context call) :: turnsOf w.begun (w.begin context call) future
    (start.run (past ++ .begin context call :: future)).outcome? w.begun =
        some (.error Error.deadlineExceeded) ∧
      (start.run (past ++ .begin context call :: future)).engine.indices.isEmpty = true ∧
      (AllSpare call turns ∨ OneRemoves call start.store.config turns) := by
  intro ns past context call future start w turns
  have herror : ((start.run (past ++ .begin context call :: future)).outcome? w.begun).bind
      (fun | .error e => some e | .ok _ => none) = some Error.deadlineExceeded := by
    decide +kernel
  have hfails : (start.run (past ++ .begin context call :: future)).outcome? w.begun =
      some (.error Error.deadlineExceeded) := by
    obtain ⟨outcome, houtcome, he⟩ := Option.bind_eq_some_iff.mp herror
    rw [houtcome]
    cases outcome with
    | error e => rw [Option.some.inj he]
    | ok reply => nomatch he
  have hregular : ∀ event ∈ past ++ .begin context call :: future, event.isRegular = true := by
    decide +kernel
  have hgone : (start.run (past ++ .begin context call :: future)).engine.indices.isEmpty =
      true := by decide +kernel
  have hnew : start.IsNew := ⟨rfl, rfl, rfl, rfl⟩
  exact ⟨hfails, hgone, (failed_spares hnew StoreConfig.validate_standard rfl hregular hfails).1⟩

end World

end VersionStore
