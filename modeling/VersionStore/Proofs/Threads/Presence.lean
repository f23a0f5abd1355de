import VersionStore.Proofs.Listing
import VersionStore.Proofs.Threads.Step

/-! Which namespaces a run leaves behind.

A put makes the index of its namespace, if there is none, and so does a reset with its second
request; a removal takes the index away. `effects` lists what a run of moves did in this way,
at the moments when the engine served the requests. An index is there if and only if it was made
after it was last removed (`Fits.has_run`), and what is listed then is exactly the namespaces of
such indices (`listed_exactly`). -/
namespace VersionStore

/-! ### Effects -/

/-- What a served request does to the indices that there are. -/
inductive Effect where
  /-- The index of a namespace is there from now on. -/
  | makes (ns : Namespace)
  /-- The index of a namespace is there no longer. -/
  | removes (ns : Namespace)
  deriving DecidableEq

/-- Whether the index of a namespace is there after an effect. -/
def Effect.leaves (ns : Namespace) (present : Bool) : Effect → Bool
  | makes other => present || ns == other
  | removes other => present && ns != other

/-- What is there was there before and not removed, or it was made after the last removal. -/
theorem Effect.foldl_leaves_iff {ns : Namespace} {present : Bool} {effects : List Effect} :
    effects.foldl (leaves ns) present = true ↔
      (present = true ∧ removes ns ∉ effects) ∨
        ∃ before after, effects = before ++ makes ns :: after ∧ removes ns ∉ after := by
  induction effects generalizing present with
  | nil => simp
  | cons effect rest ih =>
    have hsplit : (∃ before after, effect :: rest = before ++ makes ns :: after ∧
        removes ns ∉ after) ↔ (effect = makes ns ∧ removes ns ∉ rest) ∨
          ∃ before after, rest = before ++ makes ns :: after ∧ removes ns ∉ after := by
      constructor
      · rintro ⟨before, after, heq, hafter⟩
        rcases List.cons_eq_append_iff.mp heq with ⟨rfl, heq⟩ | ⟨before', rfl, hrest⟩
        · cases heq
          exact .inl ⟨rfl, hafter⟩
        · exact .inr ⟨before', after, hrest, hafter⟩
      · rintro (⟨rfl, hrest⟩ | ⟨before, after, rfl, hafter⟩)
        · exact ⟨[], rest, rfl, hrest⟩
        · exact ⟨effect :: before, after, rfl, hafter⟩
    rw [List.foldl_cons, ih, hsplit, ← or_assoc]
    refine or_congr_left ?_
    cases effect with
    | makes other =>
      by_cases hother : ns = other
      · simp [leaves, hother]
      · simp [leaves, hother, Ne.symm hother]
    | removes other =>
      by_cases hother : ns = other
      · simp [leaves, hother]
      · simp [leaves, hother]

/-- What a call does to the indices when the request is served that it waits for. -/
def Call.effect? : Call → Await → Option Effect
  | .put ns .., .write .. => some (.makes ns)
  | .delete ns _, .removal .. => some (.removes ns)
  | .reset ns _, .removal .. => some (.removes ns)
  | .reset ns _, .creation _ => some (.makes ns)
  | _, _ => none

/-- A served request does to the indices what its call says. -/
theorem Asks.has_serve {index : Namespace → String} {call : Call} {await : Await} {engine : Engine}
    (hasks : Asks index call await) (hown : call.isOwn = true)
    (hserved : engine.unavailable = false)
    (hindex : ∀ ns other, wildcardMatches (index ns) (index other) = true ↔ other = ns)
    (ns : Namespace) :
    (engine.serve await.request).2.indices.has (index ns) =
      (call.effect? await).toList.foldl (Effect.leaves ns) (engine.indices.has (index ns)) := by
  have hsame (other : Namespace) : (index ns == index other) = (ns == other) := by
    rw [Bool.eq_iff_iff, beq_iff_eq, beq_iff_eq, index_inj hindex]
  have hmatches (other : Namespace) : wildcardMatches (index other) (index ns) = (ns == other) := by
    rw [Bool.eq_iff_iff, hindex, beq_iff_eq]
  cases hasks with
  | @write other =>
    refine (Engine.has_serve_index hserved ..).trans ?_
    rw [hsame]
    rfl
  | @delete other | @reset other =>
    refine (Engine.has_serve_delete hserved ..).trans ?_
    rw [hmatches]
    rfl
  | @creation other =>
    refine (Engine.has_serve_create hserved ..).trans ?_
    rw [hsame]
    rfl
  | @latest call _ hlatest =>
    have hnone : call.effect? = fun _ => none := by
      cases call <;> first | rfl | cases hlatest
    simp [Await.request, Engine.serve, hserved, hnone]
  | version | versions | listing => simp [Await.request, Engine.serve, hserved, Call.effect?]
  | direct => cases hown

namespace Threads

/-- What a move does to the indices: the engine serves a request. -/
def effect? (t : Threads) : Move → Option Effect
  | .serve id =>
    match t.calls[id]? with
    | some ⟨call, _, .waiting await⟩ => if t.engine.unavailable then none else call.effect? await
    | _ => none
  | _ => none

def effects (t : Threads) : List Move → List Effect
  | [] => []
  | move :: rest => (t.effect? move).toList ++ effects (t.step move) rest

theorem effect?_of_quiet {t : Threads} {move : Move} (h : t.IsQuiet move) :
    t.effect? move = none := by
  cases move with
  | serve id =>
    cases hc : t.calls[id]? with
    | none => simp [effect?, hc]
    | some c =>
      obtain ⟨call, context, stage⟩ := c
      cases stage with
      | waiting await => exact absurd rfl ((h id _ hc).2 rfl await)
      | _ => simp [effect?, hc]
  | _ => rfl

/-! ### The indices that there are -/

/-- One move. -/
theorem Fits.has_step {t : Threads} (h : t.Fits)
    (hindex : ∀ ns other, wildcardMatches (t.index ns) (t.index other) = true ↔ other = ns)
    (move : Move) (ns : Namespace) :
    (t.step move).engine.indices.has (t.index ns) =
      (t.effect? move).toList.foldl (Effect.leaves ns) (t.engine.indices.has (t.index ns)) := by
  have hsteps := t.steps move
  generalize t.step move = t' at hsteps
  cases hsteps with
  | begins | goes | stops => rfl
  | turns hquiet _ hindices =>
    rw [effect?_of_quiet hquiet, hindices]
    rfl
  | @serves id c await hc hwaiting =>
    obtain ⟨hown, hasks, -⟩ := hwaiting ▸ h id c hc
    obtain ⟨call, context, stage⟩ := c
    obtain rfl : stage = .waiting await := hwaiting
    cases hunavailable : t.engine.unavailable with
    | true =>
      have hnone : t.effect? (.serve id) = none := by simp [effect?, hc, hunavailable]
      rw [hnone, Engine.serve_of_unavailable hunavailable]
      rfl
    | false =>
      have heffect : t.effect? (.serve id) = call.effect? await := by
        simp [effect?, hc, hunavailable]
      rw [heffect]
      exact hasks.has_serve hown hunavailable hindex ns

/-- A run of moves: an index is there if it was made after it was last removed. -/
theorem Fits.has_run {t : Threads} (h : t.Fits) (hvalid : t.store.config.validate = .ok ())
    {moves : List Move} (hown : ∀ move ∈ moves, move.isOwn = true) (ns : Namespace) :
    (t.run moves).engine.indices.has (t.index ns) =
      (t.effects moves).foldl (Effect.leaves ns) (t.engine.indices.has (t.index ns)) := by
  induction moves generalizing t with
  | nil => rfl
  | cons move rest ih =>
    obtain ⟨hfirst, hrest⟩ := List.forall_mem_cons.mp hown
    have hlater := (t.steps move).later.1
    have hrun := ih (h.step hfirst) (hlater ▸ hvalid) hrest
    rw [index_of_config hlater, h.has_step (wildcardMatches_index hvalid)] at hrun
    rw [effects, List.foldl_append]
    exact hrun

/-- **Namespaces are listed exactly.** Stripping the suffix from an index name gives a namespace
if and only if the name is that namespace and the suffix. A listing therefore returns, for
whatever names an engine answers, the namespaces whose indices are among them, each once and in
the order of their bytes. After a run of a new store's own calls these are the namespaces that
a put was served for, or the second request of a reset, after the last removal that was
served for them. -/
theorem listed_exactly {config : StoreConfig} (hvalid : config.validate = .ok ()) (clock : Clock)
    (timed : Bool) {moves : List Move} (hown : ∀ move ∈ moves, move.isOwn = true) :
    let start := fresh config clock timed
    let t := start.run moves
    (∀ (index suffix : String) (ns : Namespace),
      Namespace.ofIndexName? index suffix = some ns ↔ index = ns.indexName suffix) ∧
    (∀ (σ : Type) (serve : (request : Request) → σ → Result request.Answer × σ) (store : Store)
      (s : σ) (names : List String), (serve .listIndices s).1 = .ok names →
      ∃ nss, (store.perform serve .listNamespaces s).1 = .ok (.namespaces nss) ∧
        IsListing names store.config.suffix nss) ∧
    ∃ nss, (t.store.perform (fun request engine => engine.serve request) .listNamespaces
        t.engine).1 = (if t.engine.unavailable then .error Engine.outage
          else .ok (.namespaces nss)) ∧
      (nss.Pairwise fun a b => a.bytes < b.bytes) ∧
      ∀ ns, ns ∈ nss ↔ ∃ before after,
        start.effects moves = before ++ .makes ns :: after ∧ .removes ns ∉ after := by
  intro start t
  refine ⟨fun _ _ _ => Namespace.ofIndexName?_eq_some_iff, ?_, ?_⟩
  · intro σ serve store s names hnames
    refine ⟨_, ?_, isListing_of_names names store.config.suffix⟩
    rw [Store.perform_listNamespaces, hnames]
    rfl
  · have hlisting := isListing_of_names t.engine.indices.keys t.store.config.suffix
    refine ⟨_, ?_, hlisting.increasing, fun ns => ?_⟩
    · rw [Store.perform_listNamespaces]
      unfold Engine.serve
      split <;> rfl
    · have hfits : start.Fits := fits_fresh config clock timed {}
      have hconfig : t.store.config = start.store.config := config_run start moves
      calc ns ∈ _ ↔ ns.indexName t.store.config.suffix ∈ t.engine.indices.keys :=
            hlisting.mem_iff ns
        _ ↔ t.engine.indices.has (start.index ns) = true := by
            rw [hconfig]
            exact (Table.isSome_get?_iff _ _).symm
        _ ↔ (start.effects moves).foldl (Effect.leaves ns) false = true := by
            rw [hfits.has_run hvalid hown]
            rfl
        _ ↔ _ := by
            rw [Effect.foldl_leaves_iff]
            simp

/-- Of three namespaces, one of which ends in the suffix itself, one is removed and one is removed
and made again. -/
theorem listed_exactly_after_reset :
    let kept : Namespace := ⟨"a_datastore", by decide, by decide⟩
    let gone : Namespace := ⟨"a", by decide, by decide⟩
    let again : Namespace := ⟨"b", by decide, by decide⟩
    let context : Context := ⟨⟨[0]⟩, none⟩
    let moves : List Move :=
      [.begin context (.put kept "c" "p" "k" "one"), .go 0, .serve 0,
       .begin context (.put gone "c" "p" "k" "two"), .go 1, .serve 1,
       .begin context (.delete gone false), .go 2, .serve 2,
       .begin context (.reset again false), .go 3, .serve 3, .go 3, .serve 3]
    let start := fresh .standard ⟨0, 0⟩
    let t := start.run moves
    start.effects moves =
      [.makes kept, .makes gone, .removes gone, .removes again, .makes again] ∧
    ∃ nss, (t.store.perform (fun request engine => engine.serve request) .listNamespaces
        t.engine).1 = .ok (.namespaces nss) ∧
      kept ∈ nss ∧ gone ∉ nss ∧ again ∈ nss := by
  intro kept gone again context moves start t
  have heffects : start.effects moves =
      [.makes kept, .makes gone, .removes gone, .removes again, .makes again] := by
    decide +kernel
  have havailable : (start.run moves).engine.unavailable = false := by decide +kernel
  have hown : ∀ move ∈ moves, move.isOwn = true := by decide
  obtain ⟨-, -, nss, hlisted, -, hmem⟩ := listed_exactly StoreConfig.validate_standard ⟨0, 0⟩ true
    hown
  have hok : ((start.run moves).store.perform (fun request engine => engine.serve request)
      .listNamespaces (start.run moves).engine).1 = .ok (.namespaces nss) := by
    rw [hlisted, havailable]
    rfl
  refine ⟨heffects, nss, hok, (hmem kept).mpr ⟨[], _, heffects, by decide⟩, fun hgone => ?_,
    (hmem again).mpr ⟨[.makes kept, .makes gone, .removes gone, .removes again], [], heffects,
      by decide⟩⟩
  have hleft : (start.effects moves).foldl (Effect.leaves gone) false = true :=
    Effect.foldl_leaves_iff.mpr (.inr ((hmem gone).mp hgone))
  rw [heffects] at hleft
  exact absurd hleft (by decide)

end Threads

end VersionStore
