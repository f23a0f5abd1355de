import VersionStore.Proofs.Context.Family

/-! What becomes of a context.

Copies share a token and have deadlines of their own, children share a deadline and have tokens
of their own. So a context's deadline is read off the deadlines given along its derivation, and
its token off the contexts that bear the same or are above. `derivation` has both for every
context of every run, with what a cancel leaves alone. -/
namespace VersionStore.Family

/-! ### Deadlines -/

section Deadlines

variable {f : Family} {k : Chronicle} {x y : Nat}

theorem eq_some_or_of_due? {o : Origin} {d : Nat} (h : f.due? o = some d) :
    o.heritage.bind f.deadline? = some d ∨ o.given = some d := by
  rw [due?] at h
  cases htaken : o.heritage.bind f.deadline? with
  | none => exact .inr (by simpa [htaken] using h)
  | some a =>
    cases hgiven : o.given with
    | none => exact .inl (by simpa [htaken, hgiven] using h)
    | some b =>
      obtain rfl : min a b = d := by simpa [htaken, hgiven] using h
      obtain hle | hle := le_total a b <;> simp [hle]

theorem Traced.given_of_deadline? (h : Traced f k) {d : Nat} (hx : f.deadline? x = some d) :
    k.genealogy.Given x d := by
  induction x using Nat.strong_induction_on generalizing d with
  | h x ih =>
    have hlt : x < k.genealogy.length := by
      by_contra hge
      simp_all [deadline?, h.length]
    obtain ⟨o, ho⟩ : ∃ o, k.genealogy[x]? = some o := ⟨_, List.getElem?_eq_getElem hlt⟩
    rw [h.deadline ho] at hx
    obtain htaken | hgiven := eq_some_or_of_due? hx
    · obtain ⟨y, hy, hdeadline⟩ := Option.bind_eq_some_iff.1 htaken
      exact .inherited ⟨o, ho, hy⟩ (ih y (h.heritage ⟨o, ho, hy⟩) hdeadline)
    · exact .own ho hgiven

/-- A deadline never comes after one that was given. -/
theorem Traced.deadline?_le (h : Traced f k) {d : Nat} (hd : k.genealogy.Given x d) :
    ∃ e ∈ f.deadline? x, e ≤ d := by
  induction hd with
  | @own x d o ho hgiven =>
    rw [h.deadline ho, due?, hgiven]
    cases o.heritage.bind f.deadline? <;> simp
  | @inherited x y d hheir _ ih =>
    obtain ⟨o, ho, hheritage⟩ := hheir
    obtain ⟨e, he, hle⟩ := ih
    rw [h.deadline ho, due?, hheritage, Option.bind_some, he]
    cases o.given with
    | none => exact ⟨e, by simp, hle⟩
    | some d' => exact ⟨min e d', by simp, (min_le_left _ _).trans hle⟩

/-- The deadline is the earliest of all that were given. -/
theorem Traced.deadline?_eq_some_iff (h : Traced f k) {d : Nat} :
    f.deadline? x = some d ↔ IsLeast {e | k.genealogy.Given x e} d := by
  constructor
  · intro hx
    refine ⟨h.given_of_deadline? hx, fun e he => ?_⟩
    obtain ⟨d', hd', hle⟩ := h.deadline?_le he
    rw [hx] at hd'
    exact Option.some.inj hd' ▸ hle
  · intro hleast
    obtain ⟨e, he, hle⟩ := h.deadline?_le hleast.1
    rwa [le_antisymm hle (hleast.2 (h.given_of_deadline? he))] at he

theorem Traced.deadline?_eq_none_iff (h : Traced f k) :
    f.deadline? x = none ↔ ∀ d, ¬ k.genealogy.Given x d := by
  constructor
  · intro hx d hd
    obtain ⟨e, he, -⟩ := h.deadline?_le hd
    simp [hx] at he
  · intro hnone
    by_contra hx
    obtain ⟨d, hd⟩ := Option.ne_none_iff_exists'.1 hx
    exact hnone d (h.given_of_deadline? hd)

/-- What was derived from a context has a deadline no later than that context's. -/
theorem Traced.deadline?_le_of_derived (h : Traced f k) (hxy : k.genealogy.Derived x y) {d : Nat}
    (hd : f.deadline? y = some d) : ∃ e ∈ f.deadline? x, e ≤ d :=
  h.deadline?_le ((h.given_of_deadline? hd).of_derived hxy)

end Deadlines

/-! ### Cancellation -/

section Cancellation

open Genealogy

variable {f : Family} {k : Chronicle} {x y p : Nat}

theorem lt_of_lineage {n : Nat} {rest : List Nat} (h : f.lineage x = n :: rest) :
    x < f.made.length := by
  by_contra hge
  simp_all [lineage]

namespace Traced

theorem exists_bearing (h : Traced f k) (hx : x < f.made.length) :
    ∃ b, k.genealogy.bearing? x = some b := by
  simp [bearing?, List.getElem?_eq_getElem (h.length ▸ hx)]

theorem lineage_shares (h : Traced f k) (hxy : k.genealogy.Shares x y) :
    f.lineage x = f.lineage y := by
  induction hxy with
  | rel x y hxy => cases h.stem hxy with | sharing _ hl => exact hl
  | refl => rfl
  | symm _ _ _ ih => exact ih.symm
  | trans _ _ _ _ _ ih₁ ih₂ => exact ih₁.trans ih₂

/-- A child's token has one number more. -/
theorem lineage_parent (h : Traced f k) (hp : k.genealogy.Parent p x) :
    ∃ n, f.lineage x = n :: f.lineage p := by
  obtain ⟨a, b, hab, hax, hpb⟩ := hp
  cases h.stem hab with
  | below _ _ hl => exact ⟨_, by rw [← h.lineage_shares hax, h.lineage_shares hpb, hl]⟩

theorem lineage_ancestor (h : Traced f k) (hyx : k.genealogy.Ancestor y x) :
    f.lineage y <:+ f.lineage x ∧ (f.lineage y).length < (f.lineage x).length := by
  induction hyx with
  | single hp =>
    obtain ⟨n, hn⟩ := h.lineage_parent hp
    simp [hn]
  | tail _ hp ih =>
    obtain ⟨n, hn⟩ := h.lineage_parent hp
    exact hn ▸ ⟨ih.1.trans (List.suffix_cons ..), ih.2.trans (by simp)⟩

theorem lineage_ends (h : Traced f k) (hyx : k.genealogy.Ends y x) :
    f.lineage y <:+ f.lineage x := by
  obtain hshares | hancestor := hyx
  · exact h.lineage_shares hshares ▸ List.suffix_refl _
  · exact (h.lineage_ancestor hancestor).1

/-- Every token was issued for one of the contexts that bear it. -/
theorem exists_founder (h : Traced f k) (hx : x < f.made.length) :
    ∃ a ≤ x, k.genealogy.Founds a ∧ k.genealogy.Shares a x := by
  induction x using Nat.strong_induction_on with
  | h x ih =>
    obtain ⟨b, hb⟩ := h.exists_bearing hx
    by_cases hfounds : ∀ y, b ≠ .sharing y
    · exact ⟨x, le_rfl, ⟨b, hb, hfounds⟩, .refl x⟩
    · push Not at hfounds
      obtain ⟨y, rfl⟩ := hfounds
      have hyx : y < x := by cases h.stem hb with | sharing hyx => exact hyx
      obtain ⟨a, hay, ha, hshares⟩ := ih y hyx (hyx.trans hx)
      exact ⟨a, hay.trans hyx.le, ha, hshares.trans _ _ _ (.symm _ _ (.rel _ _ hb))⟩

theorem lineage_ne_nil (h : Traced f k) (hx : x < f.made.length) : f.lineage x ≠ [] := by
  obtain ⟨a, -, ⟨b, hab, hb⟩, hshares⟩ := h.exists_founder hx
  obtain ⟨n, -, hhead⟩ := (h.stem hab).exists_head? hb
  rw [← h.lineage_shares hshares]
  intro hnil
  simp [hnil] at hhead

/-- Tokens with the same number are the same. -/
theorem shares_of_head? (h : Traced f k) (hx : x < f.made.length) (hy : y < f.made.length)
    (hhead : (f.lineage x).head? = (f.lineage y).head?) : k.genealogy.Shares x y := by
  obtain ⟨a, -, ha, hax⟩ := h.exists_founder hx
  obtain ⟨b, -, hb, hby⟩ := h.exists_founder hy
  rw [← h.lineage_shares hax, ← h.lineage_shares hby] at hhead
  obtain hlt | rfl | hlt := Nat.lt_trichotomy a b
  · exact absurd hhead (h.founder hlt ha hb)
  · exact .trans _ _ _ (.symm _ _ hax) hby
  · exact absurd hhead.symm (h.founder hlt hb ha)

/-- A cancel reaches a context if its number is among those of the context's token. -/
theorem ends_iff (h : Traced f k) (hx : x < f.made.length) (hy : y < f.made.length) :
    k.genealogy.Ends y x ↔ ∃ n ∈ f.lineage x, (f.lineage y).head? = some n := by
  constructor
  · intro hends
    obtain ⟨n, rest, hl⟩ := List.exists_cons_of_ne_nil (h.lineage_ne_nil hy)
    exact ⟨n, (h.lineage_ends hends).subset (by simp [hl]), by simp [hl]⟩
  · rintro ⟨n, hn, hhead⟩
    induction x using Nat.strong_induction_on generalizing n with
    | h x ih =>
      -- the number is the one issued for the token, or one of those above it
      obtain ⟨a, hax, ⟨b, hab, hb⟩, hshares⟩ := h.exists_founder hx
      have hsame (hn : (f.lineage x).head? = some n) : k.genealogy.Ends y x :=
        .inl (h.shares_of_head? hy hx (hhead.trans hn.symm))
      cases h.stem hab with
      | new _ hl =>
        rw [← h.lineage_shares hshares, hl] at hn hsame
        exact hsame (by simp_all)
      | sharing => exact absurd rfl (hb _)
      | below hya _ hl =>
        rw [← h.lineage_shares hshares, hl] at hn hsame
        obtain rfl | hn := List.mem_cons.1 hn
        · exact hsame rfl
        · exact (ih _ (by omega) (by omega) n hn hhead).below ⟨a, _, hab, hshares, .refl _⟩

theorem isCancelled_iff (h : Traced f k) {c : Context} (hc : f.made[x]? = some c) :
    f.tokens.isCancelled c.token = true ↔ ∃ y ∈ k.cancelled, k.genealogy.Ends y x := by
  have hx : x < f.made.length := (List.getElem?_eq_some_iff.1 hc).1
  have hlineage : f.lineage x = c.token.lineage := by simp [lineage, hc]
  calc f.tokens.isCancelled c.token = true
    _ ↔ ∃ n ∈ f.lineage x, n ∈ f.tokens.cancelled := by simp [Tokens.isCancelled, hlineage]
    _ ↔ ∃ n ∈ f.lineage x, ∃ y ∈ k.cancelled, (f.lineage y).head? = some n := by
      simp only [h.cancelled]
    _ ↔ ∃ y ∈ k.cancelled, ∃ n ∈ f.lineage x, (f.lineage y).head? = some n := by grind
    _ ↔ ∃ y ∈ k.cancelled, k.genealogy.Ends y x :=
      exists_congr fun y => and_congr_right fun hy => (h.ends_iff hx (h.valid y hy)).symm

open Classical in
/-- What a check says: that the caller gave up before that time is up. -/
theorem check_eq (h : Traced f k) {c : Context} (hc : f.made[x]? = some c) :
    c.check f.tokens f.now =
      if ∃ y ∈ k.cancelled, k.genealogy.Ends y x then .error .cancelledByCaller
      else if ∃ d ∈ c.deadline, d ≤ f.now then .error .deadlineExceeded
      else .ok () := by
  have hover : c.isOver f.now = true ↔ ∃ d ∈ c.deadline, d ≤ f.now := by
    cases hd : c.deadline <;> simp [Context.isOver, hd]
  simp only [Context.check, Context.ended?, h.isCancelled_iff hc, hover]
  split_ifs <;> rfl

/-- Those that a cancel does not reach: above the cancelled context, beside it, or of other
kin. -/
theorem not_ends (h : Traced f k)
    (hxy : k.genealogy.Ancestor x y ∨ k.genealogy.Siblings x y ∨ k.genealogy.Independent x y) :
    ¬ k.genealogy.Ends y x := by
  intro hends
  obtain hancestor | ⟨hshares, p, hpx, hpy⟩ | hindependent := hxy
  · have hlt := (h.lineage_ancestor hancestor).2
    have hle := (h.lineage_ends hends).length_le
    omega
  · obtain ⟨n, hn⟩ := h.lineage_parent hpx
    obtain ⟨m, hm⟩ := h.lineage_parent hpy
    have hsame := (h.lineage_ends hends).eq_of_length (by simp [hn, hm])
    exact hshares (h.shares_of_head? (lt_of_lineage hn) (lt_of_lineage hm) (by rw [hsame]))
  · exact hindependent ((kin_equivalence _).symm hends.kin)

/-- A context is left alone by a cancel that does not reach it. -/
theorem check?_eq_of_alikeBut {f' : Family} {k' : Chronicle} (h : Traced f k) (h' : Traced f' k')
    (halike : Chronicle.AlikeBut y k k') (hends : ¬ k'.genealogy.Ends y x) :
    f.check? x = f'.check? x := by
  have hlength : f.made.length = f'.made.length := by
    rw [h.length, h'.length, halike.genealogy]
  rcases hc : f.made[x]? with _ | c
  · have hc' : f'.made[x]? = none := by
      rw [List.getElem?_eq_none_iff] at hc ⊢
      omega
    simp [check?, hc, hc']
  obtain ⟨c', hc'⟩ : ∃ c', f'.made[x]? = some c' :=
    ⟨_, List.getElem?_eq_getElem (hlength ▸ (List.getElem?_eq_some_iff.1 hc).1)⟩
  have hdeadline : c.deadline = c'.deadline := by
    have hsame : f.deadline? x = f'.deadline? x := Option.ext fun d => by
      rw [h.deadline?_eq_some_iff, h'.deadline?_eq_some_iff, halike.genealogy]
    simpa [deadline?, hc, hc'] using hsame
  have hnow : f.now = f'.now := by rw [h.now, h'.now, halike.now]
  have hcancelled : (∃ z ∈ k.cancelled, k.genealogy.Ends z x) ↔
      ∃ z ∈ k'.cancelled, k'.genealogy.Ends z x := by
    rw [halike.genealogy]
    refine exists_congr fun z => and_congr_left fun hz => halike.cancelled z ?_
    rintro rfl
    exact hends hz
  simp only [check?, hc, hc', Option.map_some]
  rw [h.check_eq hc, h'.check_eq hc', hdeadline, hnow]
  classical exact congrArg some (if_congr hcancelled rfl rfl)

end Traced

end Cancellation

/-! ### A context and its derivation -/

open Classical in
/-- **What a context is bound by.** Whatever is done with contexts, each of them has the earliest
deadline that was given along its derivation, so none of those it was derived from has an earlier
one. Its check fails as cancelled by the caller exactly if a cancel was applied to it, to one that
shares its token or to an ancestor, no matter which came first, and otherwise from its deadline on.
A cancel never reaches an ancestor, a sibling or a context derived independently, and what a check
says of a context that it does not reach is as if it had not happened. -/
theorem derivation (ops : List ContextOp) (x : Nat) (c : Context)
    (hmade : (run ops).made[x]? = some c) :
    let f := run ops
    let k := Chronicle.run ops
    let g := k.genealogy
    ((c.deadline = none ↔ ∀ d, ¬ g.Given x d) ∧
      ∀ d, c.deadline = some d ↔ IsLeast {e | g.Given x e} d) ∧
    (∀ y d, g.Derived x y → f.deadline? y = some d → ∃ e ∈ c.deadline, e ≤ d) ∧
    c.check f.tokens f.now =
      (if ∃ y ∈ k.cancelled, g.Ends y x then .error .cancelledByCaller
      else if ∃ d ∈ c.deadline, d ≤ f.now then .error .deadlineExceeded
      else .ok ()) ∧
    (∀ y, g.Ancestor x y ∨ g.Siblings x y ∨ g.Independent x y → ¬ g.Ends y x) ∧
    ∀ before y after, ops = before ++ .cancel y :: after → ¬ g.Ends y x →
      (run (before ++ after)).check? x = some (c.check f.tokens f.now) := by
  intro f k g
  have h : Traced f k := traced_run ops
  have hdeadline : f.deadline? x = c.deadline := by simp [deadline?, f, hmade]
  refine ⟨⟨?_, fun d => ?_⟩, fun y d hxy hd => ?_, h.check_eq hmade, fun y => h.not_ends, ?_⟩
  · exact hdeadline ▸ h.deadline?_eq_none_iff
  · exact hdeadline ▸ h.deadline?_eq_some_iff
  · exact hdeadline ▸ h.deadline?_le_of_derived hxy hd
  · rintro before y after rfl hends
    have halike := Chronicle.alikeBut_run before after y
    rw [(traced_run (before ++ after)).check?_eq_of_alikeBut h halike hends]
    simp [check?, f, hmade]

/-- A child that was made after the cancel, with a deadline of its own that has come. -/
theorem derivation_of_late_child :
    let ops : List ContextOp :=
      [.withTimeout 10, .child 0, .cancel 1, .child 1, .deadlineAt 2 4, .sleep 4]
    let c : Context := ⟨⟨[2, 1, 0]⟩, some 4⟩
    (run ops).made[3]? = some c ∧
      IsLeast {d | (Chronicle.run ops).genealogy.Given 3 d} 4 ∧
      c.check (run ops).tokens (run ops).now = .error .cancelledByCaller ∧
      ¬ (Chronicle.run ops).genealogy.Ends 3 0 := by
  intro ops c
  have hmade : (run ops).made[3]? = some c := by decide
  obtain ⟨⟨-, hleast⟩, -, hcheck, -⟩ := derivation ops 3 c hmade
  obtain ⟨-, -, -, hends, -⟩ := derivation ops 0 ⟨⟨[0]⟩, some 10⟩ (by decide)
  have hparent {p x b : Nat} (hx : (Chronicle.run ops).genealogy.bearing? b = some (.below p))
      (hb : (Chronicle.run ops).genealogy.Shares b x) : (Chronicle.run ops).genealogy.Parent p x :=
    ⟨b, p, hx, hb, .refl p⟩
  have h₀₁ := hparent (p := 0) (x := 1) (b := 1) (by decide) (.refl 1)
  have h₁₃ := hparent (p := 1) (x := 3) (b := 2) (by decide) (.symm _ _ (.rel _ _ (by decide)))
  have hreached : (Chronicle.run ops).genealogy.Ends 1 3 := .inr (.single h₁₃)
  have habove : (Chronicle.run ops).genealogy.Ancestor 0 3 := .head h₀₁ (.single h₁₃)
  exact ⟨hmade, (hleast 4).1 rfl, hcheck.trans (if_pos ⟨1, by decide, hreached⟩),
    hends 3 (.inl habove)⟩

end VersionStore.Family
