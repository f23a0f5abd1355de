import Mathlib.Data.List.Induction
import VersionStore.Engine.Memory

/-! The stable sort of a search.

Sorting rearranges a list (`stableSort_perm`). Where the comparison is a total preorder on
the items of the list (`OrderedOn`), the result is in order (`pairwise_stableSort`) and
items that are not told apart stay in the order of the list (`filter_stableSort`). These
three facts leave only one list (`eq_of_stable`); so the sort is the stable sort of the
standard library (`stableSort_eq_mergeSort`). -/
namespace VersionStore

variable {α β : Type}

/-- A comparison that is a total preorder on the items of a list. -/
structure OrderedOn (compare : α → α → Ordering) (items : List α) : Prop where
  swap : ∀ a ∈ items, ∀ b ∈ items, compare b a = (compare a b).swap
  trans : ∀ a ∈ items, ∀ b ∈ items, ∀ c ∈ items,
    (compare a b).isLE → (compare b c).isLE → (compare a c).isLE

namespace OrderedOn

variable {compare : α → α → Ordering} {items : List α}

theorem mono {more : List α} (h : OrderedOn compare more) (hsub : ∀ a ∈ items, a ∈ more) :
    OrderedOn compare items where
  swap := fun a ha b hb => h.swap a (hsub a ha) b (hsub b hb)
  trans := fun a ha b hb c hc => h.trans a (hsub a ha) b (hsub b hb) c (hsub c hc)

theorem refl (h : OrderedOn compare items) {a : α} (ha : a ∈ items) : compare a a = .eq := by
  have hself := h.swap a ha a ha
  cases hc : compare a a <;> simp [hc] at hself ⊢

theorem isLE_of_ne_lt (h : OrderedOn compare items) {a b : α} (ha : a ∈ items) (hb : b ∈ items)
    (hab : compare a b ≠ .lt) : (compare b a).isLE := by
  rw [h.swap a ha b hb]
  cases hc : compare a b <;> simp_all

/-- Items that are not told apart from a third compare to each other as it does. -/
theorem ne_eq_of_lt_of_eq (h : OrderedOn compare items) {a b x : α} (ha : a ∈ items)
    (hb : b ∈ items) (hx : x ∈ items) (hab : compare a b = .lt) (hax : compare a x = .eq) :
    compare b x ≠ .eq := by
  intro hbx
  have hxa : (compare x a).isLE := by simp [h.swap a ha x hx, hax]
  have hba := h.trans b hb x hx a ha (by simp [hbx]) hxa
  simp [h.swap a ha b hb, hab] at hba

/-- Items that compare as their ranks do are in order. -/
theorem of_rank (rank : α → Int)
    (h : ∀ a ∈ items, ∀ b ∈ items, compare a b = Ord.compare (rank a) (rank b)) :
    OrderedOn compare items where
  swap := fun a ha b hb => by
    rw [h b hb a ha, h a ha b hb]
    exact (Int.compare_swap _ _).symm
  trans := fun a ha b hb c hc hab hbc => by
    rw [h a ha b hb, Int.isLE_compare] at hab
    rw [h b hb c hc, Int.isLE_compare] at hbc
    rw [h a ha c hc, Int.isLE_compare]
    omega

end OrderedOn

/-! ### Placing one item -/

theorem placeDown_perm (compare : α → α → Ordering) (a : α) (items : List α) :
    (placeDown compare a items).Perm (a :: items) := by
  induction items with
  | nil => exact .refl _
  | cons b rest ih =>
    unfold placeDown
    split
    · exact (ih.cons b).trans (.swap a b rest)
    · exact .refl _

theorem mem_placeDown {compare : α → α → Ordering} {a b : α} {items : List α} :
    b ∈ placeDown compare a items ↔ b = a ∨ b ∈ items := by
  rw [(placeDown_perm compare a items).mem_iff, List.mem_cons]

/-- Downward order survives the placing of an item. -/
theorem pairwise_placeDown {compare : α → α → Ordering} {a : α} {items : List α}
    (h : OrderedOn compare (a :: items))
    (hdown : items.Pairwise fun x y => (compare y x).isLE) :
    (placeDown compare a items).Pairwise fun x y => (compare y x).isLE := by
  induction items with
  | nil => exact List.pairwise_singleton ..
  | cons b rest ih =>
    obtain ⟨hb, hrest⟩ := List.pairwise_cons.mp hdown
    have hmema : a ∈ a :: b :: rest := List.mem_cons_self
    have hmemb : b ∈ a :: b :: rest := List.mem_cons_of_mem _ List.mem_cons_self
    unfold placeDown
    split
    · next hab =>
      have hsub : OrderedOn compare (a :: rest) := h.mono fun x hx => by
        rcases List.mem_cons.mp hx with rfl | hx
        · exact hmema
        · exact List.mem_cons_of_mem _ (List.mem_cons_of_mem _ hx)
      refine List.pairwise_cons.mpr ⟨fun x hx => ?_, ih hsub hrest⟩
      rcases mem_placeDown.mp hx with rfl | hx
      · rw [hab]
        rfl
      · exact hb x hx
    · next hab =>
      have hba := h.isLE_of_ne_lt hmema hmemb hab
      refine List.pairwise_cons.mpr ⟨fun x hx => ?_, hdown⟩
      rcases List.mem_cons.mp hx with rfl | hx
      · exact hba
      · have hmemx : x ∈ a :: b :: rest := List.mem_cons_of_mem _ (List.mem_cons_of_mem _ hx)
        exact h.trans x hmemx b hmemb a hmema (hb x hx) hba

/-- Among the items that are not told apart from a given one, a placed item comes first. -/
theorem filter_placeDown {compare : α → α → Ordering} {a x : α} {items more : List α}
    (h : OrderedOn compare more) (ha : a ∈ more) (hx : x ∈ more) (hsub : ∀ b ∈ items, b ∈ more) :
    (placeDown compare a items).filter (compare · x == .eq) =
      (a :: items).filter (compare · x == .eq) := by
  induction items with
  | nil => rfl
  | cons b rest ih =>
    have hb : b ∈ more := hsub b List.mem_cons_self
    have hrest := ih fun c hc => hsub c (List.mem_cons_of_mem _ hc)
    unfold placeDown
    split
    · next hab =>
      by_cases hax : compare a x = .eq
      · have hbx := h.ne_eq_of_lt_of_eq ha hb hx hab hax
        simp [hrest, hax, hbx]
      · simp [List.filter_cons, hrest, hax]
    · rfl

/-- What stands last stays last, or a placed item that comes before it does. -/
theorem getLast?_placeDown {compare : α → α → Ordering} {a d : α} {items : List α}
    (h : items.getLast? = some d) :
    (placeDown compare a items).getLast? = some d ∨
      (placeDown compare a items).getLast? = some a ∧ compare a d = .lt := by
  induction items with
  | nil => cases h
  | cons b rest ih =>
    unfold placeDown
    split
    · next hab =>
      cases rest with
      | nil =>
        cases h
        exact .inr ⟨rfl, hab⟩
      | cons c rest =>
        rw [List.getLast?_cons_cons] at h
        rw [List.getLast?_cons]
        rcases ih h with hlast | ⟨hlast, hlt⟩
        · exact .inl (by rw [hlast]; rfl)
        · exact .inr ⟨by rw [hlast]; rfl, hlt⟩
    · rw [List.getLast?_cons_cons]
      exact .inl h

/-! ### Sorting a list -/

theorem stableSort_append (compare : α → α → Ordering) (items : List α) (a : α) :
    stableSort compare (items ++ [a]) =
      (placeDown compare a (stableSort compare items).reverse).reverse := by
  simp [stableSort]

/-- With one more item, what comes first stays first, or the new item does and comes before it. -/
theorem head?_stableSort_append {compare : α → α → Ordering} {a d : α} {items : List α}
    (h : (stableSort compare items).head? = some d) :
    (stableSort compare (items ++ [a])).head? = some d ∨
      (stableSort compare (items ++ [a])).head? = some a ∧ compare a d = .lt := by
  rw [stableSort_append, List.head?_reverse]
  exact getLast?_placeDown (by rwa [List.getLast?_reverse])

theorem stableSort_perm (compare : α → α → Ordering) (items : List α) :
    (stableSort compare items).Perm items := by
  induction items using List.reverseRecOn with
  | nil => exact .refl _
  | append_singleton items a ih =>
    rw [stableSort_append]
    have hplaced := (List.reverse_perm _).trans
      (placeDown_perm compare a (stableSort compare items).reverse)
    have hsorted := (List.reverse_perm (stableSort compare items)).trans ih
    exact (hplaced.trans (hsorted.cons a)).trans (List.perm_append_singleton a items).symm

theorem mem_stableSort {compare : α → α → Ordering} {a : α} {items : List α} :
    a ∈ stableSort compare items ↔ a ∈ items :=
  (stableSort_perm compare items).mem_iff

theorem pairwise_stableSort {compare : α → α → Ordering} {items : List α}
    (h : OrderedOn compare items) :
    (stableSort compare items).Pairwise fun x y => (compare x y).isLE := by
  induction items using List.reverseRecOn with
  | nil => exact .nil
  | append_singleton items a ih =>
    have hitems : OrderedOn compare items := h.mono fun b hb => List.mem_append_left _ hb
    rw [stableSort_append, List.pairwise_reverse]
    refine pairwise_placeDown (h.mono fun b hb => ?_) (List.pairwise_reverse.mpr (ih hitems))
    rcases List.mem_cons.mp hb with rfl | hb
    · exact List.mem_append_right _ List.mem_cons_self
    · exact List.mem_append_left _ (mem_stableSort.mp (List.mem_reverse.mp hb))

/-- The first of the sorted items comes after none of them. -/
theorem isLE_of_stableSort_eq_cons {compare : α → α → Ordering} {items rest : List α} {a b : α}
    (h : OrderedOn compare items) (hsorted : stableSort compare items = a :: rest)
    (hb : b ∈ items) : (compare a b).isLE := by
  have hpairwise := pairwise_stableSort h
  rw [hsorted] at hpairwise
  have hmem : b ∈ a :: rest := hsorted ▸ mem_stableSort.mpr hb
  rcases List.mem_cons.mp hmem with rfl | hmem
  · simp [h.refl hb]
  · exact (List.pairwise_cons.mp hpairwise).1 b hmem

/-- Items that are not told apart stay in the order of the list. -/
theorem filter_stableSort {compare : α → α → Ordering} {items more : List α} {x : α}
    (h : OrderedOn compare more) (hx : x ∈ more) (hsub : ∀ b ∈ items, b ∈ more) :
    (stableSort compare items).filter (compare · x == .eq) =
      items.filter (compare · x == .eq) := by
  induction items using List.reverseRecOn with
  | nil => rfl
  | append_singleton items a ih =>
    have hitems : ∀ b ∈ items, b ∈ more := fun b hb => hsub b (List.mem_append_left _ hb)
    have ha : a ∈ more := hsub a (List.mem_append_right _ List.mem_cons_self)
    rw [stableSort_append, List.filter_reverse, filter_placeDown h ha hx fun b hb =>
      hitems b (mem_stableSort.mp (List.mem_reverse.mp hb)), ← List.filter_reverse,
      List.reverse_cons, List.reverse_reverse, List.filter_append, ih hitems, List.filter_append]

/-- What comes first of the sorted items comes before all that stand in front of it in the list. -/
theorem split_of_stableSort_eq_cons {compare : α → α → Ordering} {items rest : List α} {a : α}
    (h : OrderedOn compare items) (hsorted : stableSort compare items = a :: rest) :
    ∃ before after, items = before ++ a :: after ∧ (∀ b ∈ before, compare a b = .lt) ∧
      ∀ b ∈ after, (compare a b).isLE := by
  have ha : a ∈ items := mem_stableSort.mp (hsorted ▸ List.mem_cons_self)
  have hle : ∀ b ∈ items, (compare a b).isLE := fun b => isLE_of_stableSort_eq_cons h hsorted
  have hfind : items.find? (compare · a == .eq) = some a := by
    rw [← List.head?_filter, ← filter_stableSort h ha fun _ hb => hb, hsorted,
      List.filter_cons_of_pos (by simp [h.refl ha])]
    rfl
  obtain ⟨-, before, after, rfl, hbefore⟩ := List.find?_eq_some_iff_append.mp hfind
  refine ⟨before, after, rfl, fun b hb => ?_, fun b hb => hle b (by simp [hb])⟩
  have hmem : b ∈ before ++ a :: after := List.mem_append_left _ hb
  have hne : compare b a ≠ .eq := by simpa using hbefore b hb
  have hisLE := hle b hmem
  rw [h.swap a ha b hmem] at hne
  cases hab : compare a b <;> simp_all

/-- Two lists of the same items, both in order, are one list if they agree on the order of the
items that are not told apart. -/
theorem eq_of_stable {compare : α → α → Ordering} {l₁ l₂ : List α} (h : OrderedOn compare l₁)
    (hperm : l₁.Perm l₂) (h₁ : l₁.Pairwise fun x y => (compare x y).isLE)
    (h₂ : l₂.Pairwise fun x y => (compare x y).isLE)
    (hsame : ∀ x ∈ l₁, l₁.filter (compare · x == .eq) = l₂.filter (compare · x == .eq)) :
    l₁ = l₂ := by
  induction l₁ generalizing l₂ with
  | nil => exact hperm.nil_eq
  | cons a t₁ ih =>
    cases l₂ with
    | nil => exact absurd hperm.eq_nil (List.cons_ne_nil _ _)
    | cons b t₂ =>
      obtain ⟨ha, ht₁⟩ := List.pairwise_cons.mp h₁
      obtain ⟨hb, ht₂⟩ := List.pairwise_cons.mp h₂
      have hmema : a ∈ a :: t₁ := List.mem_cons_self
      have hmemb : b ∈ a :: t₁ := hperm.mem_iff.mpr List.mem_cons_self
      have haa := h.refl hmema
      have hab : (compare a b).isLE := by
        rcases List.mem_cons.mp hmemb with rfl | hmem
        · simp [haa]
        · exact ha b hmem
      have hba : (compare b a).isLE := by
        rcases List.mem_cons.mp (hperm.mem_iff.mp hmema) with rfl | hmem
        · simp [haa]
        · exact hb a hmem
      have hbaEq : compare b a = .eq := by
        rw [h.swap a hmema b hmemb] at hba ⊢
        cases hc : compare a b <;> simp_all
      -- The heads are not told apart, so both stand first among their equals.
      have hheads := hsame a hmema
      simp only [List.filter_cons, haa, hbaEq, beq_self_eq_true, if_true, List.cons.injEq] at hheads
      obtain ⟨rfl, -⟩ := hheads
      have hsub : ∀ x ∈ t₁, x ∈ a :: t₁ := fun x hx => List.mem_cons_of_mem _ hx
      have htails := ih (h.mono hsub) hperm.cons_inv ht₁ ht₂ fun x hx => by
        have hx := hsame x (hsub x hx)
        simp only [List.filter_cons] at hx
        split at hx
        · exact (List.cons.inj hx).2
        · exact hx
      rw [htails]

/-- Sorting images is taking images of the sorted. -/
theorem stableSort_map (compare : β → β → Ordering) (f : α → β) (items : List α) :
    stableSort compare (items.map f) =
      (stableSort (fun a b => compare (f a) (f b)) items).map f := by
  have hplace : ∀ (a : α) (sorted : List α), placeDown compare (f a) (sorted.map f) =
      (placeDown (fun a b => compare (f a) (f b)) a sorted).map f := by
    intro a sorted
    induction sorted with
    | nil => rfl
    | cons b rest ih =>
      simp only [List.map_cons, placeDown, ih]
      split <;> rfl
  induction items using List.reverseRecOn with
  | nil => rfl
  | append_singleton items a ih =>
    rw [List.map_append, List.map_singleton, stableSort_append, stableSort_append, ih,
      ← List.map_reverse, hplace, List.map_reverse]

/-- A comparison that tells nothing apart sorts nothing. -/
theorem stableSort_of_eq (items : List α) : stableSort (fun _ _ => .eq) items = items := by
  induction items using List.reverseRecOn with
  | nil => rfl
  | append_singleton items a ih =>
    rw [stableSort_append, ih]
    cases h : items.reverse with
    | nil => simp [placeDown, List.reverse_eq_nil_iff.mp h]
    | cons b rest => simp [placeDown, ← h]

/-- Under a total preorder, this is the stable sort of the library. -/
theorem stableSort_eq_mergeSort {compare : α → α → Ordering}
    (h : ∀ items : List α, OrderedOn compare items) (items : List α) :
    stableSort compare items = items.mergeSort fun a b => (compare a b).isLE := by
  have htrans : ∀ a b c, (compare a b).isLE → (compare b c).isLE → (compare a c).isLE :=
    fun a b c => (h [a, b, c]).trans a (by simp) b (by simp) c (by simp)
  have htotal : ∀ a b, (compare a b).isLE || (compare b a).isLE := fun a b => by
    rw [(h [a, b]).swap a (by simp) b (by simp)]
    cases compare a b <;> rfl
  have hmerge := List.mergeSort_perm items fun a b => (compare a b).isLE
  have hperm := (stableSort_perm compare items).trans hmerge.symm
  refine eq_of_stable (h _) hperm (pairwise_stableSort (h items))
    (List.pairwise_mergeSort htrans htotal items) fun x hx => ?_
  have hx := mem_stableSort.mp hx
  rw [filter_stableSort (h items) hx fun _ hb => hb]
  -- The items that are not told apart from `x` are in order already, so the other sort too
  -- keeps them as they are.
  have hequal : (items.filter (compare · x == .eq)).Pairwise fun a b => (compare a b).isLE := by
    refine List.pairwise_of_forall_mem_list fun a ha b hb => ?_
    simp only [List.mem_filter, beq_iff_eq] at ha hb
    refine htrans a x b (by simp [ha.2]) ?_
    rw [(h items).swap b hb.1 x hx, hb.2]
    rfl
  have hsub := (List.sublist_mergeSort htrans htotal hequal List.filter_sublist).filter
    (compare · x == .eq)
  rw [List.filter_filter] at hsub
  simp only [Bool.and_self] at hsub
  exact hsub.eq_of_length (hmerge.symm.filter _).length_eq

end VersionStore
