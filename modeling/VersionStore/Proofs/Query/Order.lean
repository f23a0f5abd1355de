import VersionStore.Proofs.Number.Rounding
import VersionStore.Proofs.StableSort
import VersionStore.Query

/-! The order that a query puts documents in.

Every comparison of documents can be turned round (`Query.compareBy_swap`). It is a total
preorder on the documents of a list if no key finds two of them told apart and a third one
told apart from neither, and for a single key only then. There are two ways in which a
value can hide the order of two others like this (`Json.Value.Hides`): it is of another
kind than both, or both are words that round to the one double that it is. A sort that
meets such a value need not put the other two in order (`not_ordered_by_rounding`). -/
namespace VersionStore

/-! ### The order of two numbers -/

namespace Json.Number

theorem signed?_eq_some_iff {x : Number} {n : Int} :
    x.signed? = some n ↔ x = .integer n ∧ Word.isSigned n = true := by
  cases x with
  | integer m =>
    by_cases h : Word.isSigned m
    · simp only [signed?, if_pos h, Option.some.injEq, integer.injEq]
      exact ⟨fun heq => ⟨heq, heq ▸ h⟩, And.left⟩
    · simp only [signed?, if_neg h, integer.injEq]
      exact ⟨nofun, fun ⟨heq, hn⟩ => absurd (heq ▸ hn) h⟩
  | double d => exact ⟨nofun, nofun⟩

theorem compare_of_signed {x y : Number} {m n : Int} (hx : x.signed? = some m)
    (hy : y.signed? = some n) : x.compare y = Ord.compare m n := by
  rw [compare, hx, hy]

theorem compare_of_unsigned {x y : Number} (h : x.signed? = none ∨ y.signed? = none) :
    x.compare y = Ord.compare x.toDouble.rank y.toDouble.rank := by
  unfold compare
  split
  · next hx hy => rcases h with h | h <;> simp_all
  · rfl

theorem compare_swap (x y : Number) : y.compare x = (x.compare y).swap := by
  unfold compare
  split
  · next n m hy hx => rw [hx, hy]; exact (Int.compare_swap m n).symm
  · next hnone =>
    split
    · next m n hx hy => exact absurd hy (hnone n m · hx)
    · exact (Int.compare_swap _ _).symm

/-- Rounding does not turn an order round, though it may level it. -/
theorem rank_le_of_isLE {x y : Number} (h : (x.compare y).isLE) :
    x.toDouble.rank ≤ y.toDouble.rank := by
  cases hx : x.signed? with
  | none => rwa [compare_of_unsigned (.inl hx), Int.isLE_compare] at h
  | some m =>
    cases hy : y.signed? with
    | none => rwa [compare_of_unsigned (.inr hy), Int.isLE_compare] at h
    | some n =>
      rw [compare_of_signed hx hy, Int.isLE_compare] at h
      rw [(signed?_eq_some_iff.mp hx).1, (signed?_eq_some_iff.mp hy).1]
      exact Double.rank_ofInt_mono h

end Json.Number

/-! ### The order of two values -/

namespace Json.Value

theorem compare_string (s t : String) : compare (.string s) (.string t) = Ord.compare s t := rfl

theorem compare_swap (x y : Value) : y.compare x = (x.compare y).swap := by
  cases x <;> cases y <;> try rfl
  · exact Number.compare_swap _ _
  · rw [compare_string, compare_string]
    exact Std.OrientedCmp.eq_swap

/-- Whether two values are of one kind that has an order: two numbers, or two strings. -/
def comparable : Value → Value → Bool
  | .number _, .number _ => true
  | .string _, .string _ => true
  | _, _ => false

/-- Whether a value hides the order of two others: these are told apart, and it is told apart
from neither. -/
inductive Hides : Value → Value → Value → Prop where
  /-- It is of another kind. -/
  | kind {x y z : Value} (told : x.compare z ≠ .eq) (other : x.comparable y = false) : Hides y x z
  /-- It is a number but no signed word, and the others are signed words that round to it. -/
  | rounding {p : Number} {m n : Int} (wide : p.signed? = none)
      (first : Word.isSigned m = true) (second : Word.isSigned n = true) (told : m ≠ n)
      (rounded : (Double.ofInt m).rank = p.toDouble.rank)
      (rounded' : (Double.ofInt n).rank = p.toDouble.rank) :
      Hides (.number p) (.integer m) (.integer n)

theorem compare_of_not_comparable {x y : Value} (h : x.comparable y = false) :
    x.compare y = .eq := by
  unfold compare
  split <;> first | rfl | cases h

theorem comparable_comm (x y : Value) : x.comparable y = y.comparable x := by
  cases x <;> cases y <;> rfl

/-- Values that are told apart are of one kind. -/
theorem comparable_congr {x y z : Value} (h : x.compare z ≠ .eq) :
    x.comparable y = y.comparable z := by
  cases x <;> cases z <;> first | exact absurd rfl h | (cases y <;> rfl)

/-- What hides an order is told apart from neither of the two that are told apart. -/
theorem Hides.compare {x y z : Value} (h : y.Hides x z) :
    x.compare y = .eq ∧ y.compare z = .eq ∧ x.compare z ≠ .eq := by
  cases h with
  | kind told other =>
    exact ⟨compare_of_not_comparable other,
      compare_of_not_comparable ((comparable_congr told).symm.trans other), told⟩
  | @rounding p m n wide first second told rounded rounded' =>
    refine ⟨?_, ?_, ?_⟩
    · exact (Number.compare_of_unsigned (.inr wide)).trans (Int.compare_eq_eq.mpr rounded)
    · exact (Number.compare_of_unsigned (.inl wide)).trans (Int.compare_eq_eq.mpr rounded'.symm)
    · have hcompare := Number.compare_of_signed (Number.signed?_eq_some_iff.mpr ⟨rfl, first⟩)
        (Number.signed?_eq_some_iff.mpr ⟨rfl, second⟩)
      exact fun heq => told (Int.compare_eq_eq.mp (hcompare.symm.trans heq))

theorem Hides.symm {x y z : Value} (h : y.Hides x z) : y.Hides z x := by
  cases h with
  | @kind x y z told other =>
    have hzx : z.compare x ≠ .eq := by
      rw [compare_swap x z, Ne, Ordering.swap_eq_eq]
      exact told
    refine .kind hzx ?_
    rw [comparable_congr hzx, comparable_comm]
    exact other
  | rounding wide first second told rounded rounded' =>
    exact .rounding wide second first told.symm rounded' rounded

/-- The order of three numbers carries over from two pairs to the third, unless the middle one
hides it. -/
theorem isLE_trans_number {p q r : Number} (hpq : (p.compare q).isLE) (hqr : (q.compare r).isLE) :
    (p.compare r).isLE ∨ Hides (.number q) (.number p) (.number r) := by
  by_cases hpr : (p.compare r).isLE
  · exact .inl hpr
  have hgt : p.compare r = .gt := by
    cases h : p.compare r <;> simp_all
  have hrp : (r.compare p).isLE := by rw [Number.compare_swap p r, hgt]; rfl
  -- the three have one double, so that the outer ones can only be told apart as words
  have hle := Number.rank_le_of_isLE hpq
  have hle' := Number.rank_le_of_isLE hqr
  have hle'' := Number.rank_le_of_isLE hrp
  right
  cases hp : p.signed? with
  | none =>
    rw [Number.compare_of_unsigned (.inl hp), Int.compare_eq_gt] at hgt
    omega
  | some m =>
    cases hr : r.signed? with
    | none =>
      rw [Number.compare_of_unsigned (.inr hr), Int.compare_eq_gt] at hgt
      omega
    | some n =>
      rw [Number.compare_of_signed hp hr, Int.compare_eq_gt] at hgt
      obtain ⟨rfl, hm⟩ := Number.signed?_eq_some_iff.mp hp
      obtain ⟨rfl, hn⟩ := Number.signed?_eq_some_iff.mp hr
      cases hq : q.signed? with
      | none =>
        change (Double.ofInt m).rank ≤ q.toDouble.rank at hle
        change q.toDouble.rank ≤ (Double.ofInt n).rank at hle'
        change (Double.ofInt n).rank ≤ (Double.ofInt m).rank at hle''
        exact .rounding hq hm hn (by omega) (by omega) (by omega)
      | some k =>
        rw [Number.compare_of_signed hp hq, Int.isLE_compare] at hpq
        rw [Number.compare_of_signed hq hr, Int.isLE_compare] at hqr
        omega

/-- The order of three values carries over from two pairs to the third, unless the middle one
hides it. -/
theorem isLE_trans_or_hides {x y z : Value} (hxy : (x.compare y).isLE) (hyz : (y.compare z).isLE) :
    (x.compare z).isLE ∨ y.Hides x z := by
  by_cases htold : x.compare z = .eq
  · exact .inl (by rw [htold]; rfl)
  by_cases hkind : x.comparable y = false
  · exact .inr (.kind htold hkind)
  cases x <;> cases y <;> cases z <;>
    first | exact absurd rfl hkind | exact absurd rfl htold | skip
  · exact isLE_trans_number hxy hyz
  · rw [compare_string] at hxy hyz ⊢
    exact .inl (Std.TransCmp.isLE_trans hxy hyz)

end Json.Value

/-! ### The order of two documents -/

namespace SortKey

/-- Whether under a key the second of three documents hides the order of the others: the values
that they have in the field do. -/
def Hides (key : SortKey) (a b c : Json.Value) : Prop :=
  ∃ x y z, a.member? key.field = some x ∧ b.member? key.field = some y ∧
    c.member? key.field = some z ∧ y.Hides x z

/-- The order of two documents that have the field. -/
theorem compare_of_members {key : SortKey} {a b x y : Json.Value}
    (ha : a.member? key.field = some x) (hb : b.member? key.field = some y) :
    key.compare a b = match key.order with
      | .ascending => x.compare y
      | .descending => y.compare x := by
  rw [compare, ha, hb]
  cases key.order with
  | ascending => rfl
  | descending => exact (Json.Value.compare_swap x y).symm

theorem compare_swap (key : SortKey) (a b : Json.Value) :
    key.compare b a = (key.compare a b).swap := by
  cases ha : a.member? key.field with
  | none => cases hb : b.member? key.field <;> simp [compare, ha, hb]
  | some x =>
    cases hb : b.member? key.field with
    | none => simp [compare, ha, hb]
    | some y =>
      rw [compare_of_members ha hb, compare_of_members hb ha]
      cases key.order <;> exact Json.Value.compare_swap _ _

theorem isLE_trans_or_hides {key : SortKey} {a b c : Json.Value} (hab : (key.compare a b).isLE)
    (hbc : (key.compare b c).isLE) : (key.compare a c).isLE ∨ key.Hides a b c := by
  cases hc : c.member? key.field with
  | none =>
    -- nothing comes after a document without the field
    left
    cases ha : a.member? key.field <;> simp [compare, ha, hc]
  | some z =>
    cases hb : b.member? key.field with
    | none => simp [compare, hb, hc] at hbc
    | some y =>
      cases ha : a.member? key.field with
      | none => simp [compare, ha, hb] at hab
      | some x =>
        rw [compare_of_members ha hb] at hab
        rw [compare_of_members hb hc] at hbc
        rw [compare_of_members ha hc]
        cases horder : key.order with
        | ascending =>
          rw [horder] at hab hbc
          exact (Json.Value.isLE_trans_or_hides hab hbc).imp_right
            fun h => ⟨x, y, z, ha, hb, hc, h⟩
        | descending =>
          rw [horder] at hab hbc
          exact (Json.Value.isLE_trans_or_hides hbc hab).imp_right
            fun h => ⟨x, y, z, ha, hb, hc, h.symm⟩

/-- A document that hides the order of two others is told apart from neither. -/
theorem Hides.compare {key : SortKey} {a b c : Json.Value} (h : key.Hides a b c) :
    key.compare a b = .eq ∧ key.compare b c = .eq ∧ key.compare a c ≠ .eq := by
  obtain ⟨x, y, z, ha, hb, hc, hides⟩ := h
  rw [compare_of_members ha hb, compare_of_members hb hc, compare_of_members ha hc]
  cases key.order with
  | ascending => exact hides.compare
  | descending =>
    obtain ⟨hzy, hyx, hzx⟩ := hides.symm.compare
    exact ⟨hyx, hzy, hzx⟩

/-- Where no document hides the order of others, and only there, a key orders documents. -/
theorem orderedOn_iff (key : SortKey) (items : List Json.Value) :
    OrderedOn key.compare items ↔
      ∀ a ∈ items, ∀ b ∈ items, ∀ c ∈ items, ¬key.Hides a b c := by
  constructor
  · intro h a ha b hb c hc hides
    obtain ⟨hab, hbc, hac⟩ := hides.compare
    have hle := h.trans a ha b hb c hc (by rw [hab]; rfl) (by rw [hbc]; rfl)
    have hle' := h.trans c hc b hb a ha (by rw [compare_swap, hbc]; rfl)
      (by rw [compare_swap, hab]; rfl)
    rw [compare_swap] at hle'
    cases hc : key.compare a c <;> simp_all
  · intro h
    exact ⟨fun a _ b _ => key.compare_swap a b,
      fun a ha b hb c hc hab hbc =>
        (isLE_trans_or_hides hab hbc).resolve_right (h a ha b hb c hc)⟩

end SortKey

/-- Two orders make one, the second for what the first does not tell apart. -/
theorem OrderedOn.andThen {α : Type} {first second : α → α → Ordering} {items : List α}
    (h : OrderedOn first items) (h' : OrderedOn second items) :
    OrderedOn (fun a b => (first a b).then (second a b)) items where
  swap := fun a ha b hb => by rw [h.swap a ha b hb, h'.swap a ha b hb, Ordering.swap_then]
  trans := fun a ha b hb c hc hab hbc => by
    have hle := h.trans a ha b hb c hc
    have hle' := h'.trans a ha b hb c hc
    have hback := h.trans c hc a ha b hb
    have hback' := h.trans b hb c hc a ha
    rw [h.swap a ha c hc, h.swap b hb c hc] at hback
    rw [h.swap a ha c hc, h.swap a ha b hb] at hback'
    cases hf : first a b <;> cases hf' : first b c <;> cases hf'' : first a c <;>
      simp_all

namespace Query

theorem compareBy_swap (keys : List SortKey) (a b : Json.Value) :
    compareBy keys b a = (compareBy keys a b).swap := by
  induction keys with
  | nil => rfl
  | cons key rest ih =>
    rw [compareBy, compareBy, key.compare_swap a b, ih, Ordering.swap_then]

theorem compareBy_singleton (key : SortKey) : compareBy [key] = key.compare := by
  funext a b
  rw [compareBy, compareBy, Ordering.then_eq]

theorem orderedOn_compareBy {keys : List SortKey} {items : List Json.Value}
    (h : ∀ key ∈ keys, OrderedOn key.compare items) : OrderedOn (compareBy keys) items := by
  induction keys with
  | nil => exact ⟨fun _ _ _ _ => rfl, fun _ _ _ _ _ _ _ _ => rfl⟩
  | cons key rest ih =>
    exact (h key List.mem_cons_self).andThen (ih fun k hk => h k (List.mem_cons_of_mem _ hk))

/-- **The order of documents.** A document is not told apart from itself, and the comparison of
two documents is turned round with them, whatever the keys. On a list of documents the keys
are a total preorder if none of them finds three documents of which the second hides the
order of the others; a single key is a total preorder on the list in no other case. -/
theorem ordered_unless_hidden (keys : List SortKey) (items : List Json.Value) :
    (∀ a, compareBy keys a a = .eq) ∧
    (∀ a b, compareBy keys b a = (compareBy keys a b).swap) ∧
    ((∀ key ∈ keys, ∀ a ∈ items, ∀ b ∈ items, ∀ c ∈ items, ¬key.Hides a b c) →
      OrderedOn (compareBy keys) items) ∧
    ∀ key, OrderedOn (compareBy [key]) items ↔
      ∀ a ∈ items, ∀ b ∈ items, ∀ c ∈ items, ¬key.Hides a b c := by
  refine ⟨fun a => ?_, compareBy_swap keys, fun h => ?_, fun key => ?_⟩
  · have hself := compareBy_swap keys a a
    cases hc : compareBy keys a a <;> simp [hc] at hself ⊢
  · exact orderedOn_compareBy fun key hkey => (key.orderedOn_iff items).mpr (h key hkey)
  · rw [compareBy_singleton]
    exact key.orderedOn_iff items

/-- A double between two integers that round to it: it equals both, yet they are not equal, and
a sort that meets it leaves the greater of them in front. -/
theorem not_ordered_by_rounding :
    let document (n : Json.Number) : Json.Value := .object [("n", .number n)]
    let greater := document (.integer 9007199254740993)
    let rounded := document (.double ⟨0x4340000000000000⟩)
    let less := document (.integer 9007199254740992)
    let keys : List SortKey := [⟨"n", .ascending⟩]
    (compareBy keys greater rounded).isLE ∧ (compareBy keys rounded less).isLE ∧
      compareBy keys greater less = .gt ∧
      stableSort (compareBy keys) [greater, rounded, less] = [greater, rounded, less] := by
  exact ⟨by decide +kernel, by decide +kernel, by decide +kernel, by rfl⟩

end Query

end VersionStore
