import VersionStore.Json.Tree

/-! How deep a text may nest.

A tree has a value if there is room for its depth, and then more room gives no other value
(`Tree.value?_eq_some_iff`). -/
namespace VersionStore.Json.Tree

mutual

/-- How deep arrays and objects nest in a tree. -/
def depth : Tree → Nat
  | .array items => itemsDepth items + 1
  | .object members => membersDepth members + 1
  | _ => 0

def itemsDepth : List Tree → Nat
  | [] => 0
  | tree :: rest => max (depth tree) (itemsDepth rest)

def membersDepth : List (List Piece × Tree) → Nat
  | [] => 0
  | (_, tree) :: rest => max (depth tree) (membersDepth rest)

end

/-- The value of a tree, however deep it is. -/
def meaning? (tree : Tree) : Option Value := tree.value? tree.depth

mutual

/-- Without room for its depth a tree has no value. -/
theorem value?_of_lt {room : Nat} : (tree : Tree) → room < tree.depth → tree.value? room = none
  | .array items, h => by
    cases room with
    | zero => rfl
    | succ room =>
      have hitems : room < itemsDepth items := Nat.lt_of_succ_lt_succ h
      rw [value?, values?_of_lt items hitems]
      rfl
  | .object members, h => by
    cases room with
    | zero => rfl
    | succ room =>
      have hmembers : room < membersDepth members := Nat.lt_of_succ_lt_succ h
      rw [value?, members?_of_lt members hmembers]
      rfl
  | .null, h | .boolean _, h | .numeral _, h | .string _, h => absurd h (Nat.not_lt_zero _)

theorem values?_of_lt {room : Nat} :
    (items : List Tree) → room < itemsDepth items → values? room items = none
  | [], h => absurd h (Nat.not_lt_zero _)
  | tree :: rest, h => by
    have hdepth : room < tree.depth ∨ room < itemsDepth rest := by
      rw [itemsDepth] at h
      omega
    rcases hdepth with htree | hrest
    · rw [values?, value?_of_lt tree htree]
      rfl
    · rw [values?, values?_of_lt rest hrest]
      cases value? room tree <;> rfl

theorem members?_of_lt {room : Nat} : (members : List (List Piece × Tree)) →
    room < membersDepth members → members? room members = none
  | [], h => absurd h (Nat.not_lt_zero _)
  | (key, tree) :: rest, h => by
    have hdepth : room < tree.depth ∨ room < membersDepth rest := by
      rw [membersDepth] at h
      omega
    rw [members?]
    rcases hdepth with htree | hrest
    · rw [value?_of_lt tree htree]
      cases text? key <;> rfl
    · rw [members?_of_lt rest hrest]
      cases text? key <;> cases value? room tree <;> rfl

end

mutual

/-- More room than its depth does not change the value of a tree. -/
theorem value?_congr {m n : Nat} :
    (tree : Tree) → tree.depth ≤ m → tree.depth ≤ n → tree.value? m = tree.value? n
  | .array items, hm, hn => by
    obtain ⟨m, rfl⟩ := Nat.exists_eq_add_of_le' (Nat.le_trans (Nat.le_add_left 1 _) hm)
    obtain ⟨n, rfl⟩ := Nat.exists_eq_add_of_le' (Nat.le_trans (Nat.le_add_left 1 _) hn)
    rw [value?, value?, values?_congr items (Nat.le_of_succ_le_succ hm) (Nat.le_of_succ_le_succ hn)]
  | .object members, hm, hn => by
    obtain ⟨m, rfl⟩ := Nat.exists_eq_add_of_le' (Nat.le_trans (Nat.le_add_left 1 _) hm)
    obtain ⟨n, rfl⟩ := Nat.exists_eq_add_of_le' (Nat.le_trans (Nat.le_add_left 1 _) hn)
    rw [value?, value?,
      members?_congr members (Nat.le_of_succ_le_succ hm) (Nat.le_of_succ_le_succ hn)]
  | .null, _, _ | .boolean _, _, _ | .numeral _, _, _ | .string _, _, _ => rfl

theorem values?_congr {m n : Nat} : (items : List Tree) → itemsDepth items ≤ m →
    itemsDepth items ≤ n → values? m items = values? n items
  | [], _, _ => rfl
  | tree :: rest, hm, hn => by
    obtain ⟨htree, hrest⟩ := Nat.max_le.mp hm
    obtain ⟨htree', hrest'⟩ := Nat.max_le.mp hn
    rw [values?, values?, value?_congr tree htree htree', values?_congr rest hrest hrest']

theorem members?_congr {m n : Nat} : (members : List (List Piece × Tree)) →
    membersDepth members ≤ m → membersDepth members ≤ n → members? m members = members? n members
  | [], _, _ => rfl
  | (key, tree) :: rest, hm, hn => by
    obtain ⟨htree, hrest⟩ := Nat.max_le.mp hm
    obtain ⟨htree', hrest'⟩ := Nat.max_le.mp hn
    rw [members?, members?, value?_congr tree htree htree', members?_congr rest hrest hrest']

end

/-- A tree has its value if there is room for its depth, and none otherwise. -/
theorem value?_eq_some_iff {room : Nat} {tree : Tree} {v : Value} :
    tree.value? room = some v ↔ tree.depth ≤ room ∧ tree.meaning? = some v := by
  by_cases h : tree.depth ≤ room
  · rw [value?_congr tree h (Nat.le_refl _)]
    simp [h, meaning?]
  · rw [value?_of_lt tree (Nat.lt_of_not_le h)]
    simp [h]

end VersionStore.Json.Tree
