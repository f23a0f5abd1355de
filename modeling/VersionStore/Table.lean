/-! Tables keyed by strings.

A table is a list of pairs in strictly increasing key order, so two tables with
the same entries are the same list, and whoever walks one meets its keys in
order. The operations are total on all lists; `sorted_put` says that they keep the order. -/
namespace VersionStore

/-- A finite map from strings to values, as its entries in increasing key order. -/
abbrev Table (α : Type) := List (String × α)

namespace Table

variable {α : Type}

def get? (key : String) : Table α → Option α
  | [] => none
  | (k, v) :: rest => if key = k then some v else get? key rest

def put (key : String) (value : α) : Table α → Table α
  | [] => [(key, value)]
  | (k, v) :: rest =>
    if key < k then (key, value) :: (k, v) :: rest
    else if key = k then (key, value) :: rest
    else (k, v) :: put key value rest

/-- Applies a function to the value under a key, starting from `fresh` if there is none. -/
def update (key : String) (fresh : α) (f : α → α) (table : Table α) : Table α :=
  table.put key (f ((table.get? key).getD fresh))

def has (key : String) (table : Table α) : Bool := (table.get? key).isSome

/-- The keys, in increasing order. -/
def keys (table : Table α) : List String := table.map (·.1)

/-- Gathers pairs into a table; of two values for one key the later wins. -/
def ofList (pairs : List (String × α)) : Table α :=
  pairs.foldl (fun table pair => put pair.1 pair.2 table) []

/-- Whether the keys strictly increase. -/
def Sorted (table : Table α) : Prop := table.Pairwise fun a b => a.1 < b.1

@[simp] theorem get?_nil (key : String) : get? key ([] : Table α) = none := rfl

/-- The keys are those that have a value. -/
theorem isSome_get?_iff (key : String) (table : Table α) :
    (table.get? key).isSome ↔ key ∈ table.keys := by
  induction table with
  | nil => simp [keys]
  | cons entry rest ih => by_cases h : key = entry.1 <;> simp_all [get?, keys]

theorem get?_put_self (key : String) (value : α) (table : Table α) :
    get? key (table.put key value) = some value := by
  induction table with
  | nil => simp [put, get?]
  | cons entry rest ih =>
    unfold put
    split
    · simp [get?]
    · split
      · simp [get?]
      · next h => simp [get?, h, ih]

theorem get?_put_of_ne {key other : String} (h : other ≠ key) (value : α) (table : Table α) :
    get? other (table.put key value) = get? other table := by
  induction table with
  | nil => simp [put, get?, h]
  | cons entry rest ih =>
    unfold put
    split
    · simp [get?, h]
    · split
      · next hk => subst hk; simp [get?, h]
      · simp [get?, ih]

theorem get?_put (key other : String) (value : α) (table : Table α) :
    get? other (table.put key value) = if other = key then some value else get? other table := by
  by_cases h : other = key
  · rw [if_pos h, h, get?_put_self]
  · rw [if_neg h, get?_put_of_ne h]

/-- Keeping the entries of some keys keeps what stands under them. -/
theorem get?_filter (keeps : String → Bool) (key : String) (table : Table α) :
    get? key (table.filter fun entry => keeps entry.1) =
      if keeps key then get? key table else none := by
  induction table with
  | nil => simp
  | cons entry rest ih =>
    obtain ⟨k, v⟩ := entry
    by_cases hk : keeps k <;> by_cases h : key = k <;> simp_all [get?]

/-- Changing the value under a key gives it one. -/
theorem has_update (key other : String) (fresh : α) (f : α → α) (table : Table α) :
    has other (table.update key fresh f) = (has other table || other == key) := by
  unfold has update
  rw [get?_put]
  by_cases h : other = key <;> simp [h]

theorem has_filter (keeps : String → Bool) (key : String) (table : Table α) :
    has key (table.filter fun entry => keeps entry.1) = (has key table && keeps key) := by
  unfold has
  rw [get?_filter]
  cases keeps key <;> simp

theorem put_ne_nil (key : String) (value : α) (table : Table α) : table.put key value ≠ [] := by
  cases table with
  | nil => exact List.cons_ne_nil _ _
  | cons entry rest =>
    unfold put
    repeat' split
    all_goals exact List.cons_ne_nil _ _

theorem mem_put {key : String} {value : α} {entry : String × α} {table : Table α}
    (h : entry ∈ table.put key value) : entry = (key, value) ∨ entry ∈ table := by
  induction table with
  | nil => exact Or.inl (List.mem_singleton.mp h)
  | cons head rest ih =>
    unfold put at h
    split at h
    · exact (List.mem_cons.mp h).imp_right id
    · split at h
      · exact (List.mem_cons.mp h).imp_right (List.mem_cons_of_mem _)
      · rcases List.mem_cons.mp h with rfl | h
        · exact Or.inr List.mem_cons_self
        · exact (ih h).imp_right (List.mem_cons_of_mem _)

theorem sorted_put (key : String) (value : α) {table : Table α} (h : Sorted table) :
    Sorted (table.put key value) := by
  induction table with
  | nil => exact List.pairwise_singleton ..
  | cons head rest ih =>
    obtain ⟨k, v⟩ := head
    obtain ⟨hhead, hrest⟩ := List.pairwise_cons.mp h
    unfold put
    split
    · next hlt =>
      refine List.pairwise_cons.mpr ⟨fun entry he => ?_, h⟩
      rcases List.mem_cons.mp he with rfl | he
      · exact hlt
      · exact String.lt_trans hlt (hhead entry he)
    · next hlt =>
      split
      · next heq =>
        subst heq
        exact List.pairwise_cons.mpr ⟨hhead, hrest⟩
      · next hne =>
        refine List.pairwise_cons.mpr ⟨fun entry he => ?_, ih hrest⟩
        rcases mem_put he with rfl | he
        · refine Decidable.byContradiction fun hk => hne ?_
          exact String.le_antisymm (String.not_lt.mp hk) (String.not_lt.mp hlt)
        · exact hhead entry he

theorem put_cons_self (key : String) (old value : α) (rest : Table α) :
    put key value ((key, old) :: rest) = (key, value) :: rest := by
  rw [put, if_neg (String.lt_irrefl key), if_pos rfl]

/-- Of two values stored under a key the later stays. -/
theorem put_put (key : String) (first second : α) (table : Table α) :
    (table.put key first).put key second = table.put key second := by
  induction table with
  | nil => exact put_cons_self ..
  | cons entry rest ih =>
    obtain ⟨k, v⟩ := entry
    by_cases hlt : key < k
    · have hfirst : ∀ value, put key value ((k, v) :: rest) = (key, value) :: (k, v) :: rest :=
        fun value => by rw [put, if_pos hlt]
      rw [hfirst, hfirst, put_cons_self]
    · by_cases heq : key = k
      · subst heq
        simp only [put_cons_self]
      · simp [put, hlt, heq, ih]

theorem mem_of_get? {key : String} {value : α} {table : Table α} (h : table.get? key = some value) :
    (key, value) ∈ table := by
  induction table with
  | nil => cases h
  | cons entry rest ih =>
    obtain ⟨k, v⟩ := entry
    unfold get? at h
    split at h
    · next heq =>
      cases h
      rw [heq]
      exact List.mem_cons_self
    · exact List.mem_cons_of_mem _ (ih h)

/-- Storing what is there already changes nothing. -/
theorem put_of_get? {key : String} {value : α} {table : Table α} (hsorted : Sorted table)
    (h : table.get? key = some value) : table.put key value = table := by
  induction table with
  | nil => cases h
  | cons entry rest ih =>
    obtain ⟨k, v⟩ := entry
    obtain ⟨hhead, hrest⟩ := List.pairwise_cons.mp hsorted
    by_cases heq : key = k
    · subst heq
      have hvalue : v = value := by simpa [get?] using h
      rw [hvalue, put_cons_self]
    · have hget : get? key rest = some value := by simpa [get?, heq] using h
      have hlt : ¬key < k := String.lt_asymm (hhead _ (mem_of_get? hget))
      simp [put, hlt, heq, ih hrest hget]

theorem sorted_ofList (pairs : List (String × α)) : Sorted (ofList pairs) := by
  suffices ∀ table : Table α, Sorted table →
      Sorted (pairs.foldl (fun table pair => put pair.1 pair.2 table) table) from
    this [] List.Pairwise.nil
  induction pairs with
  | nil => exact fun _ h => h
  | cons pair rest ih => exact fun table h => ih _ (sorted_put _ _ h)

theorem mem_of_mem_ofList {pairs : List (String × α)} {entry : String × α}
    (h : entry ∈ ofList pairs) : entry ∈ pairs := by
  suffices ∀ table : Table α,
      entry ∈ pairs.foldl (fun table pair => put pair.1 pair.2 table) table →
        entry ∈ pairs ∨ entry ∈ table from (this [] h).resolve_right List.not_mem_nil
  clear h
  induction pairs with
  | nil => exact fun _ h => .inr h
  | cons pair rest ih =>
    intro table hmem
    rcases ih _ hmem with hrest | hput
    · exact .inl (List.mem_cons_of_mem _ hrest)
    · rcases mem_put hput with rfl | htable
      · exact .inl List.mem_cons_self
      · exact .inr htable

/-- Every pair leaves a value under its key. -/
theorem isSome_get?_ofList {pairs : List (String × α)} {entry : String × α} (h : entry ∈ pairs) :
    ((ofList pairs).get? entry.1).isSome := by
  suffices ∀ table : Table α, entry ∈ pairs ∨ (table.get? entry.1).isSome →
      ((pairs.foldl (fun table pair => put pair.1 pair.2 table) table).get? entry.1).isSome from
    this [] (.inl h)
  clear h
  induction pairs with
  | nil => exact fun table h => h.resolve_left List.not_mem_nil
  | cons pair rest ih =>
    intro table h
    refine ih _ ?_
    rw [get?_put]
    split
    · exact .inr rfl
    · next hne =>
      refine h.imp_left fun h => (List.mem_cons.mp h).resolve_left ?_
      rintro rfl
      exact hne rfl

theorem sorted_filter (keeps : String × α → Bool) {table : Table α} (h : Sorted table) :
    Sorted (table.filter keeps) := List.Pairwise.filter keeps h

/-- A key that has no value is in no entry. -/
theorem filter_ne_of_get?_eq_none {key : String} {table : Table α} (h : table.get? key = none) :
    table.filter (·.1 != key) = table := by
  refine List.filter_eq_self.mpr fun entry hentry => bne_iff_ne.mpr ?_
  rintro rfl
  have hkey : (table.get? entry.1).isSome :=
    (isSome_get?_iff entry.1 table).mpr (List.mem_map_of_mem hentry)
  rw [h] at hkey
  cases hkey

/-- What is stored under a key does not matter to the entries of others. -/
theorem filter_ne_put (key : String) (value : α) (table : Table α) :
    (table.put key value).filter (·.1 != key) = table.filter (·.1 != key) := by
  induction table with
  | nil => simp [put]
  | cons entry rest ih =>
    obtain ⟨k, v⟩ := entry
    unfold put
    split
    · simp
    · split
      · next heq => simp [heq]
      · simp only [List.filter_cons, ih]

theorem get?_eq_none_of_lt {key : String} {table : Table α}
    (h : ∀ entry ∈ table, key < entry.1) : table.get? key = none := by
  cases hget : table.get? key with
  | none => rfl
  | some value => exact absurd (h _ (mem_of_get? hget)) (String.lt_irrefl key)

theorem get?_of_mem {key : String} {value : α} {table : Table α} (hsorted : Sorted table)
    (h : (key, value) ∈ table) : table.get? key = some value := by
  induction table with
  | nil => cases h
  | cons entry rest ih =>
    obtain ⟨k, v⟩ := entry
    obtain ⟨hhead, hrest⟩ := List.pairwise_cons.mp hsorted
    rcases List.mem_cons.mp h with heq | h
    · cases heq
      exact if_pos rfl
    · have hne : key ≠ k := fun heq => String.lt_irrefl key (heq ▸ hhead _ h)
      exact (if_neg hne).trans (ih hrest h)

/-- No key with a value comes before the first. -/
theorem not_lt_of_get? {key k : String} {value v : α} {rest : Table α}
    (hsorted : Sorted ((k, v) :: rest)) (h : get? key ((k, v) :: rest) = some value) :
    ¬key < k := by
  intro hlt
  rcases List.mem_cons.mp (mem_of_get? h) with heq | hmem
  · cases heq
    exact String.lt_irrefl _ hlt
  · exact String.lt_asymm hlt ((List.pairwise_cons.mp hsorted).1 _ hmem)

/-- Tables with the same entries are the same. -/
theorem eq_of_get? {a b : Table α} (ha : Sorted a) (hb : Sorted b)
    (h : ∀ key, a.get? key = b.get? key) : a = b := by
  induction a generalizing b with
  | nil =>
    cases b with
    | nil => rfl
    | cons entry rest => simpa [get?] using h entry.1
  | cons entry rest ih =>
    obtain ⟨k, v⟩ := entry
    cases b with
    | nil => simpa [get?] using h k
    | cons entry' rest' =>
      obtain ⟨k', v'⟩ := entry'
      have hfirst : get? k ((k, v) :: rest) = some v := if_pos rfl
      have hfirst' : get? k' ((k', v') :: rest') = some v' := if_pos rfl
      have hk : k = k' := String.le_antisymm
        (String.not_lt.mp (not_lt_of_get? ha ((h k').trans hfirst')))
        (String.not_lt.mp (not_lt_of_get? hb ((h k).symm.trans hfirst)))
      subst hk
      have hv : v = v' := Option.some.inj (hfirst.symm.trans ((h k).trans hfirst'))
      subst hv
      obtain ⟨hhead, hrest⟩ := List.pairwise_cons.mp ha
      obtain ⟨hhead', hrest'⟩ := List.pairwise_cons.mp hb
      refine congrArg _ (ih hrest hrest' fun key => ?_)
      by_cases hkey : key = k
      · subst hkey
        rw [get?_eq_none_of_lt hhead, get?_eq_none_of_lt hhead']
      · simpa [get?, hkey] using h key

end Table

end VersionStore
