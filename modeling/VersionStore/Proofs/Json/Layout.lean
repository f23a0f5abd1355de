import Mathlib.Data.List.Forall2
import VersionStore.Proofs.Json.Fields

/-! What is read as a structure.

An object is read as a structure exactly if each field can be read from the member that
bears its name: that other members are checked as well makes no difference, unless the
structure is strict (`read_object_iff`). An array is read if its items are those of the
fields, one for each and no more (`read_array_iff`). For a structure of two fields, `Pair`
says both at once (`read_pair_iff`). -/
namespace VersionStore.Json

theorem mapM_eq_ok_iff {α β : Type} {read : α → Decoded β} {items : List α} {results : List β} :
    items.mapM read = .ok results ↔ List.Forall₂ (fun a b => read a = .ok b) items results := by
  induction items generalizing results with
  | nil =>
    rw [List.mapM_nil, List.forall₂_nil_left_iff]
    exact ⟨fun h => (Except.ok.inj h).symm, fun h => congrArg Except.ok h.symm⟩
  | cons a rest ih =>
    rw [List.mapM_cons, List.forall₂_cons_left_iff]
    constructor
    · intro h
      obtain ⟨b, hb, h⟩ := Fields.exists_of_bind h
      obtain ⟨others, hothers, h⟩ := Fields.exists_of_bind h
      exact ⟨b, others, hb, ih.mp hothers, (Except.ok.inj h).symm⟩
    · rintro ⟨b, others, hb, hothers, rfl⟩
      rw [hb, ih.mpr hothers]
      rfl

theorem map_eq_ok_iff {α β : Type} {x : Decoded α} {f : α → β} {b : β} :
    x.map f = .ok b ↔ ∃ a, x = .ok a ∧ f a = b := by
  cases x with
  | error e => exact ⟨nofun, nofun⟩
  | ok a => simp [Except.map]

namespace Value

theorem asString_eq_ok_iff {v : Value} {s : String} : v.asString = .ok s ↔ v = .string s :=
  ⟨of_asString, fun h => by rw [h]; rfl⟩

theorem asSigned_eq_ok_iff {v : Value} {n : Int64} : v.asSigned = .ok n ↔ v = .integer n.toInt := by
  refine ⟨of_asSigned, ?_⟩
  rintro rfl
  simp [integer, asSigned, Word.isSigned_toInt]

theorem asUnsigned_eq_ok_iff {expected : String} {v : Value} {n : UInt64} :
    v.asUnsigned expected = .ok n ↔ v = .integer n.toNat := by
  constructor
  · intro h
    unfold asUnsigned at h
    split at h
    · split at h
      · next hunsigned =>
        cases h
        simp only [Word.isUnsigned, decide_eq_true_eq] at hunsigned
        rw [UInt64.toNat_ofNat_of_lt' (by unfold UInt64.size; omega),
          Int.toNat_of_nonneg hunsigned.1]
        rfl
      · cases h
    · cases h
  · rintro rfl
    simp [integer, asUnsigned, Word.isUnsigned_toNat]

theorem asList_eq_ok_iff {α : Type} {read : Value → Decoded α} {v : Value} {results : List α} :
    v.asList read = .ok results ↔
      ∃ items, v = .array items ∧ List.Forall₂ (fun a b => read a = .ok b) items results := by
  cases v with
  | array items => simp [asList, mapM_eq_ok_iff]
  | _ => simp [asList]

/-- Whether the members of an object stand in key order, each key once. Other values have no
members. -/
def IsTidy : Value → Prop
  | .object members => Table.Sorted members
  | _ => True

mutual

/-- Whether all objects in a value are tidy. -/
def IsOrdered : Value → Prop
  | .object members => Table.Sorted members ∧ AreMembersOrdered members
  | .array items => AreOrdered items
  | _ => True

def AreOrdered : List Value → Prop
  | [] => True
  | item :: rest => IsOrdered item ∧ AreOrdered rest

def AreMembersOrdered : List (String × Value) → Prop
  | [] => True
  | (_, value) :: rest => IsOrdered value ∧ AreMembersOrdered rest

end

theorem IsOrdered.isTidy {v : Value} (h : v.IsOrdered) : v.IsTidy := by
  cases v with
  | object members => exact h.1
  | _ => exact trivial

theorem AreMembersOrdered.of_mem {members : List (String × Value)} (h : AreMembersOrdered members)
    {key : String} {value : Value} (hmem : (key, value) ∈ members) : value.IsOrdered := by
  induction members with
  | nil => cases hmem
  | cons first rest ih =>
    rcases List.mem_cons.mp hmem with rfl | hmem
    · exact h.1
    · exact ih h.2 hmem

end Value

namespace Fields

variable {α β : Type} {members : Table Value} {items left : List Value}

theorem pick_eq_ok_iff {name : String} {read : Value → Decoded α} {a : α} :
    pick ⟨name, read, none⟩ members = .ok a ↔
      ∃ value, members.get? name = some value ∧ read value = .ok a := by
  refine ⟨of_pick, ?_⟩
  rintro ⟨value, hvalue, hread⟩
  simp only [pick, hvalue, hread]

theorem pick_of_get? {field : Field α} {value : Value} (h : members.get? field.name = some value) :
    pick field members = field.read value := by
  simp only [pick, h]

theorem collect_one {field : Field α} : (one field).collect members = pick field members := rfl

theorem collect_cons_eq_ok_iff {field : Field α} {rest : Fields β} {a : α} {b : β} :
    (cons field rest).collect members = .ok (a, b) ↔
      pick field members = .ok a ∧ rest.collect members = .ok b := by
  refine ⟨of_collect_cons, ?_⟩
  rintro ⟨ha, hb⟩
  simp only [collect, ha, hb]
  rfl

/-- Where all fields can be read, no member is found bad. -/
theorem check_of_collect {fields : Fields α} {a : α} (hsorted : Table.Sorted members)
    (h : fields.collect members = .ok a) (known : List String) {key : String} {value : Value}
    (hmem : (key, value) ∈ members) : fields.check known false key value = .ok () := by
  have hvalue := Table.get?_of_mem hsorted hmem
  induction fields with
  | one field =>
    unfold check
    split
    · next hname =>
      subst hname
      have hread : field.read value = .ok a := (pick_of_get? hvalue).symm.trans h
      rw [hread]
      rfl
    · rfl
  | cons field rest ih =>
    obtain ⟨a, b⟩ := a
    obtain ⟨hpick, hcollect⟩ := of_collect_cons h
    unfold check
    split
    · next hname =>
      subst hname
      have hread : field.read value = .ok a := (pick_of_get? hvalue).symm.trans hpick
      rw [hread]
      rfl
    · exact ih hcollect

theorem forM_eq_ok {f : String × Value → Decoded Unit} {members : List (String × Value)}
    (h : ∀ member ∈ members, f member = .ok ()) : members.forM f = .ok () := by
  induction members with
  | nil => rfl
  | cons member rest ih =>
    obtain ⟨hfirst, hrest⟩ := List.forall_mem_cons.mp h
    show (f member >>= fun _ => rest.forM f) = .ok ()
    rw [hfirst]
    exact ih hrest

theorem ofMembers_eq_ok_iff {fields : Fields α} {a : α} (hsorted : Table.Sorted members) :
    fields.ofMembers false members = .ok a ↔ fields.collect members = .ok a := by
  refine ⟨collect_of_ofMembers, fun h => ?_⟩
  have hcheck := forM_eq_ok (f := fun member => fields.check fields.names false member.1 member.2)
    fun member hmem => check_of_collect hsorted h fields.names hmem
  exact (congrArg (· >>= fun _ => fields.collect members) hcheck).trans h

/-- A strict structure minds no member that bears the name of a field. -/
theorem check_of_mem_names {fields : Fields α} (known : List String) {key : String}
    (h : key ∈ fields.names) (value : Value) :
    fields.check known true key value = fields.check known false key value := by
  induction fields with
  | one field =>
    have hname : field.name = key := (List.mem_singleton.mp h).symm
    simp [check, hname]
  | cons field rest ih =>
    unfold check
    split
    · rfl
    · next hname => exact ih ((List.mem_cons.mp h).resolve_left (Ne.symm hname))

theorem forM_congr {f g : String × Value → Decoded Unit} {members : List (String × Value)}
    (h : ∀ member ∈ members, f member = g member) : members.forM f = members.forM g := by
  induction members with
  | nil => rfl
  | cons member rest ih =>
    obtain ⟨hfirst, hrest⟩ := List.forall_mem_cons.mp h
    show (f member >>= fun _ => rest.forM f) = (g member >>= fun _ => rest.forM g)
    rw [hfirst, ih hrest]

theorem ofMembers_of_known {fields : Fields α} (h : ∀ member ∈ members, member.1 ∈ fields.names) :
    fields.ofMembers true members = fields.ofMembers false members := by
  unfold ofMembers
  refine congrArg (· >>= fun _ => fields.collect members) (forM_congr ?_)
  exact fun member hmember => check_of_mem_names fields.names (h member hmember) member.2

theorem ofItems_one_eq_ok_iff {shape : String} {index : Nat} {field : Field α} {a : α} :
    (one field).ofItems shape index items = .ok (a, left) ↔
      ∃ item, items = item :: left ∧ field.read item = .ok a := by
  cases items with
  | nil => exact ⟨nofun, nofun⟩
  | cons item more =>
    simp only [ofItems]
    cases hread : field.read item with
    | error e => exact ⟨nofun, by rintro ⟨_, ⟨⟩, h⟩; cases hread.symm.trans h⟩
    | ok a' =>
      constructor
      · intro h
        cases h
        exact ⟨item, rfl, hread⟩
      · rintro ⟨_, ⟨⟩, h⟩
        cases hread.symm.trans h
        rfl

theorem ofItems_cons_eq_ok_iff {shape : String} {index : Nat} {field : Field α} {rest : Fields β}
    {a : α} {b : β} :
    (cons field rest).ofItems shape index items = .ok ((a, b), left) ↔
      ∃ item more, items = item :: more ∧ field.read item = .ok a ∧
        rest.ofItems shape (index + 1) more = .ok (b, left) := by
  cases items with
  | nil => exact ⟨nofun, nofun⟩
  | cons item more =>
    simp only [ofItems]
    constructor
    · intro h
      obtain ⟨a', ha, h⟩ := exists_of_bind h
      obtain ⟨⟨b', left'⟩, hb, h⟩ := exists_of_bind h
      cases h
      exact ⟨item, more, rfl, ha, hb⟩
    · rintro ⟨_, _, ⟨⟩, ha, hb⟩
      simp only [ha, hb]
      rfl

end Fields

namespace Layout

variable {α : Type} {layout : Layout α} {a : α}

theorem read_object_iff {surplus : Bool} {members : Table Value} (hstrict : layout.strict = false)
    (hsorted : Table.Sorted members) :
    layout.read surplus (.object members) = .ok a ↔ layout.fields.collect members = .ok a := by
  unfold read
  rw [hstrict]
  exact Fields.ofMembers_eq_ok_iff hsorted

/-- An object without other members is read alike, be the structure strict or not. -/
theorem read_known_iff {surplus : Bool} {members : Table Value}
    (hsorted : members.keys.Pairwise (· < ·))
    (hknown : ∀ key ∈ members.keys, key ∈ layout.fields.names) :
    layout.read surplus (.object members) = .ok a ↔ layout.fields.collect members = .ok a := by
  have hread : layout.read surplus (.object members) =
      layout.fields.ofMembers false members := by
    unfold read
    cases layout.strict with
    | true => exact Fields.ofMembers_of_known (List.forall_mem_map.mp hknown)
    | false => rfl
  rw [hread]
  exact Fields.ofMembers_eq_ok_iff (List.pairwise_map.mp hsorted)

theorem read_array_iff {items : List Value} :
    layout.read false (.array items) = .ok a ↔
      layout.fields.ofItems layout.shape 0 items = .ok (a, []) := by
  unfold read
  constructor
  · intro h
    obtain ⟨⟨a', left⟩, hitems, h⟩ := Fields.exists_of_bind h
    rw [hitems]
    cases left with
    | nil => cases h; rfl
    | cons => cases h
  · intro h
    simp only [h]
    rfl

end Layout

/-! ### Structures of two fields -/

/-- Whether a value gives two fields: as an object that has both, whatever else it has, or,
where `positional`, as the array of the two. -/
inductive Pair (positional : Bool) (first second : String) (a b : Value) : Value → Prop
  | members {members : Table Value} (sorted : Table.Sorted members)
    (atFirst : members.get? first = some a) (atSecond : members.get? second = some b) :
    Pair positional first second a b (.object members)
  | items (allowed : positional = true) : Pair positional first second a b (.array [a, b])

theorem Pair.isTidy {positional : Bool} {first second : String} {a b v : Value}
    (h : Pair positional first second a b v) : v.IsTidy := by
  cases h with
  | members sorted => exact sorted
  | items => exact trivial

/-- An array gives two fields only where it may. -/
theorem pair_iff {positional : Bool} {first second : String} {a b v : Value} :
    Pair positional first second a b v ↔
      Pair true first second a b v ∧ (positional = true ∨ ∃ members, v = .object members) := by
  constructor
  · rintro (⟨hsorted, hfirst, hsecond⟩ | hallowed)
    · exact ⟨.members hsorted hfirst hsecond, .inr ⟨_, rfl⟩⟩
    · exact ⟨.items rfl, .inl hallowed⟩
  · rintro ⟨⟨hsorted, hfirst, hsecond⟩ | _, hform⟩
    · exact .members hsorted hfirst hsecond
    · exact .items (hform.resolve_right nofun)

/-- An object of just the two fields gives them. -/
theorem Pair.of_object (positional : Bool) {first second : String} (a b : Value)
    (h : first < second) : Pair positional first second a b (.object [(first, a), (second, b)]) := by
  refine .members (List.pairwise_pair.mpr h) (if_pos rfl) ?_
  have hne : second ≠ first := fun heq => String.lt_irrefl first (heq ▸ h)
  exact (if_neg hne).trans (if_pos rfl)

namespace Layout

variable {α β : Type} {name first second : String} {readFirst : Value → Decoded α}
  {readSecond : Value → Decoded β} {a : α} {b : β}

theorem read_pair_iff {v : Value} (htidy : v.IsTidy) :
    (⟨name, .cons ⟨first, readFirst, none⟩ (.one ⟨second, readSecond, none⟩), false⟩ :
        Layout (α × β)).read false v = .ok (a, b) ↔
      ∃ x y, Pair true first second x y v ∧ readFirst x = .ok a ∧ readSecond y = .ok b := by
  cases v with
  | object members =>
    refine (read_object_iff rfl htidy).trans (Fields.collect_cons_eq_ok_iff.trans ?_)
    rw [Fields.pick_eq_ok_iff, Fields.collect_one, Fields.pick_eq_ok_iff]
    constructor
    · rintro ⟨⟨x, hx, ha⟩, y, hy, hb⟩
      exact ⟨x, y, .members htidy hx hy, ha, hb⟩
    · rintro ⟨x, y, ⟨_, hx, hy⟩, ha, hb⟩
      exact ⟨⟨x, hx, ha⟩, y, hy, hb⟩
  | array items =>
    refine read_array_iff.trans (Fields.ofItems_cons_eq_ok_iff.trans ?_)
    constructor
    · rintro ⟨x, more, rfl, ha, hmore⟩
      obtain ⟨y, rfl, hb⟩ := Fields.ofItems_one_eq_ok_iff.mp hmore
      exact ⟨x, y, .items rfl, ha, hb⟩
    · rintro ⟨x, y, ⟨⟩, ha, hb⟩
      exact ⟨x, [y], rfl, ha, Fields.ofItems_one_eq_ok_iff.mpr ⟨y, rfl, hb⟩⟩
  | null | boolean | number | string =>
    constructor
    · nofun
    · rintro ⟨x, y, ⟨⟩, -⟩

end Layout

end VersionStore.Json
