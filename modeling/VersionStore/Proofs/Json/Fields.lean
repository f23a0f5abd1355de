import VersionStore.Json.Decode

/-! Structures that were read from objects.

Where an object is read as a structure, each required field comes from the member that
bears its name (`of_pick`), and a scalar comes from nothing but itself. So what was read
says what the members are. -/
namespace VersionStore.Json

namespace Value

theorem of_asString {v : Value} {s : String} (h : v.asString = .ok s) : v = .string s := by
  cases v <;> cases h
  rfl

theorem of_asSigned {v : Value} {n : Int64} (h : v.asSigned = .ok n) : v = .integer n.toInt := by
  unfold asSigned at h
  split at h
  · split at h
    · next hsigned =>
      cases h
      simp only [Word.isSigned, decide_eq_true_eq] at hsigned
      rw [Int64.toInt_ofInt_of_le (by omega) (by omega)]
      rfl
    · cases h
  · cases h

end Value

namespace Fields

variable {α β : Type} {members : Table Value}

/-- A required field is read from the member that bears its name. -/
theorem of_pick {name : String} {read : Value → Decoded α} {a : α}
    (h : pick ⟨name, read, none⟩ members = .ok a) :
    ∃ value, members.get? name = some value ∧ read value = .ok a := by
  unfold pick at h
  cases hvalue : members.get? name with
  | none => simp only [hvalue] at h; cases h
  | some value => simp only [hvalue] at h; exact ⟨value, rfl, h⟩

/-- A reading that succeeds does so in each of its parts. -/
theorem exists_of_bind {x : Decoded α} {f : α → Decoded β} {b : β} (h : x >>= f = .ok b) :
    ∃ a, x = .ok a ∧ f a = .ok b := by
  cases x with
  | error e => cases h
  | ok a => exact ⟨a, rfl, h⟩

theorem of_collect_cons {field : Field α} {rest : Fields β} {a : α} {b : β}
    (h : (cons field rest).collect members = .ok (a, b)) :
    pick field members = .ok a ∧ rest.collect members = .ok b := by
  obtain ⟨a', ha, h⟩ := exists_of_bind h
  obtain ⟨b', hb, h⟩ := exists_of_bind h
  cases h
  exact ⟨ha, hb⟩

/-- The check of the members, one by one, has no say in what is read. -/
theorem collect_of_ofMembers {fields : Fields α} {strict : Bool} {a : α}
    (h : fields.ofMembers strict members = .ok a) : fields.collect members = .ok a := by
  obtain ⟨-, -, h⟩ := exists_of_bind h
  exact h

end Fields

end VersionStore.Json
