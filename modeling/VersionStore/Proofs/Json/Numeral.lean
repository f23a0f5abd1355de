import VersionStore.Json.Numeral
import VersionStore.Json.Token

/-! How numerals are spelled.

A word is read as a numeral if the grammar of JSON makes it one, and then it has the parts
that the grammar finds (`parse?_eq_some_iff`). A run of digits is split off where it ends,
so it does not matter that the grammar says nothing of longest runs: what may follow digits
is no digit. -/
namespace VersionStore.Json

namespace Token

/-- Whether a text continues a word, whatever the word is. -/
def IsWordText (cs : List Char) : Prop := ∀ c ∈ cs, isWordChar c = true

instance (cs : List Char) : Decidable (IsWordText cs) := List.decidableBAll _ cs

theorem isWordText_cons {c : Char} (h : isWordChar c = true) {cs : List Char}
    (hcs : IsWordText cs) : IsWordText (c :: cs) :=
  List.forall_mem_cons.mpr ⟨h, hcs⟩

theorem isWordText_append {cs ds : List Char} (hcs : IsWordText cs) (hds : IsWordText ds) :
    IsWordText (cs ++ ds) :=
  List.forall_mem_append.mpr ⟨hcs, hds⟩

end Token

/-- Whether a text is a run of digits. -/
def IsDigits (cs : List Char) : Prop := cs ≠ [] ∧ ∀ c ∈ cs, c.isDigit = true

namespace Numeral

open Json.Token (IsWordText isWordText_cons isWordText_append)

/-! ### The grammar -/

/-- Whether digits may be the integer part: they begin with a zero only if that is all. -/
def IsWhole (cs : List Char) : Prop := IsDigits cs ∧ (cs.head? = some '0' → cs = ['0'])

/-- Whether a text spells a fraction, or that there is none. -/
def FractionSpelledBy : Option (List Char) → List Char → Prop
  | none, cs => cs = []
  | some ds, cs => cs = '.' :: ds ∧ IsDigits ds

/-- Whether a text spells an integer, with any sign and any zeros. -/
def PowerSpelledBy (e : Int) (cs : List Char) : Prop :=
  ∃ ds, IsDigits ds ∧
    ((cs = ds ∨ cs = '+' :: ds) ∧ e = Decimal.value ds ∨ cs = '-' :: ds ∧ e = -Decimal.value ds)

/-- Whether a text spells an exponent, or that there is none. -/
def ExponentSpelledBy : Option Int → List Char → Prop
  | none, cs => cs = []
  | some e, cs => ∃ power, (cs = 'e' :: power ∨ cs = 'E' :: power) ∧ PowerSpelledBy e power

def SpelledBy (n : Numeral) (cs : List Char) : Prop :=
  ∃ fraction exponent, cs = (if n.negative then ['-'] else []) ++ n.whole ++ fraction ++ exponent ∧
    IsWhole n.whole ∧ FractionSpelledBy n.fraction fraction ∧
    ExponentSpelledBy n.exponent exponent

/-! ### Runs of digits -/

/-- Whether a text does not continue a run of digits. -/
def EndsDigits (rest : List Char) : Prop := ∀ c ∈ rest.head?, c.isDigit = false

theorem endsDigits_cons {c : Char} (h : c.isDigit = false) (rest : List Char) :
    EndsDigits (c :: rest) := by
  intro d hd
  cases hd
  exact h

/-- Digits are split off where something else follows. -/
theorem digits_eq_iff {cs ds rest : List Char} :
    digits cs = (ds, rest) ↔
      cs = ds ++ rest ∧ (∀ c ∈ ds, c.isDigit = true) ∧ EndsDigits rest := by
  constructor
  · intro h
    obtain ⟨rfl, rfl⟩ := Prod.mk.inj h
    refine ⟨List.takeWhile_append_dropWhile.symm, fun c hc => ?_, fun c hc => ?_⟩
    · exact List.all_eq_true.mp List.all_takeWhile c hc
    · exact Bool.eq_false_iff.mpr fun hdigit => by
        have := List.head?_dropWhile_not Char.isDigit cs
        rw [hc] at this
        simp [hdigit] at this
  · rintro ⟨rfl, hdigits, hrest⟩
    unfold digits
    rw [List.takeWhile_append_of_pos hdigits, List.dropWhile_append_of_pos hdigits]
    cases rest with
    | nil => rw [List.takeWhile_nil, List.dropWhile_nil, List.append_nil]
    | cons c rest =>
      have hc : ¬c.isDigit = true := Bool.eq_false_iff.mp (hrest c rfl)
      rw [List.takeWhile_cons_of_neg hc, List.dropWhile_cons_of_neg hc, List.append_nil]

/-- What is split off is digits, and it stood in front of what is left. -/
theorem digits_split (cs : List Char) :
    cs = (digits cs).1 ++ (digits cs).2 ∧ ∀ c ∈ (digits cs).1, c.isDigit = true := by
  obtain ⟨hcs, hall, -⟩ := digits_eq_iff.mp (rfl : digits cs = ((digits cs).1, (digits cs).2))
  exact ⟨hcs, hall⟩

theorem isWhole_iff {cs : List Char} (h : ∀ c ∈ cs, c.isDigit = true) :
    isWhole cs = true ↔ IsWhole cs := by
  unfold isWhole IsWhole IsDigits
  split
  · simp
  · simp
  · next c rest hzero =>
    have hdigits : c :: rest ≠ [] ∧ ∀ d ∈ c :: rest, d.isDigit = true := ⟨List.cons_ne_nil _ _, h⟩
    rw [bne_iff_ne, List.head?_cons, Option.some.injEq]
    refine ⟨fun hc => ⟨hdigits, fun heq => absurd heq hc⟩, fun ⟨_, himp⟩ heq => ?_⟩
    subst heq
    exact hzero rfl (List.cons.inj (himp rfl)).2

/-- A text is a run of digits if that is what is split off, and nothing is left. -/
theorem digits_eq_self {cs : List Char} (h : IsDigits cs) : digits cs = (cs, []) :=
  digits_eq_iff.mpr ⟨(List.append_nil cs).symm, h.2, nofun⟩

/-! ### Parts -/

theorem minus_eq_iff {cs rest : List Char} {negative : Bool} :
    minus cs = (negative, rest) ↔
      cs = (if negative then ['-'] else []) ++ rest ∧
        (negative = false → rest.head? ≠ some '-') := by
  unfold minus
  split
  · constructor
    · rintro ⟨⟩
      exact ⟨rfl, nofun⟩
    · rintro ⟨hcs, hhead⟩
      cases negative with
      | true => exact congrArg _ (List.cons.inj hcs).2
      | false => exact absurd (congrArg List.head? hcs).symm (hhead rfl)
  · next hminus =>
    constructor
    · rintro ⟨⟩
      refine ⟨rfl, fun _ hhead => ?_⟩
      obtain ⟨rest, rfl⟩ := List.head?_eq_some_iff.mp hhead
      exact hminus rest rfl
    · rintro ⟨rfl, -⟩
      cases negative with
      | true => exact absurd rfl (hminus rest)
      | false => rfl

/-- A sign is split off, if there is one. -/
theorem sign_cases (cs : List Char) :
    (∃ rest, cs = '+' :: rest ∧ sign cs = (false, rest)) ∨
      (∃ rest, cs = '-' :: rest ∧ sign cs = (true, rest)) ∨ sign cs = (false, cs) := by
  unfold sign
  split
  · exact .inl ⟨_, rfl, rfl⟩
  · unfold minus
    split
    · exact .inr (.inl ⟨_, rfl, rfl⟩)
    · exact .inr (.inr rfl)

/-- Digits have no sign. -/
theorem sign_digits {cs : List Char} (h : IsDigits cs) : sign cs = (false, cs) := by
  rcases sign_cases cs with ⟨rest, rfl, -⟩ | ⟨rest, rfl, -⟩ | hsign
  · exact absurd (h.2 '+' List.mem_cons_self) (by decide)
  · exact absurd (h.2 '-' List.mem_cons_self) (by decide)
  · exact hsign

/-- A text is a run of digits if some are split off and nothing is left. -/
theorem isDigits_iff {cs : List Char} :
    ((digits cs).1.isEmpty || !(digits cs).2.isEmpty) = false ↔ IsDigits cs := by
  constructor
  · intro h
    obtain ⟨hcs, hall⟩ := digits_split cs
    simp only [Bool.or_eq_false_iff, Bool.not_eq_false', List.isEmpty_iff,
      List.isEmpty_eq_false_iff] at h
    have hself : cs = (digits cs).1 := by rwa [h.2, List.append_nil] at hcs
    rw [hself]
    exact ⟨h.1, hall⟩
  · intro h
    rw [digits_eq_self h]
    simpa using h.1

/-- A power is a sign, if there is one, and digits. -/
theorem power?_eq_some_iff_sign {cs : List Char} {e : Int} :
    power? cs = some e ↔ IsDigits (sign cs).2 ∧
      (if (sign cs).1 then -(Decimal.value (sign cs).2 : Int) else Decimal.value (sign cs).2) =
        e := by
  have hpower : power? cs =
      if (digits (sign cs).2).1.isEmpty || !(digits (sign cs).2).2.isEmpty then none
      else some (if (sign cs).1 then -(Decimal.value (digits (sign cs).2).1 : Int)
        else Decimal.value (digits (sign cs).2).1) := rfl
  rw [hpower]
  by_cases hdigits : IsDigits (sign cs).2
  · rw [isDigits_iff.mpr hdigits, digits_eq_self hdigits]
    simp [hdigits]
  · rw [if_pos (Bool.not_eq_false _ ▸ mt isDigits_iff.mp hdigits)]
    simp [hdigits]

theorem power?_eq_some_iff {cs : List Char} {e : Int} :
    power? cs = some e ↔ PowerSpelledBy e cs := by
  rw [power?_eq_some_iff_sign]
  constructor
  · rintro ⟨hdigits, rfl⟩
    rcases sign_cases cs with ⟨rest, hcs, hsign⟩ | ⟨rest, hcs, hsign⟩ | hsign
    all_goals rw [hsign] at hdigits ⊢
    · exact ⟨rest, hdigits, .inl ⟨.inr hcs, rfl⟩⟩
    · exact ⟨rest, hdigits, .inr ⟨hcs, rfl⟩⟩
    · exact ⟨cs, hdigits, .inl ⟨.inl rfl, rfl⟩⟩
  · rintro ⟨ds, hdigits, ⟨rfl | rfl, rfl⟩ | ⟨rfl, rfl⟩⟩
    · rw [sign_digits hdigits]
      exact ⟨hdigits, rfl⟩
    · exact ⟨hdigits, rfl⟩
    · exact ⟨hdigits, rfl⟩

theorem exponent?_eq_some_iff {cs : List Char} {exponent : Option Int} :
    exponent? cs = some exponent ↔ ExponentSpelledBy exponent cs := by
  cases cs with
  | nil => cases exponent <;> simp [exponent?, ExponentSpelledBy]
  | cons c rest =>
    have hletter : (c == 'e' || c == 'E') = true ↔ c = 'e' ∨ c = 'E' := by simp
    show (if c == 'e' || c == 'E' then (power? rest).map some else none) = some exponent ↔ _
    split
    · next hc =>
      rw [Option.map_eq_some_iff]
      constructor
      · rintro ⟨e, hpower, rfl⟩
        refine ⟨rest, ?_, power?_eq_some_iff.mp hpower⟩
        exact (hletter.mp hc).imp (congrArg (· :: rest)) (congrArg (· :: rest))
      · intro h
        cases exponent with
        | none => cases h
        | some e =>
          obtain ⟨power, hcs, hpower⟩ := h
          have hrest : rest = power := hcs.elim (fun h => (List.cons.inj h).2)
            fun h => (List.cons.inj h).2
          exact ⟨e, power?_eq_some_iff.mpr (hrest ▸ hpower), rfl⟩
    · next hc =>
      refine ⟨nofun, fun h => absurd (hletter.mpr ?_) hc⟩
      cases exponent with
      | none => cases h
      | some e =>
        obtain ⟨power, hcs, -⟩ := h
        exact hcs.imp (fun h => (List.cons.inj h).1) fun h => (List.cons.inj h).1

/-- A fraction is split off where no digit follows, nor the point of another one. -/
theorem fraction?_eq_some_iff {cs rest : List Char} {fraction : Option (List Char)}
    (hrest : EndsDigits rest) (hpoint : rest.head? ≠ some '.') :
    fraction? cs = some (fraction, rest) ↔
      ∃ text, cs = text ++ rest ∧ FractionSpelledBy fraction text := by
  unfold fraction?
  split
  · next cs =>
    constructor
    · intro h
      dsimp only at h
      split at h
      · cases h
      · next hne =>
        obtain ⟨hfraction, hdigits⟩ := Prod.mk.inj (Option.some.inj h)
        obtain ⟨hcs, hall⟩ := digits_split cs
        subst hfraction hdigits
        exact ⟨'.' :: (digits cs).1, congrArg _ hcs, rfl, fun hnil => hne (by simp [hnil]), hall⟩
    · rintro ⟨text, hcs, hspelled⟩
      cases fraction with
      | none =>
        obtain rfl : text = [] := hspelled
        exact absurd (congrArg List.head? hcs).symm hpoint
      | some ds =>
        obtain ⟨rfl, hdigits⟩ := hspelled
        obtain rfl : cs = ds ++ rest := (List.cons.inj hcs).2
        rw [digits_eq_iff.mpr ⟨rfl, hdigits.2, hrest⟩]
        simp [hdigits.1]
  · next hne =>
    rw [Option.some.injEq, Prod.mk.injEq]
    constructor
    · rintro ⟨rfl, rfl⟩
      exact ⟨[], rfl, rfl⟩
    · rintro ⟨text, hcs, hspelled⟩
      cases fraction with
      | none =>
        obtain rfl : text = [] := hspelled
        exact ⟨rfl, hcs⟩
      | some ds =>
        obtain ⟨rfl, -⟩ := hspelled
        exact absurd hcs (hne _)

/-! ### Numerals -/

/-- An exponent begins with a letter. -/
theorem ends_of_exponentSpelledBy {exponent : Option Int} {cs : List Char}
    (h : ExponentSpelledBy exponent cs) : EndsDigits cs ∧ cs.head? ≠ some '.' := by
  cases exponent with
  | none =>
    obtain rfl : cs = [] := h
    exact ⟨nofun, nofun⟩
  | some e =>
    obtain ⟨power, rfl | rfl, -⟩ := h
    · exact ⟨endsDigits_cons rfl _, by simp⟩
    · exact ⟨endsDigits_cons rfl _, by simp⟩

/-- No digit follows the integer part. -/
theorem endsDigits_fraction {fraction : Option (List Char)} {text rest : List Char}
    (h : FractionSpelledBy fraction text) (hrest : EndsDigits rest) :
    EndsDigits (text ++ rest) := by
  cases fraction with
  | none =>
    obtain rfl : text = [] := h
    exact hrest
  | some ds =>
    obtain ⟨rfl, -⟩ := h
    exact endsDigits_cons rfl _

theorem head?_ne_of_isWhole {whole : List Char} (h : IsWhole whole) (rest : List Char) :
    (whole ++ rest).head? ≠ some '-' := by
  obtain ⟨⟨hne, hdigits⟩, -⟩ := h
  obtain ⟨c, cs, rfl⟩ := List.exists_cons_of_ne_nil hne
  intro hhead
  obtain rfl : c = '-' := Option.some.inj hhead
  exact absurd (hdigits '-' List.mem_cons_self) (by decide)

/-- **A word is read as a numeral exactly if it spells that numeral.** -/
theorem parse?_eq_some_iff {cs : List Char} {n : Numeral} :
    parse? cs = some n ↔ n.SpelledBy cs := by
  have hparse : parse? cs =
      if !isWhole (digits (minus cs).2).1 then none
      else (fraction? (digits (minus cs).2).2).bind fun read =>
        (exponent? read.2).bind fun exponent =>
          some ⟨(minus cs).1, (digits (minus cs).2).1, read.1, exponent⟩ := rfl
  rw [hparse]
  constructor
  · intro h
    split at h
    · cases h
    · next hwhole =>
      obtain ⟨⟨fraction, rest⟩, hfraction, h⟩ := Option.bind_eq_some_iff.mp h
      obtain ⟨exponent, hexponent, h⟩ := Option.bind_eq_some_iff.mp h
      obtain rfl := Option.some.inj h
      have hexponent := exponent?_eq_some_iff.mp hexponent
      obtain ⟨hends, hpoint⟩ := ends_of_exponentSpelledBy hexponent
      obtain ⟨text, htext, hfraction⟩ := (fraction?_eq_some_iff hends hpoint).mp hfraction
      obtain ⟨hminus, -⟩ := minus_eq_iff.mp (rfl : minus cs = ((minus cs).1, (minus cs).2))
      obtain ⟨hdigits, hall⟩ := digits_split (minus cs).2
      have hwhole : isWhole (digits (minus cs).2).1 = true := by simpa using hwhole
      refine ⟨text, rest, ?_, (isWhole_iff hall).mp hwhole, hfraction, hexponent⟩
      have hafter : (digits (minus cs).2).1 ++ (text ++ rest) = (minus cs).2 :=
        htext ▸ hdigits.symm
      rw [List.append_assoc, List.append_assoc, hafter]
      exact hminus
  · rintro ⟨fraction, exponent, rfl, hwhole, hfraction, hexponent⟩
    obtain ⟨hends, hpoint⟩ := ends_of_exponentSpelledBy hexponent
    have hminus : minus ((if n.negative then ['-'] else []) ++ n.whole ++ fraction ++ exponent) =
        (n.negative, n.whole ++ (fraction ++ exponent)) :=
      minus_eq_iff.mpr ⟨by simp, fun _ => head?_ne_of_isWhole hwhole _⟩
    have hdigits : digits (n.whole ++ (fraction ++ exponent)) = (n.whole, fraction ++ exponent) :=
      digits_eq_iff.mpr ⟨rfl, hwhole.1.2, endsDigits_fraction hfraction hends⟩
    have hread := (fraction?_eq_some_iff hends hpoint).mpr ⟨fraction, rfl, hfraction⟩
    rw [hminus]
    dsimp only
    rw [hdigits]
    dsimp only
    rw [(isWhole_iff hwhole.1.2).mpr hwhole, hread, Option.bind_some,
      exponent?_eq_some_iff.mpr hexponent]
    rfl

/-! ### Words -/

theorem isWordText_of_isDigits {cs : List Char} (h : IsDigits cs) : IsWordText cs := by
  intro c hc
  unfold Token.isWordChar Char.isAlphanum
  rw [h.2 c hc, Bool.or_true, Bool.true_or, Bool.true_or, Bool.true_or]

theorem isWordText_of_fraction {fraction : Option (List Char)} {cs : List Char}
    (h : FractionSpelledBy fraction cs) : IsWordText cs := by
  cases fraction with
  | none =>
    obtain rfl : cs = [] := h
    exact nofun
  | some ds =>
    obtain ⟨rfl, hdigits⟩ := h
    exact isWordText_cons rfl (isWordText_of_isDigits hdigits)

theorem isWordText_of_power {e : Int} {cs : List Char} (h : PowerSpelledBy e cs) :
    IsWordText cs := by
  obtain ⟨ds, hdigits, ⟨rfl | rfl, -⟩ | ⟨rfl, -⟩⟩ := h
  · exact isWordText_of_isDigits hdigits
  · exact isWordText_cons rfl (isWordText_of_isDigits hdigits)
  · exact isWordText_cons rfl (isWordText_of_isDigits hdigits)

theorem isWordText_of_exponent {exponent : Option Int} {cs : List Char}
    (h : ExponentSpelledBy exponent cs) : IsWordText cs := by
  cases exponent with
  | none =>
    obtain rfl : cs = [] := h
    exact nofun
  | some e =>
    obtain ⟨power, rfl | rfl, hpower⟩ := h
    · exact isWordText_cons rfl (isWordText_of_power hpower)
    · exact isWordText_cons rfl (isWordText_of_power hpower)

/-- A numeral is a word. -/
theorem isWordText_of_spelledBy {n : Numeral} {cs : List Char} (h : n.SpelledBy cs) :
    cs ≠ [] ∧ IsWordText cs := by
  obtain ⟨fraction, exponent, rfl, hwhole, hfraction, hexponent⟩ := h
  have hsign : IsWordText (if n.negative then ['-'] else []) := by
    split
    · exact isWordText_cons rfl nofun
    · exact nofun
  refine ⟨by simp [hwhole.1.1], ?_⟩
  exact isWordText_append (isWordText_append (isWordText_append hsign
    (isWordText_of_isDigits hwhole.1)) (isWordText_of_fraction hfraction))
    (isWordText_of_exponent hexponent)

end Numeral
end VersionStore.Json
