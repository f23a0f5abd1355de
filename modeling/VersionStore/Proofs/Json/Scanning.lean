import VersionStore.Proofs.Json.Numeral

/-! How tokens are spelled.

The first token of a text is found behind blanks, and what is left is scanned on its own
(`scan?_cases`). A token that is spelled in front of other text is found there
(`scan?_token`), but for a word, which must not run on. Of a string the pieces are found
one by one, whether a character stands for itself or is spelled by an escape. -/
namespace VersionStore.Json

def IsBlankText (cs : List Char) : Prop := ∀ c ∈ cs, Token.isBlank c = true

theorem isBlankText_nil : IsBlankText [] := nofun

theorem isBlankText_append {cs ds : List Char} (hcs : IsBlankText cs) (hds : IsBlankText ds) :
    IsBlankText (cs ++ ds) :=
  List.forall_mem_append.mpr ⟨hcs, hds⟩

/-- Whether a text cannot continue a word in front of it. -/
def EndsWord (rest : List Char) : Prop := ∀ c ∈ rest.head?, Token.isWordChar c = false

theorem endsWord_cons {c : Char} (h : Token.isWordChar c = false) (rest : List Char) :
    EndsWord (c :: rest) := by
  rintro d hd
  cases hd
  exact h

namespace Piece

/-! ### The grammar of strings and tokens -/

/-- The text of a four-digit escape for a code. -/
inductive CodeSpelledBy : Nat → List Char → Prop
  | digits {a b c d : Char} {i j k l : Nat} (ha : Hexadecimal.digit? a = some i)
    (hb : Hexadecimal.digit? b = some j) (hc : Hexadecimal.digit? c = some k)
    (hd : Hexadecimal.digit? d = some l) :
    CodeSpelledBy (16 * (16 * (16 * i + j) + k) + l) [a, b, c, d]

/-- Whether a text spells one piece of a string. -/
inductive SpelledBy : Piece → List Char → Prop
  | plain {c : Char} (hquote : c ≠ '"') (hbackslash : c ≠ '\\') (hcontrol : 0x20 ≤ c.toNat) :
    SpelledBy (.char c) [c]
  | letter {c letter : Char} (h : Token.escaped? letter = some c) :
    SpelledBy (.char c) ['\\', letter]
  | code {code : Nat} {digits : List Char} (h : CodeSpelledBy code digits) :
    SpelledBy (.escape code) ('\\' :: 'u' :: digits)

/-- Whether a text spells some pieces, one after the other. -/
inductive SpellEach : List Piece → List Char → Prop
  | nil : SpellEach [] []
  | cons {piece : Piece} {pieces : List Piece} {first rest : List Char}
    (hpiece : piece.SpelledBy first) (hrest : SpellEach pieces rest) :
    SpellEach (piece :: pieces) (first ++ rest)

end Piece

namespace Token

/-- Whether a text spells a token. -/
inductive SpelledBy : Token → List Char → Prop
  | openArray : SpelledBy .openArray ['[']
  | closeArray : SpelledBy .closeArray [']']
  | openObject : SpelledBy .openObject ['\x7b']
  | closeObject : SpelledBy .closeObject ['\x7d']
  | colon : SpelledBy .colon [':']
  | comma : SpelledBy .comma [',']
  | string {pieces : List Piece} {inner : List Char} (h : Piece.SpellEach pieces inner) :
    SpelledBy (.string pieces) ('"' :: inner ++ ['"'])
  | word {chars : List Char} (hne : chars ≠ []) (h : IsWordText chars) :
    SpelledBy (.word chars) chars

/-! ### Single characters -/

theorem scanFrom?_step {mode next : Mode} {c : Char} (h : step? mode c = some (next, []))
    (rest : List Char) : scanFrom? mode (c :: rest) = scanFrom? next rest := by
  simp [scanFrom?, h]

theorem start?_mark {c : Char} {token : Token} (h : mark? c = some token) :
    start? c = some (.between, [token]) := by
  unfold mark? at h
  split at h
  all_goals first
    | cases h; rfl
    | cases h

theorem scanFrom?_cons {mode : Mode} {c : Char} {rest : List Char} {tokens : List Token}
    (h : scanFrom? mode (c :: rest) = some tokens) :
    ∃ next ended later, step? mode c = some (next, ended) ∧ scanFrom? next rest = some later ∧
      tokens = ended ++ later := by
  rw [scanFrom?] at h
  split at h
  · cases h
  · next next ended hstep =>
    obtain ⟨later, hlater, rfl⟩ := Option.map_eq_some_iff.mp h
    exact ⟨next, ended, later, hstep, hlater, rfl⟩

/-- What is scanned on its own is scanned in front of any text that does not continue it. -/
theorem scanFrom?_append {mode : Mode} {text rest : List Char} {tokens : List Token}
    (h : scanFrom? mode text = some tokens) (hrest : EndsWord rest) :
    scanFrom? mode (text ++ rest) = (scan? rest).map (tokens ++ ·) := by
  induction text generalizing mode tokens with
  | nil =>
    -- a text may end between two tokens or in a word, which the text behind it then ends
    cases mode with
    | between =>
      obtain rfl : [] = tokens := Option.some.inj h
      simp [scan?]
    | word chars =>
      obtain rfl : [.word chars.reverse] = tokens := Option.some.inj h
      cases rest with
      | nil => rfl
      | cons c rest =>
        have hc : isWordChar c = false := hrest c rfl
        simp only [List.nil_append, scanFrom?, step?, hc, Bool.false_eq_true, if_false, scan?]
        cases start? c with
        | none => rfl
        | some started => simp [Option.map_map, Function.comp_def]
    | _ => cases h
  | cons c text ih =>
    simp only [scanFrom?, List.cons_append] at h ⊢
    split at h
    · cases h
    · next mode' ended hstep =>
      obtain ⟨later, hlater, rfl⟩ := Option.map_eq_some_iff.mp h
      rw [ih hlater, Option.map_map]
      congr 1
      funext more
      exact (List.append_assoc ended later more).symm

/-! ### Strings -/

/-- A digit of an escape. -/
theorem scanFrom?_escape {pieces : List Piece} {left code : Nat} {text : List Char}
    {tokens : List Token} (h : scanFrom? (.escape pieces left code) text = some tokens) :
    ∃ c rest digit, text = c :: rest ∧ Hexadecimal.digit? c = some digit ∧
      scanFrom? (match left with
        | 0 => .string (.escape (16 * code + digit) :: pieces)
        | left + 1 => .escape pieces left (16 * code + digit)) rest = some tokens := by
  cases text with
  | nil => cases h
  | cons c rest =>
    obtain ⟨next, ended, later, hstep, hlater, rfl⟩ := scanFrom?_cons h
    obtain ⟨digit, hdigit, hnext⟩ := Option.map_eq_some_iff.mp hstep
    refine ⟨c, rest, digit, rfl, hdigit, ?_⟩
    cases left <;> cases hnext <;> exact hlater

/-- After a backslash comes the rest of an escape. -/
theorem scanFrom?_backslash {pieces : List Piece} {text : List Char} {tokens : List Token}
    (h : scanFrom? (.backslash pieces) text = some tokens) :
    ∃ piece first rest, text = first ++ rest ∧ Piece.SpelledBy piece ('\\' :: first) ∧
      scanFrom? (.string (piece :: pieces)) rest = some tokens := by
  cases text with
  | nil => cases h
  | cons c rest =>
    obtain ⟨next, ended, later, hstep, hlater, rfl⟩ := scanFrom?_cons h
    unfold step? at hstep
    dsimp only at hstep
    split at hstep
    · next hcode =>
      cases hstep
      rw [beq_iff_eq.mp hcode]
      obtain ⟨c₁, _, d₁, rfl, h₁, hlater⟩ := scanFrom?_escape hlater
      obtain ⟨c₂, _, d₂, rfl, h₂, hlater⟩ := scanFrom?_escape hlater
      obtain ⟨c₃, _, d₃, rfl, h₃, hlater⟩ := scanFrom?_escape hlater
      obtain ⟨c₄, rest, d₄, rfl, h₄, hlater⟩ := scanFrom?_escape hlater
      refine ⟨_, ['u', c₁, c₂, c₃, c₄], rest, rfl, .code (.digits h₁ h₂ h₃ h₄), ?_⟩
      simpa using hlater
    · obtain ⟨e, hletter, hnext⟩ := Option.map_eq_some_iff.mp hstep
      cases hnext
      exact ⟨.char e, [c], rest, rfl, .letter hletter, hlater⟩

/-- In a string comes its end or one more piece. -/
theorem scanFrom?_string_cases {pieces : List Piece} {text : List Char} {tokens : List Token}
    (h : scanFrom? (.string pieces) text = some tokens) :
    (∃ rest later, text = '"' :: rest ∧ tokens = .string pieces.reverse :: later ∧
      scan? rest = some later) ∨
    ∃ piece first rest, text = first ++ rest ∧ first ≠ [] ∧ Piece.SpelledBy piece first ∧
      scanFrom? (.string (piece :: pieces)) rest = some tokens := by
  cases text with
  | nil => cases h
  | cons c rest =>
    obtain ⟨next, ended, later, hstep, hlater, rfl⟩ := scanFrom?_cons h
    unfold step? at hstep
    dsimp only at hstep
    split at hstep
    · next hquote =>
      cases hstep
      rw [beq_iff_eq.mp hquote]
      exact .inl ⟨rest, later, rfl, rfl, hlater⟩
    split at hstep
    · next hbackslash =>
      cases hstep
      rw [beq_iff_eq.mp hbackslash]
      obtain ⟨piece, first, rest, rfl, hpiece, hlater⟩ := scanFrom?_backslash hlater
      exact .inr ⟨piece, '\\' :: first, rest, rfl, List.cons_ne_nil _ _, hpiece, hlater⟩
    split at hstep
    · cases hstep
    · next hquote hbackslash hcontrol =>
      cases hstep
      simp only [beq_iff_eq] at hquote hbackslash
      exact .inr ⟨.char c, [c], rest, rfl, List.cons_ne_nil _ _,
        .plain hquote hbackslash (Nat.le_of_not_lt hcontrol), hlater⟩

/-- A string is scanned to its end, piece by piece. -/
theorem scanFrom?_string {pieces : List Piece} {text : List Char} {tokens : List Token}
    (h : scanFrom? (.string pieces) text = some tokens) :
    ∃ more inner rest later, text = inner ++ '"' :: rest ∧ Piece.SpellEach more inner ∧
      tokens = .string (pieces.reverse ++ more) :: later ∧ scan? rest = some later := by
  -- a piece may have up to six characters, so the induction is on the length of the text
  induction hlength : text.length using Nat.strongRecOn generalizing text pieces with
  | _ n ih =>
    rcases scanFrom?_string_cases h with ⟨rest, later, rfl, rfl, hlater⟩ |
      ⟨piece, first, rest, rfl, hne, hpiece, hrest⟩
    · exact ⟨[], [], rest, later, rfl, .nil, by rw [List.append_nil], hlater⟩
    · have hshorter : rest.length < n := by
        have hpos := List.length_pos_iff.mpr hne
        rw [← hlength, List.length_append]
        omega
      obtain ⟨more, inner, rest, later, rfl, heach, rfl, hlater⟩ := ih _ hshorter hrest rfl
      refine ⟨piece :: more, first ++ inner, rest, later, ?_, .cons hpiece heach, ?_, hlater⟩
      · rw [List.append_assoc]
      · rw [List.reverse_cons, List.append_assoc, List.singleton_append]

/-- A piece is scanned wherever it stands in a string. -/
theorem scanFrom?_piece {piece : Piece} {first : List Char} (h : piece.SpelledBy first)
    (pieces : List Piece) (rest : List Char) :
    scanFrom? (.string pieces) (first ++ rest) = scanFrom? (.string (piece :: pieces)) rest := by
  cases h with
  | plain hquote hbackslash hcontrol =>
    exact scanFrom?_step (by simp [step?, hquote, hbackslash, hcontrol]) rest
  | @letter c letter hletter =>
    have hcode : letter ≠ 'u' := by
      rintro rfl
      cases hletter
    have hstep : step? (.backslash pieces) letter = some (.string (.char c :: pieces), []) := by
      simp [step?, hcode, hletter]
    rw [List.cons_append, scanFrom?_step rfl, List.singleton_append, scanFrom?_step hstep]
  | code hcode =>
    obtain ⟨ha, hb, hc, hd⟩ := hcode
    simp [scanFrom?, step?, ha, hb, hc, hd]

/-- Pieces are scanned up to the end of their string. -/
theorem scanFrom?_spellEach {more : List Piece} {inner : List Char}
    (h : Piece.SpellEach more inner) (pieces : List Piece) (rest : List Char) :
    scanFrom? (.string pieces) (inner ++ '"' :: rest) =
      (scan? rest).map (.string (pieces.reverse ++ more) :: ·) := by
  induction h generalizing pieces with
  | nil =>
    have hstep : step? (.string pieces) '"' = some (.between, [.string pieces.reverse]) := rfl
    simp [scanFrom?, hstep, scan?]
  | cons hpiece _ ih =>
    rw [List.append_assoc, scanFrom?_piece hpiece, ih]
    simp

/-! ### Words -/

/-- A word is scanned as far as it goes. -/
theorem scanFrom?_word {chars text : List Char} {tokens : List Token}
    (h : scanFrom? (.word chars) text = some tokens) :
    ∃ more rest later, text = more ++ rest ∧ IsWordText more ∧
      tokens = .word (chars.reverse ++ more) :: later ∧ scan? rest = some later := by
  induction text generalizing chars with
  | nil =>
    obtain rfl : [.word chars.reverse] = tokens := Option.some.inj h
    exact ⟨[], [], [], rfl, nofun, by rw [List.append_nil], rfl⟩
  | cons c rest ih =>
    obtain ⟨next, ended, later, hstep, hlater, rfl⟩ := scanFrom?_cons h
    unfold step? at hstep
    dsimp only at hstep
    split at hstep
    · next hc =>
      cases hstep
      obtain ⟨more, rest, later, rfl, hmore, htokens, hrest⟩ := ih hlater
      refine ⟨c :: more, rest, later, rfl, isWordText_cons hc hmore, ?_, hrest⟩
      rw [htokens, List.reverse_cons, List.append_assoc, List.singleton_append]
    · obtain ⟨⟨mode, started⟩, hstart, hnext⟩ := Option.map_eq_some_iff.mp hstep
      cases hnext
      refine ⟨[], c :: rest, started ++ later, rfl, nofun, by rw [List.append_nil]; rfl, ?_⟩
      rw [scan?, scanFrom?, step?, hstart]
      simp [hlater]

theorem scanFrom?_wordText {chars more : List Char} (h : IsWordText more) :
    scanFrom? (.word chars) more = some [.word (chars.reverse ++ more)] := by
  induction more generalizing chars with
  | nil => rw [List.append_nil]; rfl
  | cons c more ih =>
    obtain ⟨hc, hmore⟩ := List.forall_mem_cons.mp h
    have hstep : step? (.word chars) c = some (.word (c :: chars), []) := if_pos hc
    rw [scanFrom?_step hstep, ih hmore]
    simp

/-! ### Tokens -/

theorem spelledBy_of_mark? {c : Char} {token : Token} (h : mark? c = some token) :
    token.SpelledBy [c] := by
  unfold mark? at h
  split at h
  all_goals cases h
  · exact .openArray
  · exact .closeArray
  · exact .openObject
  · exact .closeObject
  · exact .colon
  · exact .comma

theorem not_isBlank_of_isWordChar {c : Char} (h : isWordChar c = true) : isBlank c = false := by
  refine Bool.eq_false_iff.mpr fun hblank => ?_
  simp only [isBlank, Bool.or_eq_true, beq_iff_eq] at hblank
  rcases hblank with ((rfl | rfl) | rfl) | rfl <;> exact absurd h (by decide)

/-- A word does not begin with what begins something else. -/
theorem step?_word {c : Char} (h : isWordChar c = true) :
    step? .between c = some (.word [c], []) := by
  have hquote : c ≠ '"' := by
    rintro rfl
    exact absurd h (by decide)
  simp [step?, start?, not_isBlank_of_isWordChar h, hquote, h]

/-- A text without tokens is blank; in any other the first token is found behind blanks. -/
theorem scan?_cases {text : List Char} {tokens : List Token} (h : scan? text = some tokens) :
    (IsBlankText text ∧ tokens = []) ∨
      ∃ blanks first rest token later, text = blanks ++ (first ++ rest) ∧ IsBlankText blanks ∧
        token.SpelledBy first ∧ tokens = token :: later ∧ scan? rest = some later := by
  induction text generalizing tokens with
  | nil =>
    obtain rfl : [] = tokens := Option.some.inj h
    exact .inl ⟨isBlankText_nil, rfl⟩
  | cons c rest ih =>
    obtain ⟨next, ended, later, hstep, hlater, rfl⟩ := scanFrom?_cons h
    unfold step? start? at hstep
    dsimp only at hstep
    split at hstep
    · next hblank =>
      cases hstep
      rcases ih hlater with ⟨hrest, rfl⟩ | ⟨blanks, first, rest, token, later, rfl, hblanks, hrest⟩
      · exact .inl ⟨List.forall_mem_cons.mpr ⟨hblank, hrest⟩, rfl⟩
      · exact .inr ⟨c :: blanks, first, rest, token, later, rfl,
          List.forall_mem_cons.mpr ⟨hblank, hblanks⟩, hrest⟩
    right
    split at hstep
    · next hquote =>
      cases hstep
      obtain ⟨pieces, inner, rest, later, rfl, heach, rfl, hrest⟩ := scanFrom?_string hlater
      refine ⟨[], '"' :: inner ++ ['"'], rest, _, later, ?_, isBlankText_nil, .string heach, rfl,
        hrest⟩
      rw [beq_iff_eq.mp hquote]
      simp
    split at hstep
    · next hword =>
      cases hstep
      obtain ⟨more, rest, later, rfl, hmore, rfl, hrest⟩ := scanFrom?_word hlater
      exact ⟨[], c :: more, rest, _, later, rfl, isBlankText_nil,
        .word (List.cons_ne_nil _ _) (isWordText_cons hword hmore), rfl, hrest⟩
    · obtain ⟨token, hmark, hnext⟩ := Option.map_eq_some_iff.mp hstep
      cases hnext
      exact ⟨[], [c], rest, token, later, rfl, isBlankText_nil, spelledBy_of_mark? hmark, rfl,
        hlater⟩

/-- Blanks in front make no difference. -/
theorem scan?_blanks {blanks : List Char} (h : IsBlankText blanks) (rest : List Char) :
    scan? (blanks ++ rest) = scan? rest := by
  induction blanks with
  | nil => rfl
  | cons c blanks ih =>
    obtain ⟨hc, hblanks⟩ := List.forall_mem_cons.mp h
    have hstep : step? .between c = some (.between, []) := if_pos hc
    rw [← ih hblanks]
    exact scanFrom?_step hstep _

/-- A token is found where it is spelled. -/
theorem scan?_token {token : Token} {first rest : List Char} (h : token.SpelledBy first)
    (hends : ∀ chars, token = .word chars → EndsWord rest) :
    scan? (first ++ rest) = (scan? rest).map (token :: ·) := by
  cases h with
  | string heach =>
    rw [List.cons_append, List.cons_append, List.append_assoc, List.singleton_append, scan?,
      scanFrom?_step rfl, scanFrom?_spellEach heach]
    rfl
  | word hne hchars =>
    obtain ⟨c, chars, rfl⟩ := List.exists_cons_of_ne_nil hne
    obtain ⟨hc, hchars⟩ := List.forall_mem_cons.mp hchars
    have hscan : scan? (c :: chars) = some [.word (c :: chars)] := by
      rw [scan?, scanFrom?_step (step?_word hc), scanFrom?_wordText hchars]
      rfl
    exact scanFrom?_append hscan (hends _ rfl)
  | _ =>
    rw [List.singleton_append, scan?, scanFrom?, step?, start?_mark rfl]
    rfl

end Token

end VersionStore.Json
