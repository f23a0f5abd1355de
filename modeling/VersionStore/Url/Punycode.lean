/-! Text in ASCII.

Text with characters beyond ASCII is written as its ASCII characters followed by numbers,
in a mixed base with a moving bias, that say which other characters stand where. -/
namespace VersionStore.Url.Punycode

/-- How the bias of the numbers follows their size. -/
def adapt (delta points : Nat) (first : Bool) : Nat :=
  let delta := if first then delta / 700 else delta / 2
  let delta := delta + delta / points
  let rec shrink : Nat → Nat → Nat → Nat
    | 0, delta, k => k + 36 * delta / (delta + 38)
    | fuel + 1, delta, k =>
      if 455 < delta then shrink fuel (delta / 35) (k + 36) else k + 36 * delta / (delta + 38)
  shrink delta delta 0

/-- The digits below this one end a number; `k` grows by 36 from digit to digit. -/
def threshold (bias k : Nat) : Nat :=
  if k ≤ bias then 1 else if bias + 26 ≤ k then 26 else k - bias

/-! ### Writing -/

/-- A digit of a number. -/
def digit (n : Nat) : Char :=
  if n < 26 then Char.ofNat ('a'.toNat + n) else Char.ofNat ('0'.toNat + (n - 26))

/-- A number under a bias: digits of growing weight, the last one below its threshold. -/
def number (bias : Nat) : Nat → Nat → Nat → List Char
  | 0, _, _ => []
  | fuel + 1, q, k =>
    let t := threshold bias k
    if q < t then [digit q]
    else digit (t + (q - t) % (36 - t)) :: number bias fuel ((q - t) / (36 - t)) (k + 36)

/-- The state of an encoding: the code point and increment reached, the bias, and how
many characters are done. -/
structure Progress where
  point : Nat := 0x80
  delta : Nat := 0
  bias : Nat := 72
  done : Nat
  basic : Nat

/-- Encodes the occurrences of one code point in a text. -/
def occurrences (code : Nat) (s : Progress) : List Char → List Char × Progress
  | [] => ([], {s with delta := s.delta + 1, point := code + 1})
  | c :: rest =>
    if c.toNat < code then occurrences code {s with delta := s.delta + 1} rest
    else if c.toNat = code then
      let digits := number s.bias (s.delta + 1) s.delta 36
      let bias := adapt s.delta (s.done + 1) (s.done == s.basic)
      let (more, s) :=
        occurrences code {s with delta := 0, bias := bias, done := s.done + 1} rest
      (digits ++ more, s)
    else occurrences code s rest

/-- Encodes all occurrences of some code points, which are in increasing order. -/
def insertions (text : List Char) (s : Progress) : List Nat → List Char
  | [] => []
  | code :: rest =>
    let (digits, s) :=
      occurrences code {s with delta := s.delta + (code - s.point) * (s.done + 1)} text
    digits ++ insertions text s rest

def isBasic (c : Char) : Bool := decide (c.toNat < 0x80)

/-- A text in ASCII. -/
def encode (text : List Char) : List Char :=
  let basic := text.filter isBasic
  let codes := ((text.filter (!isBasic ·)).map Char.toNat).eraseDups.mergeSort
  basic ++ (if basic.isEmpty then [] else ['-']) ++
    insertions text {done := basic.length, basic := basic.length} codes

/-! ### Reading -/

def digit? (c : Char) : Option Nat :=
  if 'a' ≤ c ∧ c ≤ 'z' then some (c.toNat - 'a'.toNat)
  else if '0' ≤ c ∧ c ≤ '9' then some (c.toNat - '0'.toNat + 26)
  else none

/-- The bound of all numbers on the way: they are words of 32 bits. -/
def bound : Nat := 0x100000000

/-- Reads a number under a bias and adds it to `total`. -/
def readNumber (bias k weight total : Nat) : List Char → Option (Nat × List Char)
  | [] => none
  | c :: rest => do
    let d ← digit? c
    let t := threshold bias k
    let total := total + d * weight
    if bound ≤ total then none
    else if d < t then some (total, rest)
    else if bound ≤ weight * (36 - t) then none
    else readNumber bias (k + 36) (weight * (36 - t)) total rest

theorem length_readNumber {bias k weight total : Nat} {cs rest : List Char} {n : Nat}
    (h : readNumber bias k weight total cs = some (n, rest)) : rest.length < cs.length := by
  induction cs generalizing k weight total with
  | nil => simp [readNumber] at h
  | cons c cs ih =>
    simp only [readNumber, Option.bind_eq_bind, Option.bind_eq_some_iff] at h
    obtain ⟨d, _, h⟩ := h
    split at h
    · cases h
    · split at h
      · cases h
        simp
      · split at h
        · cases h
        · have := ih h
          simp only [List.length_cons]
          omega

/-- Inserts characters into a text as numbers say: each number counts the places, at all code
points from `point` on, between one insertion and the next. -/
def insertAll (point bias place : Nat) (text : List Char) (cs : List Char) :
    Option (List Char) :=
  if cs.isEmpty then some text
  else
    match _read : readNumber bias 36 1 place cs with
    | none => none
    | some (total, rest) =>
      let places := text.length + 1
      let point := point + total / places
      if point < 0xD800 ∨ (0xDFFF < point ∧ point < 0x110000) then
        insertAll point (adapt (total - place) places (place == 0)) (total % places + 1)
          (text.insertIdx (total % places) (Char.ofNat point)) rest
      else none
termination_by cs.length
decreasing_by exact length_readNumber ‹_›

/-- Reads a text that is written in ASCII. What comes before the last hyphen, unless that is
the first character, stands for itself. -/
def decode? (cs : List Char) : Option (List Char) :=
  let code := (cs.reverse.takeWhile (· != '-')).reverse
  let basic := cs.take (cs.length - code.length - 1)
  if basic.isEmpty then insertAll 0x80 72 0 [] cs else insertAll 0x80 72 0 basic code

end VersionStore.Url.Punycode
