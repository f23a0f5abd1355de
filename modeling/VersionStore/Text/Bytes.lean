/-! Text as bytes, and bytes as text.

Lengths of keys and names count UTF-8 bytes; a digest and a credential are written
in hexadecimal and in base 64. -/
namespace VersionStore.Text

def encodeUtf8 (cs : List Char) : List UInt8 := cs.flatMap String.utf8EncodeChar

theorem encodeUtf8_cons (c : Char) (rest : List Char) :
    encodeUtf8 (c :: rest) = String.utf8EncodeChar c ++ encodeUtf8 rest := List.flatMap_cons

/-- The encoding keeps the order of texts whose characters have one byte each. -/
theorem encodeUtf8_lt {cs ds : List Char} (hcs : ∀ c ∈ cs, c.val ≤ 127) (hds : ∀ d ∈ ds, d.val ≤ 127)
    (h : cs < ds) : encodeUtf8 cs < encodeUtf8 ds := by
  have hencode (c : Char) (hc : c.val ≤ 127) : String.utf8EncodeChar c = [c.val.toUInt8] :=
    String.utf8EncodeChar_eq_singleton (Char.utf8Size_eq_one_iff.mpr hc)
  induction cs generalizing ds with
  | nil =>
    cases ds with
    | nil => exact absurd h (List.lt_irrefl [])
    | cons d rest =>
      rw [encodeUtf8_cons, hencode d (hds d List.mem_cons_self)]
      exact List.nil_lt_cons ..
  | cons c cs ih =>
    cases ds with
    | nil => exact absurd h (List.not_lt_nil _)
    | cons d ds =>
      obtain ⟨hc, hcs⟩ := List.forall_mem_cons.mp hcs
      obtain ⟨hd, hds'⟩ := List.forall_mem_cons.mp hds
      rw [encodeUtf8_cons, encodeUtf8_cons, hencode c hc, hencode d hd, List.singleton_append,
        List.singleton_append, List.cons_lt_cons_iff]
      rcases List.cons_lt_cons_iff.mp h with hlt | ⟨rfl, hlt⟩
      · left
        rw [UInt8.lt_iff_toNat_lt, UInt32.toNat_toUInt8, UInt32.toNat_toUInt8]
        have hlt : c.val.toNat < d.val.toNat := hlt
        have hc : c.val.toNat ≤ 127 := hc
        have hd : d.val.toNat ≤ 127 := hd
        omega
      · exact .inr ⟨rfl, ih hcs hds' hlt⟩

def byteLength : List Char → Nat
  | [] => 0
  | c :: rest => c.utf8Size + byteLength rest

theorem byteLength_append (cs ds : List Char) :
    byteLength (cs ++ ds) = byteLength cs + byteLength ds := by
  induction cs with
  | nil => exact (Nat.zero_add _).symm
  | cons c rest ih => rw [List.cons_append, byteLength, ih, byteLength, Nat.add_assoc]

theorem byteLength_replicate (n : Nat) (c : Char) :
    byteLength (List.replicate n c) = n * c.utf8Size := by
  induction n with
  | zero => exact (Nat.zero_mul _).symm
  | succ n ih => rw [List.replicate_succ, byteLength, ih, Nat.succ_mul, Nat.add_comm]

theorem length_encodeUtf8 (cs : List Char) : (encodeUtf8 cs).length = byteLength cs := by
  induction cs with
  | nil => rfl
  | cons c rest ih =>
    rw [encodeUtf8_cons, List.length_append, String.length_utf8EncodeChar, ih, byteLength]

/-- The number of bytes of a string, counted by its characters. -/
theorem byteLength_toList (s : String) : byteLength s.toList = s.utf8ByteSize := by
  rw [← length_encodeUtf8, ← String.size_toByteArray, ← String.utf8Encode_toList,
    List.utf8Encode, List.size_toByteArray, encodeUtf8]

/-- A byte as two hexadecimal digits, lower case. -/
def hexByte (b : UInt8) : List Char := [Nat.digitChar (b.toNat / 16), Nat.digitChar (b.toNat % 16)]

/-- Bytes as hexadecimal digits, two a byte. -/
def hex (bytes : List UInt8) : List Char := bytes.flatMap hexByte

theorem length_hex (bytes : List UInt8) : (hex bytes).length = 2 * bytes.length := by
  induction bytes with
  | nil => rfl
  | cons b rest ih =>
    have hcons : hex (b :: rest) = hexByte b ++ hex rest := rfl
    rw [hcons, List.length_append, ih, List.length_cons, hexByte]
    simp only [List.length_cons, List.length_nil]
    omega

def hexDigits : List Char := "0123456789abcdef".toList

theorem mem_hexDigits_of_mem_hex {c : Char} {bytes : List UInt8} (h : c ∈ hex bytes) :
    c ∈ hexDigits := by
  have hdigit : ∀ n < 16, Nat.digitChar n ∈ hexDigits := by decide
  obtain ⟨b, -, hc⟩ := List.mem_flatMap.mp h
  have hb := b.toNat_lt
  simp only [hexByte, List.mem_cons, List.not_mem_nil, or_false] at hc
  rcases hc with rfl | rfl
  · exact hdigit _ (by omega)
  · exact hdigit _ (by omega)

def base64Digits : List Char :=
  "ABCDEFGHIJKLMNOPQRSTUVWXYZabcdefghijklmnopqrstuvwxyz0123456789+/".toList

/-- The digit of a six-bit group. -/
def base64Digit (n : Nat) : Char := base64Digits.getD (n % 64) '='

/-- Bytes in base 64: four digits for three bytes, the last group padded with equals signs. -/
def base64 : List UInt8 → List Char
  | [] => []
  | [a] =>
    let n := a.toNat * 16
    [base64Digit (n / 64), base64Digit n, '=', '=']
  | [a, b] =>
    let n := (a.toNat * 256 + b.toNat) * 4
    [base64Digit (n / 4096), base64Digit (n / 64), base64Digit n, '=']
  | a :: b :: c :: rest =>
    let n := (a.toNat * 256 + b.toNat) * 256 + c.toNat
    base64Digit (n / 262144) :: base64Digit (n / 4096) :: base64Digit (n / 64) :: base64Digit n ::
      base64 rest

end VersionStore.Text
