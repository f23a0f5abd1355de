import VersionStore.Number.Decimal
import VersionStore.Url.Domain
import VersionStore.Url.Percent

/-! Hosts.

A host is the name of a domain, an IPv4 address, or an IPv6 address between brackets. A
name is written in ASCII; one whose last part is a number is an IPv4 address. Addresses are
written in their shortest form. -/
namespace VersionStore.Url

/-- Why a text is no URL. -/
inductive UrlError where
  | emptyHost
  | domain
  | port
  | ipv4
  | ipv6
  deriving DecidableEq

def UrlError.message : UrlError → String
  | .emptyHost => "empty host"
  | .domain => "invalid international domain name"
  | .port => "invalid port number"
  | .ipv4 => "invalid IPv4 address"
  | .ipv6 => "invalid IPv6 address"

/-! ### IPv4 -/

/-- A part of an IPv4 address: decimal, octal behind a zero, or hexadecimal behind `0x`. -/
def ipv4Part? : List Char → Option Nat
  | [] => none
  | '0' :: 'x' :: rest => Hexadecimal.valueIn? 16 rest
  | '0' :: 'X' :: rest => Hexadecimal.valueIn? 16 rest
  | '0' :: c :: rest => Hexadecimal.valueIn? 8 (c :: rest)
  | cs => Hexadecimal.valueIn? 10 cs

/-- The parts of a name, without an empty one at the end. -/
def nameParts (cs : List Char) : List (List Char) :=
  let parts := Text.splitAt '.' cs
  if parts.getLast? = some [] then parts.dropLast else parts

/-- Whether a name is to be read as an IPv4 address: its last part is a number. -/
def endsInNumber (cs : List Char) : Bool :=
  match (nameParts cs).getLast? with
  | none => false
  | some [] => false
  | some last => last.all Char.isDigit || (ipv4Part? last).isSome

/-- The bytes of an address of which all parts but the last are single bytes. -/
def ipv4Value? (parts : List Nat) : Option Nat :=
  match parts.reverse with
  | [] => none
  | last :: front =>
    let left := 4 - front.length
    if 3 < front.length ∨ front.any (255 < ·) ∨ Nat.pow 256 left ≤ last then none
    else some (front.reverse.foldl (fun n b => 256 * n + b) 0 * Nat.pow 256 left + last)

def ipv4Text (n : Nat) : List Char :=
  let bytes := [n / 0x1000000, n / 0x10000 % 256, n / 0x100 % 256, n % 256]
  Text.joinWith '.' (bytes.map (Nat.toDigits 10))

def parseIpv4 (cs : List Char) : Except UrlError (List Char) :=
  match ((nameParts cs).mapM ipv4Part?).bind ipv4Value? with
  | some n => .ok (ipv4Text n)
  | none => .error .ipv4

/-! ### IPv6 -/

/-- A byte in decimal without leading zeros. -/
def decimalByte? (cs : List Char) : Option Nat :=
  if cs.isEmpty || !cs.all Char.isDigit || (cs.head? == some '0' && 1 < cs.length) then none
  else
    let n := Decimal.value cs
    if n < 256 then some n else none

/-- The groups that one part between colons stands for. -/
def ipv6Part? (last : Bool) (cs : List Char) : Option (List Nat) :=
  if last && cs.contains '.' then
    match (Text.splitAt '.' cs).mapM decimalByte? with
    | some [a, b, c, d] => some [256 * a + b, 256 * c + d]
    | _ => none
  else if cs.isEmpty || 4 < cs.length then none
  else (Hexadecimal.valueIn? 16 cs).map ([·])

/-- The groups of a text without a double colon. -/
def ipv6Groups? (final : Bool) (cs : List Char) : Option (List Nat) :=
  if cs.isEmpty then some []
  else
    let parts := Text.splitAt ':' cs
    match parts.dropLast.mapM (ipv6Part? false), parts.getLast?.bind (ipv6Part? final) with
    | some front, some last => some (front.flatten ++ last)
    | _, _ => none

/-- Splits a text at its first double colon. -/
def splitDoubleColon : List Char → Option (List Char × List Char)
  | ':' :: ':' :: rest => some ([], rest)
  | c :: rest => (splitDoubleColon rest).map fun (before, after) => (c :: before, after)
  | [] => none

/-- The eight groups of an IPv6 address; a double colon stands for at least one zero. -/
def ipv6? (cs : List Char) : Option (List Nat) :=
  match splitDoubleColon cs with
  | some (before, after) => do
    let front ← ipv6Groups? false before
    let back ← ipv6Groups? true after
    if front.length + back.length < 8 then
      some (front ++ List.replicate (8 - front.length - back.length) 0 ++ back)
    else none
  | none => do
    let groups ← ipv6Groups? true cs
    if groups.length = 8 then some groups else none

def leadingZeros (groups : List Nat) : Nat := (groups.takeWhile (· == 0)).length

def longestZeros : List Nat → Nat
  | [] => 0
  | g :: rest => max (leadingZeros (g :: rest)) (longestZeros rest)

/-- Groups in hexadecimal with colons between them. -/
def groupsText (groups : List Nat) : List Char := Text.joinWith ':' (groups.map (Nat.toDigits 16))

/-- Groups with the first run of `zeros` zeros written as a double colon. -/
def shortened (zeros : Nat) (before : List Nat) : List Nat → List Char
  | [] => groupsText before
  | g :: rest =>
    if leadingZeros (g :: rest) = zeros then
      groupsText before ++ ':' :: ':' :: groupsText ((g :: rest).drop zeros)
    else shortened zeros (before ++ [g]) rest

/-- An IPv6 address in its shortest form, between brackets. -/
def ipv6Text (groups : List Nat) : List Char :=
  let zeros := longestZeros groups
  '[' :: (if zeros < 2 then groupsText groups else shortened zeros [] groups) ++ [']']

/-! ### Hosts -/

def parseHost (cs : List Char) : Except UrlError (List Char) :=
  if cs.isEmpty then .error .emptyHost
  else if cs.head? = some '[' then
    if cs.getLast? = some ']' then
      match ipv6? (cs.drop 1).dropLast with
      | some groups => .ok (ipv6Text groups)
      | none => .error .ipv6
    else .error .ipv6
  else
    match (percentDecodeText? cs).bind Domain.toAscii? with
    | none => .error .domain
    | some [] => .error .emptyHost
    | some name => if endsInNumber name then parseIpv4 name else .ok name

end VersionStore.Url
