import VersionStore.Text.Affix
import VersionStore.Text.Direction
import VersionStore.Text.Joining
import VersionStore.Text.Normal
import VersionStore.Url.Domain.Mapping
import VersionStore.Url.Punycode

/-! Names of domains.

A name consists of labels between dots. People write it in any script; in ASCII a label
with other characters is marked and encoded. So that two names that look alike are not
different names, characters are first replaced by what they become and the name is brought
into normal form. A label must consist of characters that stand for themselves, must not
begin with a mark, and may hold the two invisible joiners only where they make a
difference. If any label is written from right to left, all labels must make their
direction clear. -/
namespace VersionStore.Url.Domain

/-- A label: as people read it, and in ASCII. -/
structure Label where
  text : List Char
  ascii : List Char
  deriving DecidableEq

/-- What marks a label that is encoded. -/
def marker : List Char := "xn--".toList

/-- The length of the longest label that is encoded. -/
def longestText : Nat := 1000

/-- The length of the longest encoded label that is read, without its mark. -/
def longestCode : Nat := 2000

/-- Whether a character of ASCII must not occur in a name: it has a meaning in a URL. -/
def isReserved (c : Char) : Bool :=
  decide (c.toNat ≤ 0x20) || c.toNat == 0x7F || "#/:<>?@[\\]^|%".toList.contains c

/-- Whether a character stands for itself in a name. -/
def isSettled (c : Char) : Bool := !isReserved c && mapped? c == some [c]

/-! ### Joiners -/

/-- The invisible character that keeps two letters from being joined. -/
def nonJoiner : Char := '\u200C'

/-- The invisible character that joins. -/
def joiner : Char := '\u200D'

/-- Whether a joiner makes a difference between some characters, of which those before it are
given backwards. Both do behind a virama; the one that keeps letters apart does between
letters that would be joined. -/
def matters (c : Char) (before after : List Char) : Bool :=
  before.head?.any Text.isVirama ||
    (c == nonJoiner && Text.reaches Text.joinsAfter before && Text.reaches Text.joinsBefore after)

/-- Whether all joiners make a difference. -/
def joinersMatter (before : List Char) : List Char → Bool
  | [] => true
  | c :: rest =>
    ((c != nonJoiner && c != joiner) || matters c before rest) && joinersMatter (c :: before) rest

/-! ### Directions -/

/-- Whether a label that begins with a letter from left to right makes its direction clear. -/
def isClearRightward (directions : List Text.Direction) : Bool :=
  directions.all ([.rightward, .europeanDigit, .neutral, .mark].contains ·) &&
    (directions.reverse.find? (· != .mark)).any ([.rightward, .europeanDigit].contains ·)

/-- Whether a label that begins with a letter from right to left makes its direction clear. It
must not have digits of both kinds. -/
def isClearLeftward (directions : List Text.Direction) : Bool :=
  directions.all (· != .rightward) &&
    (directions.reverse.find? (· != .mark)).any (· != .neutral) &&
    !(directions.contains .europeanDigit && directions.contains .arabicDigit)

/-- Whether a label makes its direction clear. -/
def isClear (label : Label) : Bool :=
  let directions := label.text.map Text.direction
  match directions.head? with
  | none => true
  | some .rightward => isClearRightward directions
  | some .leftward => isClearLeftward directions
  | some _ => false

/-- Whether a label holds something that is written from right to left. -/
def turns (label : Label) : Bool :=
  label.text.any fun c => [.leftward, .arabicDigit].contains (Text.direction c)

/-! ### Labels -/

/-- Whether a text may be a label. -/
def isLabel (text : List Char) : Bool :=
  text.all isSettled && !text.head?.any Text.isMark && joinersMatter [] text

/-- Reads a label that is encoded, without its mark. It must encode something beyond ASCII that
need not be changed, and that is not marked itself. -/
def decoded? (code : List Char) : Option Label := do
  if longestCode < code.length then none
  else
    let text ← Punycode.decode? code
    if text.all Punycode.isBasic || marker.isPrefixOf text || Text.normal text != text ||
        !isLabel text then none
    else some ⟨text, marker ++ code⟩

/-- Reads a label of a name in normal form. -/
def label? (cs : List Char) : Option Label :=
  match Text.afterStart? marker cs with
  | some code => decoded? code
  | none =>
    if !isLabel cs then none
    else if cs.all Punycode.isBasic then some ⟨cs, cs⟩
    else if longestText < cs.length then none
    else some ⟨cs, marker ++ Punycode.encode cs⟩

/-! ### Names -/

/-- The labels of a name, brought into normal form. -/
def labels? (name : List Char) : Option (List Label) := do
  let mapped ← name.mapM mapped?
  (Text.splitAt '.' (Text.normal mapped.flatten)).mapM label?

/-- A name in ASCII. -/
def toAscii? (name : List Char) : Option (List Char) := do
  let labels ← labels? name
  if labels.any turns && !labels.all isClear then none
  else some (Text.joinWith '.' (labels.map (·.ascii)))

end VersionStore.Url.Domain
