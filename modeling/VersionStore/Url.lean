import VersionStore.Text.Affix
import VersionStore.Url.Host

/-! URLs of the web.

A URL is read leniently: blanks around it and line breaks inside it are dropped, slashes
may lean either way, dots in the path are resolved, and what may not stand in a part is
percent encoded. A path is a list of encoded segments; the root is the empty list. -/
namespace VersionStore

/-- A URL of scheme `http`, or `https` if it is secure. -/
structure Url where
  secure : Bool
  /-- A user name and a password, encoded. -/
  user : List Char := []
  password : Option (List Char) := none
  host : List Char
  /-- The port, unless it is the one of the scheme. -/
  port : Option Nat := none
  /-- The segments of the path, encoded. -/
  path : List (List Char) := []
  query : Option (List Char) := none
  fragment : Option (List Char) := none
  deriving DecidableEq

namespace Url

/-! ### Paths -/

/-- Whether a character is dropped wherever it occurs. -/
def isDropped (c : Char) : Bool := c == '\t' || c == '\n' || c == '\r'

/-- A path of one empty segment is the root. -/
def rooted (path : List (List Char)) : List (List Char) := if path = [[]] then [] else path

/-- Adds a segment to a path. At the root an empty one changes nothing. -/
def addSegment (path : List (List Char)) (segment : List Char) : List (List Char) :=
  rooted (path ++ [segment])

/-- Whether a segment names a drive: a letter and a colon or a bar. -/
def isDrive : List Char → Bool
  | [letter, mark] => letter.isAlpha && (mark == ':' || mark == '|')
  | _ => false

/-- The path of the directory above. Out of a drive there is no way. -/
def above (path : List (List Char)) : List (List Char) :=
  if path.getLast?.any isDrive then path else path.dropLast

/-- Adds a name to a path as one segment, so that it decodes to that name. The names `.` and
`..` are left out; spelled with dropped characters they have their meaning in a path. -/
def addName (path : List (List Char)) (name : List Char) : List (List Char) :=
  if name = ['.'] ∨ name = ['.', '.'] then path
  else
    let kept := name.filter (!isDropped ·)
    if kept = ['.'] then addSegment path []
    else if kept = ['.', '.'] then addSegment (above path) []
    else addSegment path (percentEncode reservedInSegment kept)

/-- A path without the empty segment that a slash at its end makes. -/
def withoutTrailingSlash (path : List (List Char)) : List (List Char) :=
  if path.getLast? = some [] then rooted path.dropLast else path

/-- The URL whose path is that of a base, with names added. -/
def below (base : Url) (names : List String) : Url :=
  {base with path := (names.map String.toList).foldl addName (withoutTrailingSlash base.path)}

/-- Adds a field to the query. Name and value hold no reserved characters. -/
def withField (url : Url) (name value : String) : Url :=
  let field := name.toList ++ '=' :: value.toList
  {url with query := some (match url.query with
    | none | some [] => field
    | some query => query ++ '&' :: field)}

/-! ### Text -/

def pathText : List (List Char) → List Char
  | [] => ['/']
  | path => path.flatMap ('/' :: ·)

/-- A part of a URL behind its mark, if there is one. -/
def marked (mark : Char) : Option (List Char) → List Char
  | none => []
  | some part => mark :: part

/-- What a request for a URL asks its host for. -/
def target (url : Url) : String := String.ofList (pathText url.path ++ marked '?' url.query)

def text (url : Url) : String :=
  let user :=
    if url.user.isEmpty && url.password.isNone then []
    else url.user ++ marked ':' url.password ++ ['@']
  let port := url.port.map (Nat.toDigits 10)
  String.ofList ((if url.secure then "https://".toList else "http://".toList) ++ user ++
    url.host ++ marked ':' port ++ url.target.toList ++ marked '#' url.fragment)

/-- The length of the longest URL that can be asked for. -/
def longest : Nat := 65534

/-- Whether a request for the URL can be made. Some names are good enough for a host but not
for a request. -/
def canBeAsked (url : Url) : Bool :=
  !url.host.any ("\"`\x7b\x7d".toList.contains ·) && decide (url.text.length ≤ longest)

/-! ### Reading -/

/-- Whether a character may stand around a URL. -/
def isEdge (c : Char) : Bool := decide (c.toNat ≤ 0x20)

/-- The URL without what is dropped. -/
def cleaned (cs : List Char) : List Char :=
  ((((cs.dropWhile isEdge).reverse).dropWhile isEdge).reverse).filter (!isDropped ·)

/-- Whether a character ends the part with the host. -/
def endsAuthority (c : Char) : Bool := c == '/' || c == '\\' || c == '?' || c == '#'

/-- Whether a segment stands for the directory it is in. -/
def isHere (segment : List Char) : Bool :=
  [".", "%2e"].contains (String.ofList (segment.map Char.toLower))

/-- Whether a segment stands for the directory above. -/
def isAbove (segment : List Char) : Bool :=
  ["..", ".%2e", "%2e.", "%2e%2e"].contains (String.ofList (segment.map Char.toLower))

/-- Resolves the dots in the segments of a path, given those already read. At the end dots
leave an empty segment. -/
def resolveDots (done : List (List Char)) : List (List Char) → List (List Char)
  | [] => done
  | segment :: rest =>
    let last := if rest.isEmpty then [[]] else []
    if isAbove segment then resolveDots (above done ++ last) rest
    else if isHere segment then resolveDots (done ++ last) rest
    else resolveDots (done ++ [segment]) rest

/-- Reads a path, which starts with a slash unless it is empty. -/
def parsePath (cs : List Char) : List (List Char) :=
  let parts := Text.splitAt '/' (cs.map fun c => if c == '\\' then '/' else c)
  rooted (resolveDots [] ((if cs.isEmpty then parts else parts.drop 1).map
    (percentEncode reservedInPath)))

/-- Splits a text at the last occurrence of a character. -/
def splitLast (mark : Char) (cs : List Char) : Option (List Char × List Char) :=
  if cs.contains mark then
    let after := (cs.reverse.takeWhile (· != mark)).reverse
    some (cs.take (cs.length - after.length - 1), after)
  else none

/-- The user name and password in front of a host. A password that is empty is none. -/
def parseUser (cs : List Char) : List Char × Option (List Char) :=
  let encode := percentEncode reservedInUser
  let user := cs.takeWhile (· != ':')
  match cs.drop (user.length + 1) with
  | [] => (encode user, none)
  | password => (encode user, some (encode password))

/-- Splits a host from its port; colons between brackets belong to the host. -/
def splitPort (bracketed : Bool) : List Char → List Char × Option (List Char)
  | [] => ([], none)
  | ':' :: rest =>
    if bracketed then
      let (host, port) := splitPort bracketed rest
      (':' :: host, port)
    else ([], some rest)
  | c :: rest =>
    let inside := if c == '[' then true else if c == ']' then false else bracketed
    let (host, port) := splitPort inside rest
    (c :: host, port)

/-- Reads a port; without digits it is the one of the scheme. -/
def parsePort (secure : Bool) : Option (List Char) → Except UrlError (Option Nat)
  | none => .ok none
  | some cs =>
    if !cs.all Char.isDigit then .error .port
    else
      let n := cs.foldl (fun n c => min 65536 (10 * n + (c.toNat - '0'.toNat))) 0
      if 65535 < n then .error .port
      else if cs.isEmpty ∨ n = (if secure then 443 else 80) then .ok none
      else .ok (some n)

/-- Reads what follows the scheme and its slashes. -/
def parseRest (secure : Bool) (cs : List Char) : Except UrlError Url := do
  let authority := cs.takeWhile (!endsAuthority ·)
  let rest := cs.dropWhile (!endsAuthority ·)
  let (user, password, hostPort) ← match splitLast '@' authority with
    | none => pure ([], none, authority)
    | some (credentials, hostPort) =>
      let (user, password) := parseUser credentials
      pure (user, password, hostPort)
  let (host, port) := splitPort false hostPort
  let host ← parseHost host
  let port ← parsePort secure port
  let fragment := (rest.dropWhile (· != '#')).drop 1
  let rest := rest.takeWhile (· != '#')
  return {
    secure := secure
    user := user
    password := password
    host := host
    port := port
    path := parsePath (rest.takeWhile (· != '?'))
    query :=
      if rest.contains '?' then
        some (percentEncode reservedInQuery ((rest.dropWhile (· != '?')).drop 1))
      else none
    fragment :=
      if cs.contains '#' then some (percentEncode reservedInFragment fragment) else none }

def isSlash (c : Char) : Bool := c == '/' || c == '\\'

/-- Reads a URL that starts with `http:` or `https:`. -/
def parse (cs : List Char) : Except UrlError Url :=
  let cs := cleaned cs
  match Text.afterStart? "https:".toList cs with
  | some rest => parseRest true (rest.dropWhile isSlash)
  | none => parseRest false ((cs.drop "http:".length).dropWhile isSlash)

end Url

end VersionStore
