import AgentDesk.Text.AsciiCase
import AgentDesk.Text.Numeral

/-!
Absolute web URLs, as far as a plain client requests them: where to connect and what to ask for. Reading follows
the rules for `http` and `https`: a backslash counts as a slash, `.` and `..` are resolved, what a path or a query
cannot hold is percent-encoded, and a fragment is left out. A host is a name in ASCII or four numbers; a plain
client refuses all others, which a better one may request.
-/
namespace AgentDesk.Http

/-- `target` is the path with the query, as it stands in a request. -/
structure Url where
  secure : Bool
  host : String
  port : Option Nat
  target : String
  deriving DecidableEq, Repr

namespace Url

def isSlash (c : Char) : Bool := c == '/' || c == '\\'

/-- Tabs and line ends are dropped everywhere, control characters and spaces at both ends. -/
def clean (cs : List Char) : List Char :=
  let outer (c : Char) : Bool := c.toNat ≤ 0x20
  let cs := ((cs.dropWhile outer).reverse.dropWhile outer).reverse
  cs.filter fun c => c != '\t' && c != '\n' && c != '\r'

/-- The scheme before the first colon, in lower case. -/
def splitScheme? (cs : List Char) : Option (String × List Char) :=
  match cs.span (· != ':') with
  | (scheme, ':' :: r) => some (Text.lower (String.ofList scheme), r)
  | _ => none

/-! ### Percent-encoding -/

def hexDigit (n : Nat) : Char := (Nat.digitChar n).toUpper

def encodeByte (b : UInt8) : List Char :=
  ['%', hexDigit (b.toNat / 16), hexDigit (b.toNat % 16)]

def encodeWhere (unsafeChar : Char → Bool) (cs : List Char) : List Char :=
  cs.flatMap fun c =>
    if c.toNat ≤ 0x1F || 0x7F ≤ c.toNat || unsafeChar c then
      (String.utf8EncodeChar c).flatMap encodeByte
    else [c]

def unsafeInPath (c : Char) : Bool := [' ', '"', '<', '>', '`', '#', '?', '\x7b', '\x7d'].contains c

def unsafeInQuery (c : Char) : Bool := [' ', '"', '<', '>', '#', '\''].contains c

/-! ### The path -/

/-- The segments between slashes; there is always one more than there are slashes. -/
def splitAtSlashes : List Char → List (List Char)
  | [] => [[]]
  | c :: r =>
    if isSlash c then [] :: splitAtSlashes r
    else
      match splitAtSlashes r with
      | s :: ss => (c :: s) :: ss
      | [] => [[c]]

/-- A dot may be percent-encoded. -/
def plainDots (segment : List Char) : String :=
  match Text.lower (String.ofList segment) with
  | "%2e" => "."
  | "%2e." => ".."
  | ".%2e" => ".."
  | "%2e%2e" => ".."
  | s => s

/-- Resolves segments onto those before them, which are kept last first. -/
def resolve : List (List Char) → List (List Char) → List (List Char)
  | done, [] => done
  | done, s :: rest =>
    match plainDots s with
    | "." => resolve (if rest.isEmpty then [] :: done else done) rest
    | ".." => resolve (if rest.isEmpty then [] :: done.drop 1 else done.drop 1) rest
    | _ => resolve (encodeWhere unsafeInPath s :: done) rest

/-- The path from behind its first slash on. -/
def writePath (cs : List Char) : List Char :=
  (resolve [] (splitAtSlashes cs)).reverse.flatMap fun s => '/' :: s

/-! ### Host and port -/

/-- The part after the last `@`. -/
def dropUser (cs : List Char) : List Char := (cs.reverse.takeWhile (· != '@')).reverse

/-- Visible ASCII characters that mean nothing else in a URL. -/
def isHostChar (c : Char) : Bool :=
  let reserved := ['#', '/', ':', '<', '>', '?', '@', '[', '\\', ']', '^', '|', '%']
  0x21 ≤ c.toNat && c.toNat < 0x7F && !reserved.contains c

def readPort? (cs : List Char) : Option (Option Nat) :=
  if cs.isEmpty then some none
  else if cs.all Char.isDigit && Text.Numeral.digitsValue cs < 65536 then
    some (some (Text.Numeral.digitsValue cs))
  else none

def isByteNumber (cs : List Char) : Bool :=
  !cs.isEmpty && cs.all Char.isDigit && Text.Numeral.digitsValue cs < 256

def labels (cs : List Char) : List (List Char) :=
  cs.foldr (fun c done => if c == '.' then [] :: done else (c :: done.headD []) :: done.drop 1) [[]]

/-- A host that ends in a number is an address, which has four of them. -/
def isHost (cs : List Char) : Bool :=
  let numeric := ((labels cs).getLast?.getD []).all Char.isDigit
  !cs.isEmpty && cs.all isHostChar && (!numeric || ((labels cs).length == 4 && (labels cs).all isByteNumber))

/-- A host, and a port if one is given. -/
def readAuthority? (cs : List Char) : Option (String × Option Nat) :=
  match cs.span (· != ':') with
  | (host, after) =>
    if !isHost host then none
    else (readPort? (after.drop 1)).map fun port => (Text.lower (String.ofList host), port)

/-- Reads an absolute URL of either web scheme. -/
def parse? (s : String) : Option Url := do
  let (scheme, r) ← splitScheme? (clean s.toList)
  let secure ← if scheme = "http" then some false else if scheme = "https" then some true else none
  let r := r.dropWhile isSlash
  let (authority, r) := r.span fun c => !isSlash c && c != '?' && c != '#'
  let (host, port) ← readAuthority? (dropUser authority)
  let (path, r) := r.span fun c => c != '?' && c != '#'
  let query :=
    match r with
    | '?' :: r => '?' :: encodeWhere unsafeInQuery (r.takeWhile (· != '#'))
    | _ => []
  return { secure, host, port, target := String.ofList (writePath (path.drop 1) ++ query) }

end Url

end AgentDesk.Http
