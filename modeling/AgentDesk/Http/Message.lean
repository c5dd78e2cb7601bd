import AgentDesk.Http.Exchange
import AgentDesk.Http.Url
import AgentDesk.Text.Utf8

/-!
What a plain client makes of a post and of a reply: a post as it goes over a connection, and a reply as it comes back,
both in HTTP/1.1. The connection is closed after one reply, so a reply without a length ends with the connection.
Text is UTF-8, and no redirect is followed.
-/
namespace AgentDesk.Http

def defaultPort (secure : Bool) : Nat := if secure then 443 else 80

def Url.connectPort (u : Url) : Nat := u.port.getD (defaultPort u.secure)

/-- The host as a request names it. -/
def Url.hostHeader (u : Url) : String :=
  match u.port with
  | some p => u.host ++ ":" ++ Text.Numeral.natText p
  | none => u.host

def lineEnd : String := "\r\n"

/-- The whole request, for a post whose URL was read. -/
def Post.write (p : Post) (url : Url) : String :=
  String.join
    [ "POST ", url.target, " HTTP/1.1", lineEnd,
      "Host: ", url.hostHeader, lineEnd,
      "Content-Type: ", contentType, lineEnd,
      "Content-Length: ", Text.Numeral.natText p.body.utf8ByteSize, lineEnd,
      "Connection: close", lineEnd, lineEnd, p.body ]

/-- A reply as it comes over a connection; a body that ended before its announced length is not complete. -/
structure RawReply where
  status : Nat
  body : List UInt8
  complete : Bool := true
  deriving DecidableEq, Repr

namespace RawReply

/-- Bytes as text, without a byte order mark in front. -/
def decodeBody (body : List UInt8) : String :=
  match body with
  | 0xEF :: 0xBB :: 0xBF :: r => Text.Utf8.decodeLossy r
  | bytes => Text.Utf8.decodeLossy bytes

/-- Two statuses never come with a body. -/
def toReply (r : RawReply) : Reply where
  status := r.status
  text :=
    if r.status = 204 ∨ r.status = 304 then .ok ""
    else if r.complete then .ok (decodeBody r.body) else .error "error decoding response body"

/-- The bytes up to the first line end and those behind it. -/
def splitLine? : List UInt8 → Option (List UInt8 × List UInt8)
  | [] => none
  | [_] => none
  | 0x0D :: 0x0A :: r => some ([], r)
  | b :: r => (splitLine? r).map fun t => (b :: t.1, t.2)

/-- The lines before the first empty one, and what is behind that one. -/
def splitHead? : Nat → List UInt8 → Option (List (List UInt8) × List UInt8)
  | 0, _ => none
  | fuel + 1, s =>
    match splitLine? s with
    | none => none
    | some ([], r) => some ([], r)
    | some (line, r) => (splitHead? fuel r).map fun t => (line :: t.1, t.2)

/-- A line of the head; its bytes are ASCII in all that is looked at. -/
def lineText (line : List UInt8) : List Char := line.map fun b => Char.ofNat b.toNat

/-- The status is the number after the first space. -/
def readStatus? (line : List UInt8) : Option Nat :=
  let digits := ((lineText line).dropWhile (· != ' ')).drop 1 |>.takeWhile Char.isDigit
  if digits.length = 3 then some (Text.Numeral.digitsValue digits) else none

/-- The value of a header, in lower case. -/
def header? (name : String) (lines : List (List UInt8)) : Option String :=
  lines.findSome? fun line =>
    let (key, value) := (lineText line).span (· != ':')
    if Text.lower (String.ofList key) = name then
      some (Text.trim (Text.lower (String.ofList (value.drop 1))))
    else none

def hexValue? (cs : List Char) : Option Nat :=
  if cs.isEmpty then none
  else cs.foldlM (fun n c => (Json.Quoted.hexDigit? c).map fun d => 16 * n + d) 0

/-- The body that chunks make up, and whether the last one was seen. -/
def joinChunks : Nat → List UInt8 → List UInt8 × Bool
  | 0, _ => ([], false)
  | fuel + 1, s =>
    match splitLine? s with
    | none => ([], false)
    | some (line, r) =>
      match hexValue? ((lineText line).takeWhile fun c => (Json.Quoted.hexDigit? c).isSome) with
      | none => ([], false)
      | some 0 => ([], true)
      | some n =>
        if r.length < n + 2 then (r.take n, false)
        else
          let (body, whole) := joinChunks fuel (r.drop (n + 2))
          (r.take n ++ body, whole)

/-- The reply in all that came before the connection was closed. -/
def read? (bytes : List UInt8) : Option RawReply := do
  let (lines, body) ← splitHead? (bytes.length + 1) bytes
  let (first, headers) ←
    match lines with
    | [] => none
    | line :: more => some (line, more)
  let status ← readStatus? first
  if header? "transfer-encoding" headers = some "chunked" then
    let (body, whole) := joinChunks (body.length + 1) body
    return ⟨status, body, whole⟩
  else
    match (header? "content-length" headers).bind (Text.Numeral.read? 63) with
    | some n => return ⟨status, body.take n, n ≤ body.length⟩
    | none => return ⟨status, body, true⟩

end RawReply

end AgentDesk.Http
