import BaitNet.Heads
import BaitNet.PyBtls
import BaitNet.PyKeyring

/-!
# BITE in Python

`bite/bite.py`: requests, responses and documents. `pathlib` is a parameter, as far as it
asks the disk.
-/
namespace Py

open Wire

/-- What the first byte of a longer sequence asks for: the number of bytes behind it and the
range of the first of these. -/
def lead (b : UInt8) : Option (Nat × UInt8 × UInt8) :=
  if 0xC2 ≤ b ∧ b ≤ 0xDF then some (1, 0x80, 0xBF)
  else if b = 0xE0 then some (2, 0xA0, 0xBF)
  else if b = 0xED then some (2, 0x80, 0x9F)
  else if 0xE1 ≤ b ∧ b ≤ 0xEF then some (2, 0x80, 0xBF)
  else if b = 0xF0 then some (3, 0x90, 0xBF)
  else if 0xF1 ≤ b ∧ b ≤ 0xF3 then some (3, 0x80, 0xBF)
  else if b = 0xF4 then some (3, 0x80, 0x8F)
  else none

/-- How many of the `n` bytes that are owed follow. -/
def tails : Nat → UInt8 → UInt8 → Bytes → Nat
  | n + 1, lo, hi, b :: s => if lo ≤ b ∧ b ≤ hi then tails n 0x80 0xBF s + 1 else 0
  | _, _, _, _ => 0

/-- The character that the first byte and the `n` bytes behind it stand for. -/
def codePoint (b : UInt8) (n : Nat) (tail : Bytes) : Char :=
  .ofNat (tail.foldl (fun v x => v * 64 + x.toNat % 64) (b.toNat % 2 ^ (6 - n)))

/-- `bytes.decode(errors="replace")`: one U+FFFD for as many bytes as a sequence begins with. -/
def decodeReplaceGo : Nat → Bytes → List Char
  | fuel + 1, b :: s =>
    if b < 0x80 then .ofNat b.toNat :: decodeReplaceGo fuel s
    else
      match lead b with
      | none => .ofNat 0xFFFD :: decodeReplaceGo fuel s
      | some (n, lo, hi) =>
        let k := tails n lo hi s
        (if k = n then codePoint b n (s.take n) else .ofNat 0xFFFD) :: decodeReplaceGo fuel (s.drop k)
  | _, _ => []

def decodeReplace (b : Bytes) : List Char := decodeReplaceGo b.length b

/-- `str.upper`, as far as it can lead to ASCII text of one character for each. -/
def upper (s : List Char) : List Char :=
  s.map fun ch => if ch = .ofNat 0x131 then 'I' else if ch = .ofNat 0x17F then 'S' else ch.toUpper

/-- The sign in front of a number. -/
def signed (s : List Char) : Bool × List Char :=
  match s with
  | '-' :: t => (true, t)
  | '+' :: t => (false, t)
  | t => (false, t)

def digitsValue (s : List Char) : Nat := s.foldl (fun v ch => 10 * v + (ch.toNat - 48)) 0

/-- `int` of a text: a sign and digits, between which single underscores may stand. The digits
are those of ASCII here. -/
def int (s : List Char) : Except Exn Int :=
  let (neg, t) := signed (strip s)
  let parts := t.splitOn '_'
  if parts.all fun p => p ≠ [] ∧ p.all Char.isDigit then
    .ok (if neg then -(digitsValue parts.flatten : Int) else digitsValue parts.flatten)
  else .error (.valueError "invalid literal for int() with base 10")

def hdrMax : Nat := 2048
def readVerbs : List (List Char) := ["BITE".toList, "GET".toList, "HEAD".toList]
def defaultPort : Int := 8080

def reasons (status : Nat) : List Char :=
  match status with
  | 200 => "OK".toList
  | 400 => "Bad Request".toList
  | 404 => "Not Found".toList
  | 405 => "Method Not Allowed".toList
  | 500 => "Internal Error".toList
  | _ => "Error".toList

def mimeTypes : List (List Char × List Char) :=
  [(".html", "text/html"), (".htm", "text/html"), (".css", "text/css"), (".js", "application/javascript"),
    (".json", "application/json"), (".txt", "text/plain"), (".md", "text/plain"), (".png", "image/png"),
    (".jpg", "image/jpeg"), (".jpeg", "image/jpeg"), (".gif", "image/gif"), (".svg", "image/svg+xml"),
    (".ico", "image/x-icon"), (".pdf", "application/pdf")].map fun e => (e.1.toList, e.2.toList)

/-- `Path(path).name`. -/
def pathName (path : List Char) : List Char :=
  ((path.splitOn '/').filter fun s => s ≠ [] ∧ s ≠ ['.']).getLast?.getD []

/-- `Path(path).suffix`: from the last point on, unless it is the first or the last character. -/
def suffix (path : List Char) : List Char :=
  let name := pathName path
  let tail := (name.reverse.takeWhile (· ≠ '.')).reverse
  if tail ≠ [] ∧ tail.length + 1 < name.length then '.' :: tail else []

def mimeOf (path : List Char) : List Char :=
  (mimeTypes.lookup ((suffix path).map Char.toLower)).getD "application/octet-stream".toList

def buildRequest (method path : List Char) : Bytes := encode (method ++ ' ' :: path ++ " BITE/1.0\r\n\r\n".toList)

/-- The request line; it is not in the text of the error here. -/
def parseLine (line : List Char) : Except Exn (List Char × List Char) :=
  match line.splitOn ' ' with
  | [method, target, version] =>
    let path := (target.splitOn '?').headD []
    if version ≠ "BITE/1.0".toList then .error (.valueError "BITE: malformed request line")
    else if target.head? ≠ some '/' then .error (.valueError "BITE: target must start with '/'")
    else if (path.splitOn '/').any (· = "..".toList) then .error (.valueError "BITE: path traversal")
    else .ok (upper method, path)
  | _ => .error (.valueError "BITE: malformed request line")

def parseRequest (data : Bytes) : Except Exn (List Char × List Char) :=
  let head := decodeReplace (data.take hdrMax)
  if (Heads.cutAt "\r\n\r\n".toList head).isNone then
    .error (.valueError "BITE: request without a header terminator")
  else parseLine ((Heads.splitLines '\r' '\n' head).headD [])

def ctypeLine : Option (List Char) → List Char
  | some c => "Content-Type: ".toList ++ c ++ "\r\n".toList
  | none => []

/-- The head that `build_response` puts together. -/
def responseHead (status : Nat) (ctype : Option (List Char)) (extraHeaders : List Char) (length : Nat) : List Char :=
  "BITE/1.0 ".toList ++ Nat.toDigits 10 status ++ ' ' :: reasons status ++ "\r\n".toList ++ ctypeLine ctype ++
    extraHeaders ++ "Content-Length: ".toList ++ Nat.toDigits 10 length ++ "\r\nServer: BITE/1.0\r\n\r\n".toList

def buildResponse (status : Nat) (body : Bytes) (ctype : Option (List Char)) (headOnly : Bool)
    (extraHeaders : List Char) : Except Exn Bytes :=
  let raw := encode (responseHead status ctype extraHeaders body.length) ++ if headOnly then [] else body
  if Btls.btlsMaxMsg < raw.length then .error (.valueError "BITE: response exceeds the 256KiB message cap")
  else .ok raw

/-- `headers[k] = v`. -/
def setHeader (headers : List (List Char × List Char)) (k v : List Char) : List (List Char × List Char) :=
  if headers.any (·.1 = k) then headers.map fun e => if e.1 = k then (k, v) else e else headers ++ [(k, v)]

/-- One line of the head: a key and a value around the first colon. -/
def addHeader (headers : List (List Char × List Char)) (line : List Char) : List (List Char × List Char) :=
  match line.dropWhile (· ≠ ':') with
  | [] => headers
  | _ :: v => setHeader headers ((strip (line.takeWhile (· ≠ ':'))).map Char.toLower) (strip v)

/-- What `parse_response` returns. -/
structure Response where
  status : Int
  headers : List (List Char × List Char)
  body : Bytes
  deriving DecidableEq

/-- The lines of the head read; the line is not in the text of the error here. -/
def parseHead (lines : List (List Char)) (body : Bytes) : Except Exn Response :=
  match (lines.headD []).splitOn ' ' with
  | version :: code :: _ =>
    if version ≠ "BITE/1.0".toList then .error (.valueError "BITE: malformed status line")
    else do
      let status ← int code
      return ⟨status, lines.tail.foldl addHeader [], body⟩
  | _ => .error (.valueError "BITE: malformed status line")

def parseResponse (data : Bytes) : Except Exn Response :=
  let (head, body) := (Heads.cutAt [13, 10, 13, 10] data).getD (data, [])
  parseHead (Heads.splitLines '\r' '\n' (decodeReplace head)) body

/-- What `pathlib` finds on the disk: the parts of the absolute path that a text resolves to,
whether a file has these parts, and what is in it. The disk may refuse to answer. -/
structure Disk where
  resolve : List Char → Except Exn (List (List Char))
  isFile : List (List Char) → Except Exn Bool
  readBytes : List (List Char) → Except Exn Bytes

variable (disk : Disk)

/-- The path below the root that a target is looked up at. -/
def relative (target : List Char) : List Char :=
  let rel := target.dropWhile (· = '/')
  let rel := if rel = [] then "index.html".toList else rel
  if rel.getLast? = some '/' then rel ++ "index.html".toList else rel

def resolveDocument (root target : List Char) : Except Exn (List (List Char)) := do
  let path ← disk.resolve (root ++ '/' :: relative target)
  let rootAbs ← disk.resolve root
  if ¬ rootAbs <+: path then throw (.valueError "BITE: path escapes the document root")
  let found ← disk.isFile path
  if found then return path else throw .fileNotFoundError

/-- `str` of an absolute path. -/
def pathText (parts : List (List Char)) : List Char := '/' :: ['/'].intercalate parts

def serve (root method target : List Char) : Except Exn Bytes :=
  let method := upper method
  if method ∉ readVerbs then buildResponse 405 [] none false "Allow: BITE, GET, HEAD\r\n".toList
  else
    let headOnly : Bool := method = "HEAD".toList
    match resolveDocument disk root target with
    | .error (.valueError _) => buildResponse 400 [] (some "text/plain".toList) headOnly []
    | .error .fileNotFoundError => buildResponse 404 [] (some "text/plain".toList) headOnly []
    | .error e => .error e
    | .ok path => do
      let body ← disk.readBytes path
      if Btls.btlsMaxMsg < body.length + hdrMax then buildResponse 500 [] (some "text/plain".toList) headOnly []
      else buildResponse 200 body (some (mimeOf (pathText path))) headOnly []

/-- What `serve_one` sends for a request message. -/
def respond (root : List Char) (msg : Bytes) : Except Exn Bytes :=
  match (do
    let (method, target) ← parseRequest msg
    serve disk root method target) with
  | .error (.valueError _) => buildResponse 400 [] (some "text/plain".toList) false []
  | r => r

end Py
