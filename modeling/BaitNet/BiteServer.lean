import BaitNet.Btls
import BaitNet.Heads
import BaitNet.Text

/-!
# The BITE server

`bite.c`: what a request message asks for and the message that answers it. The disk is a
parameter, from the name that `fopen` is given to what opens. What is printed is left out.
-/
namespace Bite

open Wire Text

def bitePort : UInt16 := 8080
def biteHdrMax : Nat := 2048

/-- `"\r\n\r\n"` -/
def emptyLine : Bytes := [13, 10, 13, 10]

/-- What a reader of C strings sees of a buffer with a NUL behind it. -/
def cstring (b : Bytes) : Bytes := b.takeWhile (· ≠ 0)

structure Breq where
  method : Bytes
  path : Bytes
  isHead : Bool
  deriving DecidableEq

def hexval (c : UInt8) : Option UInt8 :=
  if 48 ≤ c ∧ c ≤ 57 then some (c - 48)
  else if 97 ≤ c ∧ c ≤ 102 then some (c - 97 + 10)
  else if 65 ≤ c ∧ c ≤ 70 then some (c - 65 + 10)
  else none

/-- The loop of `req_target`, which stops after `room` characters or at a question mark. -/
def decodeTarget : Nat → Bytes → Option Bytes
  | 0, _ => some []
  | _ + 1, [] => some []
  | room + 1, ch :: rest =>
    if ch = 63 then some []
    else if ch = 37 ∧ 2 ≤ rest.length then
      match hexval (byteAt rest 0), hexval (byteAt rest 1) with
      | some hi, some lo =>
        let ch := hi <<< 4 ||| lo
        if ch = 47 ∨ ch = 0 then none else (decodeTarget room (rest.drop 2)).map (ch :: ·)
      | _, _ => none
    else (decodeTarget room rest).map (ch :: ·)

/-- The loop over `strstr(p, "..")`, which comes by every two dots; `before` is in front of `p`. -/
def dotdot : UInt8 → Bytes → Bool
  | before, a :: b :: r =>
    (a = 46 ∧ b = 46 ∧ (before = 47 ∨ before = 0) ∧ (r.head?.getD 0 = 47 ∨ r.head?.getD 0 = 0)) ||
      dotdot a (b :: r)
  | _, _ => false

def reqTarget (tgt : Bytes) (outsz : Nat) : Option Bytes := do
  let out ← decodeTarget (outsz - 1) tgt
  if out.head? ≠ some 47 then none
  else if dotdot 47 (cstring out) then none
  else some (cstring out)

/-- The target in what follows the first blank of the line: up to the next one, or to the CR. -/
def lineTarget (behind : Bytes) : Bytes :=
  match splitFirst 32 behind with
  | some (target, _) => target
  | none => behind.dropLast

def reqParse (m : Bytes) : Option Breq :=
  let m := m.take biteHdrMax
  match splitFirst 10 m with
  | none => none
  | some (line, _) =>
    match splitFirst 32 line with
    | none => none
    | some (method, behind) =>
      if method = [] ∨ 8 ≤ method.length then none
      else if lineTarget behind = [] then none
      else
        match reqTarget (lineTarget behind) 512 with
        | none => none
        | some path =>
          if (Heads.cutAt emptyLine m).isSome then
            some ⟨cstring method, path, cstring method = ascii "HEAD"⟩
          else none

def octetStream : Bytes := ascii "application/octet-stream"

/-- The comparisons of `mime_of`, in their order. -/
def mimeTypes : List (Bytes × Bytes) :=
  [(ascii "html", ascii "text/html"), (ascii "htm", ascii "text/html"), (ascii "css", ascii "text/css"),
    (ascii "js", ascii "application/javascript"), (ascii "json", ascii "application/json"),
    (ascii "txt", ascii "text/plain"), (ascii "md", ascii "text/plain"), (ascii "png", ascii "image/png"),
    (ascii "jpg", ascii "image/jpeg"), (ascii "jpeg", ascii "image/jpeg"), (ascii "gif", ascii "image/gif"),
    (ascii "svg", ascii "image/svg+xml"), (ascii "ico", ascii "image/x-icon"), (ascii "pdf", ascii "application/pdf")]

def mimeOf (path : Bytes) : Bytes :=
  match splitLast 46 path with
  | none => octetStream
  | some (_, dot) => (mimeTypes.lookup dot).getD octetStream

/-- The name that `open_doc` opens. -/
def docName (root path : Bytes) : Bytes :=
  (root ++ if path = ascii "/" then ascii "/index.html" else path).take 1023

/-- What `fopen` opens, a file or something else: where `fseek` and `ftell` find the end, if they
do, and the bytes that `fread` gets from the front. -/
structure Stream where
  size : Option Nat
  bytes : Bytes

/-- The size of the document, and what can be read of it. -/
def openDoc (fs : Bytes → Option Stream) (root path : Bytes) : Option (Nat × Bytes) :=
  (fs (docName root path)).bind fun f => f.size.map (·, f.bytes)

def resp405 : Bytes :=
  ascii "BITE/1.0 405 Method Not Allowed\r\nAllow: BITE, GET, HEAD\r\nContent-Length: 0\r\nServer: BITE/1.0\r\n\r\n"

def resp404 : Bytes :=
  ascii "BITE/1.0 404 Not Found\r\nContent-Type: text/plain\r\nContent-Length: 0\r\nServer: BITE/1.0\r\n\r\n"

def resp500 : Bytes :=
  ascii "BITE/1.0 500 Internal Error\r\nContent-Type: text/plain\r\nContent-Length: 0\r\nServer: BITE/1.0\r\n\r\n"

def resp400 : Bytes :=
  ascii "BITE/1.0 400 Bad Request\r\nContent-Type: text/plain\r\nContent-Length: 0\r\nServer: BITE/1.0\r\n\r\n"

/-- The head of a document of `fsize` bytes. -/
def docHead (ctype : Bytes) (fsize : Nat) : Bytes :=
  ascii "BITE/1.0 200 OK\r\nContent-Type: " ++ ctype ++ ascii "\r\nContent-Length: " ++ decimal fsize ++
    ascii "\r\nServer: BITE/1.0\r\n\r\n"

def serve (fs : Bytes → Option Stream) (root : Bytes) (rq : Breq) : Option Bytes :=
  if rq.method ≠ ascii "BITE" ∧ rq.method ≠ ascii "GET" ∧ rq.method ≠ ascii "HEAD" then some resp405
  else
    match openDoc fs root rq.path with
    | none => some resp404
    | some (fsize, bytes) =>
      if btlsMaxMsg - biteHdrMax < fsize then some resp500
      else
        let head := docHead (mimeOf rq.path) fsize
        if biteHdrMax ≤ head.length then none
        else if rq.isHead then some head
        else
          let got := bytes.take (btlsMaxMsg - head.length)
          if got.length ≠ fsize then none else some (head ++ got)

/-- What `run_server` sends for a request message; `none` ends the session. -/
def respond (fs : Bytes → Option Stream) (root m : Bytes) : Option Bytes :=
  match reqParse m with
  | none => some resp400
  | some rq => serve fs root rq

end Bite
