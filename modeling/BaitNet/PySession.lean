import BaitNet.PyWire

/-!
# The Python implementation: the session

`icsp/session.py`: `client_handshake`, `server_accept` and `data_send` of `Assoc`. The
two blocking calls are machines that wait in `_recv_payload`, as their C counterparts
are modelled; the receiving half of the data path is left out.
-/
namespace Py

open Wire

def cookieLen : Nat := 48
def cookieTtl : Nat := 300
def initIdLen : Nat := 32
def initPreSig : Nat := 1 + 4 + 32 + 8 + initIdLen

inductive St where
  | closed | cookieWait | established | shutdown
  deriving DecidableEq, Repr

structure Stream where
  sendSeq : Nat
  recvSeq : Nat
  deriving DecidableEq

/-- An entry of `sendq`. -/
structure SendItem where
  tsn : Nat
  stream : Nat
  seq : Nat
  chunk : Bytes
  sentAt : Nat
  acked : Bool
  deriving DecidableEq

/-- The fields of `Assoc`; `mac` is that of its transport and a dictionary is a list of
pairs. -/
structure Assoc where
  mac : Bytes
  seed : Bytes
  srcAddr : Nat
  srcPort : Nat
  dstAddr : Nat
  dstPort : Nat
  streamsIn : Nat
  streamsOut : Nat
  state : St
  assocId : Nat
  peerId : Bytes
  peerEph : Bytes
  ephPriv : Bytes
  ephPub : Bytes
  sendKey : Bytes
  recvKey : Bytes
  peerMac : Option Bytes
  lastRx : Nat
  lastInitTs : Nat
  streams : List (Nat × Stream)
  sendq : List SendItem
  rcvbuf : List (Nat × List (Nat × Bytes))
  cumTsn : Nat
  rwTsn : Nat
  rwMask : Nat
  nextTsn : Nat
  cookieSecret : Bytes
  cookieTs : Nat
  deriving DecidableEq

/-- An association as its constructor leaves it. -/
def Assoc.new (mac seed : Bytes) (srcAddr srcPort dstAddr dstPort streamsIn streamsOut : Nat) : Assoc where
  mac := mac
  seed := seed
  srcAddr := srcAddr
  srcPort := srcPort
  dstAddr := dstAddr
  dstPort := dstPort
  streamsIn := streamsIn
  streamsOut := streamsOut
  state := .closed
  assocId := 0
  peerId := []
  peerEph := []
  ephPriv := []
  ephPub := []
  sendKey := []
  recvKey := []
  peerMac := none
  lastRx := 0
  lastInitTs := 0
  streams := []
  sendq := []
  rcvbuf := []
  cumTsn := 0
  rwTsn := 0
  rwMask := 0
  nextTsn := 0
  cookieSecret := []
  cookieTs := 0

/-- What a call reads from outside: `int(time.time())`, `time.monotonic()` in
nanoseconds, the process id and what `os.urandom` returns. -/
structure Io where
  time : Nat
  monotonic : Nat
  pid : Nat
  ephRnd : Arr 32
  assocRnd : Arr 4
  tsnRnd : Arr 4
  secretRnd : Arr 32

variable (nb : PyNaCl)

def dataNonce (assocId tsn : Nat) : Except Exn Bytes := do
  let a ← toBytes assocId 4
  let t ← toBytes tsn 4
  return (nb.sha512 (a ++ t)).val.take 24

/-- `(send_key, recv_key)`. -/
def deriveKeys (shared : Bytes) (initiator : Bool) : Bytes × Bytes :=
  let prk := hmacSha512 nb (ascii "icsp-v1") shared
  let mine := kdf nb prk (ascii "icsp-send")
  let theirs := kdf nb prk (ascii "icsp-recv")
  if initiator then (mine, theirs) else (theirs, mine)

/-- `_reset_data_plane`. -/
def resetDataPlane (io : Io) (a : Assoc) : Assoc :=
  { a with
    streams := [], sendq := [], rcvbuf := [], cumTsn := 0, rwTsn := 0, rwMask := 0,
    nextTsn := fromBytes io.tsnRnd.val }

/-- `_send_chunk`: the frame that goes to the transport. -/
def sendChunk (a : Assoc) (chunk : Bytes) : Except Exn Bytes := do
  let pkt ← buildPkt a.srcPort a.dstPort a.assocId chunk
  buildFrame (a.peerMac.getD bcastMac) a.mac a.srcAddr a.dstAddr pkt a.srcPort a.dstPort

/-- One round of the loop in `_recv_payload`: `none` goes round again. -/
def recvPayload (io : Io) (a : Assoc) (raw : Bytes) : Assoc × Option Bytes :=
  match parseFrame raw with
  | .error _ => (a, none)
  | .ok frame =>
    let p := frame.payload
    let ownControl := frame.ethSrc = a.mac ∧ (p.length < 12 + icspChunkHdr ∨
      (fromBytes (cut p 0 2) = a.srcPort ∧ byteAt p 12 ∉ [chunkInit, chunkInitAck, chunkCookieEcho,
        chunkCookieAck, chunkData]))
    if frame.header.nextHeader ≠ nextStream then (a, none)
    else if ownControl then (a, none)
    else if checkPkt p = false then (a, none)
    else
      ({ a with
          dstAddr := frame.header.source
          peerMac := if frame.ethSrc ≠ a.mac then some frame.ethSrc else a.peerMac
          lastRx := io.monotonic }, some p)

/-- What a wait in `_recv_payload` is told: a raw frame, or that the transport has none;
`expired` says that the caller's own deadline has passed as well. -/
inductive Rx where
  | silence (expired : Bool)
  | frame (raw : Bytes)

/-- `_build_init`: a fresh ephemeral and timestamp. -/
def buildInit (io : Io) (a : Assoc) : Except Exn (Assoc × Bytes) := do
  let ephPub ← x25519Base nb io.ephRnd.val
  let a := { a with ephPriv := io.ephRnd.val, ephPub }
  let streamsIn ← toBytes a.streamsIn 2
  let streamsOut ← toBytes a.streamsOut 2
  let ts ← toBytes io.time 8
  let pub ← seedToPub nb a.seed
  let body := [icspVersion] ++ streamsIn ++ streamsOut ++ a.ephPub ++ ts ++ pub
  let sig ← sign nb a.seed body
  let signed := body ++ sig
  let key ← keyFor nb a.dstAddr
  let tag ← mac1Compute key signed
  let chunk ← chunkPut chunkInit (signed ++ tag)
  return (a, chunk)

/-- Where `client_handshake` waits: how many further rounds its `for` loop has, and the
chunk to send again. -/
inductive ClientPhase where
  | waitInitAck (left : Nat) (init : Bytes)
  | waitCookieAck (left : Nat) (echo : Bytes)
  | returned
  | raised (e : Exn)

structure ClientCall where
  assoc : Assoc
  phase : ClientPhase

/-- The top of the outer loop, with `left` rounds to go. -/
def nextInit (a : Assoc) (left : Nat) (init : Bytes) : ClientCall × List Bytes :=
  match left with
  | 0 => (⟨a, .raised (.timeoutError "ICSP: no INIT-ACK")⟩, [])
  | left + 1 =>
    match sendChunk a init with
    | .error e => (⟨a, .raised e⟩, [])
    | .ok frame => (⟨a, .waitInitAck left init⟩, [frame])

/-- The top of the inner loop. -/
def nextCookieAck (a : Assoc) (left : Nat) (echo : Bytes) : ClientCall :=
  match left with
  | 0 => ⟨a, .raised (.timeoutError "ICSP: no COOKIE-ACK")⟩
  | left + 1 => ⟨a, .waitCookieAck left echo⟩

/-- `client_handshake(attempts)` up to its first wait. -/
def clientStart (io : Io) (attempts : Nat) (a : Assoc) : ClientCall × List Bytes :=
  let a := if a.srcPort = 0 then { a with srcPort := 50000 + io.pid % 1000 } else a
  let a := resetDataPlane io { a with state := .cookieWait }
  let a := { a with assocId := fromBytes io.assocRnd.val }
  match buildInit nb io a with
  | .error e => (⟨a, .raised e⟩, [])
  | .ok (a, init) => nextInit a attempts init

/-- What follows a good INIT-ACK: the keys and the COOKIE-ECHO. -/
def takeInitAck (a : Assoc) (body : Bytes) : Except Exn (Assoc × Bytes) := do
  let peerEph := cut body 5 37
  let peerId := cut body 37 69
  if verify nb peerId (cut body 69 133) (body.take 69) = false then
    throw (.valueError "ICSP: INIT-ACK signature is not valid")
  let shared ← x25519 nb a.ephPriv peerEph
  let (sendKey, recvKey) := deriveKeys nb shared true
  let cookie := cut body 133 181
  let sig ← sign nb a.seed cookie
  let echo ← chunkPut chunkCookieEcho (cookie ++ sig)
  return ({ a with peerEph, peerId, sendKey, recvKey }, echo)

def clientStep (io : Io) (attempts : Nat) (call : ClientCall) (rx : Rx) : ClientCall × List Bytes :=
  match call.phase with
  | .returned | .raised _ => (call, [])
  | .waitInitAck left init =>
    match rx with
    | .silence _ =>
      match buildInit nb io call.assoc with
      | .error e => (⟨call.assoc, .raised e⟩, [])
      | .ok (a, init) => nextInit a left init
    | .frame raw =>
      match recvPayload io call.assoc raw with
      | (a, none) => (⟨a, call.phase⟩, [])
      | (a, some payload) =>
        let body := payload.drop (12 + icspChunkHdr)
        match index payload 12 with
        | .error e => (⟨a, .raised e⟩, [])
        | .ok ctype =>
          if ctype ≠ chunkInitAck ∨ body.length < 181 then nextInit a left init
          else if byteAt body 0 ≠ icspVersion then nextInit a left init
          else
            match takeInitAck nb a body with
            | .error e => (⟨a, .raised e⟩, [])
            | .ok (a, echo) =>
              match sendChunk a echo with
              | .error e => (⟨a, .raised e⟩, [])
              | .ok frame => (nextCookieAck a attempts echo, [frame])
  | .waitCookieAck left echo =>
    match rx with
    | .silence _ =>
      match sendChunk call.assoc echo with
      | .error e => (⟨call.assoc, .raised e⟩, [])
      | .ok frame => (nextCookieAck call.assoc left echo, [frame])
    | .frame raw =>
      match recvPayload io call.assoc raw with
      | (a, none) => (⟨a, call.phase⟩, [])
      | (a, some payload) =>
        match index payload 12 with
        | .error e => (⟨a, .raised e⟩, [])
        | .ok ctype =>
          if ctype = chunkCookieAck then
            (⟨resetDataPlane io { a with state := .established }, .returned⟩, [])
          else (nextCookieAck a left echo, [])

/-- Seconds of the cookie's lifetime in nanoseconds. -/
def cookieTtlNs : Nat := cookieTtl * 10 ^ 9

/-- The secret of `_cookie_make`, drawn again when it is missing or too old. -/
def cookieRefresh (io : Io) (a : Assoc) : Assoc :=
  if a.cookieSecret = [] ∨ cookieTtlNs < io.monotonic - a.cookieTs then
    { a with cookieSecret := io.secretRnd.val, cookieTs := io.monotonic }
  else a

/-- `_cookie_make`. -/
def cookieMake (io : Io) (a : Assoc) : Except Exn (Assoc × Bytes) := do
  let a := cookieRefresh io a
  let streamsIn ← toBytes a.streamsIn 2
  let streamsOut ← toBytes a.streamsOut 2
  let buf := a.peerId ++ a.peerEph ++ streamsIn ++ streamsOut
  return (a, (hmacSha512 nb (nb.sha512 a.cookieSecret).val buf).take cookieLen)

/-- `_answer_init` up to its wait: the association, the frame of the INIT-ACK and the
cookie in it. -/
def answerInit (io : Io) (a : Assoc) : Except Exn (Assoc × Bytes × Bytes) := do
  let ephPub ← x25519Base nb io.ephRnd.val
  let shared ← x25519 nb io.ephRnd.val a.peerEph
  let (sendKey, recvKey) := deriveKeys nb shared false
  let a := { a with ephPriv := io.ephRnd.val, ephPub, sendKey, recvKey }
  let streamsIn ← toBytes a.streamsIn 2
  let streamsOut ← toBytes a.streamsOut 2
  let pub ← seedToPub nb a.seed
  let d := [icspVersion] ++ streamsIn ++ streamsOut ++ a.ephPub ++ pub
  let sig ← sign nb a.seed d
  let (a, cookie) ← cookieMake nb io a
  let chunk ← chunkPut chunkInitAck (d ++ sig ++ cookie)
  let frame ← sendChunk a chunk
  return (a, frame, cookie)

/-- Where `server_accept` waits, after the INIT-ACK with its cookie. -/
inductive ServerPhase where
  | waitInit
  | waitCookie (cookie : Bytes)
  | returned
  | raised (e : Exn)

structure ServerCall where
  assoc : Assoc
  phase : ServerPhase

def serverStart (a : Assoc) : ServerCall × List Bytes := (⟨a, .waitInit⟩, [])

/-- What an INIT leaves in the association before its signature is looked at. -/
def noteInit (a : Assoc) (payload : Bytes) : Assoc :=
  { a with
    lastInitTs := fromBytes (cut (payload.drop (12 + icspChunkHdr)) 37 45)
    assocId := fromBytes (cut payload 6 10) }

/-- The checks of an INIT in `server_accept`: the association after it, and whether
`_answer_init` is next. -/
def checkInit (a : Assoc) (peers : List Bytes) (payload : Bytes) : Except Exn (Assoc × Bool) := do
  let ctype ← index payload 12
  let body := payload.drop (12 + icspChunkHdr)
  if ctype ≠ chunkInit then return (a, false)
  if body.length < initPreSig + 64 + mac1Len ∨ byteAt body 0 ≠ icspVersion then return (a, false)
  let signed := body.take (initPreSig + 64)
  let tag := cut body (initPreSig + 64) (initPreSig + 64 + mac1Len)
  let key ← keyFor nb a.srcAddr
  let tagged ← mac1Verify key signed tag
  if tagged = false then return (a, false)
  if fromBytes (cut body 37 45) ≤ a.lastInitTs then return (a, false)
  let a := noteInit a payload
  let peerEph := cut body 5 37
  let peerId := cut body 45 77
  if verify nb peerId (cut body 77 141) (body.take 77) = false then return (a, false)
  if peers ≠ [] ∧ peerId ∉ peers then return (a, false)
  return ({ a with peerEph, peerId }, true)

def serverStep (io : Io) (peers : List Bytes) (call : ServerCall) (rx : Rx) : ServerCall × List Bytes :=
  match call.phase with
  | .returned | .raised _ => (call, [])
  | .waitInit =>
    match rx with
    | .silence expired =>
      if expired then (⟨call.assoc, .raised (.timeoutError "ICSP: no INIT")⟩, []) else (call, [])
    | .frame raw =>
      match recvPayload io call.assoc raw with
      | (a, none) => (⟨a, .waitInit⟩, [])
      | (a, some payload) =>
        match checkInit nb a peers payload with
        | .error e => (⟨a, .raised e⟩, [])
        | .ok (a, false) => (⟨a, .waitInit⟩, [])
        | .ok (a, true) =>
          match answerInit nb io a with
          | .error e => (⟨a, .raised e⟩, [])
          | .ok (a, frame, cookie) => (⟨a, .waitCookie cookie⟩, [frame])
  | .waitCookie cookie =>
    match rx with
    | .silence expired =>
      if expired then (⟨call.assoc, .raised (.timeoutError "ICSP: no COOKIE-ECHO")⟩, []) else (call, [])
    | .frame raw =>
      match recvPayload io call.assoc raw with
      | (a, none) => (⟨a, call.phase⟩, [])
      | (a, some payload) =>
        let body := payload.drop (12 + icspChunkHdr)
        match index payload 12 with
        | .error e => (⟨a, .raised e⟩, [])
        | .ok ctype =>
          if ctype ≠ chunkCookieEcho ∨ body.length < cookieLen + 64 then (⟨a, call.phase⟩, [])
          else if body.take cookieLen ≠ cookie ∨
              verify nb a.peerId (cut body cookieLen (cookieLen + 64)) (body.take cookieLen) = false then
            (⟨a, call.phase⟩, [])
          else
            match chunkPut chunkCookieAck [] >>= sendChunk a with
            | .error e => (⟨a, .raised e⟩, [])
            | .ok frame =>
              (⟨resetDataPlane io { a with state := .established }, .returned⟩, [frame])

/-- `_stream(sid)`: the dictionary with an entry for `sid`, and that entry. -/
def stream (streams : List (Nat × Stream)) (sid : Nat) : List (Nat × Stream) × Stream :=
  match streams.lookup sid with
  | some s => (streams, s)
  | none => (streams ++ [(sid, ⟨0, 0⟩)], ⟨0, 0⟩)

def bumpSeq (sid : Nat) (streams : List (Nat × Stream)) : List (Nat × Stream) :=
  streams.map fun e => if e.1 = sid then (e.1, { e.2 with sendSeq := (e.2.sendSeq + 1) &&& 0xFFFF }) else e

/-- The DATA chunk of `data_send`. -/
def dataChunk (a : Assoc) (tsn sid seq : Nat) (data : Bytes) : Except Exn Bytes := do
  let t ← toBytes tsn 4
  let s ← toBytes sid 2
  let q ← toBytes seq 2
  let clear := t ++ s ++ q ++ data
  let nonce ← dataNonce nb a.assocId tsn
  let box ← sealBlob nb a.sendKey nonce clear
  chunkPut chunkData (clear.take 8 ++ box)

/-- `data_send`: the association, the frames on the transport and the TSN. -/
def dataSend (io : Io) (a : Assoc) (sid : Nat) (data : Bytes) :
    Assoc × List Bytes × Except Exn Nat :=
  if a.sendKey = [] then (a, [], .error (.runtimeError "association is not established"))
  else if icspMaxPayload - 56 < data.length then
    (a, [], .error (.valueError "ICSP message too large (max 1344 bytes)"))
  else
    let (streams, s) := stream a.streams sid
    let tsn := a.nextTsn
    let a := { a with streams, nextTsn := (tsn + 1) &&& 0xFFFFFFFF }
    match dataChunk nb a tsn sid s.sendSeq data with
    | .error e => (a, [], .error e)
    | .ok chunk =>
      match sendChunk a chunk with
      | .error e => (a, [], .error e)
      | .ok frame =>
        ({ a with
            sendq := a.sendq ++ [⟨tsn, sid, s.sendSeq, chunk, io.monotonic, false⟩]
            streams := bumpSeq sid a.streams }, [frame], .ok tsn)

end Py
