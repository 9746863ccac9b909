import BaitNet.PySession

/-!
# The Python implementation: receiving

The rest of `icsp/session.py` that the data phase uses: `_handle_data`, `handle`, the SACK,
the heartbeat and `stream_reset`. What `handle` sends on the way is returned beside its
events; a raise keeps what it has sent and changed so far.
-/
namespace Py

open Wire

def chunkSack : UInt8 := 5
def chunkHeartbeat : UInt8 := 6
def chunkHeartbeatAck : UInt8 := 7
def chunkShutdown : UInt8 := 8
def chunkStreamReset : UInt8 := 9

/-- PyNaCl with `SecretBox(key).decrypt(box, nonce)`, where a `CryptoError` is `none`. -/
structure PyBox extends PyNaCl where
  decrypt : Arr 32 → Arr 24 → Bytes → Option Bytes

/-- `open_`. -/
def openBlob (nb : PyBox) (key nonce blob : Bytes) : Except Exn Bytes := do
  let key ← sized 32 "key is 32 bytes and nonce is 24" key
  let nonce ← sized 24 "key is 32 bytes and nonce is 24" nonce
  if blob.length ≤ 16 ∨ blob.take 16 ≠ List.replicate 16 0 then
    throw (.valueError "not a C secretbox blob")
  match nb.decrypt key nonce (blob.drop 16) with
  | some msg => return msg
  | none => throw (.valueError "secretbox: authentication failed")

def sendSack (a : Assoc) : Except Exn Bytes := do
  let cum ← toBytes a.cumTsn 4
  let chunk ← chunkPut chunkSack cum
  sendChunk a chunk

def sendHeartbeat (io : Io) (a : Assoc) (ack : Bool) : Except Exn Bytes := do
  let time ← toBytes io.time 4
  let chunk ← chunkPut (if ack then chunkHeartbeatAck else chunkHeartbeat) time
  sendChunk a chunk

/-- `stream_reset` with a `mode` that fits its byte. -/
def streamReset (a : Assoc) (sid : Nat) (mode : UInt8) : Except Exn Bytes := do
  let s ← toBytes sid 2
  let chunk ← chunkPut chunkStreamReset (s ++ [mode])
  sendChunk a chunk

/-- The sliding window of `_handle_data`: `none` drops the chunk. The mask is not cut to
32 bits. -/
def replayWindow (rwTsn rwMask tsn : Nat) : Option (Nat × Nat) :=
  if rwTsn < tsn then
    let shift := tsn - rwTsn
    some (tsn, if shift < 32 then (rwMask <<< shift) ||| 1 else 1)
  else if 32 ≤ rwTsn - tsn then none
  else if (rwMask >>> (rwTsn - tsn)) &&& 1 ≠ 0 then none
  else some (rwTsn, rwMask ||| 1 <<< (rwTsn - tsn))

/-- `rcvbuf.setdefault(sid, {}).setdefault(seq, data)`. -/
def buffer (rcvbuf : List (Nat × List (Nat × Bytes))) (sid seq : Nat) (data : Bytes) :
    List (Nat × List (Nat × Bytes)) :=
  match rcvbuf.lookup sid with
  | none => rcvbuf ++ [(sid, [(seq, data)])]
  | some buf =>
    let buf := if (buf.lookup seq).isSome then buf else buf ++ [(seq, data)]
    rcvbuf.map fun e => if e.1 = sid then (sid, buf) else e

/-- The `while nxt in buf` loop, which takes an entry out in each round: what follows in
order, the next expected number and what stays. -/
def popNext : Nat → Nat → List (Nat × Bytes) → List Bytes × Nat × List (Nat × Bytes)
  | 0, nxt, buf => ([], nxt, buf)
  | fuel + 1, nxt, buf =>
    match buf.lookup nxt with
    | none => ([], nxt, buf)
    | some data =>
      let (out, last, rest) := popNext fuel (nxt + 1) (buf.filter fun e => e.1 ≠ nxt)
      (data :: out, last, rest)

def setRecv (sid seq : Nat) (streams : List (Nat × Stream)) : List (Nat × Stream) :=
  streams.map fun e => if e.1 = sid then (e.1, { e.2 with recvSeq := seq }) else e

/-- The part of `_handle_data` behind the header comparison. -/
def acceptData (a : Assoc) (tsn sid seq : Nat) (data : Bytes) : Assoc × Option (Nat × Bytes) :=
  let (streams, s) := stream a.streams sid
  if seq ≠ s.recvSeq then ({ a with streams, rcvbuf := buffer a.rcvbuf sid seq data }, none)
  else
    let buf := (a.rcvbuf.lookup sid).getD []
    let (out, nxt, rest) := popNext buf.length (s.recvSeq + 1) buf
    ({ a with
        rcvbuf := a.rcvbuf.map fun e => if e.1 = sid then (sid, rest) else e
        streams := setRecv sid (nxt &&& 0xFFFF) streams
        cumTsn := max a.cumTsn tsn }, some (sid, data ++ out.flatten))

/-- `_handle_data`. -/
def handleData (nb : PyBox) (a : Assoc) (body : Bytes) : Assoc × Except Exn (Option (Nat × Bytes)) :=
  let tsn := fromBytes (body.take 4)
  let sid := fromBytes (cut body 4 6)
  let seq := fromBytes (cut body 6 8)
  let box := body.drop 8
  if box.length < 32 then (a, .ok none)
  else
    match replayWindow a.rwTsn a.rwMask tsn with
    | none => (a, .ok none)
    | some (rwTsn, rwMask) =>
      let a := { a with rwTsn, rwMask }
      match dataNonce nb.toPyNaCl a.assocId tsn >>= fun nonce => openBlob nb a.recvKey nonce box with
      | .error (.valueError _) => (a, .ok none)
      | .error e => (a, .error e)
      | .ok clear =>
        if fromBytes (clear.take 4) ≠ tsn ∨ fromBytes (cut clear 4 6) ≠ sid ∨ fromBytes (cut clear 6 8) ≠ seq then
          (a, .error (.valueError "ICSP: DATA header does not match the ciphertext"))
        else
          let (a, got) := acceptData a tsn sid seq (clear.drop 8)
          (a, .ok got)

inductive Event where
  | data (sid : Nat) (data : Bytes)
  | sack (cum : Nat)
  | heartbeat (body : Bytes)
  | closed
  | streamReset (sid : Nat)
  deriving DecidableEq

/-- The chunks that the loop of `handle` cuts out, type and body; it stops at the first one
that is not whole. -/
def chunkBodies : Nat → Bytes → List (UInt8 × Bytes)
  | 0, _ => []
  | fuel + 1, p =>
    if p.length < icspChunkHdr then []
    else
      let clen := fromBytes (cut p 2 4)
      let body := cut p icspChunkHdr (icspChunkHdr + clen)
      if body.length < clen then [] else (byteAt p 0, body) :: chunkBodies fuel (p.drop (icspChunkHdr + clen))

/-- One round of the loop. -/
def handleChunk (nb : PyBox) (io : Io) (a : Assoc) (ctype : UInt8) (body : Bytes) :
    Assoc × List Bytes × Except Exn (List Event) :=
  if ctype = chunkData then
    match handleData nb a body with
    | (a, .error e) => (a, [], .error e)
    | (a, .ok none) => (a, [], .ok [])
    | (a, .ok (some (sid, data))) => (a, [], .ok [.data sid data])
  else if ctype = chunkSack ∧ 4 ≤ body.length then
    let cum := fromBytes (body.take 4)
    ({ a with sendq := a.sendq.map fun e => if e.acked = false ∧ e.tsn ≤ cum then { e with acked := true } else e },
      [], .ok [.sack cum])
  else if ctype = chunkHeartbeat then
    match sendHeartbeat io a true with
    | .error e => (a, [], .error e)
    | .ok frame => (a, [frame], .ok [.heartbeat body])
  else if ctype = chunkShutdown then ({ a with state := .shutdown }, [], .ok [.closed])
  else if ctype = chunkStreamReset ∧ 3 ≤ body.length then
    let sid := fromBytes (cut body 0 2)
    ({ a with streams := setRecv sid 0 (stream a.streams sid).1 }, [], .ok [.streamReset sid])
  else (a, [], .ok [])

def handleChunks (nb : PyBox) (io : Io) :
    List (UInt8 × Bytes) → Assoc → Assoc × List Bytes × Except Exn (List Event)
  | [], a => (a, [], .ok [])
  | (ctype, body) :: chs, a =>
    match handleChunk nb io a ctype body with
    | (a, frames, .error e) => (a, frames, .error e)
    | (a, frames, .ok events) =>
      let (a, frames', rest) := handleChunks nb io chs a
      (a, frames ++ frames', rest.map (events ++ ·))

/-- `handle`: every payload with a DATA chunk is answered with a SACK. -/
def handle (nb : PyBox) (io : Io) (a : Assoc) (payload : Bytes) : Assoc × List Bytes × Except Exn (List Event) :=
  let chs := chunkBodies payload.length (payload.drop 12)
  match handleChunks nb io chs a with
  | (a, frames, .error e) => (a, frames, .error e)
  | (a, frames, .ok events) =>
    if (chs.any fun ch => ch.1 = chunkData) ∧ a.sendKey ≠ [] then
      match sendSack a with
      | .error e => (a, frames, .error e)
      | .ok frame => (a, frames ++ [frame], .ok events)
    else (a, frames, .ok events)

/-- `poll` when a frame arrives in time. -/
def poll (nb : PyBox) (io : Io) (a : Assoc) (raw : Bytes) : Assoc × List Bytes × Except Exn (List Event) :=
  match recvPayload io a raw with
  | (a, none) => (a, [], .ok [])
  | (a, some payload) => handle nb io a payload

def streamData : Nat := 1

/-- The loop of `recv_record` over the events of one `poll`: a record, or the end of the session. -/
def firstRecord : List Event → Option (Option Bytes)
  | [] => none
  | .data sid data :: events => if sid = streamData then some (some data) else firstRecord events
  | .closed :: _ => some none
  | .sack _ :: events => firstRecord events
  | .heartbeat _ :: events => firstRecord events
  | .streamReset _ :: events => firstRecord events

/-- `recv_record` on the frames that come in before the deadline, each with its circumstances; the
frames that it leaves come second. -/
def recvRecord (nb : PyBox) (a : Assoc) : List (Io × Bytes) → Assoc × List (Io × Bytes) × Except Exn (Option Bytes)
  | [] => (a, [], .ok none)
  | (io, raw) :: rest =>
    match poll nb io a raw with
    | (a, _, .error e) => (a, rest, .error e)
    | (a, _, .ok events) =>
      match firstRecord events with
      | some record => (a, rest, .ok record)
      | none => recvRecord nb a rest

end Py
