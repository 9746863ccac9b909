import BaitNet.Assoc
import BaitNet.Window

/-!
# The encrypted data path

`icsp_data.c`: streams, TSN and SACK, retransmission. A DATA chunk is
`[tsn 4][stream 2][seq 2][box]` where the box seals the same eight bytes and the
message under a nonce made of the association id and the TSN.
-/
namespace Icsp

open Wire Link Crypto

/-- `SHA-512(assoc_id_be || tsn_be)[0..23]`. -/
def dataNonce (c : TweetNaCl) (assocId tsn : UInt32) : Arr 24 :=
  arr (ed25519Sha512 c (put32 assocId ++ put32 tsn)).val 0 24

def findStream (a : IcspAssoc) (id : UInt16) : Option IcspStream :=
  a.streams.find? (fun s => s.id = id)

/-- The slot of stream `id`, taken from the free ones when it has none; `none`
when all slots are in use. -/
def getStream (a : IcspAssoc) (id : UInt16) : IcspAssoc × Option IcspStream :=
  match findStream a id with
  | some s => (a, some s)
  | none =>
    if icspMaxStreams ≤ a.streams.length then (a, none)
    else ({ a with streams := a.streams ++ [⟨id, 0, 0⟩] }, some ⟨id, 0, 0⟩)

/-- Update the slot `findStream` points to. -/
def updStream (id : UInt16) (f : IcspStream → IcspStream) : List IcspStream → List IcspStream
  | [] => []
  | s :: ss => if s.id = id then f s :: ss else s :: updStream id f ss

/-- The eight bytes that stand in the clear before the box and again inside it. -/
def dataHeader (tsn : UInt32) (streamId seq : UInt16) : Bytes :=
  put32 tsn ++ put16 streamId ++ put16 seq

def dataClear (tsn : UInt32) (streamId seq : UInt16) (msg : Bytes) : Bytes :=
  dataHeader tsn streamId seq ++ msg

/-- The DATA chunk around an `8 + len` byte plaintext. -/
def dataChunk (tsn : UInt32) (streamId seq : UInt16) (len : Nat) (box : Bytes) : Bytes :=
  icspChunkPut chunkData (4 + 2 + 2 + 32 + 8 + len) ++ (dataHeader tsn streamId seq ++ box)

/-- A TSN as the `int` the sender returns. -/
def tsnInt (tsn : UInt32) : Int := if tsn.toNat < 2 ^ 31 then tsn.toNat else tsn.toNat - 2 ^ 32

section

variable (c : TweetNaCl)

/-- Seal and send one DATA message; shared by the first transmission and the
retransmission. -/
def sealSend (io : Io) (a : IcspAssoc) (tsn : UInt32) (streamId seq : UInt16) (msg : Bytes) :
    List Act × Bool :=
  let nonce := dataNonce c a.assocId tsn
  let clear := dataClear tsn streamId seq msg
  let box := ed25519Secretbox c clear nonce a.sendKey
  let (acts, sent) := icspSendPkt io a (dataChunk tsn streamId seq msg.length box)
  (.seal a.sendKey nonce clear :: acts, sent)

/-- `icsp_data_send`. The queue entry takes every field but the message bytes: the
source writes `tsn`, `stream_id`, `seq`, `len`, `acked` and `sent_at` of the slot. -/
def icspDataSend (io : Io) (a : IcspAssoc) (streamId : UInt16) (data : Bytes) :
    IcspAssoc × List Act × Int :=
  if ¬ a.hasKey then (a, [], -1)
  else match getStream a streamId with
    | (a, none) => (a, [], -1)
    | (a, some s) =>
      if icspMaxPayload < data.length then (a, [], -1)
      else
        let tsn := a.nextTsn
        let entry : SendEntry := { SendEntry.zero with
          tsn, streamId, seq := s.nextSendSeq, len := .ofNat data.length, acked := false,
          sentAt := io.now }
        let a' := { a with
          nextTsn := tsn + 1
          sendq := if a.sendq.length < icspSendq then a.sendq ++ [entry] else a.sendq
          streams := updStream streamId (fun s => { s with nextSendSeq := s.nextSendSeq + 1 }) a.streams }
        let (acts, sent) := sealSend c io a tsn streamId s.nextSendSeq data
        (a', acts, if sent then tsnInt tsn else -1)

/-- Resend what is neither acked nor younger than `timeoutS`. -/
def retransmitLoop (io : Io) (a : IcspAssoc) (timeoutS : Int) :
    List SendEntry → List SendEntry × List Act × Nat
  | [] => ([], [], 0)
  | e :: q =>
    let (q', acts, resent) := retransmitLoop io a timeoutS q
    if e.acked ∨ (io.now : Int) - e.sentAt < timeoutS then (e :: q', acts, resent)
    else
      let (acts', sent) := sealSend c io a e.tsn e.streamId e.seq (slice e.data 0 e.len.toNat)
      if sent then ({ e with sentAt := io.now } :: q', acts' ++ acts, resent + 1)
      else (e :: q', acts' ++ acts, resent)

def icspDataRetransmit (io : Io) (a : IcspAssoc) (timeoutS : Int) : IcspAssoc × List Act × Nat :=
  let (q, acts, resent) := retransmitLoop c io a timeoutS a.sendq
  ({ a with sendq := q }, acts, resent)

end

def icspSackSend (io : Io) (a : IcspAssoc) : List Act × Bool :=
  icspSendPkt io a (icspChunkPut chunkSack 4 ++ put32 a.cumTsn)

def icspAllAcked (a : IcspAssoc) : Bool := a.sendq.all (·.acked)

/-- The replay window in `icsp_data_handle`: `none` drops the chunk, otherwise the
new `(rw_tsn, rw_mask)`. -/
def replayWindow (rwTsn rwMask tsn : UInt32) : Option (UInt32 × UInt32) :=
  if rwTsn < tsn then
    let shift := tsn - rwTsn
    some (tsn, if shift < 32 then rwMask <<< shift ||| 1 else 1)
  else if 32 ≤ rwTsn - tsn then none
  else if (rwMask >>> (rwTsn - tsn)) &&& 1 = 1 then none
  else some (rwTsn, rwMask ||| 1 <<< (rwTsn - tsn))

/-- The result of `icsp_data_handle`: its return value, the bytes copied to `out`
and the final `*outlen` and `*out_stream`. -/
structure DataRet where
  ret : Int
  out : Bytes
  outlen : Nat
  outStream : UInt16
  deriving DecidableEq

/-- `boxlen` of a DATA chunk; a chunk shorter than its header wraps around. -/
def boxLen (ch : Chunk) : Nat := sizeSub ch.clen 8

/-- The message length of a DATA chunk, the box without tag and inner header. -/
def msgLen (ch : Chunk) : Nat := sizeSub (boxLen ch) (32 + 8)

/-- `cum_tsn` after a DATA chunk with this TSN was accepted. -/
def cumAfter (a : IcspAssoc) (tsn : UInt32) : UInt32 := if a.cumTsn < tsn then tsn else a.cumTsn

section

variable (c : TweetNaCl)

/-- Length check and AEAD of a DATA chunk. -/
def openData (a : IcspAssoc) (ch : Chunk) : Option Bytes :=
  if boxLen ch < 32 ∨ icspMaxPayload + 32 + 8 < boxLen ch then none
  else ed25519SecretboxOpen c (ch.cd.drop 8) (boxLen ch - 32)
    (dataNonce c a.assocId (get32 ch.cd 0)) a.recvKey

/-- From the opened plaintext on: header comparison, ordered delivery, buffering.
An opened box of less than eight bytes leaves the source comparing uninitialised
stack bytes, and copying up to 65535 of them; they read as zero here. -/
def acceptData (a : IcspAssoc) (ch : Chunk) (clear : Bytes) (r : DataRet) :
    IcspAssoc × Option DataRet :=
  let tsn := get32 ch.cd 0
  let sid := get16 ch.cd 4
  let seq := get16 ch.cd 6
  if get32 clear 0 ≠ tsn ∨ get16 clear 4 ≠ sid ∨ get16 clear 6 ≠ seq then
    (a, some { r with ret := -1 })
  else
    let cum := cumAfter a tsn
    match getStream a sid with
    | (a, none) => ({ a with cumTsn := cum }, none)
    | (a, some s) =>
      if seq = s.nextRecvSeq then
        let m := if r.outlen < msgLen ch then r.outlen else msgLen ch
        ({ a with
            streams := updStream sid (fun s => { s with nextRecvSeq := s.nextRecvSeq + 1 }) a.streams
            cumTsn := cum },
          some ⟨m, slice clear 8 m, m, sid⟩)
      else
        let len := UInt16.ofNat (msgLen ch)
        let entry : RcvEntry := ⟨tsn, sid, seq, slice clear 8 len.toNat, len, true⟩
        ({ a with
            rcvq := if a.rcvq.length < icspRcvq then a.rcvq ++ [entry] else a.rcvq
            cumTsn := cum },
          none)

/-- One round of the chunk loop: `none` goes on to the next chunk. -/
def handleChunk (a : IcspAssoc) (ch : Chunk) (r : DataRet) : IcspAssoc × Option DataRet :=
  if ch.type = chunkData ∧ a.hasKey then
    match replayWindow a.rwTsn a.rwMask (get32 ch.cd 0) with
    | none => (a, none)
    | some (rwTsn, rwMask) =>
      let a := { a with rwTsn, rwMask }
      match openData c a ch with
      | none => (a, none)
      | some clear => acceptData a ch clear r
  else if ch.type = chunkSack then
    let cum := get32 ch.cd 0
    ({ a with sendq := a.sendq.map (fun e => if e.tsn ≤ cum then { e with acked := true } else e) },
      none)
  else (a, none)

def handleChunks (r : DataRet) : List Chunk → IcspAssoc → IcspAssoc × DataRet
  | [], a => (a, r)
  | ch :: chs, a =>
    match handleChunk c a ch r with
    | (a, none) => handleChunks r chs a
    | (a, some r) => (a, r)

/-- `icsp_data_handle` on a receive buffer of which `plen` bytes were received;
`outlen` and `outStream` are the caller's initial values. -/
def icspDataHandle (a : IcspAssoc) (payload : Bytes) (plen outlen : Nat) (outStream : UInt16) :
    IcspAssoc × DataRet :=
  if plen < icspHeaderLen then (a, ⟨-1, [], outlen, outStream⟩)
  else handleChunks c ⟨0, [], outlen, outStream⟩ (chunks payload plen) a

/-- The arguments of one call of `icsp_data_handle`. -/
structure RxCall where
  payload : Bytes
  plen : Nat
  outlen : Nat
  outStream : UInt16
  deriving DecidableEq

def handleCall (a : IcspAssoc) (p : RxCall) : IcspAssoc × DataRet :=
  icspDataHandle c a p.payload p.plen p.outlen p.outStream

end

/-- The call that a received frame leads to; `stale` is what the receive buffer
held behind it. -/
def rxFrame (frame stale : Bytes) (outlen : Nat) : RxCall :=
  ⟨framePayload (frame ++ stale), frame.length - frameHeaderLen, outlen, 0⟩

/-- The frames that one send put on the wire. -/
def sentFrames (c : TweetNaCl) (io : Io) (a : IcspAssoc) (streamId : UInt16) (data : Bytes) :
    List Bytes :=
  txFrames (icspDataSend c io a streamId data).2.1

end Icsp
