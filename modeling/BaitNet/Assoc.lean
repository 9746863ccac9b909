import BaitNet.Crypto
import BaitNet.Link

/-!
# The ICSP association

`icsp.h` and `icsp.c`: the association record, chunk plumbing, the packet
builder and checker, the shared sender and the key derivation. Every call takes
what the outside world supplies to it (clock, randomness, whether the network
takes a frame) as an `Io` and returns its observable effects as a list of acts,
so that the order of sealing, signing, key installation and transmission is
part of the model.
-/
namespace Icsp

open Wire Link Crypto

def icspVersion : UInt8 := 1
def icspHeaderLen : Nat := 12
def icspChunkHdr : Nat := 4
def icspMaxPayload : Nat := 1400

def chunkData : UInt8 := 0
def chunkInit : UInt8 := 1
def chunkInitAck : UInt8 := 2
def chunkCookieEcho : UInt8 := 3
def chunkCookieAck : UInt8 := 4
def chunkSack : UInt8 := 5
def chunkHeartbeat : UInt8 := 6
def chunkHeartbeatAck : UInt8 := 7
def chunkShutdown : UInt8 := 8
def chunkStreamReset : UInt8 := 9

inductive St where
  | closed | cookieWait | established | shutdown
  | rekeyWaitAck | rekeyWaitCookie | rekeyWaitCookieAck
  deriving DecidableEq, Repr

def icspMaxStreams : Nat := 8
def icspSendq : Nat := 16
def icspRcvq : Nat := 16

structure IcspStream where
  id : UInt16
  nextSendSeq : UInt16
  nextRecvSeq : UInt16
  deriving DecidableEq

/-- A `sendq` slot. `data` is the whole `data[ICSP_MAX_PAYLOAD]` array. -/
structure SendEntry where
  tsn : UInt32
  streamId : UInt16
  seq : UInt16
  data : Bytes
  len : UInt16
  acked : Bool
  sentAt : Nat
  deriving DecidableEq

/-- A slot as the `memset` of the last reset left it. -/
def SendEntry.zero : SendEntry := ⟨0, 0, 0, List.replicate icspMaxPayload 0, 0, false, 0⟩

/-- A `rcvq` slot; `data` holds its first `len` bytes, nothing reads the rest. -/
structure RcvEntry where
  tsn : UInt32
  streamId : UInt16
  seq : UInt16
  data : Bytes
  len : UInt16
  valid : Bool
  deriving DecidableEq

/-! `struct icsp_assoc` in the groups its operations treat alike. The slots of
`streams`, `sendq` and `rcvq` in use are lists, so `n_streams`, `n_sendq` and
`n_rcvq` are their lengths; slots beyond them are still zero. -/

/-- The fields that a completed handshake restarts. -/
structure DataPlane where
  streams : List IcspStream
  nextTsn : UInt32
  cumTsn : UInt32
  rwTsn : UInt32
  rwMask : UInt32
  sendq : List SendEntry
  rcvq : List RcvEntry
  deriving DecidableEq

/-- Identities, ephemerals and the directional data keys. -/
structure KeyState where
  idPub : Arr 32
  ephPub : Arr 32
  peerId : Arr 32
  peerEph : Arr 32
  ephPriv : Arr 32
  sk : Arr 64
  sendKey : Arr 32
  recvKey : Arr 32
  hasKey : Bool
  isInitiator : Bool
  keyTs : Nat
  lastInitTs : UInt64
  deriving DecidableEq

/-- The endpoint context and the timer configuration, which outlive an association. -/
structure Endpoint where
  srcMac : Arr 6
  dstAddr : UInt64
  srcAddr : UInt64
  tunnel : Bool
  hbIntervalS : Nat
  deadTimeoutS : Nat
  rekeyIntervalS : Nat
  announceS : Nat
  deriving DecidableEq

/-- What is known of the peer's link and when it was last used. -/
structure LinkState where
  peerMac : Arr 6
  hasPeerMac : Bool
  rcvTimeoutMs : Nat
  sackLossPct : Nat
  lastRx : Nat
  lastHb : Nat
  lastAnn : Nat
  deriving DecidableEq

structure IcspAssoc extends DataPlane, KeyState, Endpoint, LinkState where
  srcPort : UInt16
  dstPort : UInt16
  assocId : UInt32
  state : St
  streamsIn : UInt16
  streamsOut : UInt16
  deriving DecidableEq

def DataPlane.zero : DataPlane := ⟨[], 0, 0, 0, 0, [], []⟩

def KeyState.zero : KeyState :=
  ⟨.zero 32, .zero 32, .zero 32, .zero 32, .zero 32, .zero 64, .zero 32, .zero 32, false, false, 0, 0⟩

def Endpoint.zero : Endpoint := ⟨.zero 6, 0, 0, false, 0, 0, 0, 0⟩

def LinkState.zero : LinkState := ⟨.zero 6, false, 0, 0, 0, 0, 0⟩

/-- `memset(a, 0, sizeof(*a))`. -/
def IcspAssoc.zero : IcspAssoc :=
  ⟨.zero, .zero, .zero, .zero, 0, 0, 0, .closed, 0, 0⟩

/-- What one call reads from outside: `time(NULL)`, the millisecond clock of the
rate limiter, `getpid`, `rand`, the random bytes it draws, and whether the
network takes a frame. -/
structure Io where
  now : Nat
  nowMs : UInt32
  pid : Nat
  rand : Nat
  ephRnd : Arr 32
  assocRnd : Arr 4
  tsnRnd : Arr 4
  secretRnd : Arr 32
  netOk : Bytes → Bool

/-- The observable effects of a call, in the order in which they happen. -/
inductive Act where
  /-- a chunk was sent in a frame that the network took -/
  | tx (chunk frame : Bytes)
  /-- `ed25519_secretbox` under the association's `send_key` -/
  | seal (key : Arr 32) (nonce : Arr 24) (clear : Bytes)
  /-- `ed25519_sign` with the identity key -/
  | sign (msg : Bytes)
  /-- `icsp_derive_key` replaced both data keys -/
  | install (ephPriv peerEph sendKey recvKey : Arr 32)
  /-- a message went to the `on_data` callback -/
  | deliver (stream : UInt16) (data : Bytes)
  /-- a signed ND announce left for the gateway -/
  | announce (frame : Bytes)
  deriving DecidableEq

/-- The ICSP frames among a list of acts, oldest first. -/
def txFrames (acts : List Act) : List Bytes :=
  acts.filterMap fun
    | .tx _ frame => some frame
    | _ => none

/-- The chunks that those frames carry. -/
def txChunks (acts : List Act) : List Bytes :=
  acts.filterMap fun
    | .tx chunk _ => some chunk
    | _ => none

/-- Circumstances for runs on concrete input: a network that takes every frame. -/
def Io.quiet (now : Nat) : Io where
  now := now
  nowMs := .ofNat (1000 * now)
  pid := 1
  rand := 0
  ephRnd := .zero 32
  assocRnd := .zero 4
  tsnRnd := .zero 4
  secretRnd := .zero 32
  netOk := fun _ => true

def icspChunkPut (type : UInt8) (datalen : Nat) : Bytes :=
  [type, 0, .ofNat (datalen / 256), .ofNat datalen]

@[simp] theorem icspChunkPut_length (type : UInt8) (datalen : Nat) :
    (icspChunkPut type datalen).length = 4 := rfl

/-- Header and chunks with the CRC field holding `crc`. -/
def icspPkt (a : IcspAssoc) (crc : UInt16) (chunk : Bytes) : Bytes :=
  put16 a.srcPort ++ put16 a.dstPort ++ [icspVersion, 0] ++ put32 a.assocId ++ put16 crc ++ chunk

/-- `icsp_build_pkt`: `none` when the packet does not fit `outlen`. -/
def icspBuildPkt (a : IcspAssoc) (chunk : Bytes) (outlen : Nat) : Option Bytes :=
  if outlen < icspHeaderLen + chunk.length then none
  else some (icspPkt a (icspCrc32c (icspPkt a 0 chunk)).toUInt16 chunk)

/-- `icsp_check_pkt` on the first `len` bytes of the buffer. -/
def icspCheckPkt (pkt : Bytes) (len : Nat) : Bool :=
  if len < icspHeaderLen ∨ icspMaxPayload < len then false
  else
    let buf := slice pkt 0 len
    get16 buf 10 == (icspCrc32c (buf.take 10 ++ [0, 0] ++ buf.drop 12)).toUInt16

/-- One packet on the association's endpoint, unicast once the peer's MAC is
known. Nothing is sent when the packet does not fit or the network refuses it. -/
def icspSendPkt (io : Io) (a : IcspAssoc) (chunk : Bytes) : List Act × Bool :=
  match icspBuildPkt a chunk icspMaxPayload with
  | none => ([], false)
  | some pkt =>
    let frame := buildFrame (if a.hasPeerMac then a.peerMac else bcastMac) a.srcMac
      a.srcAddr a.dstAddr ipv69NextStream 64 0 0 pkt
    if io.netOk frame then ([.tx chunk frame], true) else ([], false)

/-- A received chunk: its header and the buffer from its data area on. `cd` runs
to the end of the buffer, as the source's pointer does. -/
structure Chunk where
  type : UInt8
  clen : Nat
  cd : Bytes

/-- The chunk loop shared by `icsp_data_handle` and `icsp_life_handle`: stops at
the first chunk that overruns what is left. Each round takes at least four bytes,
so `left` rounds are enough. -/
def chunkWalk : Nat → Bytes → Nat → List Chunk
  | 0, _, _ => []
  | fuel + 1, p, left =>
    if left < icspChunkHdr then []
    else
      let clen := (byteAt p 2).toNat * 256 + (byteAt p 3).toNat
      if left < icspChunkHdr + clen then []
      else ⟨byteAt p 0, clen, p.drop icspChunkHdr⟩ ::
        chunkWalk fuel (p.drop (icspChunkHdr + clen)) (left - (icspChunkHdr + clen))

/-- The chunks of a received ICSP payload of `plen` bytes. -/
def chunks (payload : Bytes) (plen : Nat) : List Chunk :=
  chunkWalk (plen - icspHeaderLen) (payload.drop icspHeaderLen) (plen - icspHeaderLen)

section Derive

variable (c : TweetNaCl)

/-- The directional key for one label: `HMAC(prk, label || 1)[0..31]`. -/
def kdfExpand (prk : Arr 64) (label : Bytes) : Arr 32 :=
  arr (ed25519HmacSha512 c (label ++ [1]) prk.val).val 0 32

/-- Both directional keys of a shared secret, the initiator's sending key first. -/
def kdf (shared : Arr 32) : Arr 32 × Arr 32 :=
  let prk := ed25519HmacSha512 c shared.val [105, 99, 115, 112, 45, 118, 49]
  (kdfExpand c prk [105, 99, 115, 112, 45, 115, 101, 110, 100],
    kdfExpand c prk [105, 99, 115, 112, 45, 114, 101, 99, 118])

/-- `(send_key, recv_key)` of one end; the responder swaps the two. -/
def sessionKeys (isInitiator : Bool) (shared : Arr 32) : Arr 32 × Arr 32 :=
  if isInitiator then kdf c shared else (kdf c shared).swap

def icspDeriveKey (io : Io) (a : IcspAssoc) (ephPriv : Arr 32) : IcspAssoc × List Act :=
  let keys := sessionKeys c a.isInitiator (c.scalarmult ephPriv a.peerEph)
  ({ a with sendKey := keys.1, recvKey := keys.2, hasKey := true, keyTs := io.now },
    [.install ephPriv a.peerEph keys.1 keys.2])

end Derive

@[simp] theorem icspPkt_length (a : IcspAssoc) (crc : UInt16) (chunk : Bytes) :
    (icspPkt a crc chunk).length = 12 + chunk.length := by
  simp [icspPkt]
  omega

theorem icspPkt_drop (a : IcspAssoc) (crc : UInt16) (chunk rest : Bytes) :
    (icspPkt a crc chunk ++ rest).drop icspHeaderLen = chunk ++ rest := by
  rw [icspPkt, List.append_assoc]
  exact List.drop_left' (by simp [icspHeaderLen])

theorem icspPkt_assocId (a : IcspAssoc) (crc : UInt16) (chunk rest : Bytes) :
    get32 (icspPkt a crc chunk ++ rest) 6 = a.assocId := by
  simp only [icspPkt, List.append_assoc]
  iterate 3 rw [get32_append_right _ _ _ (by simp)]
  simpa using get32_put32 a.assocId _

theorem icspPkt_ports (a : IcspAssoc) (crc : UInt16) (chunk rest : Bytes) :
    get16 (icspPkt a crc chunk ++ rest) 0 = a.srcPort ∧
      get16 (icspPkt a crc chunk ++ rest) 2 = a.dstPort := by
  simp only [icspPkt, List.append_assoc]
  refine ⟨get16_put16 _ _, ?_⟩
  rw [get16_append_right _ _ _ (by simp)]
  simpa using get16_put16 a.dstPort _

theorem icspPkt_crc (a : IcspAssoc) (crc : UInt16) (chunk : Bytes) :
    get16 (icspPkt a crc chunk) 10 = crc := by
  simp only [icspPkt, List.append_assoc]
  iterate 4 rw [get16_append_right _ _ _ (by simp)]
  simpa using get16_put16 crc _

theorem icspPkt_zeroCrc (a : IcspAssoc) (crc : UInt16) (chunk : Bytes) :
    (icspPkt a crc chunk).take 10 ++ [0, 0] ++ (icspPkt a crc chunk).drop 12 = icspPkt a 0 chunk := by
  have hd := icspPkt_drop a crc chunk []
  simp only [List.append_nil, icspHeaderLen] at hd
  rw [hd]
  simp only [icspPkt, List.append_assoc]
  rfl

/-- The checker accepts what the builder made, whatever stands behind it. -/
theorem icspCheckPkt_build (a : IcspAssoc) (chunk pkt rest : Bytes)
    (h : icspBuildPkt a chunk icspMaxPayload = some pkt) :
    icspCheckPkt (pkt ++ rest) pkt.length = true := by
  simp only [icspBuildPkt] at h
  split at h
  · cases h
  · rename_i hfit
    obtain rfl := Option.some.inj h
    have hlen := icspPkt_length a (icspCrc32c (icspPkt a 0 chunk)).toUInt16 chunk
    simp only [icspMaxPayload, icspHeaderLen] at hfit
    rw [icspCheckPkt, if_neg (by simp only [icspHeaderLen, icspMaxPayload]; omega)]
    simp only [slice_append_exact, icspPkt_crc, icspPkt_zeroCrc, beq_self_eq_true]

end Icsp
