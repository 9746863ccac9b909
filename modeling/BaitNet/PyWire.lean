import BaitNet.Wire

/-!
# The Python implementation: crypto, checksum and framing

`lib/crypto.py`, `core/mac1.py`, `core/crc.py`, `core/header.py`, `core/frame.py`
and `icsp/framing.py`. A Python integer is a natural number that `to_bytes` may
find too large, a `bytes` value is a list, and a raise is an `Except` error with
the text the source gives it. PyNaCl is a parameter; Poly1305 is not, since
`crypto.py` computes it itself.
-/
namespace Py

open Wire

/-- The exceptions that the modelled code raises; `osError` stands for those subclasses of
`OSError` that it does not tell apart. -/
inductive Exn where
  | valueError (text : String)
  | runtimeError (text : String)
  | timeoutError (text : String)
  | indexError
  | overflowError
  | fileNotFoundError
  | osError
  deriving DecidableEq, Repr

/-! A statement after one that did not raise runs; a raise ends the block. -/

@[simp] theorem ok_bind (x : α) (f : α → Except Exn β) : (Except.ok x >>= f) = f x := rfl
@[simp] theorem error_bind (e : Exn) (f : α → Except Exn β) : (Except.error e >>= f) = .error e := rfl
@[simp] theorem pure_eq_ok (x : α) : (pure x : Except Exn α) = .ok x := rfl
@[simp] theorem throw_eq_error (e : Exn) : (throw e : Except Exn α) = .error e := rfl

def bigEndian (v : Nat) : Nat → Bytes
  | 0 => []
  | k + 1 => .ofNat (v / 256 ^ k) :: bigEndian v k

/-- `v.to_bytes(k, "big")`. -/
def toBytes (v k : Nat) : Except Exn Bytes :=
  if v < 256 ^ k then .ok (bigEndian v k) else .error .overflowError

/-- `int.from_bytes(b, "big")`. -/
def fromBytes (b : Bytes) : Nat := b.foldl (fun v x => v * 256 + x.toNat) 0

def littleEndian (v : Nat) : Nat → Bytes
  | 0 => []
  | k + 1 => .ofNat v :: littleEndian (v / 256) k

/-- `int.from_bytes(b, "little")`. -/
def fromBytesLittle : Bytes → Nat
  | [] => 0
  | x :: b => x.toNat + 256 * fromBytesLittle b

/-- `b[i:j]`. -/
def cut (b : Bytes) (i j : Nat) : Bytes := (b.take j).drop i

/-- `b[i]`. -/
def index (b : Bytes) (i : Nat) : Except Exn UInt8 :=
  match b[i]? with
  | some x => .ok x
  | none => .error .indexError

def poly : Nat := 0x82F63B78

def crcRound (crc : Nat) : Nat := if crc &&& 1 ≠ 0 then (crc >>> 1) ^^^ poly else crc >>> 1

/-- Entry `i` of `_table()`. -/
def table (i : Nat) : Nat := crcRound^[8] i

def crc32c (data : Bytes) : Nat :=
  data.foldl (fun crc byte => table ((crc ^^^ byte.toNat) &&& 0xFF) ^^^ (crc >>> 8)) 0xFFFFFFFF ^^^
    0xFFFFFFFF

/-- What the package takes from PyNaCl and `hashlib`. `encrypt` is the ciphertext of
`SecretBox(key).encrypt(msg, nonce)` without the nonce; libsodium's scalar
multiplication refuses an all-zero result. -/
structure PyNaCl where
  sha512 : Bytes → Arr 64
  verifyKey : Arr 32 → Arr 32
  sign : Arr 32 → Bytes → Arr 64
  verify : Arr 32 → Arr 64 → Bytes → Bool
  encrypt : Arr 32 → Arr 24 → Bytes → Bytes
  scalarmultBase : Arr 32 → Arr 32
  scalarmult : Arr 32 → Arr 32 → Option (Arr 32)

/-- The bytes as an array of `n`, or the `ValueError` of a length check. -/
def sized (n : Nat) (text : String) (b : Bytes) : Except Exn (Arr n) :=
  if h : b.length = n then .ok ⟨b, h⟩ else .error (.valueError text)

def p1305 : Nat := 2 ^ 130 - 5

/-- `msg[i:i + 16]` for each `i` of `range(0, len(msg), 16)`. -/
def blocks (msg : Bytes) : List Bytes :=
  (List.range ((msg.length + 15) / 16)).map fun i => cut msg (16 * i) (16 * i + 16)

def poly1305 (msg : Bytes) (key : Arr 32) : Bytes :=
  let r := fromBytesLittle (cut key.val 0 16) &&& 0x0FFFFFFC0FFFFFFC0FFFFFFC0FFFFFFF
  let s := fromBytesLittle (key.val.drop 16)
  let acc := (blocks msg).foldl (fun acc block => (acc + fromBytesLittle (block ++ [1])) * r % p1305) 0
  littleEndian ((acc + s) % 2 ^ 128) 16

section

variable (nb : PyNaCl)

def seedToPub (seed : Bytes) : Except Exn Bytes := do
  let seed ← sized 32 "seed must be 32 bytes" seed
  return (nb.verifyKey seed).val

def sign (seed msg : Bytes) : Except Exn Bytes := do
  let seed ← sized 32 "seed must be 32 bytes" seed
  return (nb.sign seed msg).val

def verify (pub sig msg : Bytes) : Bool :=
  if h : pub.length = 32 ∧ sig.length = 64 then nb.verify ⟨pub, h.1⟩ ⟨sig, h.2⟩ msg else false

/-- `seal`. The layout of the C wrapper: 16 zero bytes in front of the box. -/
def sealBlob (key nonce msg : Bytes) : Except Exn Bytes := do
  let key ← sized 32 "key is 32 bytes and nonce is 24" key
  let nonce ← sized 24 "key is 32 bytes and nonce is 24" nonce
  return List.replicate 16 0 ++ nb.encrypt key nonce msg

def x25519Base (priv : Bytes) : Except Exn Bytes := do
  let priv ← sized 32 "x25519 private key is 32 bytes" priv
  return (nb.scalarmultBase priv).val

def x25519 (priv peerPub : Bytes) : Except Exn Bytes := do
  let priv ← sized 32 "x25519 keys are 32 bytes" priv
  let peerPub ← sized 32 "x25519 keys are 32 bytes" peerPub
  match nb.scalarmult priv peerPub with
  | some shared => return shared.val
  | none => throw (.runtimeError "Unexpected library error")

/-- `hmac.new(key, msg, sha512).digest()`: a key longer than the 128-byte block is
hashed first, a shorter one is filled with zeros. -/
def hmacSha512 (key msg : Bytes) : Bytes :=
  let key := if 128 < key.length then (nb.sha512 key).val else key
  let key := key ++ List.replicate (128 - key.length) 0
  let inner := nb.sha512 (key.map (· ^^^ 0x36) ++ msg)
  (nb.sha512 (key.map (· ^^^ 0x5C) ++ inner.val)).val

def kdf (prk label : Bytes) : Bytes := (hmacSha512 nb prk (label ++ [1])).take 32

def mac1Label : Bytes := ascii "ipv69-mac1"
def mac1Len : Nat := 16

def keyFor (serverAddr : Nat) : Except Exn Bytes := do
  if ¬ serverAddr < 2 ^ 40 then throw (.valueError "address out of range")
  let addr ← toBytes serverAddr 5
  return (nb.sha512 (mac1Label ++ addr)).val.take 32

def mac1Compute (key msg : Bytes) : Except Exn Bytes := do
  let key ← sized 32 "poly1305 key is 32 bytes" key
  return poly1305 msg key

def mac1Verify (key msg tag : Bytes) : Except Exn Bool := do
  if tag.length ≠ mac1Len then return false
  let expected ← mac1Compute key msg
  return (List.zipWith (· ^^^ ·) expected tag).foldl (· ||| ·) 0 = 0

end

structure IpV69Header where
  payloadLen : Nat
  flowId : Nat
  nextHeader : UInt8
  hopLimit : UInt8
  flags : UInt8
  reserved : UInt8
  srcPort : Nat
  dstPort : Nat
  sequence : Bytes
  source : Nat
  sourceRes : Bytes
  dest : Nat
  destRes : Bytes
  version : Nat
  deriving DecidableEq

def ipv69Version : Nat := 6
def headerLen : Nat := 32
def ethHeaderLen : Nat := 14
def ethertypeIpv69 : Nat := 0x6969
def nextStream : UInt8 := 2
def flagNofrag : UInt8 := 1
def defaultHopLimit : UInt8 := 64
def bcastMac : Bytes := List.replicate 6 0xFF

/-- Version nibble 6 over traffic class 9. -/
def verTraffic : UInt8 := ((6 : UInt8) <<< 4) ||| ((9 : UInt8) &&& 0x0F)

def IpV69Header.pack (h : IpV69Header) : Except Exn Bytes := do
  if h.sequence.length ≠ 4 then throw (.valueError "sequence must be 4 bytes")
  let payloadLen ← toBytes h.payloadLen 2
  let flowId ← toBytes h.flowId 2
  let srcPort ← toBytes h.srcPort 2
  let dstPort ← toBytes h.dstPort 2
  let source ← toBytes h.source 5
  let dest ← toBytes h.dest 5
  return [verTraffic, 0] ++ payloadLen ++ flowId ++ [h.nextHeader, h.hopLimit, h.flags, h.reserved] ++
    srcPort ++ dstPort ++ h.sequence ++ source ++ h.sourceRes ++ dest ++ h.destRes

/-- The fields of a header as `parse_frame` cuts it, 32 bytes. -/
def IpV69Header.unpack (data : Bytes) : IpV69Header where
  payloadLen := fromBytes (cut data 2 4)
  flowId := fromBytes (cut data 4 6)
  nextHeader := byteAt data 6
  hopLimit := byteAt data 7
  flags := byteAt data 8
  reserved := byteAt data 9
  srcPort := fromBytes (cut data 10 12)
  dstPort := fromBytes (cut data 12 14)
  sequence := cut data 14 18
  source := fromBytes (cut data 18 23)
  sourceRes := cut data 23 25
  dest := fromBytes (cut data 25 30)
  destRes := cut data 30 32
  version := (byteAt data 0 >>> 4).toNat

/-- The header that `build_frame` packs, with the defaults that every ICSP frame has. -/
def streamHeader (src dst srcPort dstPort plen : Nat) : IpV69Header :=
  ⟨plen, 1, nextStream, defaultHopLimit, flagNofrag, 0, srcPort, dstPort, [0, 0, 0, 0], src, [0, 0], dst,
    [0, 0], ipv69Version⟩

/-- `build_frame` as `_send_chunk` calls it. -/
def buildFrame (dstMac srcMac : Bytes) (src dst : Nat) (payload : Bytes) (srcPort dstPort : Nat) :
    Except Exn Bytes := do
  if dstMac.length ≠ 6 ∨ srcMac.length ≠ 6 then throw (.valueError "MAC addresses are 6 bytes")
  let ethertype ← toBytes ethertypeIpv69 2
  let header ← (streamHeader src dst srcPort dstPort payload.length).pack
  return dstMac ++ srcMac ++ ethertype ++ header ++ payload

structure Frame where
  ethDst : Bytes
  ethSrc : Bytes
  ethertype : Nat
  header : IpV69Header
  payload : Bytes

/-- `f"{v:#06x}"` of a 16-bit value. -/
def hex16 (v : Nat) : String := "0x" ++ String.ofList ((Nat.toDigits 16 (v + 0x10000)).drop 1)

/-- `parse_frame`: fails on what is not an IPv69 frame. -/
def parseFrame (data : Bytes) : Except Exn Frame := do
  if data.length < ethHeaderLen + headerLen then throw (.valueError "short frame")
  let ethertype := fromBytes (cut data 12 14)
  if ethertype ≠ ethertypeIpv69 then
    throw (.valueError ("not IPv69 (ethertype " ++ hex16 ethertype ++ ")"))
  let header := IpV69Header.unpack (cut data ethHeaderLen (ethHeaderLen + headerLen))
  let stop := ethHeaderLen + headerLen + header.payloadLen
  return ⟨cut data 0 6, cut data 6 12, ethertype, header, cut data (ethHeaderLen + headerLen) stop⟩

def icspVersion : UInt8 := 1
def icspHeaderLen : Nat := 12
def icspChunkHdr : Nat := 4
def icspMaxPayload : Nat := 1400

def chunkData : UInt8 := 0
def chunkInit : UInt8 := 1
def chunkInitAck : UInt8 := 2
def chunkCookieEcho : UInt8 := 3
def chunkCookieAck : UInt8 := 4

structure IcspHeader where
  srcPort : Nat
  dstPort : Nat
  assocId : Nat
  ver : UInt8
  flags : UInt8

/-- `pack`: the CRC field is zero while summing. -/
def IcspHeader.pack (h : IcspHeader) (chunk : Bytes) : Except Exn Bytes := do
  let srcPort ← toBytes h.srcPort 2
  let dstPort ← toBytes h.dstPort 2
  let assocId ← toBytes h.assocId 4
  let front := srcPort ++ dstPort ++ [h.ver, h.flags] ++ assocId
  let crc ← toBytes (crc32c (front ++ [0, 0] ++ chunk) &&& 0xFFFF) 2
  return front ++ crc ++ chunk

/-- `[type][flags][len BE16][data]`, with flags 0. -/
def chunkPut (ctype : UInt8) (data : Bytes) : Except Exn Bytes := do
  if 0xFFFF < data.length then throw (.valueError "chunk too large")
  let len ← toBytes data.length 2
  return [ctype, 0] ++ len ++ data

def buildPkt (srcPort dstPort assocId : Nat) (chunk : Bytes) : Except Exn Bytes := do
  if icspMaxPayload < chunk.length + icspHeaderLen then throw (.valueError "ICSP packet too large")
  IcspHeader.pack ⟨srcPort, dstPort, assocId, icspVersion, 0⟩ chunk

def checkPkt (pkt : Bytes) : Bool :=
  if ¬ (icspHeaderLen ≤ pkt.length ∧ pkt.length ≤ icspMaxPayload) then false
  else crc32c (pkt.take 10 ++ [0, 0] ++ pkt.drop 12) &&& 0xFFFF = fromBytes (cut pkt 10 12)

end Py
