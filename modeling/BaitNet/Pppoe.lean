import BaitNet.Dhcp
import BaitNet.Runs

/-!
# The access concentrator

`pppoe69.c`, the `ac` role: the session table, the classification of a received frame, the
bridging of inner frames, and the reaping of idle sessions. Every frame it sends is an
output; log lines and the copy of a learned key in the peer file are left out.
-/
namespace Pppoe

open Wire Link Crypto Tables
open Gw (frameDstMac)
open Dhcp (ipv69BcastAddr ctrlDhcpRequest ctrlDhcpAck pubLen sigLen mac1Len)

def maxSessions : Nat := 64
def maxPeers : Nat := 64
def sessionIdle : Nat := 300

def ipv69NextPppoe : UInt8 := 3

def ctrlNdRequest : UInt8 := 1
def ctrlNdReply : UInt8 := 2
def ctrlPadi : UInt8 := 17
def ctrlPado : UInt8 := 18
def ctrlPadr : UInt8 := 19
def ctrlPads : UInt8 := 20
def ctrlPadt : UInt8 := 21

structure Session where
  sid : UInt16
  used : Bool
  cmac : Arr 6
  wmac : Arr 6
  addr : UInt64
  last : Nat
  deriving DecidableEq

/-- `memset` of a slot. -/
def Session.zero : Session := ⟨0, false, .zero 6, .zero 6, 0, 0⟩

/-- What the command line and the interface fix. -/
structure Config where
  mac : Arr 6
  addr : UInt64
  sk : Arr 64
  authEnabled : Bool
  learn : Bool
  peerFile : Option Bytes

/-- The concentrator with its clock in milliseconds. -/
structure Ac where
  cfg : Config
  clock : Nat
  peers : Table maxPeers (Arr 32)
  sess : List Session
  rate : List RateBucket

def start (cfg : Config) (peers : Table maxPeers (Arr 32)) (clock : Nat) : Ac :=
  ⟨cfg, clock, peers, List.replicate maxSessions Session.zero, rateInit⟩

/-- What the concentrator sends: its discovery messages, ND replies, frames wrapped into
the session of a slot, inner frames bridged to the island. -/
inductive Out where
  | pado (host : Arr 6) (frame : Bytes)
  | pads (s : Session) (frame : Bytes)
  | padt (s : Session) (frame : Bytes)
  | ndReply (dst : Arr 6) (frame : Bytes)
  | wrap (i : Nat) (inner frame : Bytes)
  | bridge (frame : Bytes)
  deriving DecidableEq

variable (c : TweetNaCl)

/-- `sign_append`: key and signature behind the message. -/
def signAppend (msg : Bytes) (sk : Arr 64) : Bytes :=
  msg ++ (arr sk.val 32 32).val ++ (ed25519Sign c msg sk).val

namespace Ac

def time (a : Ac) : Nat := a.clock / 1000

def nowMs (a : Ac) : UInt32 := .ofNat a.clock

def allow (a : Ac) (mac : Arr 6) : Ac × Bool :=
  let (rate, ok) := rateAllow a.rate a.nowMs (pad 8 mac.val) 10 20 1
  ({ a with rate := rate }, ok)

def learnPub (a : Ac) (pub : Arr 32) : Ac :=
  if pub ∈ a.peers.entries then a else { a with peers := a.peers.push pub }

/-- The key and the signature of a PADR stand at fixed places. -/
def checkPadr (a : Ac) (p : Bytes) : Ac × Bool :=
  let pub := arr p 7 32
  let valid := ed25519Verify c (slice p 0 7) (arr p 39 64) pub
  if p.length ≠ 1 + 6 + pubLen + sigLen + mac1Len then (a, false)
  else if !a.cfg.authEnabled then (a, true)
  else if pub ∈ a.peers.entries then (a, valid)
  else if a.cfg.learn && valid then (a.learnPub pub, true)
  else (a, false)

def sessByCmac (a : Ac) (mac : Arr 6) : Option Nat := a.sess.findIdx? fun s => s.used && s.cmac = mac

def sessBySid (a : Ac) (sid : UInt16) : Option Nat := a.sess.findIdx? fun s => s.used && s.sid = sid

def sessByAddr (a : Ac) (addr : UInt64) : Option Nat :=
  if addr = 0 then none else a.sess.findIdx? fun s => s.used && s.addr = addr

def sessByWmac (a : Ac) (mac : Arr 6) : Option Nat := a.sess.findIdx? fun s => s.used && s.wmac = mac

def sessAt (a : Ac) (i : Nat) : Session := a.sess.getD i Session.zero

def sidTaken (a : Ac) (sid : UInt16) : Bool := a.sess.any fun s => s.used && s.sid = sid

/-- The first free id from `t` on, among `fuel` ids. -/
def freeSid (a : Ac) : Nat → Nat → Option UInt16
  | 0, _ => none
  | fuel + 1, t => if a.sidTaken (.ofNat t) then freeSid a fuel (t + 1) else some (.ofNat t)

/-- A fresh session with its slot. -/
def sessAlloc (a : Ac) : Option (Ac × Nat) :=
  match a.sess.findIdx? fun s => !s.used with
  | none => none
  | some slot =>
    match a.freeSid 0xffff 1 with
    | none => none
    | some sid =>
      some ({ a with sess := a.sess.set slot { Session.zero with used := true, sid := sid, last := a.time } }, slot)

def sessFree (a : Ac) (i : Nat) : Ac := { a with sess := a.sess.set i Session.zero }

def sessModify (a : Ac) (i : Nat) (f : Session → Session) : Ac := { a with sess := a.sess.modify i f }

def acSend (a : Ac) (dst : Arr 6) (nh : UInt8) (payload : Bytes) : Bytes :=
  buildFrame dst a.cfg.mac a.cfg.addr ipv69BcastAddr nh 64 0 0 payload

/-- A frame with its session id, for the host of slot `i`. -/
def acSessionSend (a : Ac) (i : Nat) (inner : Bytes) : List Out :=
  if 2048 - 2 < inner.length then []
  else [.wrap i inner (a.acSend (a.sessAt i).cmac ipv69NextPppoe (put16 (a.sessAt i).sid ++ inner))]

def acPado (a : Ac) (host : Arr 6) : Out :=
  .pado host (a.acSend host ipv69NextControl
    (signAppend c (ctrlPado :: (host.val ++ a.cfg.mac.val ++ put40 a.cfg.addr)) a.cfg.sk))

def acPads (a : Ac) (s : Session) : Out :=
  .pads s (a.acSend s.cmac ipv69NextControl (signAppend c (ctrlPads :: (s.cmac.val ++ put16 s.sid)) a.cfg.sk))

def acPadt (a : Ac) (s : Session) : Out := .padt s (a.acSend s.cmac ipv69NextControl (ctrlPadt :: put16 s.sid))

/-- The frame of an ND_REPLY that puts `target` at `owner`. -/
def ndReplyFrame (target : UInt64) (owner dst : Arr 6) : Bytes :=
  buildFrame dst owner target ipv69BcastAddr ipv69NextControl 64 0 0 (ctrlNdReply :: (put40 target ++ owner.val))

/-- An inner frame of slot `i` with the wire MAC as its source. -/
def acBridge (a : Ac) (i : Nat) (inner : Bytes) : List Out :=
  if 2048 < inner.length then []
  else [.bridge (inner.take 6 ++ (a.sessAt i).wmac.val ++ inner.drop 12)]

/-- What an inner frame teaches about its session: the wire MAC, the address, the time. -/
def acLearn (a : Ac) (inner : Bytes) (s : Session) : Session :=
  let ip := framePayload inner
  let isrc := frameSource inner
  let s := { s with wmac := frameSrcMac inner, last := a.time }
  let s := if isrc ≠ 0 then { s with addr := isrc } else s
  if frameNextHeader inner = ipv69NextControl ∧ 12 ≤ ip.length ∧
      (byteAt ip 0 = ctrlDhcpRequest ∨ byteAt ip 0 = ctrlDhcpAck) then { s with addr := get40 ip 7 } else s

/-- A lookup with source 0. -/
def isNdLookup (frame : Bytes) : Bool :=
  let p := framePayload frame
  frameNextHeader frame = ipv69NextControl && decide (6 ≤ p.length) && byteAt p 0 = ctrlNdRequest && frameSource frame = 0

/-- Where an inner frame of slot `i` goes, once it has been learned from. -/
def acForward (a : Ac) (i : Nat) (inner : Bytes) : List Out :=
  let idst := frameDest inner
  let bcast := frameDstMac inner = bcastMac ∨ idst = ipv69BcastAddr
  if isNdLookup inner then
    let target := get40 (framePayload inner) 1
    let owner := if target = a.cfg.addr ∨ a.sessByAddr target = some i then none else a.sessByAddr target
    match owner with
    | some j => a.acSessionSend i (ndReplyFrame target (a.sessAt j).wmac bcastMac)
    | none =>
      if target = a.cfg.addr then a.acSessionSend i (ndReplyFrame target a.cfg.mac bcastMac)
      else if bcast then a.acBridge i inner else []
  else if bcast then a.acBridge i inner
  else
    match a.sessByAddr idst with
    | some j =>
      if j ≠ i then a.acSessionSend j inner
      else if idst = a.cfg.addr then [] else a.acBridge i inner
    | none => if idst = a.cfg.addr then [] else a.acBridge i inner

def acInner (a : Ac) (i : Nat) (inner : Bytes) : Ac × List Out :=
  if inner.length < 14 + ipv69HeaderLen + 1 then (a, [])
  else
    let a := a.sessModify i (a.acLearn inner)
    (a, a.acForward i inner)

/-- Session data: the slot of the sender and the inner frame. -/
def sessionData (a : Ac) (frame : Bytes) : Option (Nat × Bytes) :=
  let p := framePayload frame
  if frameDstMac frame ≠ a.cfg.mac ∨ p.length < 2 + 14 + ipv69HeaderLen then none
  else
    match a.sessByCmac (frameSrcMac frame) with
    | none => none
    | some i => if get16 p 0 ≠ (a.sessAt i).sid then none else some (i, p.drop 2)

def isDiscovery (frame : Bytes) : Bool :=
  let type := byteAt (framePayload frame) 0
  frameNextHeader frame = ipv69NextControl && ctrlPadi ≤ type && type ≤ ctrlPadt

def padi (a : Ac) (p : Bytes) : Ac × List Out :=
  if p.length ≠ 7 + mac1Len then (a, [])
  else if mac1Verify c (mac1Key c ipv69BcastAddr) (slice p 0 7) (arr p 7 mac1Len) = false then (a, [])
  else
    match a.allow (arr p 1 6) with
    | (a, false) => (a, [])
    | (a, true) => (a, [a.acPado c (arr p 1 6)])

/-- The checks of a PADR up to the session table. -/
def vetPadr (a : Ac) (p : Bytes) : Ac × Bool :=
  if p.length ≠ 7 + pubLen + sigLen + mac1Len then (a, false)
  else if mac1Verify c (mac1Key c a.cfg.addr) (slice p 0 (p.length - mac1Len)) (arr p (p.length - mac1Len) mac1Len) =
      false then (a, false)
  else
    match a.allow (arr p 1 6) with
    | (a, false) => (a, false)
    | (a, true) => a.checkPadr c p

/-- The answer to a PADR of `mac` that may dial: its session, or a new one. -/
def answerPadr (a : Ac) (mac : Arr 6) : Ac × List Out :=
  match a.sessByCmac mac with
  | some i => (a, [a.acPads c (a.sessAt i)])
  | none =>
    match a.sessAlloc with
    | none => (a, [])
    | some (a, i) =>
      let a := a.sessModify i fun s => { s with cmac := mac }
      (a, [a.acPads c (a.sessAt i)])

def padr (a : Ac) (p : Bytes) : Ac × List Out :=
  match a.vetPadr c p with
  | (a, false) => (a, [])
  | (a, true) => a.answerPadr c (arr p 1 6)

def padt (a : Ac) (p : Bytes) : Ac :=
  if p.length ≠ 3 + mac1Len then a
  else if mac1Verify c (mac1Key c a.cfg.addr) (slice p 0 3) (arr p 3 mac1Len) = false then a
  else
    match a.sessBySid (get16 p 1) with
    | none => a
    | some i => a.sessFree i

def discovery (a : Ac) (frame : Bytes) : Ac × List Out :=
  let p := framePayload frame
  if byteAt p 0 = ctrlPadi then a.padi c p
  else if frameDest frame ≠ a.cfg.addr ∨ frameDstMac frame ≠ a.cfg.mac then (a, [])
  else if byteAt p 0 = ctrlPadr then a.padr c p
  else if byteAt p 0 = ctrlPadt then (a.padt c p, [])
  else (a, [])

/-- The reply to a lookup from the island, for an address behind the concentrator. -/
def islandNd (a : Ac) (frame : Bytes) : Option Out :=
  let target := get40 (framePayload frame) 1
  let asker := frameSrcMac frame
  if isNdLookup frame ∧ frameDest frame = ipv69BcastAddr then
    if target = a.cfg.addr then some (.ndReply asker (ndReplyFrame target a.cfg.mac asker))
    else (a.sessByAddr target).map fun j => .ndReply asker (ndReplyFrame target (a.sessAt j).wmac asker)
  else none

/-- The session that a frame of the island belongs to. -/
def islandSession (a : Ac) (frame : Bytes) : Option Nat :=
  if frameDest frame ≠ ipv69BcastAddr then a.sessByAddr (frameDest frame) else a.sessByWmac (frameDstMac frame)

def island (a : Ac) (frame : Bytes) : List Out :=
  match a.islandNd frame with
  | some reply => [reply]
  | none =>
    match a.islandSession frame with
    | some i => a.acSessionSend i frame
    | none => []

def acRx (a : Ac) (frame : Bytes) : Ac × List Out :=
  if frame.length < 14 + ipv69HeaderLen + 1 then (a, [])
  else if frameSrcMac frame = a.cfg.mac then (a, [])
  else if frameNextHeader frame = ipv69NextPppoe then
    match a.sessionData frame with
    | none => (a, [])
    | some (i, inner) => a.acInner i inner
  else if isDiscovery frame then a.discovery c frame
  else (a, a.island frame)

def idle (a : Ac) (s : Session) : Bool := s.used && sessionIdle < a.time - s.last

def reap (a : Ac) : Ac × List Out :=
  ({ a with sess := a.sess.map fun s => if a.idle s then Session.zero else s }, (a.sess.filter a.idle).map a.acPadt)

end Ac

/-- What the loop does: it receives, reaps, and loads a peer file that has changed. -/
inductive Event where
  | recv (frame : Bytes)
  | reap
  | wait (ms : Nat)
  | reload (peers : Table maxPeers (Arr 32))

def step (a : Ac) : Event → Ac
  | .recv frame => (a.acRx c frame).1
  | .reap => a.reap.1
  | .wait ms => { a with clock := a.clock + ms }
  | .reload peers => if a.cfg.peerFile.isSome then { a with peers := peers } else a

end Pppoe
