import BaitNet.Crypto
import BaitNet.Gateway
import BaitNet.Link
import BaitNet.Tables

/-!
# The address server

`af69d.c` from its loop on: the checks of a message, the lease table, and the OFFERs and
ACKs it sends. The command line is a `Config`. Log lines and the copy of a learned key in
the peer file are left out; a changed file comes back as a reload.
-/
namespace Dhcp

open Wire Link Crypto Tables
open Gw (AddrClass ipv69AddrInRange)

def maxLeases : Nat := 256
def maxPeers : Nat := 64

def ctrlDhcpDiscover : UInt8 := 7
def ctrlDhcpOffer : UInt8 := 8
def ctrlDhcpRequest : UInt8 := 9
def ctrlDhcpAck : UInt8 := 10
def ctrlDhcpRelease : UInt8 := 11

def ipv69ServerAddr : UInt64 := 1
def ipv69BcastAddr : UInt64 := 0xFFFFFFFFFF

def pubLen : Nat := 32
def sigLen : Nat := 64
def mac1Len : Nat := 16

structure Lease where
  mac : Arr 6
  addr : UInt64
  expiry : Nat
  used : Bool
  key : Arr 32
  deriving DecidableEq

def noLease : Lease := ⟨.zero 6, 0, 0, false, .zero 32⟩

/-- A key of the allowlist with the range that it may ask for. -/
structure PeerEntry where
  pub : Arr 32
  base : UInt64
  prefixLen : Nat
  deriving DecidableEq

structure Config where
  mac : Arr 6
  poolStart : UInt64
  poolEnd : UInt64
  leaseSec : UInt32
  allow : List (Arr 6)
  authEnabled : Bool
  learn : Bool
  sk : Option (Arr 64)

/-- The server with its clock in milliseconds. -/
structure Server where
  cfg : Config
  clock : Nat
  leases : List Lease
  peers : Table maxPeers PeerEntry
  rate : List RateBucket

def start (cfg : Config) (peers : Table maxPeers PeerEntry) (clock : Nat) : Server :=
  ⟨cfg, clock, List.replicate maxLeases noLease, peers, rateInit⟩

/-- An OFFER or ACK of `addr`, sent to `mac` with the payload `msg`. -/
structure Grant where
  mac : Arr 6
  addr : UInt64
  msg : Bytes
  deriving DecidableEq

variable (c : TweetNaCl)

/-- `ipv69_addr_derive`: the class bits in front of 38 bits of the key's digest. -/
def ipv69AddrDerive (pub : Arr 32) (cls : AddrClass) : UInt64 :=
  let d := (ed25519Sha512 c pub.val).val
  let b := match cls with
    | .A => 0x00 ||| (byteAt d 0 &&& 0x3f)
    | .B => 0x40 ||| (byteAt d 0 &&& 0x3f)
    | .C => 0x80 ||| (byteAt d 0 &&& 0x3f)
    | .D => 0xc0 ||| (byteAt d 0 &&& 0x1f)
    | .E => 0xe0 ||| (byteAt d 0 &&& 0x1f)
  get40 (b :: slice d 1 4) 0

/-- `sign_msg`; without a key the message stays as it is. -/
def signMsg (cfg : Config) (msg : Bytes) : Bytes :=
  match cfg.sk with
  | none => msg
  | some sk => msg ++ (arr sk.val 32 32).val ++ (ed25519Sign c msg sk).val

/-- `[type][mac 6][addr 5][lease 4]` and the signature. -/
def grantMsg (cfg : Config) (type : UInt8) (mac : Arr 6) (addr : UInt64) : Grant :=
  ⟨mac, addr, signMsg c cfg (type :: (mac.val ++ put40 addr ++ put32 cfg.leaseSec))⟩

/-- `send_ctrl`. -/
def Grant.frame (cfg : Config) (g : Grant) : Bytes :=
  buildFrame g.mac cfg.mac ipv69ServerAddr ipv69BcastAddr ipv69NextControl 64 0 0 g.msg

namespace Server

def time (s : Server) : Nat := s.clock / 1000

def nowMs (s : Server) : UInt32 := .ofNat s.clock

def macAllowed (s : Server) (mac : Arr 6) : Bool := s.cfg.allow.isEmpty || decide (mac ∈ s.cfg.allow)

def known (s : Server) (pub : Arr 32) : Bool := s.peers.entries.any fun p => p.pub = pub

/-- A new key gets the one address that is derived from it, if the table has room. -/
def learnPeer (s : Server) (pub : Arr 32) : Server :=
  if s.known pub then s
  else { s with peers := s.peers.push ⟨pub, ipv69AddrDerive c pub .C, 40⟩ }

/-- `plen` is the length without the mac1 tag; the key and the signature are its last 96 bytes. -/
def checkMsg (s : Server) (msg : Bytes) (plen : Nat) (mac : Arr 6) : Server × Bool :=
  let body := plen - pubLen - sigLen
  let pub := arr msg body 32
  let valid := ed25519Verify c (slice msg 0 body) (arr msg (body + pubLen) 64) pub
  if !s.cfg.authEnabled then (s, true)
  else if plen < 1 + 6 + pubLen + sigLen then (s, false)
  else if s.known pub then (s, valid)
  else if s.cfg.learn && s.macAllowed mac && valid then (s.learnPeer c pub, true)
  else (s, false)

def leaseFind (s : Server) (mac : Arr 6) : Option Nat := s.leases.findIdx? fun l => l.used && l.mac = mac

def leaseAddrTaken (s : Server) (addr : UInt64) (now : Nat) : Bool :=
  s.leases.any fun l => l.used && l.addr = addr && now < l.expiry

end Server

/-- The next address of the pool, around its end. -/
def nextAddr (cfg : Config) (a : UInt64) : UInt64 := if cfg.poolEnd < a + 1 then cfg.poolStart else a + 1

def macHash (mac : Arr 6) : UInt64 := mac.val.foldl (fun h b => (h * 31 + b.toUInt64) &&& 0xFFFFFFFF) 0

/-- Where the search for an address of `mac` starts. -/
def firstAddr (cfg : Config) (mac : Arr 6) : UInt64 :=
  -- x % 0 is x here; the source divides by a span of 0 and dies (`leaseAllocRun` tells when)
  cfg.poolStart + macHash mac % (cfg.poolEnd - cfg.poolStart + 1)

namespace Server

def probe (s : Server) (now : Nat) : Nat → UInt64 → UInt64
  | 0, a => a
  | n + 1, a => if s.leaseAddrTaken a now then probe s now n (nextAddr s.cfg a) else a

def renew (s : Server) (i : Nat) (now : Nat) : Server :=
  { s with leases := s.leases.modify i fun l => { l with expiry := now + s.cfg.leaseSec.toNat } }

def leaseAlloc (s : Server) (mac : Arr 6) (now : Nat) : Server × Bool :=
  match s.leaseFind mac with
  | some i => (s.renew i now, true)
  | none =>
    let a := s.probe now 64 (firstAddr s.cfg mac)
    if s.leaseAddrTaken a now then (s, false)
    else
      match s.leases.findIdx? fun l => !l.used || l.expiry ≤ now with
      | none => (s, false)
      | some i =>
        ({ s with leases := s.leases.modify i fun l =>
            { l with used := true, mac := mac, addr := a, expiry := now + s.cfg.leaseSec.toNat } }, true)

def leaseRelease (s : Server) (mac : Arr 6) (addr : UInt64) : Server :=
  match s.leaseFind mac with
  | none => s
  | some i =>
    { s with leases := s.leases.modify i fun l =>
        if addr = 0 ∨ l.addr = addr then { l with used := false } else l }

/-- The lease that `lease_find` points to. -/
def leaseAt (s : Server) (mac : Arr 6) : Option Lease := s.leases.find? fun l => l.used && l.mac = mac

def setLease (s : Server) (mac : Arr 6) (f : Lease → Lease) : Server :=
  match s.leaseFind mac with
  | none => s
  | some i => { s with leases := s.leases.modify i f }

def discover (s : Server) (buf : Bytes) (mac : Arr 6) (now : Nat) : Server × List Grant :=
  match s.leaseAlloc mac now with
  | (s, false) => (s, [])
  | (s, true) =>
    match s.leaseAt mac with
    | none => (s, [])
    | some l =>
      let s := if 7 + pubLen + sigLen + mac1Len ≤ buf.length then
        s.setLease mac fun l => { l with key := arr buf 7 32 } else s
      (s, [grantMsg c s.cfg ctrlDhcpOffer mac l.addr])

/-- The range check of a REQUEST, for the key that stands behind the address. -/
def inRange (s : Server) (buf : Bytes) (addr : UInt64) : Bool :=
  decide (12 + pubLen + sigLen + mac1Len ≤ buf.length) &&
    s.peers.entries.any fun p => p.pub = arr buf 12 32 && ipv69AddrInRange addr p.base p.prefixLen

def request (s : Server) (buf : Bytes) (mac : Arr 6) (now : Nat) : Server × List Grant :=
  let reqAddr := get40 buf 7
  let found := match s.leaseFind mac with
    | some i => (s.renew i now, true)
    | none => s.leaseAlloc mac now
  match found with
  | (s, false) => (s, [])
  | (s, true) =>
    match s.leaseAt mac with
    | none => (s, [])
    | some l =>
      if (s.inRange buf reqAddr && !s.leaseAddrTaken reqAddr now) || reqAddr = l.addr then
        let s := s.setLease mac fun l => { l with addr := reqAddr }
        let s := if 12 + pubLen + sigLen + mac1Len ≤ buf.length then
          s.setLease mac fun l => { l with key := arr buf 12 32 } else s
        (s, [grantMsg c s.cfg ctrlDhcpAck mac reqAddr])
      else (s, [])

def release (s : Server) (buf : Bytes) (mac : Arr 6) : Server := s.leaseRelease mac (get40 buf 7)

/-- The payload and the destination of a frame for the server. -/
def recvCtrl (frame : Bytes) : Option (UInt64 × Bytes) :=
  let d := frameDest frame
  if frame.length < 14 + ipv69HeaderLen + 1 then none
  else if frameNextHeader frame ≠ ipv69NextControl then none
  else if d ≠ ipv69BcastAddr ∧ d ≠ ipv69ServerAddr then none
  else some (d, framePayload frame)

def isRequestType (type : UInt8) : Bool :=
  type = ctrlDhcpDiscover ∨ type = ctrlDhcpRequest ∨ type = ctrlDhcpRelease

/-- The MAC that a message names. -/
def msgMac (buf : Bytes) : Arr 6 := arr buf 1 6

/-- Everything in front of the lease table: length and type, mac1, the rate limit, the MAC
list, the signature. -/
def vet (s : Server) (dst : UInt64) (buf : Bytes) : Server × Bool :=
  let plen := buf.length
  if plen < 7 + mac1Len ∨ isRequestType (byteAt buf 0) = false then (s, false)
  else if mac1Verify c (mac1Key c dst) (slice buf 0 (plen - mac1Len)) (arr buf (plen - mac1Len) mac1Len) = false then
    (s, false)
  else
    let (rate, allowed) := rateAllow s.rate s.nowMs (pad 8 (msgMac buf).val) 10 20 1
    let s := { s with rate := rate }
    if !allowed then (s, false)
    else if !s.macAllowed (msgMac buf) then (s, false)
    else s.checkMsg c buf (plen - mac1Len) (msgMac buf)

/-- What an admitted message does. -/
def dispatch (s : Server) (buf : Bytes) : Server × List Grant :=
  if byteAt buf 0 = ctrlDhcpDiscover then s.discover c buf (msgMac buf) s.time
  else if byteAt buf 0 = ctrlDhcpRequest then s.request c buf (msgMac buf) s.time
  else (s.release buf (msgMac buf), [])

/-- One round of the loop with a received frame. -/
def handle (s : Server) (frame : Bytes) : Server × List Grant :=
  match recvCtrl frame with
  | none => (s, [])
  | some (dst, buf) =>
    match s.vet c dst buf with
    | (s, false) => (s, [])
    | (s, true) => s.dispatch c buf

end Server

inductive Event where
  | recv (frame : Bytes)
  | wait (ms : Nat)
  | reload (peers : Table maxPeers PeerEntry)

def step (s : Server) : Event → Server
  | .recv frame => (s.handle c frame).1
  | .wait ms => { s with clock := s.clock + ms }
  | .reload peers => { s with peers := peers }

end Dhcp
