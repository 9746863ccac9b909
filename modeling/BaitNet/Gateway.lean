import BaitNet.Crypto
import BaitNet.Link
import BaitNet.Tables
import BaitNet.Text

/-!
# The gateway

`ipv69gw.c`: the tables of one gateway and one round of its loop, with everything the
round sends. Time is a millisecond clock that the rounds move on; `time(NULL)` is its
seconds. A socket that `sendto` cannot address sends nothing, and the log lines are left out.
-/
namespace Gw

open Wire Link Crypto Tables Text

inductive AddrClass where
  | A | B | C | D | E
  deriving DecidableEq

def ipv69AddrClass (addr : UInt64) : AddrClass :=
  let b := UInt8.ofNat (addr.toNat / 2 ^ 32)
  if b &&& 0xc0 = 0x00 then .A
  else if b &&& 0xc0 = 0x40 then .B
  else if b &&& 0xc0 = 0x80 then .C
  else if b &&& 0xe0 = 0xc0 then .D
  else .E

/-- The top `prefixLen` of 40 bits agree. -/
def ipv69AddrInRange (addr base : UInt64) (prefixLen : Nat) : Bool :=
  (addr ^^^ base) >>> .ofNat (40 - prefixLen) = 0

/-- `struct sockaddr_in` or `struct sockaddr_in6`, with the port in host order. -/
inductive SockAddr where
  | v4 (ip : Arr 4) (port : UInt16)
  | v6 (ip : Arr 16) (port : UInt16)
  deriving DecidableEq

/-- An endpoint as plain IPv4, mapped addresses included. -/
def epV4 : SockAddr → Option (Arr 4 × UInt16)
  | .v4 ip port => some (ip, port)
  | .v6 ip port => if v4Mapped ip then some (arr ip.val 12 4, port) else none

/-- `%s:%u` of an endpoint. -/
def epText : SockAddr → Bytes
  | .v4 ip port => inetNtop4 ip ++ 58 :: decimal port.toNat
  | .v6 ip port => inetNtop6 ip ++ 58 :: decimal port.toNat

def maxPeers : Nat := 256
def peerTimeout : Nat := 300

/-- A slot of `peers[]`, unused while `addr` is 0. A peer heard on the L2 side has no
endpoint (`slen` 0). -/
structure Peer where
  addr : UInt64
  prefixLen : Nat
  mac : Arr 6
  key : Arr 32
  ep : Option SockAddr
  last : Nat
  deriving DecidableEq

def Peer.used (p : Peer) : Bool := p.addr ≠ 0

def noPeer : Peer := ⟨0, 0, Arr.zero 6, Arr.zero 32, none, 0⟩

structure AuthPeer where
  key : Arr 32
  base : UInt64
  prefixLen : Nat
  deriving DecidableEq

structure GwNeigh where
  mac : Arr 6
  last : Nat
  deriving DecidableEq

structure GwPend where
  addr : UInt64
  asker : SockAddr
  viaLink : Bool
  ts : Nat
  deriving DecidableEq

structure GwLink where
  ep : SockAddr
  pub : Arr 32
  last : Nat
  deriving DecidableEq

structure GwRoute where
  addr : UInt64
  prefixLen : Nat
  ip : Arr 4
  port : UInt16
  li : Nat
  last : Nat
  deriving DecidableEq

/-- What the command line fixes; `l2` is the MAC of the bridged interface. -/
structure Config where
  port : UInt16
  sk : Arr 64
  auth : List AuthPeer
  allowPrivate : Bool
  l2 : Option (Arr 6)
  boot : Nat

structure Gateway where
  cfg : Config
  clock : Nat
  peers : List Peer
  routesDirty : Bool
  gwn : Table maxPeers GwNeigh
  gwp : Table 16 GwPend
  links : List GwLink
  routes : Table maxPeers GwRoute
  rate : List RateBucket
  lastAnn : Nat
  buf : Bytes

/-- A gateway at its first round; `stale` is what the receive buffer holds by then. -/
def start (cfg : Config) (links : List (SockAddr × Arr 32)) (stale : Bytes) : Gateway where
  cfg := cfg
  clock := 1000 * cfg.boot
  peers := List.replicate maxPeers noPeer
  routesDirty := false
  gwn := .empty
  gwp := .empty
  links := links.map fun l => ⟨l.1, l.2, 0⟩
  routes := .empty
  rate := rateInit
  lastAnn := 0
  buf := stale

/-- Where a frame is sent. -/
inductive Port where
  | client (ep : SockAddr)
  | link (i : Nat)
  | l2
  deriving DecidableEq

/-- `relay` passes the received frame on, `control` carries a frame the gateway built,
`answer` and `negative` are the texts that end a QUERY for `q`. -/
inductive Out where
  | relay (via : Port) (frame : Bytes)
  | control (via : Port) (frame : Bytes)
  | answer (asker : SockAddr) (q : UInt64) (text : Bytes)
  | negative (asker : SockAddr) (q : UInt64) (text : Bytes)
  deriving DecidableEq

namespace Gateway

def time (g : Gateway) : Nat := g.clock / 1000

def nowMs (g : Gateway) : UInt32 := .ofNat g.clock

def l2mac (g : Gateway) : Arr 6 := g.cfg.l2.getD (Arr.zero 6)

def peerFindAddr (g : Gateway) (addr : UInt64) : Option Peer :=
  longest Peer.prefixLen (fun p => p.used && ipv69AddrInRange addr p.addr p.prefixLen) g.peers

def authAllowed (g : Gateway) (key : Arr 32) (addr : UInt64) : Bool :=
  g.cfg.auth.isEmpty || g.cfg.auth.any fun a => a.key = key ∧ ipv69AddrInRange addr a.base a.prefixLen

def peerFindMac (g : Gateway) (mac : Arr 6) : Option Peer := g.peers.find? fun p => p.used && p.mac = mac

def peerFindEndpoint (g : Gateway) (ep : SockAddr) : Option Peer :=
  g.peers.find? fun p => p.used && p.ep = some ep

/-- One token of the bucket for the first 8 bytes of `id`. -/
def allow (g : Gateway) (id : Bytes) (ratePerS burst : Nat) : Gateway × Bool :=
  let (rate, ok) := rateAllow g.rate g.nowMs (pad 8 id) ratePerS burst 1
  ({ g with rate := rate }, ok)

def peerLearnAuth (g : Gateway) (addr : UInt64) (mac : Arr 6) (ep : Option SockAddr) (key : Arr 32)
    (prefixLen : Nat) : Gateway × Bool :=
  match g.peers.findIdx? fun p => p.used && p.key = key with
  | some i =>
    ({ g with peers := g.peers.modify i fun p =>
        { p with addr := addr, prefixLen := prefixLen % 256, ep := ep, last := g.time } }, true)
  | none =>
    match g.allow mac.val 5 10 with
    | (g, false) => (g, false)
    | (g, true) =>
      match g.peers.findIdx? fun p => !p.used || peerTimeout < g.time - p.last with
      | none => (g, false)
      | some i =>
        ({ g with
            peers := g.peers.set i ⟨addr, prefixLen % 256, mac, key, ep, g.time⟩
            routesDirty := true }, true)

variable (c : TweetNaCl)

/-- What both learning paths do with the signed bytes they found: the rate limit, the
signature, the allowlist, the table. -/
def learnSigned (g : Gateway) (mac : Arr 6) (ep : Option SockAddr) (msg : Bytes) (sig : Arr 64)
    (pub : Arr 32) (addr : UInt64) : Gateway × Bool :=
  match g.allow mac.val 10 20 with
  | (g, false) => (g, false)
  | (g, true) =>
    if !ed25519Verify c msg sig pub then (g, false)
    else if !g.authAllowed pub addr then (g, false)
    else g.peerLearnAuth addr mac ep pub 40

/-- The chunk data of an INIT, which the signature covers up to the identity. -/
def initData (buf : Bytes) : Bytes := (framePayload buf).drop 16

def gwLearnInit (g : Gateway) (buf : Bytes) (n : Nat) (ep : Option SockAddr) : Gateway × Bool :=
  let ic := framePayload buf
  let cd := initData buf
  if n < 14 + ipv69HeaderLen + 12 + 4 + 77 + 64 then (g, false)
  else if byteAt ic 12 ≠ 1 ∨ byteAt ic 13 &&& 1 ≠ 0 then (g, false)
  else g.learnSigned c (frameSrcMac buf) ep (slice cd 0 77) (arr cd 77 64) (arr cd 45 32) (frameSource buf)

def gwLearnAnnounce (g : Gateway) (buf : Bytes) (n : Nat) (ep : Option SockAddr) : Gateway × Bool :=
  let ic := framePayload buf
  if n < 14 + ipv69HeaderLen + 6 + 96 then (g, false)
  else if byteAt ic 0 ≠ 1 then (g, false)
  else g.learnSigned c (frameSrcMac buf) ep (slice ic 0 6) (arr ic 38 64) (arr ic 6 32) (get40 ic 1)

/-- The dispatch on the next header in front of both receive paths. -/
def learn (g : Gateway) (buf : Bytes) (n : Nat) (ep : Option SockAddr) : Gateway :=
  if frameNextHeader buf = ipv69NextStream then (g.gwLearnInit c buf n ep).1
  else if frameNextHeader buf = ipv69NextControl then (g.gwLearnAnnounce c buf n ep).1
  else g

end Gateway

def ipv69NextDgram : UInt8 := 1

namespace Gateway

def gwSrcOk (g : Gateway) (buf : Bytes) : Bool :=
  let src := frameSource buf
  src = 0 || frameNextHeader buf ≠ ipv69NextDgram || (g.peerFindAddr src).isSome

/-- The class filter of the three data paths. -/
def classOk (g : Gateway) (buf : Bytes) : Bool :=
  let scls := ipv69AddrClass (frameSource buf)
  let dcls := ipv69AddrClass (frameDest buf)
  g.cfg.allowPrivate || (scls = .C && (dcls = .C || dcls = .E))

end Gateway

def ctrlGwAnn : UInt8 := 12
def ctrlGwQ : UInt8 := 13
def ctrlGwR : UInt8 := 14
def ctrlGwRoute : UInt8 := 15
def ctrlGwCall : UInt8 := 16

def frameDstMac (buf : Bytes) : Arr 6 := arr buf 0 6

/-- `[GW_R][addr40 5][ip4 4][port 2]`. -/
def gwRBuild (q : UInt64) (t : Peer) : Option Bytes :=
  (t.ep.bind epV4).map fun (ip4, port) => ctrlGwR :: (put40 q ++ ip4.val ++ put16 port)

namespace Gateway

def controlFrame (g : Gateway) (dst : UInt64) (pkt : Bytes) : Bytes :=
  buildFrame bcastMac g.l2mac 0 dst ipv69NextControl 64 0 0 pkt

def gwMeshSend (g : Gateway) (pkt : Bytes) : List Out :=
  if g.cfg.l2.isSome then [.control .l2 (g.controlFrame 0xFFFFFFFFFF pkt)] else []

/-- What `frame[192]` of `gw_link_send_pkt` holds behind the two headers. -/
def linkPktMax : Nat := 192 - 14 - ipv69HeaderLen

/-- For a packet of at most `linkPktMax` bytes; a longer one overruns the frame. -/
def gwLinkSendPkt (g : Gateway) (li : Nat) (pkt : Bytes) : Out :=
  .control (.link li) (g.controlFrame 0xFFFFFFFFFF pkt)

/-- The indices of the links other than `li`. -/
def otherLinks (g : Gateway) (li : Nat) : List Nat := (List.range g.links.length).filter (· ≠ li)

def linkEpMatch (a : SockAddr) (l : GwLink) : Bool :=
  match epV4 a, epV4 l.ep with
  | some x, some y => x = y
  | _, _ =>
    match a, l.ep with
    | .v6 ip port, .v6 ip' port' => port = port' && ip = ip'
    | _, _ => false

def gwLinkFind (g : Gateway) (ep : SockAddr) : Option Nat := g.links.findIdx? (linkEpMatch ep)

end Gateway

def strlen (b : Bytes) : Nat := (b.takeWhile (· ≠ 0)).length

/-- `snprintf` into a buffer that has room for the text. -/
def snprintfAt (b : Bytes) (i : Nat) (text : Bytes) : Bytes :=
  b.take i ++ text ++ 0 :: b.drop (i + text.length + 1)

/-- `char ans[128] = EMAGIC` with the address behind it. -/
def ansInit (addr : Bytes) : Bytes := (pad 128 (ascii "E69" ++ addr)).val

/-- The QUERY path appends at the end of the string and sends the terminator too. -/
def queryAnswer (addr text : Bytes) : Bytes :=
  let ans := ansInit addr
  let ans := snprintfAt ans (strlen ans) text
  ans.take (strlen ans + 1)

/-- `gw_pend_relay` writes behind the address and sends up to the first NUL. -/
def relayAnswer (q : UInt64) (text : Bytes) : Bytes :=
  let ans := snprintfAt (ansInit (put40 q)) 8 text
  ans.take (strlen ans)

namespace Gateway

/-- What a GW_R sends to one asker. -/
def relayTo (g : Gateway) (e : GwPend) (p : Bytes) : List Out :=
  if e.viaLink then
    match g.gwLinkFind e.asker with
    | some li => [g.gwLinkSendPkt li (slice p 0 12)]
    | none => []
  else
    [.answer e.asker e.addr (relayAnswer e.addr (epText (.v4 (arr p 6 4) (get16 p 10))))]

def gwPendRelay (g : Gateway) (p : Bytes) : Gateway × List Out :=
  match g.gwp.takeFirst fun e => e.addr = get40 p 1 with
  | none => (g, [])
  | some (e, gwp) => ({ g with gwp := gwp }, g.relayTo e p)

/-- Mesh control on the L2 side; `none` when the frame is not consumed. -/
def gwMeshHandle (g : Gateway) (buf : Bytes) (n : Nat) : Option (Gateway × List Out) :=
  let p := framePayload buf
  let plen := n - 14 - ipv69HeaderLen
  let mac := frameSrcMac buf
  if frameNextHeader buf ≠ ipv69NextControl ∨ plen < 1 then none
  else if byteAt p 0 = ctrlGwAnn then
    if g.gwn.entries.any fun x => x.mac = mac then
      some ({ g with gwn := g.gwn.update (fun x => x.mac = mac) fun x => { x with last := g.time } }, [])
    else some ({ g with gwn := g.gwn.push ⟨mac, g.time⟩ }, [])
  else if byteAt p 0 = ctrlGwQ ∧ 6 ≤ plen then
    let q := get40 p 1
    match (g.peerFindAddr q).bind (gwRBuild q) with
    | some rpkt => some (g, g.gwMeshSend rpkt)
    | none => some (g, [])
  else if byteAt p 0 = ctrlGwR ∧ 12 ≤ plen then some (g.gwPendRelay p)
  else none

def asked (g : Gateway) (q : UInt64) : Bool := g.gwp.entries.any fun e => e.addr = q

def gwMeshQuery (g : Gateway) (q : UInt64) (asker : SockAddr) : Gateway × List Out × Bool :=
  if g.gwn.isEmpty && g.links.isEmpty then (g, [], false)
  else if g.asked q then (g, [], true)
  else
    let qpkt := ctrlGwQ :: put40 q
    ({ g with gwp := g.gwp.push ⟨q, asker, false, g.time⟩ },
      (if g.gwn.isEmpty then [] else g.gwMeshSend qpkt) ++
        (List.range g.links.length).map fun i => g.gwLinkSendPkt i qpkt, true)

def routeFind (g : Gateway) (addr : UInt64) : Option GwRoute :=
  longest GwRoute.prefixLen (fun r => ipv69AddrInRange addr r.addr r.prefixLen) g.routes.entries

/-- `[GW_ROUTE][addr 5][prefix 1][ip4 4][port 2]`. -/
def routeLearn (g : Gateway) (p : Bytes) (li : Nat) : Gateway :=
  let addr := get40 p 1
  let prefixLen := (byteAt p 6).toNat
  let same := fun r : GwRoute => decide (r.addr = addr ∧ r.prefixLen = prefixLen ∧ r.li = li)
  if prefixLen = 0 ∨ 40 < prefixLen then g
  else if g.routes.entries.any same then
    { g with routes := g.routes.update same fun r => { r with last := g.time } }
  else { g with routes := g.routes.push ⟨addr, prefixLen, arr p 7 4, get16 p 11, li, g.time⟩ }

def routeExpire (g : Gateway) (now : Nat) : Gateway :=
  { g with routes := g.routes.expire fun r => 90 < now - r.last }

/-- The local clients with a plain IPv4 endpoint, to every link. -/
def gwRouteAnnounce (g : Gateway) : List Out :=
  g.peers.flatMap fun p =>
    match (if p.used then p.ep.bind epV4 else none) with
    | none => []
    | some (ip4, port) =>
      let pkt := ctrlGwRoute :: (put40 p.addr ++ [UInt8.ofNat p.prefixLen] ++ ip4.val ++ put16 port)
      (List.range g.links.length).map fun j => g.gwLinkSendPkt j pkt

variable (c : TweetNaCl)

def gwLinkAnnounce (g : Gateway) : List Out :=
  let head := ctrlGwAnn :: put16 g.cfg.port
  (List.range g.links.length).map fun i => g.gwLinkSendPkt i (head ++ (ed25519Sign c head g.cfg.sk).val)

/-- A GW_ANN marks its link when the signature is that of the configured key. -/
def linkAuth (g : Gateway) (li : Nat) (l : GwLink) (p : Bytes) (plen : Nat) : Gateway :=
  if plen < 3 + 64 then g
  else
    match g.allow l.pub.val 10 20 with
    | (g, false) => g
    | (g, true) =>
      if ed25519Verify c (slice p 0 3) (arr p 3 64) l.pub then
        { g with links := g.links.set li { l with last := g.time } }
      else g

/-- Mesh control from link `li`; `none` when the frame is not consumed. -/
def gwFedHandle (g : Gateway) (li : Nat) (l : GwLink) (buf : Bytes) (n : Nat) : Option (Gateway × List Out) :=
  let p := framePayload buf
  let plen := n - 14 - ipv69HeaderLen
  if frameNextHeader buf ≠ ipv69NextControl ∨ plen < 1 then none
  else if byteAt p 0 = ctrlGwAnn then some (g.linkAuth c li l p plen, [])
  else if byteAt p 0 = ctrlGwQ ∧ 6 ≤ plen then
    let q := get40 p 1
    match g.peerFindAddr q with
    | some t =>
      match gwRBuild q t with
      | some rpkt => some (g, [g.gwLinkSendPkt li rpkt])
      | none => some (g, [])
    | none =>
      -- nothing is said of a GW_Q that is too long to be passed on: the source overruns its stack
      if 1 < g.links.length ∧ !g.asked q ∧ g.gwp.entries.length < 16 ∧ plen ≤ linkPktMax then
        some ({ g with gwp := g.gwp.push ⟨q, l.ep, true, g.time⟩ },
          (g.otherLinks li).map fun j => g.gwLinkSendPkt j (slice p 0 plen))
      else some (g, [])
  else if byteAt p 0 = ctrlGwR ∧ 12 ≤ plen then some (g.gwPendRelay p)
  else if byteAt p 0 = ctrlGwRoute ∧ 13 ≤ plen then some (g.routeLearn p li, [])
  else none

/-- The used slots with an endpoint, whom a broadcast goes to. -/
def clients (l : List Peer) : List Port := l.filterMap fun p => if p.used then p.ep.map .client else none

def allLinks (g : Gateway) : List Port := (List.range g.links.length).map .link

/-- The received frame, as it came, to each of the ports. -/
def relays (frame : Bytes) (ports : List Port) : List Out := ports.map fun via => .relay via frame

/-- A data frame from link `li`. -/
def gwFedData (g : Gateway) (li : Nat) (buf : Bytes) (n : Nat) : Gateway × List Out :=
  let frame := buf.take n
  let dst := frameDest buf
  if !g.classOk buf then (g, [])
  else if frameDstMac buf = bcastMac then
    match g.allow (frameSrcMac buf).val 20 40 with
    | (g, false) => (g, [])
    | (g, true) => (g, relays frame (clients g.peers))
  else
    let p := (g.peerFindMac (frameDstMac buf)).or (g.peerFindAddr dst)
    match p.bind Peer.ep with
    | some ep => (g, relays frame [.client ep])
    | none =>
      if p.isSome && g.cfg.l2.isSome then (g, relays frame [.l2])
      else
        match (g.routeFind dst).filter fun r => r.li ≠ li with
        | some r => (g, relays frame [.link r.li])
        | none => (g, relays frame ((g.otherLinks li).map .link))

/-- Every 30 s, and every 2 s during the first 6 s. -/
def annDue (g : Gateway) : Bool := (if g.time - g.cfg.boot < 6 then 2 else 30) ≤ g.time - g.lastAnn

def announce (g : Gateway) : List Out :=
  g.gwMeshSend (ctrlGwAnn :: put16 g.cfg.port) ++
    if g.links.isEmpty then [] else g.gwLinkAnnounce c ++ g.gwRouteAnnounce

def pendExpire (g : Gateway) (now : Nat) : Gateway := { g with gwp := g.gwp.expire fun e => 2 < now - e.ts }

/-- The announcements, the expiries and the prompt route announcement in front of the poll. -/
def housekeeping (g : Gateway) : Gateway × List Out :=
  let prompt := g.routesDirty && !g.links.isEmpty
  let g' := { g with lastAnn := if g.annDue then g.time else g.lastAnn, routesDirty := g.routesDirty && !prompt }
  ((g'.pendExpire g.time).routeExpire g.time,
    (if g.annDue then g.announce c else []) ++ if prompt then g.gwRouteAnnounce else [])

/-- The hole-punch introduction of the asker, sent to the peer asked for. -/
def gwCall (g : Gateway) (asker : Peer) (q : UInt64) (ep : SockAddr) : List Out :=
  match asker.ep.bind epV4 with
  | none => []
  | some (a4, aport) =>
    [.control (.client ep)
      (g.controlFrame q (ctrlGwCall :: (put40 asker.addr ++ a4.val ++ put16 aport)))]

end Gateway

def isQuery (buf : Bytes) (n : Nat) : Prop := 8 ≤ n ∧ slice buf 0 3 = ascii "Q69"

instance (buf : Bytes) (n : Nat) : Decidable (isQuery buf n) := inferInstanceAs (Decidable (_ ∧ _))

namespace Gateway

variable (c : TweetNaCl)

/-- "Q69" and an address. The rate limit takes its key from bytes the datagram need not have. -/
def query (g : Gateway) (ep : SockAddr) (buf : Bytes) : Gateway × List Out :=
  match g.allow (slice buf 20 6) 20 40 with
  | (g, false) => (g, [])
  | (g, true) =>
    let qaddr := get40 buf 3
    let addr := slice buf 3 5
    let asker := g.peerFindEndpoint ep
    let q := (g.peerFindAddr qaddr).bind Peer.ep
    let r := if q.isSome then none else g.routeFind qaddr
    let routable := fun a : Peer =>
      g.cfg.allowPrivate || (ipv69AddrClass qaddr = .C && ipv69AddrClass a.addr = .C)
    let no : Out := .negative ep qaddr (queryAnswer addr [45])
    match asker with
    | none => (g, [no])
    | some a =>
      match q, r with
      | some found, _ =>
        if routable a then
          (g, g.gwCall a qaddr found ++ [.answer ep qaddr (queryAnswer addr (epText found))])
        else (g, [no])
      | none, some r =>
        if routable a then (g, [.answer ep qaddr (queryAnswer addr (epText (.v4 r.ip r.port)))])
        else (g, [no])
      | none, none =>
        if g.gwn.isEmpty && g.links.isEmpty then (g, [no])
        else
          let (g, outs, _) := g.gwMeshQuery qaddr ep
          (g, outs)

/-- A frame of a client, after learning and both checks; `false` when nobody took it. -/
def udpForward (g : Gateway) (ep : SockAddr) (buf : Bytes) (n : Nat) : Gateway × List Out × Bool :=
  let frame := buf.take n
  let dst := frameDest buf
  let toL2 : List Port := if g.cfg.l2.isSome then [.l2] else []
  if frameDstMac buf = bcastMac then
    match g.allow (frameSrcMac buf).val 20 40 with
    | (g, false) => (g, [], true)
    | (g, true) =>
      let others :=
        match g.peers.findIdx? fun p => p.used && p.ep = some ep with
        | some i => g.peers.eraseIdx i
        | none => g.peers
      (g, relays frame (clients others ++ toL2 ++ g.allLinks), true)
  else
    match (g.peerFindMac (frameDstMac buf)).or (g.peerFindAddr dst) with
    | some p =>
      match p.ep with
      | some e => (g, relays frame [.client e], true)
      | none => (g, relays frame toL2, true)
    | none =>
      if g.cfg.l2.isSome then (g, relays frame [.l2], true)
      else
        match g.routeFind dst with
        | some r => (g, relays frame [.link r.li], true)
        | none => (g, relays frame g.allLinks, !g.links.isEmpty)

def ethertypeOk (buf : Bytes) (n : Nat) : Bool := 14 + ipv69HeaderLen + 1 ≤ n && get16 buf 12 = 0x6969

/-- The UDP side; `false` when the loop goes on to the L2 side. -/
def udp (g : Gateway) (ep : SockAddr) (buf : Bytes) (n : Nat) : Gateway × List Out × Bool :=
  if n = 0 then (g, [], true)
  else if isQuery buf n then
    let (g, outs) := g.query ep buf
    (g, outs, true)
  else if !ethertypeOk buf n then (g, [], true)
  else
    match g.gwLinkFind ep with
    | some li =>
      match g.links[li]? with
      | none => (g, [], true)
      | some l =>
        let (g, outs) := (g.gwFedHandle c li l buf n).getD (g.gwFedData li buf n)
        (g, outs, true)
    | none =>
      let g := g.learn c buf n (some ep)
      if !g.gwSrcOk buf then (g, [], true)
      else if !g.classOk buf then (g, [], true)
      else g.udpForward ep buf n

/-- A frame of the L2 bridge, after learning and both checks. -/
def l2Forward (g : Gateway) (buf : Bytes) (n : Nat) : Gateway × List Out :=
  let frame := buf.take n
  match (if frameDstMac buf = bcastMac then none else g.peerFindMac (frameDstMac buf)) with
  | none =>
    match g.allow (frameSrcMac buf).val 20 40 with
    | (g, false) => (g, [])
    | (g, true) => (g, relays frame (clients g.peers ++ g.allLinks))
  | some p =>
    match p.ep with
    | some e => (g, relays frame [.client e])
    | none => (g, [])

def l2 (g : Gateway) (buf : Bytes) (n : Nat) : Gateway × List Out :=
  if !ethertypeOk buf n then (g, [])
  else
    match g.gwMeshHandle buf n with
    | some r => r
    | none =>
      if !g.classOk buf then (g, [])
      else
        let g := g.learn c buf n none
        if !g.gwSrcOk buf then (g, []) else g.l2Forward buf n

/-- `recvfrom` into the one receive buffer, which keeps what is behind the datagram. -/
def recvInto (g : Gateway) (data : Bytes) : Gateway :=
  let d := data.take 1700
  { g with buf := d ++ g.buf.drop d.length }

end Gateway

/-- What the environment decides about one round: the milliseconds before it and in its
poll, and what the two sockets then hold. -/
structure Round where
  elapsed : Nat
  waited : Nat
  udp : Option (SockAddr × Bytes)
  l2 : Option Bytes

namespace Gateway

variable (c : TweetNaCl)

def wait (g : Gateway) (ms : Nat) : Gateway := { g with clock := g.clock + ms }

/-- The L2 socket is read only with a bridge; a frame that is not read stays in it. -/
def l2Side (g : Gateway) (r : Round) : Gateway × List Out :=
  match r.l2 with
  | none => (g, [])
  | some data =>
    if g.cfg.l2.isNone then (g, [])
    else
      let g := g.recvInto data
      g.l2 c g.buf (min data.length 1700)

/-- The gateway when its poll returns. -/
def polled (g : Gateway) (r : Round) : Gateway := ((g.wait r.elapsed).housekeeping c).1.wait r.waited

def round (g : Gateway) (r : Round) : Gateway × List Out :=
  let out := ((g.wait r.elapsed).housekeeping c).2
  match r.udp with
  | none =>
    let side := (g.polled c r).l2Side c r
    (side.1, out ++ side.2)
  | some (ep, data) =>
    let g := (g.polled c r).recvInto data
    let x := g.udp c ep g.buf (min data.length 1700)
    if x.2.2 then (x.1, out ++ x.2.1)
    else
      let side := x.1.l2Side c r
      (side.1, out ++ x.2.1 ++ side.2)

def next (g : Gateway) (r : Round) : Gateway := (g.round c r).1

def sent (g : Gateway) (r : Round) : List Out := (g.round c r).2

end Gateway

end Gw
