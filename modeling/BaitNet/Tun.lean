import BaitNet.Dhcp
import BaitNet.Runs
import BaitNet.Text

/-!
# The address client

`ip69d.c`: the command line of `cmd_tun`, the acquisition of a lease with its retries, and
the loop that renews it. TAP devices and the status socket are left out, as is the waiting
time of a try: a receive that times out is an event of its own.
-/
namespace Tun

open Wire Link Crypto Text Runs
open Dhcp (ctrlDhcpDiscover ctrlDhcpOffer ctrlDhcpRequest ctrlDhcpAck ipv69BcastAddr mac1Len pubLen sigLen)

def hexVal (d : UInt8) : Option UInt8 :=
  if 48 ≤ d ∧ d ≤ 57 then some (d - 48)
  else if 65 ≤ d ∧ d ≤ 70 then some (d - 55)
  else if 97 ≤ d ∧ d ≤ 102 then some (d - 87)
  else none

/-- `sscanf` with `%2x`, cut to a byte: white space, a sign, at most two characters. Of `0x`
glibc keeps the 0. -/
def scanHex2 (s : Bytes) : Option UInt8 :=
  match (s.dropWhile isSpace).take 2 with
  | [a] => hexVal a
  | [a, b] =>
    if a = 43 then hexVal b
    else if a = 45 then (hexVal b).map fun v => 0 - v
    else (hexVal a).map fun x => ((hexVal b).map fun y => 16 * x + y).getD x
  | _ => none

/-- `hex_decode` where the caller wants exactly 32 bytes. -/
def hexDecode32 (s : Bytes) : Option (Arr 32) :=
  if s.length ≠ 64 then none
  else ((List.range 32).mapM fun j => scanHex2 (s.drop (2 * j))).map (pad 32)

/-- What the transport knows of its socket and of the keys. -/
structure Transport where
  opened : Bool
  ifindex : Int
  mac : Arr 6
  ifname : Bytes
  sk : Arr 64
  hasSk : Bool
  serverPub : Arr 32
  hasServerPub : Bool
  deriving DecidableEq

/-- `memset(&t, 0, sizeof(t))`, with `t.fd = -1`. -/
def Transport.zero : Transport := ⟨false, 0, .zero 6, [], .zero 64, false, .zero 32, false⟩

/-- The variables that the options set. -/
structure Opts where
  ifname : Option Bytes
  tapname : Option Bytes
  sockpath : Bytes
  t : Transport
  deriving DecidableEq

variable (c : TweetNaCl)

def positional (o : Opts) (a : Bytes) : Option Opts :=
  if o.ifname = none then some { o with ifname := some a } else none

/-- The option loop from `argv[1]` on; `none` for a usage error or a bad key. -/
def parseArgs : Opts → List Bytes → Option Opts
  | o, [] => some o
  | o, [a] => positional o a
  | o, a :: v :: rest =>
    if a = ascii "--tap" then parseArgs { o with tapname := some v } rest
    else if a = ascii "--sock" then parseArgs { o with sockpath := v } rest
    else if a = ascii "--key" then
      match hexDecode32 v with
      | none => none
      | some seed =>
        parseArgs { o with t := { o.t with sk := pad 64 (seed.val ++ (c.seedToPk seed).val), hasSk := true } } rest
    else if a = ascii "--server-pub" then
      match hexDecode32 v with
      | none => none
      | some pub => parseArgs { o with t := { o.t with serverPub := pub, hasServerPub := true } } rest
    else
      match positional o a with
      | none => none
      | some o => parseArgs o (v :: rest)

/-- The number of an interface as `int inum = atoi(ifname)` reads it. -/
def inum (ifname : Bytes) : Int := (atoi ifname).bmod (2 ^ 32)

/-- What `cmd_tun` finds around it: the content of its stack frame, the interfaces and the
keyring. -/
structure Env where
  stack : Transport
  ifNameToIndex : Bytes → Nat
  keyring : Option (Arr 64)

/-- `cmd_tun` up to the first acquisition; `none` where it returns 1 before. -/
def startTransport (env : Env) (argv : List Bytes) : Option Transport :=
  match parseArgs c ⟨none, none, ascii "/tmp/ip69.sock", env.stack⟩ (argv.drop 1) with
  | none => none
  | some o =>
    match o.ifname with
    | none => none
    | some ifname =>
      let ifindex := if inum ifname ≠ 0 then inum ifname else env.ifNameToIndex ifname
      let t := { Transport.zero with ifindex := ifindex, ifname := ifname }
      if ifindex = 0 then none
      else if t.hasSk then some t
      else env.keyring.map fun sk => { t with sk := sk, hasSk := true }

structure Lease where
  addr : UInt64
  leaseSec : UInt32
  expiry : Nat
  deriving DecidableEq

def dhcpAttempts : Nat := 3

/-- A receive that ended at `now`, with a frame or without. -/
structure Rx where
  now : Nat
  frame : Option Bytes

/-- What the network does in one acquisition: the MAC where a socket binds, the sends that
get out, the receives in their order. -/
structure Air where
  binds : Option (Arr 6)
  discoverSent : Bool
  requestSent : Bool
  rxs : List Rx

def signMsg (t : Transport) (msg : Bytes) : Bytes :=
  if t.hasSk then msg ++ (arr t.sk.val 32 32).val ++ (ed25519Sign c msg t.sk).val else msg

def withMac1 (msg : Bytes) : Bytes := msg ++ (mac1Compute c (mac1Key c ipv69BcastAddr) msg).val

/-- The frame that `dhcp_raw_send` builds. -/
def rawFrame (mac : Arr 6) (pkt : Bytes) : Bytes :=
  bcastMac.val ++ mac.val ++ put16 0x6969 ++
    ([0x69, 0] ++ put16 (.ofNat pkt.length) ++ put16 0 ++ [ipv69NextControl, 64, 0, 0] ++ put16 0 ++ put16 0 ++
      [0, 0, 0, 0] ++ put40 0 ++ [0, 0] ++ put40 ipv69BcastAddr ++ [0, 0]) ++ pkt

/-- `check_reply`. -/
def checkReply (t : Transport) (msg : Bytes) : Bool :=
  let body := msg.length - 32 - 64
  if !t.hasServerPub then true
  else if msg.length < 16 + 32 + 64 then false
  else if arr msg body 32 ≠ t.serverPub then false
  else ed25519Verify c (slice msg 0 body) (arr msg (body + 32) 64) t.serverPub

inductive RawRecv where
  | failed
  | other
  | msg (buf : Bytes)

/-- One round of `dhcp_raw_recv`. -/
def dhcpRawRecv (mac : Arr 6) : Option Bytes → RawRecv
  | none => .failed
  | some f =>
    if f.length < 14 + ipv69HeaderLen + 7 then .failed
    else if frameNextHeader f ≠ ipv69NextControl then .other
    else if arr (framePayload f) 1 6 = mac then .msg (framePayload f)
    else .other

inductive Reply where
  | got (msg : Bytes) (now : Nat)
  | invalid
  | timeout

/-- The wait for a reply of one type, with the tries left and the receives left. -/
def await (t : Transport) (type : UInt8) : List Rx → Nat → Reply × List Rx × Nat
  | rxs, 0 => (.timeout, rxs, 0)
  | [], _ + 1 => (.timeout, [], 0)
  | rx :: rxs, n + 1 =>
    match dhcpRawRecv t.mac rx.frame with
    | .failed => await t type rxs n
    | .other => await t type rxs (n + 1)
    | .msg buf =>
      if buf.length < 16 ∨ byteAt buf 0 ≠ type then await t type rxs (n + 1)
      else if !checkReply c t buf then (.invalid, rxs, n + 1)
      else (.got buf rx.now, rxs, n + 1)

/-- The result of `dhcp_acquire`: the frames it sent, the replies it took, its verdict. -/
structure Acquired where
  t : Transport
  lease : Lease
  sent : List Bytes
  offer : Option Bytes
  ack : Option Bytes
  ok : Bool

/-- A first send and the resends of the tries used up. -/
def sends (frame : Bytes) (tries : Nat) : List Bytes := List.replicate (dhcpAttempts + 1 - max 1 tries) frame

def dhcpRequest (t : Transport) (l : Lease) (sent : List Bytes) (offer : Bytes) (air : Air) (rxs : List Rx) : Acquired :=
  let frame := rawFrame t.mac (withMac1 c (signMsg c t (ctrlDhcpRequest :: (t.mac.val ++ put40 l.addr))))
  if !air.requestSent then ⟨t, l, sent, some offer, none, false⟩
  else
    match await c t ctrlDhcpAck rxs dhcpAttempts with
    | (.got ack now, _, k) =>
      ⟨t, { l with expiry := now + l.leaseSec.toNat }, sent ++ sends frame k, some offer, some ack, true⟩
    | (_, _, k) => ⟨t, l, sent ++ sends frame k, some offer, none, false⟩

/-- `dhcp_raw_open` looks the interface up by its name, also where `cmd_tun` took a number. -/
def dhcpRawOpen (ifNameToIndex : Bytes → Nat) (ifname : Bytes) (air : Air) : Option (Arr 6) :=
  if ifNameToIndex ifname = 0 then none else air.binds

/-- The transport with its socket; `none` where that cannot be opened. -/
def openTransport (ifNameToIndex : Bytes → Nat) (t : Transport) (air : Air) : Option Transport :=
  if t.opened then some t
  else (dhcpRawOpen ifNameToIndex t.ifname air).map fun mac => { t with opened := true, mac := mac }

def dhcpAcquire (ifNameToIndex : Bytes → Nat) (t : Transport) (l : Lease) (air : Air) : Acquired :=
  match openTransport ifNameToIndex t air with
  | none => ⟨t, l, [], none, none, false⟩
  | some t =>
    let frame := rawFrame t.mac (withMac1 c (signMsg c t (ctrlDhcpDiscover :: t.mac.val)))
    if !air.discoverSent then ⟨t, l, [], none, none, false⟩
    else
      match await c t ctrlDhcpOffer air.rxs dhcpAttempts with
      | (.got offer now, rxs, k) =>
        dhcpRequest c t ⟨get40 offer 7, get32 offer 12, now + (get32 offer 12).toNat⟩ (sends frame k) offer air rxs
      | (_, _, k) => ⟨t, l, sends frame k, none, none, false⟩

inductive Phase where
  | starting | serving | exited
  deriving DecidableEq

/-- An address that the daemon holds, with the replies it took it from. -/
structure Install where
  addr : UInt64
  offer : Bytes
  ack : Option Bytes

structure Daemon where
  t : Transport
  lease : Lease
  phase : Phase
  installs : List Install

def start (env : Env) (argv : List Bytes) (lease : Lease) : Option Daemon :=
  (startTransport c env argv).map fun t => ⟨t, lease, .starting, []⟩

/-- One acquisition. The first one must succeed; a renewal has changed the address as soon
as it took an OFFER. -/
def step (env : Env) (d : Daemon) (air : Air) : Daemon :=
  match d.phase with
  | .exited => d
  | .starting =>
    let r := dhcpAcquire c env.ifNameToIndex d.t d.lease air
    if r.ok then
      ⟨r.t, r.lease, .serving, d.installs ++ r.offer.toList.map fun o => ⟨r.lease.addr, o, r.ack⟩⟩
    else { d with phase := .exited }
  | .serving =>
    let r := dhcpAcquire c env.ifNameToIndex d.t d.lease air
    ⟨r.t, r.lease, .serving, d.installs ++ r.offer.toList.map fun o => ⟨r.lease.addr, o, r.ack⟩⟩

/-- The message ends in the key `pub` and a signature that verifies under it. -/
def signedBy (pub : Arr 32) (msg : Bytes) : Bool :=
  decide (16 + 32 + 64 ≤ msg.length) && arr msg (msg.length - 32 - 64) 32 = pub &&
    ed25519Verify c (slice msg 0 (msg.length - 32 - 64)) (arr msg (msg.length - 32 - 64 + 32) 64) pub

/-- Every address that the daemon holds, in any run, comes from replies that `pub` signed. -/
def Guarded (env : Env) (argv : List Bytes) (pub : Arr 32) : Prop :=
  ∀ lease d, start c env argv lease = some d → ∀ airs, ∀ x ∈ (run (step c env) d airs).installs,
    signedBy c pub x.offer = true ∧ ∃ ack, x.ack = some ack ∧ signedBy c pub ack = true

/-- The command line comes to no acquisition: a usage error, a bad key, no keyring, or no
interface of that name, in numbers or not. -/
def Rejected (env : Env) (argv : List Bytes) : Prop :=
  match parseArgs c ⟨none, none, ascii "/tmp/ip69.sock", env.stack⟩ (argv.drop 1) with
  | none => True
  | some o =>
    match o.ifname with
    | none => True
    | some ifname => env.ifNameToIndex ifname = 0 ∨ env.keyring = none

/-- Whatever the options said, no key of a server survives them. -/
theorem startTransport_cases (env : Env) (argv : List Bytes) :
    startTransport c env argv = none ∧ Rejected c env argv ∨
      ∃ t, startTransport c env argv = some t ∧ t.hasServerPub = false ∧ t.opened = false ∧
        (Rejected c env argv ↔ env.ifNameToIndex t.ifname = 0) := by
  rw [startTransport, Rejected]
  cases parseArgs c ⟨none, none, ascii "/tmp/ip69.sock", env.stack⟩ (argv.drop 1) with
  | none => exact .inl ⟨rfl, trivial⟩
  | some o =>
    dsimp only
    cases o.ifname with
    | none => exact .inl ⟨rfl, trivial⟩
    | some ifname =>
      dsimp only
      cases hkey : env.keyring with
      | none => exact .inl ⟨by simp [Transport.zero], .inr rfl⟩
      | some sk =>
        by_cases hzero : (if inum ifname ≠ 0 then inum ifname else (env.ifNameToIndex ifname : Int)) = 0
        · refine .inl ⟨if_pos hzero, .inl ?_⟩
          by_cases hnum : inum ifname = 0
          · rw [if_neg (not_not.mpr hnum)] at hzero
            exact Int.ofNat_eq_zero.mp hzero
          · rw [if_pos hnum] at hzero
            exact absurd hzero hnum
        · refine .inr ⟨_, (if_neg hzero).trans rfl, rfl, rfl, ?_⟩
          simp

theorem run_exited (env : Env) (airs : List Air) {d : Daemon} (h : d.phase = .exited) :
    (run (step c env) d airs).installs = d.installs := by
  induction airs with
  | nil => rfl
  | cons air airs ih =>
    have hstay : step c env d air = d := by rw [step, h]
    rw [run_cons, hstay, ih]

/-- Without an interface of the name the first acquisition fails, and the daemon exits. -/
theorem run_nameless {env : Env} {t : Transport} (hopened : t.opened = false) (hname : env.ifNameToIndex t.ifname = 0)
    (l : Lease) (airs : List Air) : (run (step c env) ⟨t, l, .starting, []⟩ airs).installs = [] := by
  cases airs with
  | nil => rfl
  | cons air airs =>
    have hexit : step c env ⟨t, l, .starting, []⟩ air = ⟨t, l, .exited, []⟩ := by
      simp only [step, dhcpAcquire, openTransport, hopened, dhcpRawOpen, hname, if_true, Option.map_none,
        Bool.false_eq_true, if_false]
    rw [run_cons, hexit, run_exited c env airs rfl]

theorem checkReply_eq {t : Transport} (h : t.hasServerPub = true) (msg : Bytes) :
    checkReply c t msg = signedBy c t.serverPub msg := by
  rw [checkReply, signedBy, h]
  by_cases hlen : msg.length < 16 + 32 + 64
  · simp [hlen]
  · by_cases hkey : arr msg (msg.length - 32 - 64) 32 = t.serverPub
    · simp [hlen, hkey, Nat.le_of_not_lt hlen]
    · simp [hkey]

/-- The induction is on the receives: only the branch that checks the reply ends in one. -/
theorem await_got {t : Transport} {type : UInt8} {rxs rest : List Rx} {n k now : Nat} {msg : Bytes}
    (h : await c t type rxs n = (.got msg now, rest, k)) : checkReply c t msg = true := by
  induction rxs generalizing n with
  | nil => cases n <;> cases h
  | cons rx rxs ih =>
    cases n with
    | zero => cases h
    | succ n =>
      rw [await] at h
      cases hrecv : dhcpRawRecv t.mac rx.frame with
      | failed =>
        rw [hrecv] at h
        exact ih h
      | other =>
        rw [hrecv] at h
        exact ih h
      | msg buf =>
        rw [hrecv] at h
        dsimp only at h
        split at h
        · exact ih h
        split at h
        · cases h
        · rename_i hcheck
          obtain ⟨hgot, -⟩ := Prod.mk.inj h
          obtain ⟨rfl, -⟩ := Reply.got.inj hgot
          simpa using hcheck

theorem request_got {t : Transport} {l : Lease} {sent : List Bytes} {offer : Bytes} {air : Air} {rxs : List Rx}
    (h : (dhcpRequest c t l sent offer air rxs).ok = true) :
    ∃ ack, (dhcpRequest c t l sent offer air rxs).ack = some ack ∧ checkReply c t ack = true := by
  rw [dhcpRequest] at h ⊢
  split at h
  · cases h
  · rename_i hsent
    rw [if_neg hsent]
    cases hwait : await c t ctrlDhcpAck rxs dhcpAttempts with
    | mk reply r =>
      rw [hwait] at h
      cases reply with
      | got ack now => exact ⟨ack, rfl, await_got c hwait⟩
      | invalid => cases h
      | timeout => cases h

theorem request_offer (t : Transport) (l : Lease) (sent : List Bytes) (offer : Bytes) (air : Air) (rxs : List Rx) :
    (dhcpRequest c t l sent offer air rxs).offer = some offer := by
  rw [dhcpRequest]
  split
  · rfl
  · cases await c t ctrlDhcpAck rxs dhcpAttempts with
    | mk reply r => cases reply <;> rfl

/-- As long as the key is there, a lease is acquired from replies that it signed. -/
theorem dhcpAcquire_signed {index : Bytes → Nat} {t : Transport} {l : Lease} {air : Air} (hguard : t.hasServerPub = true)
    (h : (dhcpAcquire c index t l air).ok = true) :
    ∃ offer ack, (dhcpAcquire c index t l air).offer = some offer ∧ (dhcpAcquire c index t l air).ack = some ack ∧
      signedBy c t.serverPub offer = true ∧ signedBy c t.serverPub ack = true := by
  rw [dhcpAcquire] at h ⊢
  cases hopen : openTransport index t air with
  | none =>
    rw [hopen] at h
    cases h
  | some t₁ =>
    have hkeys : t₁.hasServerPub = t.hasServerPub ∧ t₁.serverPub = t.serverPub := by
      rw [openTransport] at hopen
      split at hopen
      · obtain rfl := Option.some.inj hopen
        exact ⟨rfl, rfl⟩
      · obtain ⟨mac, -, rfl⟩ := Option.map_eq_some_iff.mp hopen
        exact ⟨rfl, rfl⟩
    rw [hopen] at h
    dsimp only at h ⊢
    split at h
    · cases h
    · rename_i hsent
      rw [if_neg hsent]
      cases hwait : await c t₁ ctrlDhcpOffer air.rxs dhcpAttempts with
      | mk reply r =>
        rw [hwait] at h
        cases reply with
        | got offer now =>
          obtain ⟨ack, hack, hcheck⟩ := request_got c h
          have hoffer := await_got c hwait
          rw [checkReply_eq c (hkeys.1.trans hguard), hkeys.2] at hcheck hoffer
          exact ⟨offer, ack, request_offer c _ _ _ _ _ _, hack, hoffer, hcheck⟩
        | invalid => cases h
        | timeout => cases h

/-- An OFFER or ACK without a signature, for the station of all-zero MAC. -/
def rogueMsg (type : UInt8) : Bytes := type :: ((Arr.zero 6).val ++ put40 0x66 ++ put32 60)

def rogueFrame (type : UInt8) : Bytes := rawFrame (.zero 6) (rogueMsg type)

def rogueAir : Air :=
  ⟨some (.zero 6), true, true, [⟨0, some (rogueFrame ctrlDhcpOffer)⟩, ⟨0, some (rogueFrame ctrlDhcpAck)⟩]⟩

theorem recv_rogue (type : UInt8) : dhcpRawRecv (.zero 6) (some (rogueFrame type)) = .msg (rogueMsg type) := rfl

theorem await_rogue {t : Transport} (hmac : t.mac = .zero 6) (hguard : t.hasServerPub = false) (type : UInt8)
    (now : Nat) (rxs : List Rx) (n : Nat) :
    await c t type (⟨now, some (rogueFrame type)⟩ :: rxs) (n + 1) = (.got (rogueMsg type) now, rxs, n + 1) := by
  have hfits : ¬ ((rogueMsg type).length < 16 ∨ byteAt (rogueMsg type) 0 ≠ type) := by
    rintro (hshort | htype)
    · exact absurd hshort (Nat.lt_irrefl 16)
    · exact htype rfl
  have hcheck : checkReply c t (rogueMsg type) = true := by
    rw [checkReply, hguard]
    rfl
  rw [await, hmac, recv_rogue]
  dsimp only
  rw [if_neg hfits, hcheck]
  rfl

theorem rogue_installs {env : Env} {t : Transport} (hguard : t.hasServerPub = false) (hopened : t.opened = false)
    (hname : env.ifNameToIndex t.ifname ≠ 0) (lease : Lease) :
    (step c env ⟨t, lease, .starting, []⟩ rogueAir).installs =
      [⟨0x66, rogueMsg ctrlDhcpOffer, some (rogueMsg ctrlDhcpAck)⟩] := by
  have hoffer := @await_rogue c { t with opened := true, mac := .zero 6 } rfl hguard ctrlDhcpOffer 0
    [⟨0, some (rogueFrame ctrlDhcpAck)⟩] 2
  have hack := @await_rogue c { t with opened := true, mac := .zero 6 } rfl hguard ctrlDhcpAck 0 [] 2
  have hopen : openTransport env.ifNameToIndex t rogueAir = some { t with opened := true, mac := .zero 6 } := by
    rw [openTransport, hopened, dhcpRawOpen, if_neg hname]
    rfl
  rw [step, dhcpAcquire, hopen]
  simp only [rogueAir, Bool.false_eq_true, if_false, Bool.not_true, dhcpAttempts, hoffer, dhcpRequest, hack]
  rfl

theorem rogue_unsigned (pub : Arr 32) (type : UInt8) : signedBy c pub (rogueMsg type) = false := rfl

theorem not_guarded {env : Env} {argv : List Bytes} {t : Transport} (ht : startTransport c env argv = some t)
    (hguard : t.hasServerPub = false) (hopened : t.opened = false) (hname : env.ifNameToIndex t.ifname ≠ 0) (pub : Arr 32) :
    ¬ Guarded c env argv pub := by
  intro hguarded
  have hd : start c env argv ⟨0, 0, 0⟩ = some ⟨t, ⟨0, 0, 0⟩, .starting, []⟩ := by
    rw [start, ht]
    rfl
  have hall := hguarded _ _ hd [rogueAir]
  rw [run_cons, run_nil, rogue_installs c hguard hopened hname] at hall
  have hsigned := (hall _ (List.mem_singleton_self _)).1
  rw [rogue_unsigned] at hsigned
  cases hsigned

/-- With or without `--server-pub`, only a command line that acquires nothing is guarded:
the key is cleared before the first acquisition, and any OFFER and ACK are taken. -/
theorem server_pub_guards_iff (env : Env) (argv : List Bytes) (pub : Arr 32) :
    Guarded c env argv pub ↔ Rejected c env argv := by
  rcases startTransport_cases c env argv with ⟨hnone, hrejected⟩ | ⟨t, ht, hguard, hopened, hname⟩
  · refine iff_of_true (fun lease d hd => ?_) hrejected
    rw [start, hnone] at hd
    cases hd
  · rw [hname]
    constructor
    · exact fun hguarded => by_contra fun hindex => not_guarded c ht hguard hopened hindex pub hguarded
    · intro hindex lease d hd airs x hx
      rw [start, ht] at hd
      obtain rfl := Option.some.inj hd
      rw [run_nameless c hopened hindex] at hx
      cases hx

def toyEnv : Env := ⟨Transport.zero, fun _ => 2, some (pad 64 [1])⟩

/-- `tun eth0 --server-pub 1111...`. -/
def toyArgv : List Bytes := [ascii "tun", ascii "eth0", ascii "--server-pub", List.replicate 64 49]

/-- The option is parsed, and an unsigned OFFER and ACK install an address all the same. -/
theorem rogue_server_believed :
    (parseArgs toy ⟨none, none, [], Transport.zero⟩ (toyArgv.drop 1)).map (fun o => (o.t.hasServerPub, o.t.serverPub)) =
        some (true, pad 32 (List.replicate 32 0x11)) ∧
      ¬ Guarded toy toyEnv toyArgv (pad 32 (List.replicate 32 0x11)) := by
  refine ⟨by decide +kernel, fun hguarded => ?_⟩
  have hstart : (startTransport toy toyEnv toyArgv).isSome = true := by decide +kernel
  rcases startTransport_cases toy toyEnv toyArgv with ⟨hnone, -⟩ | ⟨t, ht, hguard, hopened, -⟩
  · rw [hnone] at hstart
    cases hstart
  · exact not_guarded toy ht hguard hopened (Nat.succ_ne_zero 1) _ hguarded

end Tun
