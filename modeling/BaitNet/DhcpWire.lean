import BaitNet.DhcpAlloc
import BaitNet.DhcpGrants
import BaitNet.PyDhcp
import BaitNet.StreamReset

/-!
# The address server and its two clients on the wire

A signed DISCOVER or REQUEST of either client passes the server's checks and is read as it
was meant, and either client takes the server's OFFER or ACK. The address of an OFFER
arrives unless it has more than the 40 bits of the field.
-/
namespace Dhcp

open Wire Link Crypto Tables Interop

variable {nb : Py.PyNaCl} {c : TweetNaCl}

namespace Server

section Message

variable (seed : Arr 32) (mac : Arr 6) (ask : Ask)

theorem clientMsg_parts (body : Bytes) :
    clientMsg c seed body =
      signed c seed body ++ (mac1Compute c (mac1Key c ipv69BcastAddr) (signed c seed body)).val := rfl

theorem clientMsg_type : byteAt (clientMsg c seed (ask.body mac)) 0 = ask.ctype := rfl

theorem clientMsg_mac : msgMac (clientMsg c seed (ask.body mac)) = mac := by
  rw [clientMsg_parts, signed, msgMac, Ask.body, List.append_assoc, List.append_assoc, List.cons_append, List.append_assoc]
  exact (arr_append_right [ask.ctype] _ 1 6 le_rfl).trans (arr_append_exact mac _)

theorem clientMsg_addr {a : UInt64} (h : a.toNat < 2 ^ 40) :
    get40 (clientMsg c seed ((Ask.request a).body mac)) 7 = a := by
  have hfront : (ctrlDhcpRequest :: mac.val).length = 7 := by simp
  rw [clientMsg_parts, signed, List.append_assoc, List.append_assoc, show (Ask.request a).body mac =
    (ctrlDhcpRequest :: mac.val) ++ put40 a from rfl, List.append_assoc, get40_append_right _ _ _ hfront.le, hfront]
  exact get40_put40 a _ h

theorem clientMsg_pub (body : Bytes) : arr (clientMsg c seed body) body.length 32 = c.seedToPk seed :=
  signed_pub seed body _

theorem clientMsg_mac1 (body : Bytes) :
    mac1Verify c (mac1Key c ipv69BcastAddr)
      (slice (clientMsg c seed body) 0 ((clientMsg c seed body).length - mac1Len))
      (arr (clientMsg c seed body) ((clientMsg c seed body).length - mac1Len) mac1Len) = true := by
  have hlen : (clientMsg c seed body).length - mac1Len = (signed c seed body).length := by
    rw [clientMsg_length, signed_length, mac1Len]
    omega
  rw [hlen, clientMsg_parts, slice_append_exact, arr_append_right _ _ _ _ le_rfl, Nat.sub_self]
  exact (congrArg (mac1Verify c _ _) (arr_self _)).trans (mac1Verify_compute c _ _)

end Message

/-- The limit that the server keeps for a MAC. -/
def rateOf (s : Server) (mac : Arr 6) : List RateBucket × Bool := rateAllow s.rate s.nowMs (pad 8 mac.val) 10 20 1

/-- The signature check of a message of this key has something to pass: there is none, or the
key is on the list. -/
def Lists (s : Server) (pub : Arr 32) : Prop := s.cfg.authEnabled = true → s.known pub = true

theorem checkMsg_client {s : Server} {seed : Arr 32} {body : Bytes} (hbody : 7 ≤ body.length) (hlist : s.Lists (c.seedToPk seed))
    (mac : Arr 6) :
    s.checkMsg c (clientMsg c seed body) ((clientMsg c seed body).length - mac1Len) mac = (s, true) := by
  have hplen : (clientMsg c seed body).length - mac1Len = body.length + 96 := by
    rw [clientMsg_length, mac1Len]
    omega
  have hcut : body.length + 96 - pubLen - sigLen = body.length := by
    simp only [pubLen, sigLen]
    omega
  have hsig : arr (clientMsg c seed body) (body.length + pubLen) 64 = c.sign body seed := signed_sig seed body _
  have hsigned : slice (clientMsg c seed body) 0 body.length = body := signed_body seed body _
  rw [checkMsg, hplen, hcut, clientMsg_pub, hsig, hsigned, ed25519Verify, c.open_sign]
  cases hauth : s.cfg.authEnabled with
  | false => rfl
  | true =>
    have hlong : ¬ body.length + 96 < 1 + 6 + pubLen + sigLen := by
      simp only [pubLen, sigLen]
      omega
    rw [Bool.not_true, if_neg Bool.false_ne_true, if_neg hlong, if_pos (hlist hauth)]

/-- Past the rate limit only the MAC list stands against a signed message of a listed key. -/
theorem vet_client {s : Server} {seed : Arr 32} {mac : Arr 6} {ask : Ask} (hlist : s.Lists (c.seedToPk seed))
    (hrate : (s.rateOf mac).2 = true) :
    s.vet c ipv69BcastAddr (clientMsg c seed (ask.body mac)) =
      ({ s with rate := (s.rateOf mac).1 }, s.macAllowed mac) := by
  have hbody := ask.body_length mac
  have hlen := clientMsg_length (c := c) seed (ask.body mac)
  have htype : isRequestType (byteAt (clientMsg c seed (ask.body mac)) 0) = true := by
    rw [clientMsg_type]
    cases ask with
    | discover => rfl
    | request a => rfl
  have hfront : ¬ ((clientMsg c seed (ask.body mac)).length < 7 + mac1Len ∨
      isRequestType (byteAt (clientMsg c seed (ask.body mac)) 0) = false) := by
    rw [htype, hlen, mac1Len]
    rintro (hshort | hno)
    · omega
    · cases hno
  rw [vet]
  dsimp only
  rw [if_neg hfront, clientMsg_mac1, if_neg Bool.true_eq_false.mp, clientMsg_mac]
  revert hrate
  rw [rateOf]
  cases rateAllow s.rate s.nowMs (pad 8 mac.val) 10 20 1 with
  | mk rate allowed =>
    rintro rfl
    have hsame : macAllowed { s with rate := rate } mac = s.macAllowed mac := rfl
    dsimp only
    rw [Bool.not_true, if_neg Bool.false_ne_true, hsame]
    cases s.macAllowed mac with
    | false => rfl
    | true =>
      rw [Bool.not_true, if_neg Bool.false_ne_true]
      exact checkMsg_client (s := { s with rate := rate }) hbody.1 hlist mac

theorem leaseAlloc_offers {s s' : Server} {mac : Arr 6} {now : Nat} (h : s.leaseAlloc mac now = (s', true)) :
    s'.cfg = s.cfg ∧ ∃ i l, s'.Holds mac i l ∧ l.addr = s.offerAddr mac now := by
  cases s.leaseAlloc_cases mac now with
  | inl hfull =>
    rw [hfull.2] at h
    cases h
  | inr hgot =>
    obtain ⟨i, l, l₁, hob, heq⟩ := hgot
    rw [heq] at h
    rw [← (Prod.mk.inj h).1]
    exact ⟨rfl, i, l₁, hob.holds, hob.offerAddr.symm⟩

/-- What a server that sent a reply has written: a lease of the MAC with the address of the
reply, under the key behind the first `k` bytes if the message is long enough for one. -/
def Recorded (s : Server) (buf : Bytes) (k : Nat) (mac : Arr 6) (a : UInt64) : Prop :=
  ∃ l, s.leaseAt mac = some l ∧ l.addr = a ∧ (k + pubLen + sigLen + mac1Len ≤ buf.length → l.key = arr buf k 32)

theorem Holds.written {s : Server} {mac : Arr 6} {i : Nat} {l : Lease} (h : s.Holds mac i l) (f : Lease → Lease)
    (hused : (f l).used = l.used) (hmac : (f l).mac = l.mac) :
    s.setLease mac f = { s with leases := s.leases.set i (f l) } ∧
      Holds { s with leases := s.leases.set i (f l) } mac i (f l) :=
  ⟨h.setLease f, holds_set (f l) h.slot (.inl h.found) (hused.trans h.used) (hmac.trans h.owner)⟩

theorem discover_reply (s : Server) (buf : Bytes) (mac : Arr 6) (now : Nat) :
    ∀ g ∈ (s.discover c buf mac now).2, g = grantMsg c s.cfg ctrlDhcpOffer mac (s.offerAddr mac now) ∧
      (s.discover c buf mac now).1.Recorded buf 7 mac (s.offerAddr mac now) := by
  intro g hg
  rw [discover] at hg ⊢
  cases halloc : s.leaseAlloc mac now with
  | mk s' ok =>
    rw [halloc] at hg
    cases ok with
    | false => cases hg
    | true =>
      obtain ⟨hcfg, i, l, hl, haddr⟩ := leaseAlloc_offers halloc
      dsimp only at hg ⊢
      rw [hl.leaseAt] at hg ⊢
      dsimp only at hg ⊢
      by_cases hlong : 7 + pubLen + sigLen + mac1Len ≤ buf.length
      · obtain ⟨hset, hkept⟩ := hl.written (fun l => { l with key := arr buf 7 32 }) rfl rfl
        rw [if_pos hlong, hset] at hg ⊢
        exact ⟨(List.mem_singleton.mp hg).trans (by rw [hcfg, haddr]), _, hkept.leaseAt, haddr, fun _ => rfl⟩
      · rw [if_neg hlong] at hg ⊢
        exact ⟨(List.mem_singleton.mp hg).trans (by rw [hcfg, haddr]), l, hl.leaseAt, haddr, fun h => absurd h hlong⟩

theorem request_reply (s : Server) (buf : Bytes) (mac : Arr 6) (now : Nat) :
    ∀ g ∈ (s.request c buf mac now).2, g = grantMsg c s.cfg ctrlDhcpAck mac (get40 buf 7) ∧
      (s.request c buf mac now).1.Recorded buf 12 mac (get40 buf 7) := by
  intro g hg
  rw [request_eq] at hg ⊢
  cases halloc : s.leaseAlloc mac now with
  | mk s' ok =>
    rw [halloc] at hg
    cases ok with
    | false => cases hg
    | true =>
      obtain ⟨hcfg, i, l, hl, -⟩ := leaseAlloc_offers halloc
      dsimp only at hg ⊢
      rw [hl.leaseAt] at hg ⊢
      dsimp only at hg ⊢
      split at hg
      · rename_i hyes
        obtain ⟨hmove, hmoved⟩ := hl.written (fun l => { l with addr := get40 buf 7 }) rfl rfl
        rw [if_pos hyes]
        rw [hmove] at hg ⊢
        by_cases hlong : 12 + pubLen + sigLen + mac1Len ≤ buf.length
        · obtain ⟨hset, hkept⟩ := hmoved.written (fun l => { l with key := arr buf 12 32 }) rfl rfl
          rw [if_pos hlong, hset] at hg ⊢
          exact ⟨(List.mem_singleton.mp hg).trans (by rw [hcfg]), _, hkept.leaseAt, rfl, fun _ => rfl⟩
        · rw [if_neg hlong] at hg ⊢
          exact ⟨(List.mem_singleton.mp hg).trans (by rw [hcfg]), _, hmoved.leaseAt, rfl, fun h => absurd h hlong⟩
      · cases hg

theorem probe_same (s : Server) (rate : List RateBucket) (peers : Table maxPeers PeerEntry) (now n : Nat) (a : UInt64) :
    probe { s with rate := rate, peers := peers } now n a = s.probe now n a := by
  induction n generalizing a with
  | zero => rfl
  | succ n ih =>
    rw [probe, probe, ih]
    rfl

theorem offerAddr_same (s : Server) (rate : List RateBucket) (peers : Table maxPeers PeerEntry) (mac : Arr 6) (now : Nat) :
    offerAddr { s with rate := rate, peers := peers } mac now = s.offerAddr mac now := by
  rw [offerAddr, offerAddr, probe_same]
  rfl

/-- A reply of the server, with what it recorded. -/
inductive Replied (s s' : Server) (buf : Bytes) : Grant → Prop
  | offer (hty : byteAt buf 0 = ctrlDhcpDiscover)
      (hrec : s'.Recorded buf 7 (msgMac buf) (s.offerAddr (msgMac buf) s.time)) :
      Replied s s' buf (grantMsg c s.cfg ctrlDhcpOffer (msgMac buf) (s.offerAddr (msgMac buf) s.time))
  | ack (hty : byteAt buf 0 = ctrlDhcpRequest) (hrec : s'.Recorded buf 12 (msgMac buf) (get40 buf 7)) :
      Replied s s' buf (grantMsg c s.cfg ctrlDhcpAck (msgMac buf) (get40 buf 7))

theorem handle_replied (s : Server) {frame : Bytes} {dst : UInt64} {buf : Bytes} (hrecv : recvCtrl frame = some (dst, buf)) :
    ∀ g ∈ (s.handle c frame).2, Replied (c := c) s (s.handle c frame).1 buf g := by
  intro g hg
  cases hadm : s.admitted c frame with
  | none =>
    obtain ⟨rate, peers, hdrop⟩ := handle_dropped c hadm
    rw [hdrop] at hg
    cases hg
  | some m =>
    obtain ⟨s', buf'⟩ := m
    obtain ⟨dst', hrecv', -⟩ := admitted_elim c hadm
    rw [hrecv] at hrecv'
    obtain ⟨-, rfl⟩ := Prod.mk.inj (Option.some.inj hrecv')
    obtain ⟨hhandle, ⟨rate, peers, rfl⟩, -⟩ := handle_admitted c hadm
    rw [hhandle, dispatch] at hg ⊢
    split at hg
    · rename_i hdiscover
      rw [if_pos hdiscover]
      obtain ⟨heq, hrec⟩ := discover_reply _ buf (msgMac buf) _ g hg
      rw [offerAddr_same] at heq hrec
      rw [heq]
      exact .offer hdiscover hrec
    · rename_i hdiscover
      rw [if_neg hdiscover]
      split at hg
      · rename_i hrequest
        rw [if_pos hrequest]
        obtain ⟨heq, hrec⟩ := request_reply _ buf (msgMac buf) _ g hg
        rw [heq]
        exact .ack hrequest hrec
      · cases hg

/-- The server reads a message as its client meant it: only the MAC list can keep it from the
lease table, and a reply comes with a lease under the client's key. -/
structure AskRead (c : TweetNaCl) (s : Server) (seed : Arr 32) (mac : Arr 6) (ask : Ask) (frame : Bytes) : Prop where
  checked : ∃ buf, recvCtrl frame = some (ipv69BcastAddr, buf) ∧
    s.vet c ipv69BcastAddr buf = ({ s with rate := (s.rateOf mac).1 }, s.macAllowed mac) ∧
    byteAt buf 0 = ask.ctype ∧ msgMac buf = mac ∧ ∀ a, ask = .request a → get40 buf 7 = a
  recorded : ∀ g ∈ (s.handle c frame).2, g.mac = mac ∧ (∀ a, ask = .request a → g.addr = a) ∧
    ∃ l, (s.handle c frame).1.leaseAt mac = some l ∧ l.addr = g.addr ∧ l.key = c.seedToPk seed

theorem askRead (same : SamePrimitives nb c) {s : Server} {seed : Arr 32} {mac : Arr 6} {ask : Ask} {frame : Bytes}
    (hfits : ask.Fits) (hsent : Sent nb c seed mac ask frame) (hlist : s.Lists (c.seedToPk seed))
    (hrate : (s.rateOf mac).2 = true) : AskRead c s seed mac ask frame := by
  have hrecv := hsent.payload same hfits
  have hmac := clientMsg_mac (c := c) seed mac ask
  have haddr : ∀ a, ask = .request a → get40 (clientMsg c seed (ask.body mac)) 7 = a := by
    rintro a rfl
    exact clientMsg_addr seed mac hfits
  have hlen := clientMsg_length (c := c) seed (ask.body mac)
  have hpub := clientMsg_pub (c := c) seed (ask.body mac)
  refine ⟨⟨_, hrecv, vet_client hlist hrate, clientMsg_type seed mac ask, hmac, haddr⟩, ?_⟩
  intro g hg
  -- The key stands behind the 7 bytes of a DISCOVER and the 12 of a REQUEST.
  cases s.handle_replied hrecv g hg with
  | offer hty hrec =>
    obtain ⟨l, hl, hla, hkey⟩ := hrec
    rw [hmac] at hl
    cases ask with
    | request a => cases hty
    | discover =>
      have hbody : (Ask.discover.body mac).length = 7 := by simp [Ask.body, Ask.extra]
      rw [hbody] at hlen hpub
      refine ⟨hmac, (fun a ha => by cases ha), l, hl, hla, ?_⟩
      rw [hkey (by rw [hlen]; decide), hpub]
  | ack hty hrec =>
    obtain ⟨l, hl, hla, hkey⟩ := hrec
    rw [hmac] at hl
    cases ask with
    | discover => cases hty
    | request a =>
      have hbody : ((Ask.request a).body mac).length = 12 := by simp [Ask.body, Ask.extra]
      rw [hbody] at hlen hpub
      refine ⟨hmac, (fun b hb => haddr b hb), l, hl, hla, ?_⟩
      rw [hkey (by rw [hlen]; decide), hpub]

end Server

/-- The server signs its replies with the seed of this key. -/
def Signs (c : TweetNaCl) (cfg : Config) (pub : Arr 32) : Prop :=
  ∃ seed, cfg.sk = some (keypair c seed) ∧ pub = c.seedToPk seed

/-- Both clients take the reply for one of its type, with the server's key pinned or without,
and read the server's address and lease time. -/
structure ReplyRead (nb : Py.PyNaCl) (c : TweetNaCl) (cfg : Config) (type : UInt8) (g : Grant) : Prop where
  taken : ∀ (t : Tun.Transport) (now : Nat) (rxs : List Tun.Rx) (tries : Nat), t.mac = g.mac →
    (t.hasServerPub = true → Signs c cfg t.serverPub) →
    Tun.await c t type (⟨now, some (g.frame cfg)⟩ :: rxs) (tries + 1) = (.got g.msg now, rxs, tries + 1)
  read : get40 g.msg 7 = g.addr ∧ get32 g.msg 12 = cfg.leaseSec
  parsed : ∀ serverPub : Option (Arr 32), (∀ pub, serverPub = some pub → Signs c cfg pub) →
    Py.parseReply nb (g.frame cfg) type g.mac.val (serverPub.map Subtype.val) =
      some (g.addr.toNat, cfg.leaseSec.toNat)

section Reply

variable (cfg : Config) (type : UInt8) (mac : Arr 6) (a : UInt64)

/-- The bytes of a reply that the signature covers. -/
def grantBody : Bytes := type :: (mac.val ++ put40 a ++ put32 cfg.leaseSec)

theorem grantBody_length : (grantBody cfg type mac a).length = 16 := by simp [grantBody]

/-- A reply is its 16 bytes, and behind them nothing or the signature. -/
theorem grantMsg_msg : ∃ rest, (grantMsg c cfg type mac a).msg = grantBody cfg type mac a ++ rest ∧ rest.length ≤ 96 := by
  cases hsk : cfg.sk with
  | none => exact ⟨[], by simp only [grantMsg, signMsg, hsk, grantBody, List.append_nil], Nat.zero_le _⟩
  | some sk =>
    refine ⟨(arr sk.val 32 32).val ++ (ed25519Sign c (grantBody cfg type mac a) sk).val, ?_, by simp⟩
    simp only [grantMsg, signMsg, hsk, grantBody, List.append_assoc]

theorem grantMsg_signed {seed : Arr 32} (h : cfg.sk = some (keypair c seed)) :
    (grantMsg c cfg type mac a).msg = signed c seed (grantBody cfg type mac a) := by
  simp only [grantMsg, signMsg, h, keypair_pub, ed25519Sign, keypair_seed, signed, grantBody]

/-- What stands in a reply, whatever follows. -/
theorem grantBody_fields (rest : Bytes) :
    byteAt (grantBody cfg type mac a ++ rest) 0 = type ∧ arr (grantBody cfg type mac a ++ rest) 1 6 = mac ∧
      get32 (grantBody cfg type mac a ++ rest) 12 = cfg.leaseSec ∧
      (get40 (grantBody cfg type mac a ++ rest) 7 = a ↔ a.toNat < 2 ^ 40) := by
  have hfront : (type :: mac.val).length = 7 := by simp
  have hall : (type :: (mac.val ++ put40 a)).length = 12 := by simp
  have haddr : get40 (grantBody cfg type mac a ++ rest) 7 = get40 (put40 a ++ (put32 cfg.leaseSec ++ rest)) 0 := by
    rw [show grantBody cfg type mac a ++ rest = (type :: mac.val) ++ (put40 a ++ (put32 cfg.leaseSec ++ rest)) by
      simp [grantBody], get40_append_right _ _ _ hfront.le, hfront]
  refine ⟨rfl, ?_, ?_, ?_⟩
  · rw [show grantBody cfg type mac a ++ rest = [type] ++ (mac.val ++ (put40 a ++ (put32 cfg.leaseSec ++ rest))) by
      simp [grantBody]]
    exact (arr_append_right [type] _ 1 6 le_rfl).trans (arr_append_exact mac _)
  · rw [show grantBody cfg type mac a ++ rest = (type :: (mac.val ++ put40 a)) ++ (put32 cfg.leaseSec ++ rest) by
      simp [grantBody], get32_append_right _ _ _ hall.le, hall]
    exact get32_put32 _ _
  · rw [haddr]
    constructor
    · intro h
      rw [← h]
      exact get40_lt _ _
    · exact get40_put40 a _

/-- `dhcp_raw_recv` hands on a frame of the server that names its MAC. -/
theorem dhcpRawRecv_frame {g : Grant} (hlen : 16 ≤ g.msg.length) (hmac : arr g.msg 1 6 = g.mac) :
    Tun.dhcpRawRecv g.mac (some (g.frame cfg)) = .msg g.msg := by
  have hlong : ¬ (g.frame cfg).length < 14 + ipv69HeaderLen + 7 := by
    rw [Grant.frame, buildFrame_length]
    simp only [ipv69HeaderLen]
    omega
  rw [Tun.dhcpRawRecv, if_neg hlong, Grant.frame, frameNextHeader_built, if_neg (not_not.mpr rfl), framePayload_built,
    if_pos hmac]

theorem checkReply_signed {t : Tun.Transport} {seed : Arr 32} (hpub : t.serverPub = c.seedToPk seed) {msg : Bytes}
    (h : 16 ≤ msg.length) : Tun.checkReply c t (signed c seed msg) = true := by
  have hcut : (signed c seed msg).length - 32 - 64 = msg.length := by
    rw [signed_length]
    omega
  have hlong : ¬ (signed c seed msg).length < 16 + 32 + 64 := by
    rw [signed_length]
    omega
  have hbody := signed_body (c := c) seed msg []
  have hkey := signed_pub (c := c) seed msg []
  have hsig := signed_sig (c := c) seed msg []
  rw [List.append_nil] at hbody hkey hsig
  rw [Tun.checkReply, hcut, hkey, hsig, hbody, hpub, if_neg hlong, if_neg (not_not.mpr rfl), ed25519Verify, c.open_sign, ite_self]

/-- A reply arrives as it was meant exactly if its address fits the field. -/
theorem replyRead_iff (same : SamePrimitives nb c) :
    ReplyRead nb c cfg type (grantMsg c cfg type mac a) ↔ a.toNat < 2 ^ 40 := by
  obtain ⟨rest, hmsg, hrest⟩ := grantMsg_msg (c := c) cfg type mac a
  have hbody := grantBody_length cfg type mac a
  obtain ⟨htype, hmac, hlease, haddr⟩ := grantBody_fields cfg type mac a rest
  rw [← hmsg] at htype hmac hlease haddr
  have hlen : (grantMsg c cfg type mac a).msg.length = 16 + rest.length := by
    rw [hmsg, List.length_append, hbody]
  constructor
  · exact fun h => haddr.mp h.read.1
  · intro hfits
    have hread := haddr.mpr hfits
    refine ⟨?_, ⟨hread, hlease⟩, ?_⟩
    · intro t now rxs tries ht hpin
      have hcheck : Tun.checkReply c t (grantMsg c cfg type mac a).msg = true := by
        cases hguard : t.hasServerPub with
        | false =>
          rw [Tun.checkReply, hguard]
          rfl
        | true =>
          obtain ⟨seed, hsk, hpub⟩ := hpin hguard
          rw [grantMsg_signed cfg type mac a hsk]
          exact checkReply_signed hpub hbody.ge
      have htaken : ¬ ((grantMsg c cfg type mac a).msg.length < 16 ∨ byteAt (grantMsg c cfg type mac a).msg 0 ≠ type) := by
        rw [htype]
        rintro (hshort | hne)
        · omega
        · exact hne rfl
      rw [Tun.await, ht, dhcpRawRecv_frame cfg (by omega) hmac]
      dsimp only
      rw [if_neg htaken, hcheck, Bool.not_true, if_neg Bool.false_ne_true]
    · intro serverPub hpin
      have htrust : Py.replyTrusted nb (grantMsg c cfg type mac a).msg (serverPub.map Subtype.val) = true := by
        cases serverPub with
        | none => rfl
        | some pub =>
          obtain ⟨seed, hsk, rfl⟩ := hpin pub rfl
          rw [grantMsg_signed cfg type mac a hsk]
          exact replyTrusted_signed same seed (List.cons_ne_nil _ _)
      have hparse := parseReply_build mac cfg.mac (by omega) (by omega) hmac htrust
      rw [htype, hread, hlease] at hparse
      exact hparse

end Reply

/-- The type of the reply to a message. -/
def replyType (buf : Bytes) : UInt8 := if byteAt buf 0 = ctrlDhcpDiscover then ctrlDhcpOffer else ctrlDhcpAck

/-- The address that a DISCOVER is offered has 40 bits. -/
def OfferFits (s : Server) (buf : Bytes) : Prop :=
  byteAt buf 0 = ctrlDhcpDiscover → (s.offerAddr (Server.msgMac buf) s.time).toNat < 2 ^ 40

/-- The server reads every signed message of either client, and its reply is read by both
exactly if the address of an OFFER fits the field; that of an ACK always does. -/
theorem wire_agreement_iff (same : SamePrimitives nb c) (s : Server) (frame : Bytes) :
    (∀ seed mac ask, ask.Fits → Sent nb c seed mac ask frame → s.Lists (c.seedToPk seed) → (s.rateOf mac).2 = true →
      s.AskRead c seed mac ask frame) ∧
    ∀ dst buf, Server.recvCtrl frame = some (dst, buf) → ∀ g ∈ (s.handle c frame).2,
      g.mac = Server.msgMac buf ∧ (ReplyRead nb c s.cfg (replyType buf) g ↔ OfferFits s buf) := by
  refine ⟨fun seed mac ask hfits hsent hlist hrate => Server.askRead same hfits hsent hlist hrate, ?_⟩
  intro dst buf hrecv g hg
  cases s.handle_replied hrecv g hg with
  | offer hty hrec =>
    refine ⟨rfl, ?_⟩
    rw [replyType, if_pos hty, replyRead_iff _ _ _ _ same, OfferFits]
    exact ⟨fun h _ => h, fun h => h hty⟩
  | ack hty hrec =>
    have hno : byteAt buf 0 ≠ ctrlDhcpDiscover := by
      rw [hty]
      decide
    refine ⟨rfl, ?_⟩
    rw [replyType, if_neg hno, replyRead_iff _ _ _ _ same, OfferFits]
    exact iff_of_true (get40_lt _ _) fun h => absurd h hno

/-- The C client with key 9. -/
def toyTransport : Tun.Transport := { Tun.Transport.zero with mac := toyMac 9, sk := keypair toyNaCl (toyPub 9), hasSk := true }

/-- Its DISCOVER. -/
def toyHello : Bytes :=
  Tun.rawFrame (toyMac 9) (Tun.withMac1 toyNaCl (Tun.signMsg toyNaCl toyTransport (ctrlDhcpDiscover :: (toyMac 9).val)))

theorem wire_agreement_toy : SamePrimitives (pyOf toyNaCl) toyNaCl ∧
    Sent (pyOf toyNaCl) toyNaCl (toyPub 9) (toyMac 9) .discover toyHello ∧
    toyGuarded.AskRead toyNaCl (toyPub 9) (toyMac 9) .discover toyHello ∧
    ∀ g ∈ (toyGuarded.handle toyNaCl toyHello).2,
      ReplyRead (pyOf toyNaCl) toyNaCl toyGuarded.cfg ctrlDhcpOffer g ↔
        (toyGuarded.offerAddr (toyMac 9) 0).toNat < 2 ^ 40 := by
  have hsent : Sent (pyOf toyNaCl) toyNaCl (toyPub 9) (toyMac 9) .discover toyHello := .c toyTransport rfl rfl rfl
  have hall := wire_agreement_iff toyNaCl_same toyGuarded toyHello
  refine ⟨toyNaCl_same, hsent, hall.1 _ _ .discover trivial hsent (fun _ => by decide) (by decide), fun g hg => ?_⟩
  have hfits : Ask.discover.Fits := trivial
  obtain ⟨-, hread⟩ := hall.2 _ _ (hsent.payload toyNaCl_same hfits) g hg
  rw [OfferFits, Server.clientMsg_mac] at hread
  exact hread.trans ⟨fun h => h rfl, fun h _ => h⟩

/-- A server with the pool 10000000000-10000000001 offers an address of 41 bits, which the
client reads as one of 40. -/
theorem wide_pool_misread :
    ¬ ∀ g ∈ ((toyEnds 0x10000000000 0x10000000001).handle toy (toyDiscover 1)).2,
      ReplyRead toyBox.toPyNaCl toy (toyEnds 0x10000000000 0x10000000001).cfg ctrlDhcpOffer g := by
  intro hall
  have hgrants : ((toyEnds 0x10000000000 0x10000000001).handle toy (toyDiscover 1)).2.map
      (fun g => (g.addr, get40 g.msg 7)) = [(0x10000000001, 1)] := by decide +kernel
  obtain ⟨g, hg, heq⟩ := List.mem_map.mp (hgrants ▸ List.mem_singleton_self ((0x10000000001, 1) : UInt64 × UInt64))
  obtain ⟨haddr, hread⟩ := Prod.mk.inj heq
  have hsame := (hall g hg).read.1
  rw [haddr, hread] at hsame
  revert hsame
  decide

end Dhcp
