import BaitNet.GatewayRuns

/-!
# Cryptokey routing

What the peers table says about keys, addresses and endpoints. An announce signs its address
but neither an endpoint nor a time, an INIT signs neither, and a datagram is only checked
for a source that some peer may use.
-/
namespace Gw

open Wire Link Crypto Tables

variable (c : TweetNaCl)

/-- The signed message that an input offers to learn from. -/
def Gateway.claimed (g : Gateway) (i : Input) : Option Signed :=
  if g.learns i then (signedPart g.buf i.size).filter fun s => s.accepted c g else none

variable {c}

theorem Learnt.mem {g : Gateway} {s : Signed} {mac : Arr 6} {ep : Option SockAddr} {peers : List Peer}
    (h : Learnt c g s mac ep peers) {p : Peer} (hp : p ∈ peers) :
    p ∈ g.peers ∨ p.addr = s.addr ∧ p.key = s.key ∧ p.ep = ep := by
  cases h with
  | refused => exact .inl hp
  | refreshed i old hold hused hkey hs =>
    cases List.mem_or_eq_of_mem_set hp with
    | inl h => exact .inl h
    | inr h =>
      subst h
      exact .inr ⟨rfl, hkey, rfl⟩
  | added i old hold hfree hnew hs =>
    cases List.mem_or_eq_of_mem_set hp with
    | inl h => exact .inl h
    | inr h =>
      subst h
      exact .inr ⟨rfl, rfl, rfl⟩

theorem Learnt.accepted {g : Gateway} {s : Signed} {mac : Arr 6} {ep : Option SockAddr} {peers : List Peer}
    (h : Learnt c g s mac ep peers) : peers = g.peers ∨ s.accepted c g := by
  cases h with
  | refused => exact .inl rfl
  | refreshed i old hold hused hkey hs => exact .inr hs
  | added i old hold hfree hnew hs => exact .inr hs

theorem claimed_some {g : Gateway} {i : Input} {s : Signed} (hl : g.learns i) (hs : signedPart g.buf i.size = some s)
    (hacc : s.accepted c g) : g.claimed c i = some s := by
  rw [Gateway.claimed, if_pos hl, hs]
  exact Option.filter_eq_some_iff.mpr ⟨rfl, decide_eq_true hacc⟩

theorem learn_learnt {g : Gateway} {i : Input} (hlearns : g.learns i) :
    (g.learn c g.buf i.size i.source).peers = g.peers ∨ ∃ s, g.claimed c i = some s ∧
      Learnt c g s (frameSrcMac g.buf) i.source (g.learn c g.buf i.size i.source).peers := by
  obtain ⟨peers, dirty, rate, hpeers, heq⟩ := learn_effect c g g.buf i.size i.source
  rw [heq]
  cases hpeers with
  | inl h => exact .inl h
  | inr h =>
    obtain ⟨s, hs, hlearnt⟩ := h
    exact hlearnt.accepted.imp_right fun hacc => ⟨s, claimed_some hlearns hs hacc, hlearnt⟩

/-- An input changes the peers only by learning from the message that it offers. -/
theorem Effect.learnt {g g' : Gateway} {i : Input} {outs : List Out} (h : Effect c g i g' outs) :
    g'.peers = g.peers ∨
      ∃ s, g.claimed c i = some s ∧ Learnt c g s (frameSrcMac g.buf) i.source g'.peers := by
  cases h with
  | dropped _ hlearns => exact learn_learnt hlearns
  | forwarded _ hlearns rate ports hclass hlen hsrc => exact learn_learnt hlearns
  | routed _ li =>
    obtain ⟨routes, heq⟩ := routeLearn_state g (framePayload g.buf) li
    rw [heq]
    exact .inl rfl
  | _ => exact .inl rfl

/-- Every entry after an input was there before, or is made of the message that the input
offers, with the endpoint that the input comes from. -/
theorem Effect.peer {g g' : Gateway} {i : Input} {outs : List Out} (h : Effect c g i g' outs) {p : Peer}
    (hp : p ∈ g'.peers) :
    p ∈ g.peers ∨ ∃ s, g.claimed c i = some s ∧ p.addr = s.addr ∧ p.key = s.key ∧ p.ep = i.source := by
  cases h.learnt with
  | inl heq => exact .inl (heq ▸ hp)
  | inr hlearnt =>
    obtain ⟨s, hs, hlearnt⟩ := hlearnt
    exact (hlearnt.mem hp).imp_right fun h => ⟨s, hs, h⟩

variable (c)

/-- The first of the peers whose range has the longest prefix around `addr`. -/
def Gateway.OwnerOf (g : Gateway) (addr : UInt64) (p : Peer) : Prop :=
  g.peerFindAddr addr = some p ∧ p ∈ g.peers ∧ p.used = true ∧
    ipv69AddrInRange addr p.addr p.prefixLen = true ∧
    ∀ q ∈ g.peers, q.used = true → ipv69AddrInRange addr q.addr q.prefixLen = true → q.prefixLen ≤ p.prefixLen

theorem ownerOf_of_find {g : Gateway} {addr : UInt64} {p : Peer} (h : g.peerFindAddr addr = some p) :
    g.OwnerOf addr p := by
  obtain ⟨hmem, hfit⟩ := longest_mem h
  rw [Bool.and_eq_true] at hfit
  refine ⟨h, hmem, hfit.1, hfit.2, fun q hq hused hrange => ?_⟩
  exact longest_max h hq (by rw [hused, hrange]; rfl)

/-- A DGRAM that the class filter passes has a source, and it comes from the endpoint of the
owner of its source, if there is one. -/
def FromOwner (g : Gateway) : Input → Prop
  | .udp ep n =>
    g.learns (.udp ep n) → frameNextHeader g.buf = ipv69NextDgram → g.classOk g.buf = true →
      frameSource g.buf ≠ 0 ∧ ∀ p ∈ g.peerFindAddr (frameSource g.buf), p.ep = some ep
  | .l2 _ => True

instance (g : Gateway) : ∀ i, Decidable (FromOwner g i)
  | .udp _ _ => inferInstanceAs (Decidable (_ → _ → _ → _))
  | .l2 _ => inferInstanceAs (Decidable True)

/-- A DGRAM of no link is passed on only when its endpoint is the one stored for the owner
of its source. -/
def SourceBound (g : Gateway) (i : Input) : Prop :=
  ∀ ep n, i = .udp ep n → g.gwLinkFind ep = none → frameNextHeader g.buf = ipv69NextDgram →
    ∀ via frame, Out.relay via frame ∈ (g.handle c i).2 →
      ∃ p, g.OwnerOf (frameSource frame) p ∧ p.ep = some ep

theorem learn_dgram {g : Gateway} {n : Nat} {ep : Option SockAddr} (h : frameNextHeader g.buf = ipv69NextDgram) :
    g.learn c g.buf n ep = g := by
  rw [Gateway.learn, h, if_neg (by decide), if_neg (by decide)]

theorem sourceBound {g : Gateway} {i : Input} (hok : FromOwner g i) : SourceBound c g i := by
  rintro ep n rfl hli hdgram via frame hout
  obtain ⟨rfl, hclass, hlen, hfrom⟩ := (handle_effect c g (.udp ep n)).relay hout
  rw [frameSource, get40_take _ _ _ (by omega), ← frameSource]
  cases hfrom with
  | inl h =>
    obtain ⟨li, l, hl⟩ := h
    obtain ⟨ep', n', heq, -, -, hli', -⟩ := fromLink_udp hl
    obtain ⟨rfl, rfl⟩ := Input.udp.inj heq
    rw [hli] at hli'
    cases hli'
  | inr h =>
    obtain ⟨hlearns, hsrc⟩ := h
    obtain ⟨hne, howner⟩ := hok hlearns hdgram hclass
    rw [learn_dgram c hdgram, Gateway.gwSrcOk, hdgram] at hsrc
    simp only [decide_eq_false hne, Bool.false_or, ne_eq, not_true_eq_false, decide_false] at hsrc
    obtain ⟨p, hp⟩ := Option.isSome_iff_exists.mp hsrc
    exact ⟨p, ownerOf_of_find hp, howner p hp⟩

/-- The sources of datagrams are bound to endpoints as long as every sender keeps to its
own. -/
theorem sources_bound (cfg : Config) (links : List (SockAddr × Arr 32)) (stale : Bytes) (rs : List Round)
    (hok : ∀ x ∈ (start cfg links stale).history c rs, FromOwner x.1 x.2) :
    ∀ x ∈ (start cfg links stale).history c rs, SourceBound c x.1 x.2 :=
  fun x hx => sourceBound c (hok x hx)

/-- A client announces itself, and a DGRAM with its address as the source comes from `ep`. -/
def demoSourced (ep : SockAddr) : List (Gateway × Input) :=
  (start (demoConfig 0) [(demoEp 1, demoKey 1)] []).history toy
    [demoRound (demoEp 10) (demoAnnounce 10 0x8000000005),
      demoRound ep (demoFrame (demoMac 2) 0x8000000005 0x8000000006 ipv69NextDgram [7])]

/-- The client sends from where it announced itself, and its frame is passed on. -/
theorem sources_bound_client :
    (∃ x ∈ demoSourced (demoEp 10),
      Out.relay (.link 0) (demoFrame (demoMac 2) 0x8000000005 0x8000000006 ipv69NextDgram [7]) ∈ (x.1.handle toy x.2).2) ∧
      ∀ x ∈ demoSourced (demoEp 10), SourceBound toy x.1 x.2 := by
  refine ⟨by decide +kernel, ?_⟩
  exact sources_bound toy (demoConfig 0) [(demoEp 1, demoKey 1)] [] _ (by decide +kernel)

/-- Somebody else sends in its name, and the frame is passed on. -/
theorem source_spoofed : ¬ ∀ x ∈ demoSourced (demoEp 66), SourceBound toy x.1 x.2 := by
  intro h
  have hfacts : ∃ x ∈ (demoSourced (demoEp 66))[1]?,
      (∃ n ∈ [47], x.2 = .udp (demoEp 66) n) ∧ x.1.gwLinkFind (demoEp 66) = none ∧
      frameNextHeader x.1.buf = ipv69NextDgram ∧
      Out.relay (.link 0) (demoFrame (demoMac 2) 0x8000000005 0x8000000006 ipv69NextDgram [7]) ∈
        (x.1.handle toy x.2).2 ∧
      x.1.peerFindAddr 0x8000000005 ≠ none ∧
      ∀ p ∈ x.1.peerFindAddr 0x8000000005, p.ep ≠ some (demoEp 66) := by decide +kernel
  obtain ⟨x, hx, ⟨n, -, hi⟩, hli, hdgram, hout, -, hep⟩ := hfacts
  obtain ⟨p, hp, hown⟩ := h x (List.mem_of_getElem? hx) _ n hi hli hdgram _ _ hout
  have hsrc : frameSource (demoFrame (demoMac 2) 0x8000000005 0x8000000006 ipv69NextDgram [7]) = 0x8000000005 := by
    decide
  rw [hsrc] at hp
  exact hep p hp.1 hown

/-- A message signed by `key` that covers `addr` has been received. -/
def Covered (hs : List (Gateway × Input)) (key : Arr 32) (addr : UInt64) : Prop :=
  ∃ x ∈ hs, ∃ s ∈ x.1.claimed c x.2, s.key = key ∧ put40 addr <:+: s.msg

instance (hs : List (Gateway × Input)) (key : Arr 32) (addr : UInt64) : Decidable (Covered c hs key addr) :=
  inferInstanceAs (Decidable (∃ x ∈ hs, ∃ s ∈ x.1.claimed c x.2, _))

/-- Used, and refreshed within `PEER_TIMEOUT`. -/
def Gateway.live (g : Gateway) (p : Peer) : Prop := p.used = true ∧ g.time - p.last ≤ peerTimeout

instance (g : Gateway) (p : Peer) : Decidable (g.live p) := inferInstanceAs (Decidable (_ ∧ _))

/-- Every used entry's key has signed its address, and a live address has one key. -/
structure Owned (hs : List (Gateway × Input)) (g : Gateway) : Prop where
  covered : ∀ p ∈ g.peers, p.used = true → Covered c hs p.key p.addr
  exclusive : ∀ p ∈ g.peers, ∀ q ∈ g.peers, g.live p → g.live q → p.addr = q.addr → p.key = q.key

/-- What the gateway may learn from `x` is in order: the address of an INIT has been signed
by its key, and no live entry holds the address for another key. -/
def InOrder (pre : List (Gateway × Input)) (x : Gateway × Input) : Prop :=
  ∀ s ∈ x.1.claimed c x.2,
    (frameNextHeader x.1.buf = ipv69NextStream → Covered c (pre ++ [x]) s.key s.addr) ∧
      ∀ p ∈ x.1.peers, x.1.live p → p.addr = s.addr → p.key = s.key

instance (pre : List (Gateway × Input)) (x : Gateway × Input) : Decidable (InOrder c pre x) :=
  inferInstanceAs (Decidable (∀ s ∈ x.1.claimed c x.2, _ ∧ _))

def ClaimsInOrder (hs : List (Gateway × Input)) : Prop :=
  ∀ pre x post, hs = pre ++ x :: post → InOrder c pre x

variable {c}

theorem Covered.append {hs hs' : List (Gateway × Input)} {key : Arr 32} {addr : UInt64} (h : Covered c hs key addr) :
    Covered c (hs ++ hs') key addr := by
  obtain ⟨x, hx, hs⟩ := h
  exact ⟨x, List.mem_append_left _ hx, hs⟩

theorem claimed_signedPart {g : Gateway} {i : Input} {s : Signed} (h : g.claimed c i = some s) :
    signedPart g.buf i.size = some s := by
  rw [Gateway.claimed] at h
  split at h
  · exact (Option.filter_eq_some_iff.mp h).1
  · cases h

/-- An announce signs the address it asks for. -/
theorem signedAnnounce_covers {buf : Bytes} {n : Nat} {s : Signed} (h : signedAnnounce buf n = some s) :
    put40 s.addr <:+: s.msg := by
  rw [signedAnnounce] at h
  split at h
  · cases h
  · obtain rfl := Option.some.inj h
    have hmsg : slice (framePayload buf) 0 6 = byteAt (framePayload buf) 0 :: slice (framePayload buf) 1 5 :=
      slice_succ _ 0 5
    dsimp only
    rw [hmsg, put40_get40]
    exact (List.suffix_cons _ _).isInfix

theorem covers_of_claimed {g : Gateway} {i : Input} {s : Signed} (h : g.claimed c i = some s)
    (hnh : frameNextHeader g.buf ≠ ipv69NextStream) : put40 s.addr <:+: s.msg := by
  have hs := claimed_signedPart h
  rw [signedPart, if_neg hnh] at hs
  split at hs
  · exact signedAnnounce_covers hs
  · cases hs

variable (c) in
theorem kept_owned : Kept c fun hs g => ClaimsInOrder c hs → Owned c hs g where
  wait hs g ms h hok := by
    have htime : g.time ≤ (g.wait ms).time := Nat.div_le_div_right (Nat.le_add_right _ _)
    have hlive : ∀ p, (g.wait ms).live p → g.live p := by
      intro p hp
      have hold : (g.wait ms).time - p.last ≤ peerTimeout := hp.2
      exact ⟨hp.1, by omega⟩
    refine ⟨(h hok).covered, fun p hp q hq hlp hlq haddr => ?_⟩
    exact (h hok).exclusive p hp q hq (hlive p hlp) (hlive q hlq) haddr
  housekeeping hs g h hok := ⟨(h hok).covered, (h hok).exclusive⟩
  recvInto hs g data h hok := ⟨(h hok).covered, (h hok).exclusive⟩
  handle hs g i h hok := by
    have hprev : Owned c hs g := by
      refine h fun pre x post hsplit => hok pre x (post ++ [(g, i)]) ?_
      rw [hsplit, List.append_assoc, List.cons_append]
    have heff := handle_effect c g i
    have hlast : ∀ s, g.claimed c i = some s → (frameNextHeader g.buf = ipv69NextStream →
        Covered c (hs ++ [(g, i)]) s.key s.addr) ∧ ∀ p ∈ g.peers, g.live p → p.addr = s.addr → p.key = s.key :=
      fun s hs' => hok hs (g, i) [] rfl s hs'
    refine ⟨fun p hp hused => ?_, fun p hp q hq hlp hlq haddr => ?_⟩
    · cases heff.peer hp with
      | inl hmem => exact (hprev.covered p hmem hused).append
      | inr hnew =>
        obtain ⟨s, hs', haddr, hkey, -⟩ := hnew
        rw [haddr, hkey]
        by_cases hnh : frameNextHeader g.buf = ipv69NextStream
        · exact (hlast s hs').1 hnh
        · exact ⟨(g, i), List.mem_append_right _ (List.mem_singleton.mpr rfl), s, hs', rfl, covers_of_claimed hs' hnh⟩
    · have hlive : ∀ p, (g.handle c i).1.live p → g.live p := by
        intro p hp
        have hold := hp.2
        rw [heff.time] at hold
        exact ⟨hp.1, hold⟩
      cases heff.peer hp with
      | inl hp =>
        cases heff.peer hq with
        | inl hq => exact hprev.exclusive p hp q hq (hlive p hlp) (hlive q hlq) haddr
        | inr hq =>
          obtain ⟨s, hs', hqaddr, hqkey, -⟩ := hq
          rw [hqkey]
          exact (hlast s hs').2 p hp (hlive p hlp) (haddr.trans hqaddr)
      | inr hp =>
        obtain ⟨s, hs', hpaddr, hpkey, -⟩ := hp
        rw [hpkey]
        cases heff.peer hq with
        | inl hq => exact ((hlast s hs').2 q hq (hlive q hlq) (haddr.symm.trans hpaddr)).symm
        | inr hq =>
          obtain ⟨s', hs'', -, hqkey, -⟩ := hq
          rw [hs'] at hs''
          rw [hqkey, Option.some.inj hs'']

variable (c) in
/-- Every reachable table gives an address to one live key, which has signed it, as long as
the gateway is only offered what is in order. -/
theorem addresses_owned (cfg : Config) (links : List (SockAddr × Arr 32)) (stale : Bytes) (rs : List Round)
    (hok : ClaimsInOrder c ((start cfg links stale).history c rs)) :
    Owned c ((start cfg links stale).history c rs) (Runs.run (Gateway.next c) (start cfg links stale) rs) ∧
      ∀ pre x post, (start cfg links stale).history c rs = pre ++ x :: post → Owned c pre x.1 := by
  have hnone : ∀ p ∈ (start cfg links stale).peers, p.used = true → False := by
    intro p hp hused
    rw [List.eq_of_mem_replicate hp] at hused
    cases hused
  have hstart : ClaimsInOrder c [] → Owned c [] (start cfg links stale) := fun _ =>
    ⟨fun p hp hused => (hnone p hp hused).elim, fun p hp _ _ hlp _ _ => (hnone p hp hlp.1).elim⟩
  have hrun := (kept_owned c).run rs hstart
  refine ⟨hrun.1 hok, fun pre x post hsplit => hrun.2 pre x post hsplit ?_⟩
  intro pre' y post' hsplit'
  refine hok pre' y (post' ++ x :: post) ?_
  rw [List.nil_append] at hsplit'
  rw [hsplit, hsplit', List.append_assoc, List.cons_append]

def demoStart : Gateway := start (demoConfig 0) [(demoEp 1, demoKey 1)] []

def demoTable (rs : List Round) : Gateway := Runs.run (Gateway.next toy) demoStart rs

/-- Two clients announce an address each. -/
def demoTwoClients (addr addr' : UInt64) : List Round :=
  [demoRound (demoEp 10) (demoAnnounce 10 addr), demoRound (demoEp 12) (demoAnnounce 12 addr')]

theorem addresses_owned_two :
    Owned toy (demoStart.history toy (demoTwoClients 0x8000000005 0x8000000007))
      (demoTable (demoTwoClients 0x8000000005 0x8000000007)) :=
  (addresses_owned toy (demoConfig 0) [(demoEp 1, demoKey 1)] [] (demoTwoClients 0x8000000005 0x8000000007)
    (forall_split (by decide +kernel))).1

/-- An INIT of the holder of key `n` in a frame with the source `addr`. -/
def demoInit (n : UInt8) (addr : UInt64) : Bytes :=
  let msg := List.replicate 45 0 ++ (demoKey n).val
  demoFrame bcastMac addr 0xFFFFFFFFFF ipv69NextStream
    (List.replicate 12 0 ++ [1, 0, 0, 145] ++ msg ++ (toy.sign msg (demoKey n)).val)

/-- The source address of an INIT is not signed, and two keys may announce one address. -/
theorem address_not_owned :
    (∃ p ∈ (demoTable [demoRound (demoEp 10) (demoInit 10 0x8000000005)]).peers, p.used = true ∧
      ¬ Covered toy (demoStart.history toy [demoRound (demoEp 10) (demoInit 10 0x8000000005)]) p.key p.addr) ∧
    ∃ p ∈ (demoTable (demoTwoClients 0x8000000005 0x8000000005)).peers,
      ∃ q ∈ (demoTable (demoTwoClients 0x8000000005 0x8000000005)).peers,
        (demoTable (demoTwoClients 0x8000000005 0x8000000005)).live p ∧
          (demoTable (demoTwoClients 0x8000000005 0x8000000005)).live q ∧ p.addr = q.addr ∧ p.key ≠ q.key := by
  constructor
  · decide +kernel
  · decide +kernel

/-- The holder of `key` signs `msg` and sends it from `ep`, or on the bridged segment. -/
structure Send where
  key : Arr 32
  msg : Bytes
  ep : Option SockAddr

/-- A gateway and what the holders of keys have sent so far. -/
structure World where
  gateway : Gateway
  sends : List Send

/-- Some holders send, and then the gateway has a round with whatever the network brings. -/
structure Turn where
  sends : List Send
  round : Round

variable (c)

namespace World

def next (w : World) (t : Turn) : World := ⟨w.gateway.next c t.round, w.sends ++ t.sends⟩

/-- Nobody but its holder signs with a key. -/
def Unforged (w : World) (t : Turn) : Prop :=
  ∀ x ∈ w.gateway.handled c t.round, ∀ s ∈ x.1.claimed c x.2,
    ∃ d ∈ w.sends ++ t.sends, d.key = s.key ∧ d.msg = s.msg

/-- What a holder has sent comes from an endpoint that the holder has sent from. -/
def Unmoved (w : World) (t : Turn) : Prop :=
  ∀ x ∈ w.gateway.handled c t.round, ∀ s ∈ x.1.claimed c x.2,
    (∃ d ∈ w.sends ++ t.sends, d.key = s.key ∧ d.msg = s.msg) →
      ∃ d ∈ w.sends ++ t.sends, d.key = s.key ∧ d.ep = x.2.source

instance (w : World) (t : Turn) : Decidable (w.Unforged c t) :=
  inferInstanceAs (Decidable (∀ x ∈ w.gateway.handled c t.round, ∀ s ∈ x.1.claimed c x.2,
    ∃ d ∈ w.sends ++ t.sends, d.key = s.key ∧ d.msg = s.msg))

instance (w : World) (t : Turn) : Decidable (w.Unmoved c t) :=
  inferInstanceAs (Decidable (∀ x ∈ w.gateway.handled c t.round, ∀ s ∈ x.1.claimed c x.2,
    (∃ d ∈ w.sends ++ t.sends, d.key = s.key ∧ d.msg = s.msg) →
      ∃ d ∈ w.sends ++ t.sends, d.key = s.key ∧ d.ep = x.2.source))

/-- Every stored endpoint is one that the holder of the key has sent from. -/
def Authentic (w : World) : Prop :=
  ∀ p ∈ w.gateway.peers, p.used = true → ∃ d ∈ w.sends, d.key = p.key ∧ d.ep = p.ep

instance (w : World) : Decidable w.Authentic := inferInstanceAs (Decidable (∀ p ∈ _, _))

end World

variable {c}

theorem kept_authentic (sends : List Send) :
    Kept c fun hs g => (∀ x ∈ hs, ∀ s ∈ x.1.claimed c x.2, ∃ d ∈ sends, d.key = s.key ∧ d.ep = x.2.source) →
      World.Authentic ⟨g, sends⟩ where
  wait _ _ _ h := h
  housekeeping _ _ h := h
  recvInto _ _ _ h := h
  handle hs g i h hok := by
    have hprev := h fun x hx => hok x (List.mem_append_left _ hx)
    intro p hp hused
    cases (handle_effect c g i).peer hp with
    | inl hmem => exact hprev p hmem hused
    | inr hnew =>
      obtain ⟨s, hs', -, hkey, hep⟩ := hnew
      obtain ⟨d, hd, hdkey, hdep⟩ := hok (g, i) (List.mem_append_right _ (List.mem_singleton.mpr rfl)) s hs'
      exact ⟨d, hd, hdkey.trans hkey.symm, hdep.trans hep.symm⟩

theorem World.authentic_next {w : World} {t : Turn} (h : w.Authentic) (hforge : w.Unforged c t)
    (hmove : w.Unmoved c t) : (w.next c t).Authentic := by
  have hstart : World.Authentic ⟨w.gateway, w.sends ++ t.sends⟩ := by
    intro p hp hused
    obtain ⟨d, hd, hdp⟩ := h p hp hused
    exact ⟨d, List.mem_append_left _ hd, hdp⟩
  have hround := @Kept.next c _ (kept_authentic (w.sends ++ t.sends)) [] w.gateway t.round fun _ => hstart
  exact hround.1 fun x hx s hs => hmove x hx s hs (hforge x hx s hs)

variable (c) in
/-- Endpoints are authentic as long as no message of a holder is brought from an endpoint
that the holder has not sent from. -/
theorem endpoints_authentic (cfg : Config) (links : List (SockAddr × Arr 32)) (stale : Bytes) (ts : List Turn)
    (hforge : Runs.Along (World.next c) (World.Unforged c) ⟨start cfg links stale, []⟩ ts)
    (hmove : Runs.Along (World.next c) (World.Unmoved c) ⟨start cfg links stale, []⟩ ts) :
    (Runs.run (World.next c) ⟨start cfg links stale, []⟩ ts).Authentic := by
  have hboth : ∀ (ts : List Turn) (w : World), w.Authentic → Runs.Along (World.next c) (World.Unforged c) w ts →
      Runs.Along (World.next c) (World.Unmoved c) w ts → (Runs.run (World.next c) w ts).Authentic := by
    intro ts
    induction ts with
    | nil => exact fun w h _ _ => h
    | cons t ts ih => exact fun w h hf hm => ih _ (World.authentic_next h hf.1 hm.1) hf.2 hm.2
  refine hboth ts _ (fun p hp hused => ?_) hforge hmove
  rw [List.eq_of_mem_replicate hp] at hused
  cases hused

/-- A client announces itself once, and its datagram arrives from its own endpoint and then
again from `ep`. -/
def demoReplay (ep : SockAddr) : List Turn :=
  [⟨[⟨demoKey 10, 1 :: put40 0x8000000005, some (demoEp 10)⟩],
      demoRound (demoEp 10) (demoAnnounce 10 0x8000000005)⟩,
    ⟨[], demoRound ep (demoAnnounce 10 0x8000000005)⟩]

theorem endpoints_authentic_repeat :
    (Runs.run (World.next toy) ⟨demoStart, []⟩ (demoReplay (demoEp 10))).Authentic :=
  endpoints_authentic toy (demoConfig 0) [(demoEp 1, demoKey 1)] [] (demoReplay (demoEp 10)) (by decide +kernel)
    (by decide +kernel)

/-- A replay from elsewhere moves the stored endpoint, and frames for the client with it. -/
theorem replay_redirects :
    Runs.Along (World.next toy) (World.Unforged toy) ⟨demoStart, []⟩ (demoReplay (demoEp 66)) ∧
      ¬ (Runs.run (World.next toy) ⟨demoStart, []⟩ (demoReplay (demoEp 66))).Authentic ∧
      Out.relay (.client (demoEp 66)) (demoFrame (demoMac 2) 0x8000000006 0x8000000005 ipv69NextDgram [7]) ∈
        (Runs.run (World.next toy) ⟨demoStart, []⟩ (demoReplay (demoEp 66))).gateway.sent toy
          (demoRound (demoEp 1) (demoFrame (demoMac 2) 0x8000000006 0x8000000005 ipv69NextDgram [7])) := by
  refine ⟨?_, ?_, ?_⟩
  · decide +kernel
  · decide +kernel
  · decide +kernel

end Gw
