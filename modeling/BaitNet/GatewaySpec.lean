import BaitNet.Gateway

/-!
# What a gateway does with an input

`Learnt` says what learning can do to the peers, and `Effect` what one datagram or one frame
of the bridge can do to the gateway and make it send, with the checks that were passed.
-/
namespace Gw

open Wire Link Crypto Tables Text

/-- The signed part of an announce or of an INIT, with the address it asks for. -/
structure Signed where
  key : Arr 32
  msg : Bytes
  sig : Arr 64
  addr : UInt64

def signedInit (buf : Bytes) (n : Nat) : Option Signed :=
  let ic := framePayload buf
  let cd := Gateway.initData buf
  if n < 14 + ipv69HeaderLen + 12 + 4 + 77 + 64 ∨ byteAt ic 12 ≠ 1 ∨ byteAt ic 13 &&& 1 ≠ 0 then none
  else some ⟨arr cd 45 32, slice cd 0 77, arr cd 77 64, frameSource buf⟩

def signedAnnounce (buf : Bytes) (n : Nat) : Option Signed :=
  let ic := framePayload buf
  if n < 14 + ipv69HeaderLen + 6 + 96 ∨ byteAt ic 0 ≠ 1 then none
  else some ⟨arr ic 6 32, slice ic 0 6, arr ic 38 64, get40 ic 1⟩

def signedPart (buf : Bytes) (n : Nat) : Option Signed :=
  if frameNextHeader buf = ipv69NextStream then signedInit buf n
  else if frameNextHeader buf = ipv69NextControl then signedAnnounce buf n
  else none

section Learning

variable (c : TweetNaCl)

/-- The gateway takes it: the signature is valid and the allowlist has the key. -/
def Signed.accepted (g : Gateway) (s : Signed) : Prop :=
  ed25519Verify c s.msg s.sig s.key = true ∧ g.authAllowed s.key s.addr = true

instance (g : Gateway) (s : Signed) : Decidable (s.accepted c g) :=
  inferInstanceAs (Decidable (_ ∧ _))

/-- What learning does to the peers: nothing, a refresh of the entry with the key, or a new
entry in a slot that is unused or has timed out. -/
inductive Learnt (g : Gateway) (s : Signed) (mac : Arr 6) (ep : Option SockAddr) : List Peer → Prop
  | refused : Learnt g s mac ep g.peers
  | refreshed (i : Nat) (p : Peer) (hp : g.peers[i]? = some p) (hused : p.used = true)
      (hkey : p.key = s.key) (hs : s.accepted c g) :
      Learnt g s mac ep
        (g.peers.set i { p with addr := s.addr, prefixLen := 40, ep := ep, last := g.time })
  | added (i : Nat) (p : Peer) (hp : g.peers[i]? = some p)
      (hfree : p.used = false ∨ peerTimeout < g.time - p.last)
      (hnew : ∀ p ∈ g.peers, p.used = true → p.key ≠ s.key) (hs : s.accepted c g) :
      Learnt g s mac ep (g.peers.set i ⟨s.addr, 40, mac, s.key, ep, g.time⟩)

theorem allow_state {g g' : Gateway} {id : Bytes} {r b : Nat} {ok : Bool} (h : g.allow id r b = (g', ok)) :
    ∃ rate, g' = { g with rate := rate } := by
  obtain ⟨rfl, -⟩ := Prod.mk.inj h
  exact ⟨_, rfl⟩

theorem Learnt.of_rate {g : Gateway} {s : Signed} {mac : Arr 6} {ep : Option SockAddr} {peers : List Peer}
    {rate : List RateBucket} (h : Learnt c { g with rate := rate } s mac ep peers) : Learnt c g s mac ep peers := by
  cases h with
  | refused => exact .refused
  | refreshed i p hp hused hkey hs => exact .refreshed i p hp hused hkey hs
  | added i p hp hfree hnew hs => exact .added i p hp hfree hnew hs

theorem peerLearnAuth_effect (g : Gateway) (s : Signed) (mac : Arr 6) (ep : Option SockAddr)
    (hs : s.accepted c g) :
    ∃ peers dirty rate, Learnt c g s mac ep peers ∧
      (g.peerLearnAuth s.addr mac ep s.key 40).1 =
        { g with peers := peers, routesDirty := dirty, rate := rate } := by
  rw [Gateway.peerLearnAuth]
  cases hkey : g.peers.findIdx? (fun p => p.used && decide (p.key = s.key)) with
  | some i =>
    obtain ⟨hi, hp, -⟩ := List.findIdx?_eq_some_iff_getElem.mp hkey
    rw [Bool.and_eq_true, decide_eq_true_eq] at hp
    have hget := List.getElem?_eq_getElem hi
    refine ⟨_, g.routesDirty, g.rate, .refreshed i g.peers[i] hget hp.1 hp.2 hs, ?_⟩
    dsimp only
    rw [List.modify_eq_set_getElem?, hget]
    rfl
  | none =>
    have hnew : ∀ p ∈ g.peers, p.used = true → p.key ≠ s.key := by
      intro p hp hused heq
      have h := List.findIdx?_eq_none_iff.mp hkey p hp
      rw [hused, heq, decide_eq_true rfl] at h
      cases h
    cases hallow : g.allow mac.val 5 10 with
    | mk g' ok =>
      obtain ⟨rate, rfl⟩ := allow_state hallow
      have hrefused : ∃ peers dirty rate', Learnt c g s mac ep peers ∧
          ({ g with rate := rate } : Gateway) =
            { g with peers := peers, routesDirty := dirty, rate := rate' } :=
        ⟨g.peers, g.routesDirty, rate, .refused, rfl⟩
      cases ok with
      | false => exact hrefused
      | true =>
        dsimp only
        split
        · exact hrefused
        · rename_i i hi
          obtain ⟨hlt, hfree, -⟩ := List.findIdx?_eq_some_iff_getElem.mp hi
          rw [Bool.or_eq_true, Bool.not_eq_true'] at hfree
          have hfree := hfree.imp_right of_decide_eq_true
          exact ⟨_, true, rate, .added i g.peers[i] (List.getElem?_eq_getElem hlt) hfree hnew hs, rfl⟩

theorem learnSigned_effect (g : Gateway) (s : Signed) (mac : Arr 6) (ep : Option SockAddr) :
    ∃ peers dirty rate, Learnt c g s mac ep peers ∧
      (g.learnSigned c mac ep s.msg s.sig s.key s.addr).1 =
        { g with peers := peers, routesDirty := dirty, rate := rate } := by
  rw [Gateway.learnSigned]
  cases hallow : g.allow mac.val 10 20 with
  | mk g' ok =>
    obtain ⟨rate, rfl⟩ := allow_state hallow
    have hrefused : ∃ peers dirty rate', Learnt c g s mac ep peers ∧
        ({ g with rate := rate } : Gateway) =
          { g with peers := peers, routesDirty := dirty, rate := rate' } :=
      ⟨g.peers, g.routesDirty, rate, .refused, rfl⟩
    cases ok with
    | false => exact hrefused
    | true =>
      dsimp only
      split
      · exact hrefused
      · rename_i hsig
        split
        · exact hrefused
        · rename_i hauth
          rw [Bool.not_eq_true, Bool.not_eq_false'] at hsig hauth
          obtain ⟨peers, dirty, rate', hlearnt, heq⟩ :=
            peerLearnAuth_effect c { g with rate := rate } s mac ep ⟨hsig, hauth⟩
          exact ⟨peers, dirty, rate', hlearnt.of_rate, heq⟩

/-- Learning touches the peers, the flag for the prompt announcement and the buckets. -/
theorem learn_effect (g : Gateway) (buf : Bytes) (n : Nat) (ep : Option SockAddr) :
    ∃ peers dirty rate,
      (peers = g.peers ∨ ∃ s, signedPart buf n = some s ∧ Learnt c g s (frameSrcMac buf) ep peers) ∧
      g.learn c buf n ep = { g with peers := peers, routesDirty := dirty, rate := rate } := by
  have hsame : ∃ peers dirty rate,
      (peers = g.peers ∨ ∃ s, signedPart buf n = some s ∧ Learnt c g s (frameSrcMac buf) ep peers) ∧
      g = { g with peers := peers, routesDirty := dirty, rate := rate } :=
    ⟨g.peers, g.routesDirty, g.rate, .inl rfl, rfl⟩
  have hsigned : ∀ s, signedPart buf n = some s → ∃ peers dirty rate,
      (peers = g.peers ∨ ∃ s, signedPart buf n = some s ∧ Learnt c g s (frameSrcMac buf) ep peers) ∧
      (g.learnSigned c (frameSrcMac buf) ep s.msg s.sig s.key s.addr).1 =
        { g with peers := peers, routesDirty := dirty, rate := rate } := by
    intro s hs
    obtain ⟨peers, dirty, rate, hlearnt, heq⟩ := learnSigned_effect c g s (frameSrcMac buf) ep
    exact ⟨peers, dirty, rate, .inr ⟨s, hs, hlearnt⟩, heq⟩
  rw [Gateway.learn]
  split
  · rename_i hnh
    rw [Gateway.gwLearnInit]
    split
    · exact hsame
    · rename_i hn
      split
      · exact hsame
      · rename_i hty
        refine hsigned ⟨_, _, _, _⟩ ?_
        rw [signedPart, if_pos hnh, signedInit]
        exact if_neg (not_or.mpr ⟨hn, hty⟩)
  · rename_i hnh
    split
    · rename_i hctl
      rw [Gateway.gwLearnAnnounce]
      split
      · exact hsame
      · rename_i hn
        split
        · exact hsame
        · rename_i hty
          refine hsigned ⟨_, _, _, _⟩ ?_
          rw [signedPart, if_neg hnh, if_pos hctl, signedAnnounce]
          exact if_neg (not_or.mpr ⟨hn, hty⟩)
    · exact hsame

end Learning

/-- A datagram or a frame of the bridge, of which the first `n` bytes of the buffer are
new. -/
inductive Input where
  | udp (ep : SockAddr) (n : Nat)
  | l2 (n : Nat)
  deriving DecidableEq

def Input.size : Input → Nat
  | .udp _ n => n
  | .l2 n => n

/-- The endpoint that learning stores; an L2 peer has none. -/
def Input.source : Input → Option SockAddr
  | .udp ep _ => some ep
  | .l2 _ => none

/-- A control frame of type `ty` with at least `len` payload bytes. -/
def isControl (ty : UInt8) (len : Nat) (buf : Bytes) (n : Nat) : Prop :=
  frameNextHeader buf = ipv69NextControl ∧ byteAt (framePayload buf) 0 = ty ∧ len ≤ n - 14 - ipv69HeaderLen

instance (ty : UInt8) (len : Nat) (buf : Bytes) (n : Nat) : Decidable (isControl ty len buf n) :=
  inferInstanceAs (Decidable (_ ∧ _ ∧ _))

namespace Gateway

/-- The link that a frame comes from. -/
def linkOf (g : Gateway) : Input → Option (Nat × GwLink)
  | .udp ep n =>
    if ¬ isQuery g.buf n ∧ ethertypeOk g.buf n = true then
      (g.gwLinkFind ep).bind fun li => g.links[li]?.map fun l => (li, l)
    else none
  | .l2 _ => none

def fromLink (g : Gateway) (i : Input) (li : Nat) (l : GwLink) : Prop := g.linkOf i = some (li, l)

/-- A frame that the learning paths see: a client's, or one of the bridge that is neither
mesh control nor filtered. -/
def learns (g : Gateway) : Input → Prop
  | .udp ep n => ¬ isQuery g.buf n ∧ ethertypeOk g.buf n = true ∧ g.gwLinkFind ep = none
  | .l2 n => ethertypeOk g.buf n = true ∧ (g.gwMeshHandle g.buf n).isNone = true ∧ g.classOk g.buf = true

/-- A QUERY of a known asker that neither the peers nor the routes answer, with a mesh to
ask: `gw_mesh_query` is called and returns 1. -/
def asksMesh (g : Gateway) : Input → Prop
  | .udp ep n =>
    isQuery g.buf n ∧ (g.allow (slice g.buf 20 6) 20 40).2 = true ∧ (g.peerFindEndpoint ep).isSome = true ∧
      (g.peerFindAddr (get40 g.buf 3)).bind Peer.ep = none ∧ g.routeFind (get40 g.buf 3) = none ∧
      (g.gwn.isEmpty && g.links.isEmpty) = false
  | .l2 _ => False

/-- A frame of a link or of the bridge, where other gateways are heard. -/
def fromMesh (g : Gateway) (i : Input) : Bool :=
  match i with
  | .udp _ _ => (g.linkOf i).isSome
  | .l2 n => ethertypeOk g.buf n

/-- A GW_R of another gateway. -/
def replies (g : Gateway) (i : Input) : Prop := isControl ctrlGwR 12 g.buf i.size ∧ g.fromMesh i = true

instance (g : Gateway) (i : Input) (li : Nat) (l : GwLink) : Decidable (g.fromLink i li l) :=
  inferInstanceAs (Decidable (_ = _))

instance (g : Gateway) : ∀ i, Decidable (g.learns i)
  | .udp _ _ => inferInstanceAs (Decidable (_ ∧ _ ∧ _))
  | .l2 _ => inferInstanceAs (Decidable (_ ∧ _ ∧ _))

instance (g : Gateway) : ∀ i, Decidable (g.asksMesh i)
  | .udp _ _ => inferInstanceAs (Decidable (_ ∧ _ ∧ _ ∧ _ ∧ _ ∧ _))
  | .l2 _ => inferInstanceAs (Decidable False)

instance (g : Gateway) (i : Input) : Decidable (g.replies i) := inferInstanceAs (Decidable (_ ∧ _))

/-- The QUERY path knows `e` as the endpoint of `q`: its own peer or a learned route. -/
def knows (g : Gateway) (q : UInt64) (e : SockAddr) : Prop :=
  (g.peerFindAddr q).bind Peer.ep = some e ∨ ∃ r, g.routeFind q = some r ∧ e = .v4 r.ip r.port

/-- The QUERY answer of what the gateway knows for itself. -/
def answerOf (g : Gateway) (ep e : SockAddr) : Out :=
  .answer ep (get40 g.buf 3) (queryAnswer (slice g.buf 3 5) (epText e))

/-- A GW_ANN of link `li` under the key configured for it. -/
def authenticates (c : TweetNaCl) (g : Gateway) (i : Input) (li : Nat) (l : GwLink) : Prop :=
  g.fromLink i li l ∧ isControl ctrlGwAnn 67 g.buf i.size ∧
    ed25519Verify c (slice (framePayload g.buf) 0 3) (arr (framePayload g.buf) 3 64) l.pub = true

end Gateway

def Out.isControl : Out → Prop
  | .control _ _ => True
  | _ => False

variable (c : TweetNaCl)

/-- What one input can do to a gateway and make it send. -/
inductive Effect (g : Gateway) : Input → Gateway → List Out → Prop
  | quiet (i : Input) (rate : List RateBucket) : Effect g i { g with rate := rate } []
  | answered (ep : SockAddr) (n : Nat) (rate : List RateBucket) (calls : List Out) (a : Peer) (e : SockAddr)
      (hquery : isQuery g.buf n) (ha : g.peerFindEndpoint ep = some a) (he : g.knows (get40 g.buf 3) e)
      (hclass : g.cfg.allowPrivate = true ∨
        ipv69AddrClass (get40 g.buf 3) = .C ∧ ipv69AddrClass a.addr = .C)
      (hcalls : ∀ o ∈ calls, o.isControl) :
      Effect g (.udp ep n) { g with rate := rate } (calls ++ [g.answerOf ep e])
  | refused (ep : SockAddr) (n : Nat) (rate : List RateBucket) (hquery : isQuery g.buf n) :
      Effect g (.udp ep n) { g with rate := rate }
        [.negative ep (get40 g.buf 3) (queryAnswer (slice g.buf 3 5) [45])]
  | asked (ep : SockAddr) (n : Nat) (rate : List RateBucket) (outs : List Out)
      (hmesh : g.asksMesh (.udp ep n)) (hnew : g.asked (get40 g.buf 3) = false)
      (houts : ∀ o ∈ outs, o.isControl) :
      Effect g (.udp ep n)
        { g with rate := rate, gwp := g.gwp.push ⟨get40 g.buf 3, ep, false, g.time⟩ } outs
  | authenticated (i : Input) (li : Nat) (l : GwLink) (rate : List RateBucket) (hauth : g.authenticates c i li l) :
      Effect g i { g with rate := rate, links := g.links.set li { l with last := g.time } } []
  | linkAnswered (i : Input) (li : Nat) (l : GwLink) (hl : g.fromLink i li l) (pkt : Bytes) :
      Effect g i g [g.gwLinkSendPkt li pkt]
  | linkAsked (i : Input) (li : Nat) (l : GwLink) (hl : g.fromLink i li l) (outs : List Out)
      (hnew : g.asked (get40 (framePayload g.buf) 1) = false) (houts : ∀ o ∈ outs, o.isControl) :
      Effect g i { g with gwp := g.gwp.push ⟨get40 (framePayload g.buf) 1, l.ep, true, g.time⟩ } outs
  | relayed (i : Input) (e : GwPend) (gwp : Table 16 GwPend) (hreply : g.replies i)
      (htake : g.gwp.takeFirst (fun e => e.addr = get40 (framePayload g.buf) 1) = some (e, gwp)) :
      Effect g i { g with gwp := gwp } (g.relayTo e (framePayload g.buf))
  | routed (i : Input) (li : Nat) (l : GwLink) (hl : g.fromLink i li l) :
      Effect g i (g.routeLearn (framePayload g.buf) li) []
  | neighbour (n : Nat) (gwn : Table maxPeers GwNeigh) : Effect g (.l2 n) { g with gwn := gwn } []
  | meshAnswered (n : Nat) (pkt : Bytes) : Effect g (.l2 n) g (g.gwMeshSend pkt)
  | fedData (i : Input) (li : Nat) (l : GwLink) (hl : g.fromLink i li l) (rate : List RateBucket)
      (ports : List Port) (hclass : g.classOk g.buf = true) (hlen : 47 ≤ i.size) :
      Effect g i { g with rate := rate } (Gateway.relays (g.buf.take i.size) ports)
  | dropped (i : Input) (hlearns : g.learns i) : Effect g i (g.learn c g.buf i.size i.source) []
  | forwarded (i : Input) (hlearns : g.learns i) (rate : List RateBucket) (ports : List Port)
      (hclass : g.classOk g.buf = true) (hlen : 47 ≤ i.size)
      (hsrc : (g.learn c g.buf i.size i.source).gwSrcOk g.buf = true) :
      Effect g i { g.learn c g.buf i.size i.source with rate := rate }
        (Gateway.relays (g.buf.take i.size) ports)

variable {c}

theorem gwMeshSend_isControl (g : Gateway) (pkt : Bytes) : ∀ o ∈ g.gwMeshSend pkt, o.isControl := by
  intro o ho
  rw [Gateway.gwMeshSend] at ho
  split at ho
  · rw [List.mem_singleton.mp ho]
    trivial
  · cases ho

theorem linkSends_isControl (g : Gateway) (l : List Nat) (pkt : Bytes) :
    ∀ o ∈ l.map (fun i => g.gwLinkSendPkt i pkt), o.isControl := by
  intro o ho
  obtain ⟨i, -, rfl⟩ := List.mem_map.mp ho
  trivial

theorem gwCall_isControl (g : Gateway) (a : Peer) (q : UInt64) (e : SockAddr) : ∀ o ∈ g.gwCall a q e, o.isControl := by
  intro o ho
  rw [Gateway.gwCall] at ho
  split at ho
  · cases ho
  · rw [List.mem_singleton.mp ho]
    trivial

theorem Gateway.asked_eq_false {g : Gateway} {q : UInt64} :
    g.asked q = false ↔ ∀ e ∈ g.gwp.entries, e.addr ≠ q := by
  rw [Gateway.asked, List.any_eq_false]
  simp only [decide_eq_true_eq, ne_eq]

theorem query_effect (g : Gateway) (ep : SockAddr) (n : Nat) (hquery : isQuery g.buf n) :
    Effect c g (.udp ep n) (g.query ep g.buf).1 (g.query ep g.buf).2 := by
  rw [Gateway.query]
  cases hallow : g.allow (slice g.buf 20 6) 20 40 with
  | mk g' ok =>
    obtain ⟨rate, rfl⟩ := allow_state hallow
    cases ok with
    | false => exact .quiet _ rate
    | true =>
      dsimp only
      have hask : ∀ r : List RateBucket, ({ g with rate := r } : Gateway).peerFindEndpoint ep =
          g.peerFindEndpoint ep := fun _ => rfl
      have hfind : ∀ (r : List RateBucket) (q : UInt64), ({ g with rate := r } : Gateway).peerFindAddr q =
          g.peerFindAddr q := fun _ _ => rfl
      have hroute : ∀ (r : List RateBucket) (q : UInt64), ({ g with rate := r } : Gateway).routeFind q =
          g.routeFind q := fun _ _ => rfl
      rw [hask, hfind]
      simp only [hroute]
      cases ha : g.peerFindEndpoint ep with
      | none => exact .refused ep n rate hquery
      | some a =>
        cases hq : (g.peerFindAddr (get40 g.buf 3)).bind Peer.ep with
        | some e =>
          dsimp only
          split
          · rename_i hclass
            rw [Bool.or_eq_true, Bool.and_eq_true, decide_eq_true_eq, decide_eq_true_eq] at hclass
            exact .answered ep n rate _ a e hquery ha (.inl hq) hclass (gwCall_isControl _ _ _ _)
          · exact .refused ep n rate hquery
        | none =>
          simp only [Option.isSome_none, Bool.false_eq_true, if_false]
          cases hr : g.routeFind (get40 g.buf 3) with
          | some r =>
            dsimp only
            split
            · rename_i hclass
              rw [Bool.or_eq_true, Bool.and_eq_true, decide_eq_true_eq, decide_eq_true_eq] at hclass
              exact .answered ep n rate [] a _ hquery ha (.inr ⟨r, hr, rfl⟩) hclass (fun _ h => (nomatch h))
            · exact .refused ep n rate hquery
          | none =>
            dsimp only
            split
            · exact .refused ep n rate hquery
            · rename_i hnone
              rw [Bool.not_eq_true] at hnone
              have hmesh : g.asksMesh (.udp ep n) :=
                ⟨hquery, by rw [hallow], by rw [ha]; rfl, hq, hr, hnone⟩
              rw [Gateway.gwMeshQuery, if_neg (Bool.not_eq_true _ ▸ hnone)]
              split
              · exact .quiet _ rate
              · rename_i hasked
                refine .asked ep n rate _ hmesh (Bool.eq_false_iff.mpr hasked) ?_
                intro o ho
                cases List.mem_append.mp ho with
                | inl h =>
                  split at h
                  · cases h
                  · exact gwMeshSend_isControl _ _ o h
                | inr h => exact linkSends_isControl _ _ _ o h

theorem gwPendRelay_effect (g : Gateway) (i : Input) (hreply : g.replies i) :
    Effect c g i (g.gwPendRelay (framePayload g.buf)).1 (g.gwPendRelay (framePayload g.buf)).2 := by
  rw [Gateway.gwPendRelay]
  split
  · exact .quiet i g.rate
  · rename_i e gwp htake
    exact .relayed i e gwp hreply htake

theorem linkAuth_effect (g : Gateway) (i : Input) (li : Nat) (l : GwLink) (hl : g.fromLink i li l)
    (hctl : frameNextHeader g.buf = ipv69NextControl) (hann : byteAt (framePayload g.buf) 0 = ctrlGwAnn) :
    Effect c g i (g.linkAuth c li l (framePayload g.buf) (i.size - 14 - ipv69HeaderLen)) [] := by
  rw [Gateway.linkAuth]
  split
  · exact .quiet i g.rate
  · rename_i hlen
    cases hallow : g.allow l.pub.val 10 20 with
    | mk g' ok =>
      obtain ⟨rate, rfl⟩ := allow_state hallow
      cases ok with
      | false => exact .quiet i rate
      | true =>
        dsimp only
        split
        · rename_i hsig
          exact .authenticated i li l rate ⟨hl, ⟨hctl, hann, Nat.not_lt.mp hlen⟩, hsig⟩
        · exact .quiet i rate

theorem fromMesh_of_fromLink {g : Gateway} {i : Input} {li : Nat} {l : GwLink} (h : g.fromLink i li l) :
    g.fromMesh i = true := by
  cases i with
  | udp ep n => exact Option.isSome_iff_exists.mpr ⟨_, h⟩
  | l2 n => cases h

theorem gwFedHandle_effect {g g' : Gateway} {i : Input} {li : Nat} {l : GwLink} {outs : List Out}
    (hl : g.fromLink i li l) (h : g.gwFedHandle c li l g.buf i.size = some (g', outs)) : Effect c g i g' outs := by
  rw [Gateway.gwFedHandle] at h
  dsimp only at h
  split at h
  · cases h
  · rename_i hctl
    rw [not_or, not_not] at hctl
    split at h
    · rename_i hann
      obtain ⟨rfl, rfl⟩ := Prod.mk.inj (Option.some.inj h)
      exact linkAuth_effect g i li l hl hctl.1 hann
    · split at h
      · split at h
        · split at h
          · obtain ⟨rfl, rfl⟩ := Prod.mk.inj (Option.some.inj h)
            exact .linkAnswered i li l hl _
          · obtain ⟨rfl, rfl⟩ := Prod.mk.inj (Option.some.inj h)
            exact .quiet i g.rate
        · split at h
          · rename_i hroom
            obtain ⟨rfl, rfl⟩ := Prod.mk.inj (Option.some.inj h)
            have hnew : g.asked (get40 (framePayload g.buf) 1) = false := by simpa using hroom.2.1
            exact .linkAsked i li l hl _ hnew (linkSends_isControl _ _ _)
          · obtain ⟨rfl, rfl⟩ := Prod.mk.inj (Option.some.inj h)
            exact .quiet i g.rate
      · split at h
        · rename_i hreply
          have heff := @gwPendRelay_effect c g i ⟨⟨hctl.1, hreply⟩, fromMesh_of_fromLink hl⟩
          rwa [Option.some.inj h] at heff
        · split at h
          · obtain ⟨rfl, rfl⟩ := Prod.mk.inj (Option.some.inj h)
            exact .routed i li l hl
          · cases h

theorem gwMeshHandle_effect {g g' : Gateway} {outs : List Out} {n : Nat}
    (heth : Gateway.ethertypeOk g.buf n = true) (h : g.gwMeshHandle g.buf n = some (g', outs)) :
    Effect c g (.l2 n) g' outs := by
  rw [Gateway.gwMeshHandle] at h
  dsimp only at h
  split at h
  · cases h
  · rename_i hctl
    rw [not_or, not_not] at hctl
    split at h
    · split at h
      · obtain ⟨rfl, rfl⟩ := Prod.mk.inj (Option.some.inj h)
        exact .neighbour n _
      · obtain ⟨rfl, rfl⟩ := Prod.mk.inj (Option.some.inj h)
        exact .neighbour n _
    · split at h
      · split at h
        · obtain ⟨rfl, rfl⟩ := Prod.mk.inj (Option.some.inj h)
          exact .meshAnswered n _
        · obtain ⟨rfl, rfl⟩ := Prod.mk.inj (Option.some.inj h)
          exact .quiet _ g.rate
      · split at h
        · rename_i hreply
          have heff := @gwPendRelay_effect c g (.l2 n) ⟨⟨hctl.1, hreply⟩, heth⟩
          rwa [Option.some.inj h] at heff
        · cases h

theorem gwFedData_effect (g : Gateway) (i : Input) (li : Nat) (l : GwLink) (hl : g.fromLink i li l)
    (hlen : 47 ≤ i.size) :
    Effect c g i (g.gwFedData li g.buf i.size).1 (g.gwFedData li g.buf i.size).2 := by
  rw [Gateway.gwFedData]
  split
  · exact .quiet i g.rate
  · rename_i hclass
    rw [Bool.not_eq_true, Bool.not_eq_false'] at hclass
    split
    · cases hallow : g.allow (frameSrcMac g.buf).val 20 40 with
      | mk g' ok =>
        obtain ⟨rate, rfl⟩ := allow_state hallow
        cases ok with
        | false => exact .quiet i rate
        | true => exact .fedData i li l hl rate _ hclass hlen
    · dsimp only
      split
      · exact .fedData i li l hl g.rate _ hclass hlen
      · split
        · exact .fedData i li l hl g.rate _ hclass hlen
        · split
          · exact .fedData i li l hl g.rate _ hclass hlen
          · exact .fedData i li l hl g.rate _ hclass hlen

/-- The learned state differs from the old one in what the class filter does not read. -/
theorem classOk_learn (g : Gateway) (buf : Bytes) (n : Nat) (ep : Option SockAddr) (b : Bytes) :
    (g.learn c buf n ep).classOk b = g.classOk b := by
  obtain ⟨peers, dirty, rate, -, heq⟩ := learn_effect c g buf n ep
  rw [heq]
  rfl

/-- What may happen to a client's frame once the sender has been learned. -/
theorem forwarded_effect {g : Gateway} {i : Input} (hlearns : g.learns i)
    (hsrc : (g.learn c g.buf i.size i.source).gwSrcOk g.buf = true) (hclass : g.classOk g.buf = true)
    (hlen : 47 ≤ i.size) (ports : List Port) :
    Effect c g i (g.learn c g.buf i.size i.source) (Gateway.relays (g.buf.take i.size) ports) :=
  .forwarded i hlearns (g.learn c g.buf i.size i.source).rate ports hclass hlen hsrc

theorem udpForward_effect {g : Gateway} {ep : SockAddr} {n : Nat} (hlearns : g.learns (.udp ep n))
    (hsrc : (g.learn c g.buf n (some ep)).gwSrcOk g.buf = true) (hclass : g.classOk g.buf = true)
    (hlen : 47 ≤ n) :
    Effect c g (.udp ep n) ((g.learn c g.buf n (some ep)).udpForward ep g.buf n).1
      ((g.learn c g.buf n (some ep)).udpForward ep g.buf n).2.1 := by
  have hports : ∀ ports, Effect c g (.udp ep n) (g.learn c g.buf n (some ep))
      (Gateway.relays (g.buf.take n) ports) := @forwarded_effect c g (.udp ep n) hlearns hsrc hclass hlen
  rw [Gateway.udpForward]
  split
  · cases hallow : (g.learn c g.buf n (some ep)).allow (frameSrcMac g.buf).val 20 40 with
    | mk g' ok =>
      obtain ⟨rate, rfl⟩ := allow_state hallow
      cases ok with
      | false => exact .forwarded (.udp ep n) hlearns rate [] hclass hlen hsrc
      | true => exact .forwarded (.udp ep n) hlearns rate _ hclass hlen hsrc
  · split
    · split
      · exact hports _
      · exact hports _
    · split
      · exact hports _
      · split
        · exact hports _
        · exact hports _

theorem l2Forward_effect {g : Gateway} {n : Nat} (hlearns : g.learns (.l2 n))
    (hsrc : (g.learn c g.buf n none).gwSrcOk g.buf = true) (hclass : g.classOk g.buf = true) (hlen : 47 ≤ n) :
    Effect c g (.l2 n) ((g.learn c g.buf n none).l2Forward g.buf n).1
      ((g.learn c g.buf n none).l2Forward g.buf n).2 := by
  have hports : ∀ ports, Effect c g (.l2 n) (g.learn c g.buf n none)
      (Gateway.relays (g.buf.take n) ports) := @forwarded_effect c g (.l2 n) hlearns hsrc hclass hlen
  rw [Gateway.l2Forward]
  split
  · cases hallow : (g.learn c g.buf n none).allow (frameSrcMac g.buf).val 20 40 with
    | mk g' ok =>
      obtain ⟨rate, rfl⟩ := allow_state hallow
      cases ok with
      | false => exact .forwarded (.l2 n) hlearns rate [] hclass hlen hsrc
      | true => exact .forwarded (.l2 n) hlearns rate _ hclass hlen hsrc
  · split
    · exact hports _
    · exact hports []

theorem ethertypeOk_length {buf : Bytes} {n : Nat} (h : Gateway.ethertypeOk buf n = true) : 47 ≤ n := by
  rw [Gateway.ethertypeOk, Bool.and_eq_true, decide_eq_true_eq] at h
  exact h.1

theorem udp_effect (g : Gateway) (ep : SockAddr) (n : Nat) :
    Effect c g (.udp ep n) (g.udp c ep g.buf n).1 (g.udp c ep g.buf n).2.1 := by
  rw [Gateway.udp]
  split
  · exact .quiet _ g.rate
  · split
    · rename_i hquery
      exact query_effect g ep n hquery
    · rename_i hquery
      split
      · exact .quiet _ g.rate
      · rename_i heth
        rw [Bool.not_eq_true, Bool.not_eq_false'] at heth
        have hlen := ethertypeOk_length heth
        cases hli : g.gwLinkFind ep with
        | some li =>
          dsimp only
          cases hl : g.links[li]? with
          | none => exact .quiet _ g.rate
          | some l =>
            have hfrom : g.fromLink (.udp ep n) li l := by
              rw [Gateway.fromLink, Gateway.linkOf, if_pos ⟨hquery, heth⟩, hli, Option.bind_some, hl, Option.map_some]
            dsimp only
            cases hfed : g.gwFedHandle c li l g.buf n with
            | some r => exact gwFedHandle_effect hfrom hfed
            | none => exact gwFedData_effect g (.udp ep n) li l hfrom hlen
        | none =>
          have hlearns : g.learns (.udp ep n) := ⟨hquery, heth, hli⟩
          dsimp only
          split
          · exact .dropped (.udp ep n) hlearns
          · rename_i hsrc
            rw [Bool.not_eq_true, Bool.not_eq_false'] at hsrc
            split
            · exact .dropped (.udp ep n) hlearns
            · rename_i hclass
              rw [Bool.not_eq_true, Bool.not_eq_false', classOk_learn] at hclass
              exact udpForward_effect hlearns hsrc hclass hlen

theorem l2_effect (g : Gateway) (n : Nat) : Effect c g (.l2 n) (g.l2 c g.buf n).1 (g.l2 c g.buf n).2 := by
  rw [Gateway.l2]
  split
  · exact .quiet _ g.rate
  · rename_i heth
    rw [Bool.not_eq_true, Bool.not_eq_false'] at heth
    have hlen := ethertypeOk_length heth
    cases hmesh : g.gwMeshHandle g.buf n with
    | some r => exact gwMeshHandle_effect heth hmesh
    | none =>
      dsimp only
      split
      · exact .quiet _ g.rate
      · rename_i hclass
        rw [Bool.not_eq_true, Bool.not_eq_false'] at hclass
        have hlearns : g.learns (.l2 n) := ⟨heth, by rw [hmesh]; rfl, hclass⟩
        split
        · exact .dropped (.l2 n) hlearns
        · rename_i hsrc
          rw [Bool.not_eq_true, Bool.not_eq_false'] at hsrc
          exact l2Forward_effect hlearns hsrc hclass hlen

variable (c)

/-- One input, with its outputs. -/
def Gateway.handle (g : Gateway) : Input → Gateway × List Out
  | .udp ep n => ((g.udp c ep g.buf n).1, (g.udp c ep g.buf n).2.1)
  | .l2 n => g.l2 c g.buf n

theorem handle_effect (g : Gateway) (i : Input) : Effect c g i (g.handle c i).1 (g.handle c i).2 := by
  cases i with
  | udp ep n => exact udp_effect g ep n
  | l2 n => exact l2_effect g n

variable {c}

theorem fromLink_udp {g : Gateway} {i : Input} {li : Nat} {l : GwLink} (h : g.fromLink i li l) :
    ∃ ep n, i = .udp ep n ∧ ¬ isQuery g.buf n ∧ Gateway.ethertypeOk g.buf n = true ∧ g.gwLinkFind ep = some li ∧
      g.links[li]? = some l := by
  cases i with
  | l2 n => cases h
  | udp ep n =>
    rw [Gateway.fromLink, Gateway.linkOf] at h
    split at h
    · rename_i hdata
      obtain ⟨li', hli, hl⟩ := Option.bind_eq_some_iff.mp h
      obtain ⟨l', hl', heq⟩ := Option.map_eq_some_iff.mp hl
      obtain ⟨rfl, rfl⟩ := Prod.mk.inj heq
      exact ⟨ep, n, rfl, hdata.1, hdata.2, hli, hl'⟩
    · cases h

theorem handle_query {g : Gateway} {ep : SockAddr} {n : Nat} (h : isQuery g.buf n) :
    g.handle c (.udp ep n) = g.query ep g.buf := by
  have hn : ¬ n = 0 := by
    intro hn
    have h8 := h.1
    omega
  rw [Gateway.handle, Gateway.udp, if_neg hn, if_pos h]

theorem handle_link {g : Gateway} {i : Input} {li : Nat} {l : GwLink} (h : g.fromLink i li l) :
    g.handle c i = (g.gwFedHandle c li l g.buf i.size).getD (g.gwFedData li g.buf i.size) := by
  obtain ⟨ep, n, rfl, hquery, heth, hli, hl⟩ := fromLink_udp h
  have hn : ¬ n = 0 := by
    intro hn
    have hlen := ethertypeOk_length heth
    omega
  rw [Gateway.handle, Gateway.udp, if_neg hn, if_neg hquery, heth, hli]
  simp only [Bool.not_true, Bool.false_eq_true, if_false, hl]
  rfl

theorem isControl_guard {ty : UInt8} {len : Nat} {buf : Bytes} {n : Nat} (h : isControl ty len buf n) (hlen : 1 ≤ len) :
    ¬ (frameNextHeader buf ≠ ipv69NextControl ∨ n - 14 - ipv69HeaderLen < 1) := by
  obtain ⟨hctl, -, hn⟩ := h
  rintro (h | h)
  · exact h hctl
  · omega

theorem gwFedHandle_query {g : Gateway} {li : Nat} {l : GwLink} {n : Nat} (h : isControl ctrlGwQ 6 g.buf n)
    (hpeer : g.peerFindAddr (get40 (framePayload g.buf) 1) = none) (hlinks : 1 < g.links.length)
    (hnew : g.asked (get40 (framePayload g.buf) 1) = false) (hroom : g.gwp.entries.length < 16)
    (hfits : n - 14 - ipv69HeaderLen ≤ Gateway.linkPktMax) :
    g.gwFedHandle c li l g.buf n =
      some ({ g with gwp := g.gwp.push ⟨get40 (framePayload g.buf) 1, l.ep, true, g.time⟩ },
        (g.otherLinks li).map fun j =>
          g.gwLinkSendPkt j (slice (framePayload g.buf) 0 (n - 14 - ipv69HeaderLen))) := by
  have htype : ¬ byteAt (framePayload g.buf) 0 = ctrlGwAnn := by
    rw [h.2.1]
    decide
  unfold Gateway.gwFedHandle
  rw [if_neg (isControl_guard h (by decide)), if_neg htype, if_pos h.2]
  dsimp only
  rw [hpeer]
  exact if_pos ⟨hlinks, by rw [hnew]; rfl, hroom, hfits⟩

theorem handle_reply {g : Gateway} {i : Input} (h : g.replies i) :
    g.handle c i = g.gwPendRelay (framePayload g.buf) := by
  obtain ⟨hctl, hmesh⟩ := h
  have hguard := isControl_guard hctl (by decide)
  have htype : ¬ byteAt (framePayload g.buf) 0 = ctrlGwAnn := by
    rw [hctl.2.1]
    decide
  have htype' : ∀ len, ¬ (byteAt (framePayload g.buf) 0 = ctrlGwQ ∧ len ≤ i.size - 14 - ipv69HeaderLen) := by
    intro len hq
    rw [hctl.2.1] at hq
    exact absurd hq.1 (by decide)
  cases i with
  | udp ep n =>
    obtain ⟨⟨li, l⟩, hl⟩ := Option.isSome_iff_exists.mp hmesh
    rw [handle_link hl]
    unfold Gateway.gwFedHandle
    rw [if_neg hguard, if_neg htype, if_neg (htype' 6), if_pos hctl.2]
    rfl
  | l2 n =>
    have heth : (!Gateway.ethertypeOk g.buf n) = false := by
      rw [Bool.not_eq_false']
      exact hmesh
    rw [Gateway.handle, Gateway.l2, heth, if_neg Bool.false_ne_true]
    unfold Gateway.gwMeshHandle
    dsimp only [Input.size] at hguard htype' hctl
    rw [if_neg hguard, if_neg htype, if_neg (htype' 6), if_pos hctl.2]

end Gw
