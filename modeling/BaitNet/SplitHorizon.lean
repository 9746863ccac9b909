import BaitNet.Askers
import BaitNet.PeerTable

/-!
# Split horizon

A broadcast of a client goes to every used entry but the first one with the client's endpoint. The rest
of its own entries, and everybody else who has several, get it as often as they are entered; so
a broadcast stays away from its sender and reaches everybody once exactly while no endpoint is entered twice.
-/
namespace Gw

open Wire Link Crypto Tables

/-- A used entry with the endpoint. -/
def Peer.At (e : SockAddr) (p : Peer) : Prop := p.used = true ∧ p.ep = some e

instance (e : SockAddr) (p : Peer) : Decidable (p.At e) := inferInstanceAs (Decidable (_ ∧ _))

def endpoints (l : List Peer) : List SockAddr := l.filterMap fun p => if p.used then p.ep else none

/-- No two used entries share an endpoint. -/
def OnePerEndpoint (l : List Peer) : Prop := ∀ e, AtMostOne (Peer.At e) l

theorem clients_endpoints (l : List Peer) : Gateway.clients l = (endpoints l).map .client := by
  rw [Gateway.clients, endpoints, List.map_filterMap]
  congr 1
  funext p
  split
  · rfl
  · rfl

theorem count_endpoints (l : List Peer) (e : SockAddr) : (endpoints l).count e = l.countP fun p => p.At e := by
  induction l with
  | nil => rfl
  | cons p l ih =>
    rw [List.countP_cons, ← ih, endpoints, List.filterMap_cons]
    by_cases hused : p.used = true
    · cases hep : p.ep with
      | none => simp [Peer.At, hused, hep, endpoints]
      | some e' => simp [Peer.At, hused, hep, endpoints, List.count_cons]
    · simp [Peer.At, hused, endpoints]

theorem onePerEndpoint_iff (l : List Peer) : OnePerEndpoint l ↔ (endpoints l).Nodup := by
  rw [List.nodup_iff_count_le_one]
  refine forall_congr' fun e => ?_
  rw [count_endpoints]
  exact atMostOne_iff_countP l

/-- Without the first used entry of the endpoint. -/
theorem count_eraseP (l : List Peer) (ep e : SockAddr) :
    (endpoints (l.eraseP fun p => p.used && p.ep = some ep)).count e =
      (endpoints l).count e - if e = ep then 1 else 0 := by
  rw [count_endpoints, count_endpoints]
  induction l with
  | nil => exact (Nat.zero_sub _).symm
  | cons p l ih =>
    rw [List.eraseP_cons, List.countP_cons]
    have hat : (p.used && decide (p.ep = some ep)) = decide (p.At ep) := by
      rw [Bool.eq_iff_iff, Bool.and_eq_true, decide_eq_true_eq, decide_eq_true_eq]
      rfl
    rw [hat]
    by_cases hp : p.At ep
    · have hother : p.At e ↔ e = ep := by
        refine ⟨fun h => Option.some.inj (h.2.symm.trans hp.2), ?_⟩
        rintro rfl
        exact hp
      simp only [hp, hother, decide_true, cond_true, decide_eq_true_eq, Nat.add_sub_cancel]
    · simp only [hp, decide_false, cond_false, List.countP_cons, ih, decide_eq_true_eq]
      by_cases he : e = ep
      · subst he
        simp only [hp, if_false, Nat.add_zero]
      · simp only [he, if_false, Nat.sub_zero]

namespace Gateway

variable (c : TweetNaCl)

/-- The class filter and the rate limiter admit a broadcast in the buffer. -/
def admits (g : Gateway) (buf : Bytes) : Prop :=
  g.classOk buf = true ∧ frameDstMac buf = bcastMac ∧ (g.allow (frameSrcMac buf).val 20 40).2 = true

instance (g : Gateway) (buf : Bytes) : Decidable (g.admits buf) := inferInstanceAs (Decidable (_ ∧ _ ∧ _))

/-- The gateway with which a datagram is replicated as a broadcast, if it is: that of a link as it is, that of a
client once the client has been learned. -/
def replicates (g : Gateway) (ep : SockAddr) (n : Nat) : Option Gateway :=
  if isQuery g.buf n ∨ ethertypeOk g.buf n = false then none
  else
    match g.gwLinkFind ep with
    | some li =>
      g.links[li]?.bind fun l => if g.gwFedHandle c li l g.buf n = none ∧ g.admits g.buf then some g else none
    | none =>
      let g' := g.learn c g.buf n (some ep)
      if g'.gwSrcOk g.buf = true ∧ g'.admits g.buf then some g' else none

/-- The endpoint behind a port. -/
def portEp (g : Gateway) : Port → Option SockAddr
  | .client ep => some ep
  | .link i => g.links[i]?.map GwLink.ep
  | .l2 => none

/-- Where the replicas go over UDP. -/
def reached (g : Gateway) (outs : List Out) : List SockAddr :=
  outs.filterMap fun
    | .relay via _ => g.portEp via
    | _ => none

end Gateway

variable (c : TweetNaCl)

/-- No replica goes back to `ep`, and one goes to every other endpoint of the table. -/
def SplitHorizon (g : Gateway) (ep : SockAddr) (n : Nat) : Prop :=
  ∀ t ∈ g.replicates c ep n,
    (t.reached (g.handle c (.udp ep n)).2).count ep = 0 ∧
      ∀ e ∈ endpoints t.peers, e ≠ ep → (t.reached (g.handle c (.udp ep n)).2).count e = 1

instance (g : Gateway) (ep : SockAddr) (n : Nat) : Decidable (SplitHorizon c g ep n) :=
  inferInstanceAs (Decidable (∀ t ∈ g.replicates c ep n, _ ∧ ∀ e ∈ endpoints t.peers, _))

variable {c}

theorem reached_relays (g : Gateway) (frame : Bytes) (ports : List Port) :
    g.reached (Gateway.relays frame ports) = ports.filterMap g.portEp := by
  rw [Gateway.reached, Gateway.relays, List.filterMap_map]
  rfl

theorem reached_clients (g : Gateway) (l : List Peer) : (Gateway.clients l).filterMap g.portEp = endpoints l := by
  rw [clients_endpoints, List.filterMap_map]
  exact List.filterMap_some

theorem reached_links (g : Gateway) : g.allLinks.filterMap g.portEp = g.links.map GwLink.ep := by
  rw [Gateway.allLinks, List.filterMap_map]
  exact filterMap_range GwLink.ep g.links

/-- The replicas of a link's broadcast. -/
theorem replicates_link {g t : Gateway} {ep : SockAddr} {n : Nat} (h : g.replicates c ep n = some t) {li : Nat}
    (hli : g.gwLinkFind ep = some li) :
    t = g ∧ t.reached (g.handle c (.udp ep n)).2 = endpoints t.peers := by
  rw [Gateway.replicates] at h
  split at h
  · cases h
  · rename_i hdata
    rw [not_or, Bool.not_eq_false] at hdata
    simp only [hli] at h
    obtain ⟨l, hl, h⟩ := Option.bind_eq_some_iff.mp h
    split at h
    · rename_i hadmit
      obtain rfl := Option.some.inj h
      obtain ⟨hfed, hclass, hbroad, hrate⟩ := hadmit
      refine ⟨rfl, ?_⟩
      have hlink : g.fromLink (.udp ep n) li l := by
        rw [Gateway.fromLink, Gateway.linkOf, if_pos hdata, hli, Option.bind_some, hl]
        rfl
      rw [handle_link hlink, Input.size, hfed, Option.getD_none, Gateway.gwFedData]
      rcases hallow : g.allow (frameSrcMac g.buf).val 20 40 with ⟨g', ok⟩
      rw [hallow] at hrate
      obtain ⟨rate, rfl⟩ := allow_state hallow
      obtain rfl : ok = true := hrate
      simp only [hclass, Bool.not_true, Bool.false_eq_true, if_false, hbroad, if_true]
      rw [reached_relays, reached_clients]
    · cases h

theorem udpForward_broadcast {t : Gateway} {ep : SockAddr} {buf : Bytes} {n : Nat} (hbroad : frameDstMac buf = bcastMac)
    (hrate : (t.allow (frameSrcMac buf).val 20 40).2 = true) :
    (t.udpForward ep buf n).2.1 = Gateway.relays (buf.take n)
      (Gateway.clients (t.peers.eraseP fun p => p.used && p.ep = some ep) ++
        (if t.cfg.l2.isSome then [.l2] else []) ++ t.allLinks) := by
  rw [Gateway.udpForward, if_pos hbroad]
  rcases hallow : t.allow (frameSrcMac buf).val 20 40 with ⟨t', ok⟩
  rw [hallow] at hrate
  obtain ⟨rate, rfl⟩ := allow_state hallow
  obtain rfl : ok = true := hrate
  simp only [List.eraseP_eq_eraseIdx]
  cases t.peers.findIdx? fun p => p.used && p.ep = some ep with
  | none => rfl
  | some i => rfl

/-- The replicas of a client's broadcast. -/
theorem replicates_client {g t : Gateway} {ep : SockAddr} {n : Nat} (h : g.replicates c ep n = some t)
    (hli : g.gwLinkFind ep = none) :
    g.learns (.udp ep n) ∧ t = g.learn c g.buf n (some ep) ∧ t.reached (g.handle c (.udp ep n)).2 =
      endpoints (t.peers.eraseP fun p => p.used && p.ep = some ep) ++ t.links.map GwLink.ep := by
  rw [Gateway.replicates] at h
  split at h
  · cases h
  · rename_i hdata
    rw [not_or, Bool.not_eq_false] at hdata
    simp only [hli] at h
    split at h
    · rename_i hadmit
      obtain rfl := Option.some.inj h
      obtain ⟨hsrc, hclass, hbroad, hrate⟩ := hadmit
      have hn : n ≠ 0 := by
        have hlen := ethertypeOk_length hdata.2
        omega
      have houts : (g.handle c (.udp ep n)).2 = ((g.learn c g.buf n (some ep)).udpForward ep g.buf n).2.1 := by
        rw [Gateway.handle, Gateway.udp, if_neg hn, if_neg hdata.1, hdata.2]
        simp only [Bool.not_true, Bool.false_eq_true, if_false, hli, hsrc, hclass]
      refine ⟨⟨hdata.1, hdata.2, hli⟩, rfl, ?_⟩
      have hl2 : (if (g.learn c g.buf n (some ep)).cfg.l2.isSome then [Port.l2] else []).filterMap
          (g.learn c g.buf n (some ep)).portEp = [] := by
        split
        · rfl
        · rfl
      rw [houts, udpForward_broadcast hbroad hrate, reached_relays, List.filterMap_append, List.filterMap_append,
        reached_clients, reached_links, hl2, List.append_nil]
    · cases h

/-- No endpoint of the table is that of a link. -/
def NoLinks (g : Gateway) : Prop := ∀ e ∈ endpoints g.peers, g.gwLinkFind e = none

theorem count_links {g : Gateway} {e : SockAddr} (h : g.gwLinkFind e = none) : (g.links.map GwLink.ep).count e = 0 := by
  refine List.count_eq_zero.mpr fun hmem => ?_
  obtain ⟨l, hl, rfl⟩ := List.mem_map.mp hmem
  have hno := List.findIdx?_eq_none_iff.mp h l hl
  rw [(linkEpMatch_iff l.ep l).mpr rfl] at hno
  cases hno

/-- A replicated datagram keeps to the split horizon exactly while no endpoint is entered twice. -/
theorem splitHorizon_step {g t : Gateway} {ep : SockAddr} {n : Nat} (h : g.replicates c ep n = some t)
    (hlinks : t.gwLinkFind ep = g.gwLinkFind ep) (hno : NoLinks t) :
    SplitHorizon c g ep n ↔ OnePerEndpoint t.peers := by
  have hstep : SplitHorizon c g ep n ↔ (t.reached (g.handle c (.udp ep n)).2).count ep = 0 ∧
      ∀ e ∈ endpoints t.peers, e ≠ ep → (t.reached (g.handle c (.udp ep n)).2).count e = 1 := by
    rw [SplitHorizon, h]
    exact ⟨fun hall => hall t rfl, fun hthis t' ht' => Option.some.inj ht' ▸ hthis⟩
  have hcount : (∀ e ∈ endpoints t.peers, (endpoints t.peers).count e = 1) ↔ OnePerEndpoint t.peers := by
    rw [onePerEndpoint_iff, List.nodup_iff_count_le_one]
    constructor
    · intro hone e
      by_cases he : e ∈ endpoints t.peers
      · exact (hone e he).le
      · rw [List.count_eq_zero.mpr he]
        exact Nat.zero_le 1
    · intro hle e he
      have hpos := List.count_pos_iff.mpr he
      have hle := hle e
      omega
  rw [hstep, ← hcount]
  cases hli : g.gwLinkFind ep with
  | some li =>
    obtain ⟨rfl, hreached⟩ := replicates_link h hli
    have hself : ep ∉ endpoints t.peers := fun hmem => by
      rw [hno ep hmem] at hli
      cases hli
    rw [hreached]
    constructor
    · rintro ⟨-, hone⟩ e he
      exact hone e he fun heq => hself (heq ▸ he)
    · exact fun hone => ⟨List.count_eq_zero.mpr hself, fun e he _ => hone e he⟩
  | none =>
    obtain ⟨-, -, hreached⟩ := replicates_client h hli
    have hself : t.gwLinkFind ep = none := hlinks.trans hli
    rw [hreached]
    simp only [List.count_append, count_eraseP, count_links hself, Nat.add_zero, if_true]
    constructor
    · rintro ⟨hback, hone⟩ e he
      have hpos := List.count_pos_iff.mpr he
      by_cases heq : e = ep
      · subst heq
        omega
      · have hthis := hone e he heq
        rwa [if_neg heq, count_links (hno e he), Nat.add_zero, Nat.sub_zero] at hthis
    · intro hone
      refine ⟨?_, fun e he heq => ?_⟩
      · by_cases he : ep ∈ endpoints t.peers
        · rw [hone ep he]
        · rw [List.count_eq_zero.mpr he]
      · rw [if_neg heq, count_links (hno e he), hone e he]

theorem mem_endpoints {l : List Peer} {e : SockAddr} : e ∈ endpoints l ↔ ∃ p ∈ l, p.At e := by
  rw [endpoints, List.mem_filterMap]
  refine exists_congr fun p => and_congr_right fun _ => ?_
  by_cases hused : p.used = true
  · rw [if_pos hused, Peer.At, and_iff_right hused]
  · rw [if_neg hused, Peer.At]
    exact ⟨fun h => (nomatch h), fun h => absurd h.1 hused⟩

theorem Learnt.onePerKey {g : Gateway} {s : Signed} {mac : Arr 6} {ep : Option SockAddr} {peers : List Peer}
    (h : Learnt c g s mac ep peers) (hkeys : OnePerKey g.peers) : OnePerKey peers := by
  intro key
  cases h with
  | refused => exact hkeys key
  | refreshed i p hp hused hkey hs =>
    refine (hkeys key).set fun hx j y hy hPy => ?_
    exact hkeys key j i y p hy hp hPy ⟨hused, hx.2⟩
  | added i p hp hfree hnew hs =>
    refine (hkeys key).set fun hx j y hy hPy => ?_
    exact absurd (hPy.2.trans hx.2.symm) (hnew y (List.mem_of_getElem? hy) hPy.1)

theorem Learnt.onePerEndpoint {g : Gateway} {s : Signed} {mac : Arr 6} {ep : Option SockAddr} {peers : List Peer}
    (h : Learnt c g s mac ep peers) (hkeys : OnePerKey g.peers) (hone : OnePerEndpoint g.peers)
    (hfree : ∀ e ∈ ep, ∀ p ∈ g.peers, p.At e → p.key = s.key) : OnePerEndpoint peers := by
  intro e
  cases h with
  | refused => exact hone e
  | refreshed i p hp hused hkey hs =>
    refine (hone e).set fun hx j y hy hPy => ?_
    have hykey := hfree e hx.2 y (List.mem_of_getElem? hy) hPy
    exact hkeys s.key j i y p hy hp ⟨hPy.1, hykey⟩ ⟨hused, hkey⟩
  | added i p hp hfree' hnew hs =>
    refine (hone e).set fun hx j y hy hPy => ?_
    exact absurd (hfree e hx.2 y (List.mem_of_getElem? hy) hPy) (hnew y (List.mem_of_getElem? hy) hPy.1)

/-- What an input teaches moves nobody to an endpoint where another key is entered. -/
def EndpointFree (c : TweetNaCl) (g : Gateway) (i : Input) : Prop :=
  ∀ s ∈ g.claimed c i, ∀ e ∈ i.source, ∀ p ∈ g.peers, p.At e → p.key = s.key

instance (g : Gateway) (i : Input) : Decidable (EndpointFree c g i) :=
  inferInstanceAs (Decidable (∀ s ∈ g.claimed c i, ∀ e ∈ i.source, ∀ p ∈ g.peers, _ → _))

/-- What every table keeps. -/
structure Tabled (g : Gateway) : Prop where
  keys : OnePerKey g.peers
  noLinks : NoLinks g

theorem gwLinkFind_congr {g g' : Gateway} (h : g'.linkConf = g.linkConf) (e : SockAddr) :
    g'.gwLinkFind e = g.gwLinkFind e := by rw [gwLinkFind_eq, gwLinkFind_eq, h]

/-- A table after an input. -/
theorem Tabled.learnt {g g' : Gateway} {i : Input} (h : Tabled g) (hconf : g'.linkConf = g.linkConf)
    (hpeers : g'.peers = g.peers ∨
      ∃ s, g.claimed c i = some s ∧ Learnt c g s (frameSrcMac g.buf) i.source g'.peers) : Tabled g' := by
  cases hpeers with
  | inl heq =>
    refine ⟨heq ▸ h.keys, fun e he => ?_⟩
    rw [gwLinkFind_congr hconf]
    exact h.noLinks e (heq ▸ he)
  | inr hlearnt =>
    obtain ⟨s, hs, hlearnt⟩ := hlearnt
    refine ⟨hlearnt.onePerKey h.keys, fun e he => ?_⟩
    rw [gwLinkFind_congr hconf]
    obtain ⟨p, hp, hat⟩ := mem_endpoints.mp he
    cases hlearnt.mem hp with
    | inl hold => exact h.noLinks e (mem_endpoints.mpr ⟨p, hold, hat⟩)
    | inr hnew =>
      obtain ⟨-, -, hsource⟩ := hnew
      rw [hat.2] at hsource
      cases i with
      | l2 n => cases hsource
      | udp ep n =>
        obtain rfl : e = ep := Option.some.inj hsource
        rw [Gateway.claimed] at hs
        split at hs
        · rename_i hlearns
          exact hlearns.2.2
        · cases hs

theorem OnePerEndpoint.learnt {g g' : Gateway} {i : Input} (h : OnePerEndpoint g.peers) (ht : Tabled g)
    (hfree : EndpointFree c g i) (hpeers : g'.peers = g.peers ∨
      ∃ s, g.claimed c i = some s ∧ Learnt c g s (frameSrcMac g.buf) i.source g'.peers) : OnePerEndpoint g'.peers := by
  cases hpeers with
  | inl heq => exact heq ▸ h
  | inr hlearnt =>
    obtain ⟨s, hs, hlearnt⟩ := hlearnt
    exact hlearnt.onePerEndpoint ht.keys h (hfree s hs)

theorem kept_tabled : Kept c fun hs g =>
    Tabled g ∧ ((∀ x ∈ hs, EndpointFree c x.1 x.2) → OnePerEndpoint g.peers) where
  wait _ _ _ h := ⟨⟨h.1.keys, h.1.noLinks⟩, h.2⟩
  housekeeping _ _ h := ⟨⟨h.1.keys, h.1.noLinks⟩, h.2⟩
  recvInto _ _ _ h := ⟨⟨h.1.keys, h.1.noLinks⟩, h.2⟩
  handle hs g i h := by
    have heff := handle_effect c g i
    refine ⟨h.1.learnt heff.linkConf heff.learnt, fun hok => ?_⟩
    have hprev : OnePerEndpoint g.peers := h.2 fun x hx => hok x (List.mem_append_left _ hx)
    have hlast : EndpointFree c g i := hok (g, i) (List.mem_append_right _ (List.mem_singleton.mpr rfl))
    exact hprev.learnt h.1 hlast heff.learnt

theorem start_tabled (cfg : Config) (links : List (SockAddr × Arr 32)) (stale : Bytes) :
    Tabled (start cfg links stale) ∧ OnePerEndpoint (start cfg links stale).peers := by
  have hunused : ∀ p ∈ (start cfg links stale).peers, p.used = false := fun p hp => by
    obtain rfl := List.eq_of_mem_replicate hp
    rfl
  have hnone : ∀ (i : ℕ) (p : Peer), (start cfg links stale).peers[i]? = some p → ¬ p.used = true := fun i p hp => by
    rw [hunused p (List.mem_of_getElem? hp)]
    exact Bool.false_ne_true
  refine ⟨⟨fun key i j p q hp hq hP => absurd hP.1 (hnone i p hp), fun e he => ?_⟩,
    fun e i j p q hp hq hP => absurd hP.1 (hnone i p hp)⟩
  obtain ⟨p, hp, hat⟩ := mem_endpoints.mp he
  rw [Peer.At, hunused p hp] at hat
  exact absurd hat.1 Bool.false_ne_true

/-- The tables that a datagram is replicated with are reachable, too. -/
theorem Tabled.replicates {g t : Gateway} {ep : SockAddr} {n : Nat} (h : Tabled g)
    (hr : g.replicates c ep n = some t) :
    Tabled t ∧ t.gwLinkFind ep = g.gwLinkFind ep ∧
      (t.peers = g.peers ∨ ∃ s, g.claimed c (.udp ep n) = some s ∧
        Learnt c g s (frameSrcMac g.buf) (some ep) t.peers) := by
  cases hli : g.gwLinkFind ep with
  | some li =>
    obtain ⟨rfl, -⟩ := replicates_link hr hli
    exact ⟨h, hli, .inl rfl⟩
  | none =>
    obtain ⟨hlearns, rfl, -⟩ := replicates_client hr hli
    have hconf : (g.learn c g.buf n (some ep)).linkConf = g.linkConf := by
      obtain ⟨peers, dirty, rate, -, heq⟩ := learn_effect c g g.buf n (some ep)
      rw [heq]
      rfl
    have hlearnt := @learn_learnt c g (.udp ep n) hlearns
    exact ⟨h.learnt hconf hlearnt, (gwLinkFind_congr hconf ep).trans hli, hlearnt⟩

variable (c) in
/-- In every run a broadcast keeps to the split horizon exactly while no endpoint is entered twice, and none
is as long as nobody is learned at an endpoint where another key is entered. -/
theorem split_horizon (cfg : Config) (links : List (SockAddr × Arr 32)) (stale : Bytes) (rs : List Round) :
    (∀ x ∈ (start cfg links stale).history c rs, ∀ ep n t, x.2 = .udp ep n → x.1.replicates c ep n = some t →
      (SplitHorizon c x.1 ep n ↔ OnePerEndpoint t.peers)) ∧
    ((∀ x ∈ (start cfg links stale).history c rs, EndpointFree c x.1 x.2) →
      ∀ x ∈ (start cfg links stale).history c rs, ∀ ep n, x.2 = .udp ep n → SplitHorizon c x.1 ep n) := by
  obtain ⟨hstart, hone⟩ := start_tabled cfg links stale
  have hrun := ((@kept_tabled c).run rs ⟨hstart, fun _ => hone⟩).2
  have hexact : ∀ x ∈ (start cfg links stale).history c rs, ∀ ep n t, x.2 = .udp ep n →
      x.1.replicates c ep n = some t → (SplitHorizon c x.1 ep n ↔ OnePerEndpoint t.peers) := by
    intro x hx ep n t _ hr
    obtain ⟨pre, post, hsplit⟩ := List.append_of_mem hx
    obtain ⟨ht, hlinks, -⟩ := (hrun pre x post hsplit).1.replicates hr
    exact splitHorizon_step hr hlinks ht.noLinks
  refine ⟨hexact, fun hok x hx ep n hudp t ht => ?_⟩
  obtain ⟨pre, post, hsplit⟩ := List.append_of_mem hx
  obtain ⟨htabled, hprev⟩ := hrun pre x post hsplit
  obtain ⟨-, -, hlearnt⟩ := htabled.replicates ht
  have hfree : EndpointFree c x.1 (.udp ep n) := hudp ▸ hok x hx
  have hbefore : OnePerEndpoint x.1.peers := hprev fun y hy => hok y (by
    rw [hsplit]
    exact List.mem_append_left _ hy)
  exact (hexact x hx ep n t hudp ht).mpr (hbefore.learnt htabled hfree hlearnt) t ht

/-- Clients that announce themselves from these endpoints, each with a key and an address of its own. -/
def demoJoins (eps : List UInt8) : List Round :=
  (eps.zipIdx 1).map fun x => demoRound (demoEp x.1) (demoAnnounce (.ofNat x.2) (0x8000000000 + .ofNat x.2))

def demoMet (eps : List UInt8) : List (Gateway × Input) := (start (demoConfig 0) [] []).history toy (demoJoins eps)

theorem split_horizon_apart : ∀ x ∈ demoMet [1, 2, 3], ∀ ep n, x.2 = .udp ep n → SplitHorizon toy x.1 ep n :=
  (split_horizon toy (demoConfig 0) [] [] (demoJoins [1, 2, 3])).2 (by decide +kernel)

/-- Two keys at one endpoint: their announces come back to it, and it hears the third client twice. -/
theorem broadcast_comes_back :
    ((demoMet [1, 1, 2]).map fun x => x.1.reached (x.1.handle toy x.2).2) =
        [[], [demoEp 1], [demoEp 1, demoEp 1]] ∧
      ¬ ∀ x ∈ demoMet [1, 1, 2], ∀ ep n, x.2 = .udp ep n → SplitHorizon toy x.1 ep n := by
  have hback : ∃ x ∈ demoMet [1, 1, 2], x.2 = .udp (demoEp 1) 148 ∧ ¬ SplitHorizon toy x.1 (demoEp 1) 148 := by
    decide +kernel
  obtain ⟨x, hx, hudp, hnot⟩ := hback
  exact ⟨by decide +kernel, fun h => hnot (h x hx (demoEp 1) 148 hudp)⟩

end Gw
