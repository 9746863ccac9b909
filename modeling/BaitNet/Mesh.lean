import BaitNet.Askers
import BaitNet.Flood

/-!
# Forwarding over the links of a mesh

One data frame enters at a gateway, and its copies are followed over the links of the
federation while every gateway goes on with whatever else it does. What goes to a client or
onto the bridge has left the mesh.
-/
namespace Gw

open Wire Link Crypto Tables Relation

/-- The link and the frame of every copy. -/
def linkCopies (outs : List Out) : List (Nat × Bytes) :=
  outs.filterMap fun
    | .relay (.link j) frame => some (j, frame)
    | _ => none

theorem linkCopies_append (l₁ l₂ : List Out) : linkCopies (l₁ ++ l₂) = linkCopies l₁ ++ linkCopies l₂ :=
  List.filterMap_append

theorem linkCopies_eq_nil {outs : List Out} (h : ∀ via frame, Out.relay via frame ∉ outs) : linkCopies outs = [] := by
  refine List.filterMap_eq_nil_iff.mpr fun o ho => ?_
  cases o with
  | relay via frame => exact absurd ho (h via frame)
  | control via frame => rfl
  | answer asker q text => rfl
  | negative asker q text => rfl

/-- The copies of a frame that goes to these links. -/
theorem linkCopies_links (frame : Bytes) (js : List Nat) :
    linkCopies (Gateway.relays frame (js.map .link)) = js.map fun j => (j, frame) := by
  rw [Gateway.relays, List.map_map, linkCopies, List.filterMap_map]
  exact congrFun (List.filterMap_eq_map (f := fun j => (j, frame))) js

theorem linkCopies_clients (frame : Bytes) (l : List Peer) :
    linkCopies (Gateway.relays frame (Gateway.clients l)) = [] := by
  refine List.filterMap_eq_nil_iff.mpr fun o ho => ?_
  obtain ⟨via, hvia, rfl⟩ := List.mem_map.mp ho
  obtain ⟨p, -, hp⟩ := List.mem_filterMap.mp hvia
  split at hp
  · obtain ⟨ep, -, rfl⟩ := Option.map_eq_some_iff.mp hp
    rfl
  · cases hp

variable (c : TweetNaCl)

theorem query_linkCopies {g : Gateway} {ep : SockAddr} {n : Nat} (hquery : isQuery g.buf n) :
    linkCopies (g.query ep g.buf).2 = [] := by
  refine linkCopies_eq_nil fun via frame hmem => ?_
  obtain ⟨-, -, -, hfrom | hlearns⟩ := (@query_effect toy g ep n hquery).relay hmem
  · obtain ⟨li, l, hl⟩ := hfrom
    obtain ⟨ep', n', heq, hno, -⟩ := fromLink_udp hl
    cases heq
    exact hno hquery
  · exact hlearns.1.1 hquery

/-- Mesh control is not passed on as a copy. -/
theorem gwFedHandle_linkCopies {g g' : Gateway} {li : Nat} {l : GwLink} {buf : Bytes} {n : Nat} {outs : List Out}
    (h : g.gwFedHandle c li l buf n = some (g', outs)) : linkCopies outs = [] := by
  refine linkCopies_eq_nil fun via frame hmem => ?_
  rw [Gateway.gwFedHandle] at h
  dsimp only at h
  split at h
  · cases h
  · split at h
    · obtain ⟨-, rfl⟩ := Prod.mk.inj (Option.some.inj h)
      cases hmem
    · split at h
      · split at h
        · split at h
          · obtain ⟨-, rfl⟩ := Prod.mk.inj (Option.some.inj h)
            cases List.mem_singleton.mp hmem
          · obtain ⟨-, rfl⟩ := Prod.mk.inj (Option.some.inj h)
            cases hmem
        · split at h
          · obtain ⟨-, rfl⟩ := Prod.mk.inj (Option.some.inj h)
            exact not_relay_of_isControl (linkSends_isControl _ _ _) hmem
          · obtain ⟨-, rfl⟩ := Prod.mk.inj (Option.some.inj h)
            cases hmem
      · split at h
        · have houts : outs = (g.gwPendRelay (framePayload buf)).2 := by rw [Option.some.inj h]
          rw [houts, Gateway.gwPendRelay] at hmem
          split at hmem
          · cases hmem
          · exact relayTo_not_relay hmem
        · split at h
          · obtain ⟨-, rfl⟩ := Prod.mk.inj (Option.some.inj h)
            cases hmem
          · cases h

/-- The links that a frame of link `li` goes on to: none, the one of a route, or all others. -/
inductive Onward (g : Gateway) (li : Nat) : List Nat → Prop
  | stays : Onward g li []
  | route (j : Nat) (h : j ≠ li) : Onward g li [j]
  | flood : Onward g li (g.otherLinks li)

theorem gwFedData_linkCopies (g : Gateway) (li : Nat) (buf : Bytes) (n : Nat) :
    ∃ js, linkCopies (g.gwFedData li buf n).2 = js.map (fun j => (j, buf.take n)) ∧ Onward g li js := by
  rw [Gateway.gwFedData]
  split
  · exact ⟨[], rfl, .stays⟩
  · split
    · cases hallow : g.allow (frameSrcMac buf).val 20 40 with
      | mk g' ok =>
        obtain ⟨rate, rfl⟩ := allow_state hallow
        cases ok with
        | false => exact ⟨[], rfl, .stays⟩
        | true => exact ⟨[], linkCopies_clients _ _, .stays⟩
    · dsimp only
      split
      · exact ⟨[], rfl, .stays⟩
      · split
        · exact ⟨[], rfl, .stays⟩
        · split
          · rename_i r hroute
            have hne : r.li ≠ li := of_decide_eq_true (Option.filter_eq_some_iff.mp hroute).2
            exact ⟨[r.li], rfl, .route r.li hne⟩
          · exact ⟨g.otherLinks li, linkCopies_links _ _, .flood⟩

/-- A frame of link `li` goes on to other links only. -/
theorem udp_linkCopies {g : Gateway} {ep : SockAddr} {li : Nat} (hli : g.gwLinkFind ep = some li) (n : Nat) :
    ∃ js, linkCopies (g.udp c ep g.buf n).2.1 = js.map (fun j => (j, g.buf.take n)) ∧ Onward g li js := by
  rw [Gateway.udp]
  split
  · exact ⟨[], rfl, .stays⟩
  · split
    · rename_i hquery
      exact ⟨[], query_linkCopies hquery, .stays⟩
    · split
      · exact ⟨[], rfl, .stays⟩
      · rw [hli]
        dsimp only
        cases hl : g.links[li]? with
        | none => exact ⟨[], rfl, .stays⟩
        | some l =>
          dsimp only
          cases hfed : g.gwFedHandle c li l g.buf n with
          | none => exact gwFedData_linkCopies g li g.buf n
          | some x => exact ⟨[], gwFedHandle_linkCopies c hfed, .stays⟩

/-- Gateways that declare each other: `links i` are the `--peer-gw` of gateway `i`, and what it
sends over its link `a` arrives from `src a`, which the gateway there declares as its link
`far a`. -/
structure Topology (ι : Type*) where
  links : ι → List (SockAddr × Arr 32)
  far : ((i : ι) × Fin (links i).length) → (i : ι) × Fin (links i).length
  src : ((i : ι) × Fin (links i).length) → SockAddr
  declared : ∀ a, ((links (far a).1).findIdx? fun x => epNorm (src a) = epNorm x.1) = some (far a).2.val

variable {ι : Type*}

/-- A link as one of its two gateways sends over it. -/
abbrev Topology.Arc (T : Topology ι) : Type _ := (i : ι) × Fin (T.links i).length

variable (T : Topology ι)

/-- Link `j` of gateway `i`, if it is configured. -/
def Topology.arc? (i : ι) (j : Nat) : Option T.Arc := if h : j < (T.links i).length then some ⟨i, ⟨j, h⟩⟩ else none

/-- Where a copy on `a` can go on to: every link but the one it came by. -/
def Topology.next (a : T.Arc) : List T.Arc :=
  ((List.range (T.links (T.far a).1).length).filter (· ≠ (T.far a).2.val)).filterMap (T.arc? (T.far a).1)

/-- The copies among what gateway `i` sends; nothing goes out on a link that it does not have. -/
def Topology.copies (i : ι) (outs : List Out) : List (T.Arc × Bytes) :=
  (linkCopies outs).filterMap fun x => (T.arc? i x.1).map fun a => (a, x.2)

/-- A gateway started with the links of gateway `i`. -/
def Topology.Configured (i : ι) (g : Gateway) : Prop := g.linkConf = T.links i

variable {T}

theorem copies_arcs (i : ι) (outs : List Out) :
    (T.copies i outs).map Prod.fst = ((linkCopies outs).map Prod.fst).filterMap (T.arc? i) := by
  rw [Topology.copies, List.map_filterMap, List.filterMap_map]
  congr 1
  funext x
  rw [Option.map_map]
  exact Option.map_id'

theorem kept_linkConf (links : List (SockAddr × Arr 32)) : Kept c fun _ g => g.linkConf = links where
  wait _ _ _ h := h
  housekeeping _ _ h := h
  recvInto _ _ _ h := h
  handle _ g i h := (handle_effect c g i).linkConf.trans h

theorem next_configured {i : ι} {g : Gateway} (h : T.Configured i g) (r : Round) : T.Configured i (g.next c r) :=
  (@Kept.next c _ (kept_linkConf c (T.links i)) [] g r h).1

theorem Topology.Configured.length {i : ι} {g : Gateway} (h : T.Configured i g) :
    g.links.length = (T.links i).length := by
  rw [← h, Gateway.linkConf, List.length_map]

/-- A declared link is recognised by the address that its frames come from. -/
theorem Topology.Configured.find {a : T.Arc} {g : Gateway} (h : T.Configured (T.far a).1 g) :
    g.gwLinkFind (T.src a) = some (T.far a).2.val := by
  rw [gwLinkFind_eq, h]
  exact T.declared a

/-- The copies of a gateway that a copy on `a` has reached go on along `next a`. -/
theorem arrival_copies {a : T.Arc} {g : Gateway} (h : T.Configured (T.far a).1 g) (elapsed waited : Nat) (frame : Bytes) :
    ((T.copies (T.far a).1 (g.sent c ⟨elapsed, waited, some (T.src a, frame), none⟩)).map Prod.fst).Sublist
      (T.next a) := by
  have hpolled : T.Configured (T.far a).1
      ((g.polled c ⟨elapsed, waited, some (T.src a, frame), none⟩).recvInto frame) := h
  have hquiet : linkCopies ((g.wait elapsed).housekeeping c).2 = [] :=
    linkCopies_eq_nil fun _ _ => not_relay_of_isControl (housekeeping_isControl c _)
  obtain ⟨js, hjs, hon⟩ := udp_linkCopies c hpolled.find (min frame.length 1700)
  rw [copies_arcs, sent_eq, Gateway.handled]
  dsimp only
  rw [linkCopies_append, hquiet, List.nil_append, List.flatMap_cons, linkCopies_append]
  have hlast : ∀ g' : Gateway, ∀ b : Bool, linkCopies ((if b then [] else
      g'.handledL2 ⟨elapsed, waited, some (T.src a, frame), none⟩).flatMap fun x => (x.1.handle c x.2).2) = [] := by
    intro g' b
    cases b with
    | true => rfl
    | false => rfl
  rw [hlast, List.append_nil, Gateway.handle, hjs, List.map_map]
  have hid : js.map (Prod.fst ∘ fun j => (j, List.take (min frame.length 1700)
      ((g.polled c ⟨elapsed, waited, some (T.src a, frame), none⟩).recvInto frame).buf)) = js := List.map_id' js
  rw [hid]
  cases hon with
  | stays => exact List.nil_sublist _
  | flood =>
    rw [Gateway.otherLinks, hpolled.length]
    exact List.Sublist.refl _
  | route j hj =>
    cases harc : T.arc? (T.far a).1 j with
    | none =>
      rw [List.filterMap_cons_none harc]
      exact List.nil_sublist _
    | some b =>
      rw [List.filterMap_cons_some harc]
      refine List.singleton_sublist.mpr (List.mem_filterMap.mpr ⟨j, List.mem_filter.mpr ⟨?_, decide_eq_true hj⟩, harc⟩)
      rw [Topology.arc?] at harc
      split at harc
      · rename_i hlt
        exact List.mem_range.mpr hlt
      · cases harc

/-- The frame of class C, not for the gateways, that is used below. -/
def strayFrame : Bytes := demoFrame (demoMac 2) 0x8000000001 0x8000000002 ipv69NextStream [7]

/-- A gateway of the topology that knows nobody and has received at most the stray frame. -/
structure Quiet (T : Topology ι) (i : ι) (g : Gateway) : Prop where
  conf : T.Configured i g
  peers : ∀ p ∈ g.peers, p.used = false
  routes : g.routes = .empty
  buf : g.buf.length ≤ strayFrame.length

theorem Quiet.received {i : ι} {g : Gateway} (h : Quiet T i g) (r : Round) :
    Quiet T i ((g.polled c r).recvInto strayFrame) ∧ ((g.polled c r).recvInto strayFrame).buf = strayFrame := by
  have hbuf : ((g.polled c r).recvInto strayFrame).buf = strayFrame := by
    have htake : strayFrame.take 1700 = strayFrame := by decide +kernel
    have hdrop : g.buf.drop strayFrame.length = [] := List.drop_eq_nil_of_le h.buf
    have hpolled : (g.polled c r).buf = g.buf := rfl
    simp only [Gateway.recvInto, htake, hpolled, hdrop, List.append_nil]
  have hroutes : ((g.polled c r).recvInto strayFrame).routes = .empty := by
    have hexp : ((g.polled c r).recvInto strayFrame).routes = g.routes.expire _ := rfl
    rw [hexp, h.routes]
    rfl
  exact ⟨⟨h.conf, h.peers, hroutes, by rw [hbuf]⟩, hbuf⟩

theorem Quiet.peerFindMac {i : ι} {g : Gateway} (h : Quiet T i g) (mac : Arr 6) : g.peerFindMac mac = none := by
  refine List.find?_eq_none.mpr fun p hp => ?_
  rw [h.peers p hp]
  exact Bool.false_ne_true

theorem Quiet.peerFindAddr {i : ι} {g : Gateway} (h : Quiet T i g) (addr : UInt64) : g.peerFindAddr addr = none := by
  refine longest_eq_none.mpr fun p hp => ?_
  rw [h.peers p hp]
  rfl

theorem Quiet.classOk {i : ι} {g : Gateway} (_ : Quiet T i g) : g.classOk strayFrame = true := by
  have hclass : (ipv69AddrClass (frameSource strayFrame) = .C && (ipv69AddrClass (frameDest strayFrame) = .C ||
      ipv69AddrClass (frameDest strayFrame) = .E) : Bool) = true := by decide +kernel
  rw [Gateway.classOk]
  simp only [hclass, Bool.or_true]

/-- A gateway that knows nobody floods the frame to its other links. -/
theorem Quiet.gwFedData {i : ι} {g : Gateway} (h : Quiet T i g) (li n : Nat) :
    g.gwFedData li strayFrame n =
      (g, Gateway.relays (strayFrame.take n) ((g.otherLinks li).map .link)) := by
  have hmac : ¬ frameDstMac strayFrame = bcastMac := by decide +kernel
  have hroute : g.routeFind (frameDest strayFrame) = none := by
    rw [Gateway.routeFind, h.routes]
    rfl
  rw [Gateway.gwFedData, h.classOk, if_neg hmac]
  simp only [h.peerFindMac, h.peerFindAddr, hroute]
  rfl

theorem next_udp (g : Gateway) (elapsed waited : Nat) (ep : SockAddr) (data : Bytes) :
    g.next c ⟨elapsed, waited, some (ep, data), none⟩ =
      (((g.polled c ⟨elapsed, waited, some (ep, data), none⟩).recvInto data).handle c
        (.udp ep (min data.length 1700))).1 := by
  rw [Gateway.next, Gateway.round]
  dsimp only
  split
  · rfl
  · rfl

theorem next_l2 (g : Gateway) (elapsed waited : Nat) (data : Bytes) (hl2 : ¬ g.cfg.l2.isNone = true) :
    g.next c ⟨elapsed, waited, none, some data⟩ =
      (((g.polled c ⟨elapsed, waited, none, some data⟩).recvInto data).handle c (.l2 (min data.length 1700))).1 := by
  have hpolled : ¬ (g.polled c ⟨elapsed, waited, none, some data⟩).cfg.l2.isNone = true := hl2
  rw [Gateway.next, Gateway.round]
  dsimp only
  rw [Gateway.l2Side]
  dsimp only
  rw [if_neg hpolled]
  rfl

/-- The copy of the stray frame on `a` goes on along all of `next a`. -/
theorem Quiet.arrival {a : T.Arc} {g : Gateway} (h : Quiet T (T.far a).1 g) :
    Quiet T (T.far a).1 (g.next c ⟨0, 0, some (T.src a, strayFrame), none⟩) ∧
      T.copies (T.far a).1 (g.sent c ⟨0, 0, some (T.src a, strayFrame), none⟩) =
        (T.next a).map fun b => (b, strayFrame) := by
  obtain ⟨hquiet, hbuf⟩ := h.received c ⟨0, 0, some (T.src a, strayFrame), none⟩
  have hnext := next_udp c g 0 0 (T.src a) strayFrame
  have hsent := sent_eq c g ⟨0, 0, some (T.src a, strayFrame), none⟩
  have hcontrol : linkCopies ((g.wait 0).housekeeping c).2 = [] :=
    linkCopies_eq_nil fun _ _ => not_relay_of_isControl (housekeeping_isControl c _)
  have hsize : min strayFrame.length 1700 = 47 := by decide +kernel
  rw [Gateway.handled] at hsent
  dsimp only at hsent
  rw [hsize] at hnext hsent
  generalize (g.polled c ⟨0, 0, some (T.src a, strayFrame), none⟩).recvInto strayFrame = g' at hquiet hbuf hnext hsent
  have hfind := hquiet.conf.find
  have hlt : (T.far a).2.val < g'.links.length := by
    rw [hquiet.conf.length]
    exact (T.far a).2.isLt
  have hlink : g'.fromLink (.udp (T.src a) 47) (T.far a).2.val (g'.links[(T.far a).2.val]) := by
    have hdata : ¬ isQuery strayFrame 47 ∧ Gateway.ethertypeOk strayFrame 47 = true := by decide +kernel
    rw [Gateway.fromLink, Gateway.linkOf, hbuf, if_pos hdata, hfind, Option.bind_some, List.getElem?_eq_getElem hlt]
    rfl
  have hhandle : g'.handle c (.udp (T.src a) 47) =
      (g', Gateway.relays strayFrame ((g'.otherLinks (T.far a).2.val).map .link)) := by
    have hctl : ¬ frameNextHeader strayFrame = ipv69NextControl := by decide +kernel
    have htake : strayFrame.take 47 = strayFrame := by decide +kernel
    rw [handle_link hlink, hbuf, Gateway.gwFedHandle, if_pos (.inl hctl), Option.getD_none, Input.size,
      hquiet.gwFedData, htake]
  rw [hhandle] at hnext
  refine ⟨hnext ▸ hquiet, ?_⟩
  have hcopies : linkCopies (g.sent c ⟨0, 0, some (T.src a, strayFrame), none⟩) =
      (g'.otherLinks (T.far a).2.val).map fun j => (j, strayFrame) := by
    rw [hsent, linkCopies_append, hcontrol, List.nil_append, List.flatMap_cons, hhandle, linkCopies_append,
      linkCopies_links]
    have hrest : ∀ b : Bool, ((if b then [] else
        (g'.udp c (T.src a) g'.buf 47).1.handledL2 ⟨0, 0, some (T.src a, strayFrame), none⟩).flatMap
          fun x => (x.1.handle c x.2).2) = [] := by
      intro b
      cases b with
      | true => rfl
      | false => rfl
    rw [hrest]
    exact List.append_nil _
  rw [Topology.copies, hcopies, Gateway.otherLinks, hquiet.conf.length, Topology.next, List.filterMap_map,
    List.map_filterMap]
  rfl

/-- The stray frame comes from the bridge of a gateway that has just been started. -/
def strayRound : Round := ⟨0, 0, none, some strayFrame⟩

/-- A gateway with the links of gateway `i` and a bridge. -/
def newGateway (T : Topology ι) (i : ι) : Gateway :=
  start ⟨6969, pad 64 [1], [], false, some (demoMac 1), 1⟩ (T.links i) []

theorem newGateway_quiet (i : ι) : Quiet T i (newGateway T i) where
  conf := by
    rw [Topology.Configured, newGateway, Gateway.linkConf, start]
    dsimp only
    rw [List.map_map]
    exact List.map_id' _
  peers p hp := by
    rw [List.eq_of_mem_replicate hp]
    rfl
  routes := rfl
  buf := Nat.zero_le _

/-- It has a token for the sender of the frame. -/
theorem newGateway_allow (i : ι) :
    (((((newGateway T i).polled c strayRound).recvInto strayFrame).allow (frameSrcMac strayFrame).val 20 40).2 = true) := by
  have hallow : (rateAllow rateInit 1000 (pad 8 (frameSrcMac strayFrame).val) 20 40 1).2 = true := by decide +kernel
  have hrate : (((newGateway T i).polled c strayRound).recvInto strayFrame).rate = rateInit := rfl
  have hclock : (((newGateway T i).polled c strayRound).recvInto strayFrame).clock = 1000 := rfl
  rw [Gateway.allow, Gateway.nowMs, hrate, hclock]
  exact hallow

/-- It sends the frame over all its links. -/
theorem newGateway_enter (i : ι) :
    Quiet T i ((newGateway T i).next c strayRound) ∧
      ∀ j, ((⟨i, j⟩ : T.Arc), strayFrame) ∈ T.copies i ((newGateway T i).sent c strayRound) := by
  obtain ⟨hquiet, hbuf⟩ := (newGateway_quiet i).received c strayRound
  have hallow := newGateway_allow c (T := T) i
  have hsize : min strayFrame.length 1700 = 47 := by decide +kernel
  have hhandled : (newGateway T i).handled c strayRound =
      [(((newGateway T i).polled c strayRound).recvInto strayFrame, .l2 (min strayFrame.length 1700))] := rfl
  have hnext := next_l2 c (newGateway T i) 0 0 strayFrame Bool.false_ne_true
  have hsent := sent_eq c (newGateway T i) strayRound
  rw [hhandled, List.flatMap_singleton] at hsent
  dsimp only at hsent
  rw [hsize] at hnext hsent
  rw [← strayRound] at hnext
  generalize ((newGateway T i).polled c strayRound).recvInto strayFrame = g' at hquiet hbuf hallow hnext hsent
  have hhandle : ∃ rate, g'.handle c (.l2 47) = ({ g' with rate := rate },
      Gateway.relays strayFrame (Gateway.clients g'.peers ++ g'.allLinks)) := by
    have heth : Gateway.ethertypeOk strayFrame 47 = true := by decide +kernel
    have hctl : ¬ frameNextHeader strayFrame = ipv69NextControl := by decide +kernel
    have hstream : frameNextHeader strayFrame = ipv69NextStream := by decide +kernel
    have hdgram : ipv69NextStream ≠ ipv69NextDgram := by decide
    have hmac : ¬ frameDstMac strayFrame = bcastMac := by decide +kernel
    have htake : strayFrame.take 47 = strayFrame := by decide +kernel
    have hmesh : g'.gwMeshHandle strayFrame 47 = none := by rw [Gateway.gwMeshHandle, if_pos (.inl hctl)]
    have hlearn : g'.learn c strayFrame 47 none = g' := by
      rw [Gateway.learn, if_pos hstream, Gateway.gwLearnInit]
      rfl
    have hsrc : g'.gwSrcOk strayFrame = true := by
      rw [Gateway.gwSrcOk, hstream]
      simp only [ne_eq, hdgram, not_false_eq_true, decide_true, Bool.or_true, Bool.true_or]
    rw [Gateway.handle, hbuf, Gateway.l2, heth, hmesh, hquiet.classOk]
    simp only [Bool.not_true, Bool.false_eq_true, if_false, hlearn, hsrc]
    rw [Gateway.l2Forward, if_neg hmac, hquiet.peerFindMac]
    cases hres : g'.allow (frameSrcMac strayFrame).val 20 40 with
    | mk g'' ok =>
      rw [hres] at hallow
      dsimp only at hallow
      subst hallow
      obtain ⟨rate, rfl⟩ := allow_state hres
      refine ⟨rate, ?_⟩
      dsimp only
      rw [htake, ← hbuf]
      rfl
  obtain ⟨rate, hhandle⟩ := hhandle
  rw [hhandle] at hnext hsent
  refine ⟨hnext ▸ ⟨hquiet.conf, hquiet.peers, hquiet.routes, hquiet.buf⟩, ?_⟩
  intro j
  have hmem : (j.val, strayFrame) ∈ linkCopies ((newGateway T i).sent c strayRound) := by
    have hlinks : Gateway.relays strayFrame (Gateway.clients g'.peers ++ g'.allLinks) =
        Gateway.relays strayFrame (Gateway.clients g'.peers) ++
          Gateway.relays strayFrame ((List.range g'.links.length).map .link) := List.map_append
    rw [hsent, linkCopies_append, hlinks, linkCopies_append, linkCopies_links]
    refine List.mem_append_right _ (List.mem_append_right _ (List.mem_map.mpr ⟨j.val, List.mem_range.mpr ?_, rfl⟩))
    rw [hquiet.conf.length]
    exact j.isLt
  refine List.mem_filterMap.mpr ⟨_, hmem, ?_⟩
  rw [Topology.arc?, dif_pos j.isLt]
  rfl

variable (T) in
/-- All gateways, the copies on their way, and the link of every forwarding so far. -/
structure Mesh where
  gw : ι → Gateway
  flight : List (T.Arc × Bytes)
  used : List T.Arc

/-- A copy arrives, after and with these times; or a gateway has a round with something else. -/
inductive MeshEvent (ι : Type*) where
  | deliver (k elapsed waited : Nat)
  | other (i : ι) (r : Round)

variable [DecidableEq ι]

/-- One round of gateway `i`, whose copies are followed. -/
def Mesh.forward (m : Mesh T) (i : ι) (r : Round) : Mesh T :=
  let sent := T.copies i ((m.gw i).sent c r)
  { gw := Function.update m.gw i ((m.gw i).next c r)
    flight := m.flight ++ sent
    used := m.used ++ sent.map Prod.fst }

def Mesh.step (m : Mesh T) : MeshEvent ι → Mesh T
  | .deliver k elapsed waited =>
    match m.flight[k]? with
    | none => m
    | some (a, frame) =>
      Mesh.forward c { m with flight := m.flight.eraseIdx k } (T.far a).1 ⟨elapsed, waited, some (T.src a, frame), none⟩
  | .other i r => { m with gw := Function.update m.gw i ((m.gw i).next c r) }

variable (T) in
/-- The frame of a client or of the bridge enters at gateway `i` in round `r`. -/
def Mesh.enter (gw : ι → Gateway) (i : ι) (r : Round) : Mesh T := Mesh.forward c ⟨gw, [], []⟩ i r

/-- Every gateway has the links of the topology. -/
def Mesh.Wired (m : Mesh T) : Prop := ∀ i, T.Configured i (m.gw i)

theorem update_wired {gw : ι → Gateway} (h : ∀ i, T.Configured i (gw i)) (i : ι) (r : Round) :
    ∀ j, T.Configured j (Function.update gw i ((gw i).next c r) j) := by
  intro j
  by_cases hj : j = i
  · subst hj
    rw [Function.update_self]
    exact next_configured c (h j) r
  · rw [Function.update_of_ne hj]
    exact h j

theorem Mesh.step_delivers (m : Mesh T) (e : MeshEvent ι) (h : m.Wired) :
    (m.step c e).Wired ∧
      Flood.Delivers T.next (fun m : Mesh T => m.flight.map Prod.fst) Mesh.used m (m.step c e) := by
  cases e with
  | other i r => exact ⟨update_wired c h i r, .inl ⟨rfl, rfl⟩⟩
  | deliver k elapsed waited =>
    rw [Mesh.step]
    cases hk : m.flight[k]? with
    | none => exact ⟨h, .inl ⟨rfl, rfl⟩⟩
    | some x =>
      obtain ⟨a, frame⟩ := x
      refine ⟨update_wired c h _ _, .inr ⟨_, ?_, rfl⟩⟩
      obtain ⟨hlt, hget⟩ := List.getElem?_eq_some_iff.mp hk
      have hsplit : m.flight.map Prod.fst =
          (m.flight.take k).map Prod.fst ++ a :: (m.flight.drop (k + 1)).map Prod.fst := by
        conv_lhs => rw [← List.take_append_drop k m.flight, List.drop_eq_getElem_cons hlt, hget]
        rw [List.map_append, List.map_cons]
      have herase : (m.flight.eraseIdx k).map Prod.fst =
          (m.flight.take k).map Prod.fst ++ (m.flight.drop (k + 1)).map Prod.fst := by
        rw [List.eraseIdx_eq_take_drop_succ, List.map_append]
      dsimp only [Mesh.forward]
      rw [List.map_append, herase, hsplit]
      exact .deliver _ a _ _ (arrival_copies c (h _) elapsed waited frame)

variable (T) in
/-- Whatever the gateways know and whatever frame enters, it is forwarded over links only a
bounded number of times, and so over each link. -/
def Topology.Terminates : Prop :=
  ∀ gw, (∀ i, T.Configured i (gw i)) → ∀ i r,
    (∃ N, ∀ es, (Runs.run (Mesh.step c) (Mesh.enter c T gw i r) es).used.length ≤ N) ∧
      ∀ a : T.Arc, ∃ N, ∀ es, (Runs.run (Mesh.step c) (Mesh.enter c T gw i r) es).used.count a ≤ N

theorem terminates_of_acyclic [Finite ι] (h : ∀ a, ¬ TransGen (Flood.Next T.next) a a) : T.Terminates c := by
  intro gw hconf i r
  have hwf := Flood.wellFounded_of_acyclic h
  have hwired : (Mesh.enter c T gw i r).Wired := update_wired c hconf i r
  have hbound : ∃ N, ∀ es, (Runs.run (Mesh.step c) (Mesh.enter c T gw i r) es).used.length ≤ N := by
    refine ⟨_, fun es => (Nat.le_add_right _ _).trans (Flood.used_le hwf (Mesh.step_delivers c) _ es hwired)⟩
  obtain ⟨N, hN⟩ := hbound
  exact ⟨⟨N, hN⟩, fun a => ⟨N, fun es => List.count_le_length.trans (hN es)⟩⟩

/-- A copy of the stray frame on `a`, among gateways that know nobody. -/
def Mesh.Stray (m : Mesh T) (a : T.Arc) : Prop := (∀ i, Quiet T i (m.gw i)) ∧ (a, strayFrame) ∈ m.flight

theorem Mesh.Stray.pass {m : Mesh T} {a b : T.Arc} (h : m.Stray a) (hab : Flood.Next T.next a b) :
    ∃ es, (Runs.run (Mesh.step c) m es).Stray b ∧
      m.used.length < (Runs.run (Mesh.step c) m es).used.length := by
  obtain ⟨hquiet, hmem⟩ := h
  obtain ⟨k, hlt, hk⟩ := List.getElem_of_mem hmem
  have hget : m.flight[k]? = some (a, strayFrame) := by rw [List.getElem?_eq_getElem hlt, hk]
  obtain ⟨hnext, hcopies⟩ := Quiet.arrival c (hquiet (T.far a).1)
  have hsent : (b, strayFrame) ∈ (T.next a).map fun b => (b, strayFrame) := List.mem_map_of_mem hab
  refine ⟨[.deliver k 0 0], ?_⟩
  rw [Runs.run_cons, Runs.run_nil, Mesh.step, hget]
  dsimp only [Mesh.forward]
  rw [hcopies]
  refine ⟨⟨fun i => ?_, List.mem_append_right _ hsent⟩, ?_⟩
  · dsimp only
    by_cases hi : i = (T.far a).1
    · subst hi
      rw [Function.update_self]
      exact hnext
    · rw [Function.update_of_ne hi]
      exact hquiet i
  · have hpos := List.length_pos_of_mem hsent
    rw [List.length_append, List.length_map]
    omega

theorem unbounded_of_cycle {a : T.Arc} (hcycle : TransGen (Flood.Next T.next) a a) (N : Nat) :
    ∃ es, N ≤ (Runs.run (Mesh.step c) (Mesh.enter c T (newGateway T) a.1 strayRound) es).used.length := by
  obtain ⟨hquiet, hcopies⟩ := newGateway_enter c (T := T) a.1
  have hstray : (Mesh.enter c T (newGateway T) a.1 strayRound).Stray a := by
    refine ⟨fun i => ?_, hcopies a.2⟩
    dsimp only [Mesh.enter, Mesh.forward]
    by_cases hi : i = a.1
    · subst hi
      rw [Function.update_self]
      exact hquiet
    · rw [Function.update_of_ne hi]
      exact newGateway_quiet i
  exact Flood.unbounded_of_cycle (fun m a b hm hab => Mesh.Stray.pass c hm hab) hstray hcycle N

theorem not_terminates_of_cycle {a : T.Arc} (hcycle : TransGen (Flood.Next T.next) a a) : ¬ T.Terminates c := by
  intro h
  obtain ⟨⟨N, hN⟩, -⟩ := h (newGateway T) (fun i => (newGateway_quiet i).conf) a.1 strayRound
  obtain ⟨es, hle⟩ := unbounded_of_cycle c hcycle (N + 1)
  have := hN es
  omega

/-- Forwarding in a mesh terminates exactly if no link can be reached from itself by going on
over other links than the one just come by. -/
theorem mesh_terminates_iff [Finite ι] : T.Terminates c ↔ ∀ a, ¬ TransGen (Flood.Next T.next) a a :=
  ⟨fun h _ hcycle => not_terminates_of_cycle c hcycle h, terminates_of_acyclic c⟩

/-- Three gateways in a row. -/
def row : Topology (Fin 3) where
  links := ![[(demoEp 1, demoKey 0)], [(demoEp 0, demoKey 0), (demoEp 2, demoKey 0)], [(demoEp 1, demoKey 0)]]
  far a := if a.1 = 0 then ⟨1, ⟨0, by decide⟩⟩ else if a.1 = 2 then ⟨1, ⟨1, by decide⟩⟩
    else if a.2.val = 0 then ⟨0, ⟨0, by decide⟩⟩ else ⟨2, ⟨0, by decide⟩⟩
  src a := demoEp (.ofNat a.1.val)
  declared := by decide +kernel

theorem row_terminates : row.Terminates toy := by
  refine (mesh_terminates_iff toy).mpr (Flood.acyclic_of_rank (fun a => if a.1 = 1 then 0 else 1) fun a b hab => ?_)
  have hrank : ∀ a, ∀ b ∈ row.next a, (if b.1 = 1 then 0 else 1) < (if a.1 = 1 then 0 else 1) := by decide +kernel
  exact hrank a b hab

/-- Three gateways, each linked with the two others. -/
def triangle : Topology (Fin 3) where
  links i := [(demoEp (.ofNat (i + 1).val), demoKey 0), (demoEp (.ofNat (i + 2).val), demoKey 0)]
  far a := if a.2.val = 0 then ⟨a.1 + 1, ⟨1, Nat.one_lt_two⟩⟩ else ⟨a.1 + 2, ⟨0, Nat.zero_lt_two⟩⟩
  src a := demoEp (.ofNat a.1.val)
  declared := by decide +kernel

/-- The link of each gateway to the next one round the triangle. -/
def triangleArc (i : Fin 3) : triangle.Arc := ⟨i, ⟨0, Nat.zero_lt_two⟩⟩

/-- In a triangle an unknown destination keeps the links busy for ever. -/
theorem triangle_loops : ¬ triangle.Terminates toy := by
  have hround : ∀ i, triangleArc (i + 1) ∈ triangle.next (triangleArc i) := by decide +kernel
  exact not_terminates_of_cycle toy (.tail (.tail (.single (hround 0)) (hround 1)) (hround 2))

end Gw
