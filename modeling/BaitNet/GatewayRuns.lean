import BaitNet.GatewaySpec
import BaitNet.Runs

/-!
# Runs of a gateway

A round is housekeeping and then up to two inputs, so that a run is the list of its inputs,
each with the state that met it. `Kept.run` is the induction over runs: what the parts of a
round keep, related to the inputs so far, holds in front of every input.
-/
namespace Gw

open Wire Link Crypto Tables

variable (c : TweetNaCl)

theorem gwRouteAnnounce_isControl (g : Gateway) : ∀ o ∈ g.gwRouteAnnounce, o.isControl := by
  intro o ho
  obtain ⟨p, -, hp⟩ := List.mem_flatMap.mp ho
  split at hp
  · cases hp
  · exact linkSends_isControl _ _ _ o hp

theorem announce_isControl (g : Gateway) : ∀ o ∈ g.announce c, o.isControl := by
  intro o ho
  cases List.mem_append.mp ho with
  | inl h => exact gwMeshSend_isControl _ _ o h
  | inr h =>
    split at h
    · cases h
    · cases List.mem_append.mp h with
      | inl h => exact linkSends_isControl _ _ _ o h
      | inr h => exact gwRouteAnnounce_isControl g o h

/-- Housekeeping sends frames of its own only. -/
theorem housekeeping_isControl (g : Gateway) : ∀ o ∈ (g.housekeeping c).2, o.isControl := by
  intro o ho
  cases List.mem_append.mp ho with
  | inl h =>
    split at h
    · exact announce_isControl c g o h
    · cases h
  | inr h =>
    split at h
    · exact gwRouteAnnounce_isControl g o h
    · cases h

namespace Gateway

def handledL2 (g : Gateway) (r : Round) : List (Gateway × Input) :=
  match r.l2 with
  | none => []
  | some data => if g.cfg.l2.isNone then [] else [(g.recvInto data, .l2 (min data.length 1700))]

/-- The inputs of one round, each with the state that met it. -/
def handled (g : Gateway) (r : Round) : List (Gateway × Input) :=
  match r.udp with
  | none => (g.polled c r).handledL2 r
  | some (ep, data) =>
    let g := (g.polled c r).recvInto data
    let n := min data.length 1700
    (g, .udp ep n) :: if (g.udp c ep g.buf n).2.2 then [] else (g.udp c ep g.buf n).1.handledL2 r

/-- The inputs of a run. -/
def history (g : Gateway) : List Round → List (Gateway × Input)
  | [] => []
  | r :: rs => g.handled c r ++ (g.next c r).history rs

end Gateway

theorem l2Side_handled (g : Gateway) (r : Round) :
    (g.l2Side c r).2 = (g.handledL2 r).flatMap fun x => (x.1.handle c x.2).2 := by
  rw [Gateway.l2Side, Gateway.handledL2]
  cases r.l2 with
  | none => rfl
  | some data =>
    by_cases hl2 : g.cfg.l2.isNone = true
    · simp only [if_pos hl2, List.flatMap_nil]
    · simp only [if_neg hl2, List.flatMap_singleton]
      rfl

/-- A round sends its housekeeping and what its inputs cause. -/
theorem sent_eq (g : Gateway) (r : Round) :
    g.sent c r = ((g.wait r.elapsed).housekeeping c).2 ++
      (g.handled c r).flatMap fun x => (x.1.handle c x.2).2 := by
  rw [Gateway.sent, Gateway.round, Gateway.handled]
  cases r.udp with
  | none => simp only [l2Side_handled]
  | some x =>
    dsimp only
    rw [List.flatMap_cons]
    split
    · rw [List.flatMap_nil, List.append_nil]
      rfl
    · rw [l2Side_handled, List.append_assoc]
      rfl

/-- What a run keeps: `P` relates the inputs so far to the state. -/
structure Kept (P : List (Gateway × Input) → Gateway → Prop) : Prop where
  wait : ∀ hs g ms, P hs g → P hs (g.wait ms)
  housekeeping : ∀ hs g, P hs g → P hs (g.housekeeping c).1
  recvInto : ∀ hs g data, P hs g → P hs (g.recvInto data)
  handle : ∀ hs g i, P hs g → P (hs ++ [(g, i)]) (g.handle c i).1

section Kept

variable {c} {P : List (Gateway × Input) → Gateway → Prop}

/-- `P` holds behind the inputs `new` and in front of each of them. -/
def Holds (P : List (Gateway × Input) → Gateway → Prop) (hs new : List (Gateway × Input)) (g : Gateway) : Prop :=
  P (hs ++ new) g ∧ ∀ pre x post, new = pre ++ x :: post → P (hs ++ pre) x.1

theorem holds_nil {hs : List (Gateway × Input)} {g : Gateway} (h : P hs g) : Holds P hs [] g := by
  refine ⟨by rwa [List.append_nil], fun pre x post heq => ?_⟩
  cases pre with
  | nil => cases heq
  | cons y pre => cases heq

theorem holds_append {hs new rest : List (Gateway × Input)} {g g' : Gateway} (h : Holds P hs new g)
    (hrest : Holds P (hs ++ new) rest g') : Holds P hs (new ++ rest) g' := by
  refine ⟨by rw [← List.append_assoc]; exact hrest.1, fun pre x post heq => ?_⟩
  cases List.append_eq_append_iff.mp heq with
  | inl hsplit =>
    obtain ⟨mid, rfl, hmid⟩ := hsplit
    rw [← List.append_assoc]
    exact hrest.2 mid x post hmid
  | inr hsplit =>
    obtain ⟨mid, rfl, hmid⟩ := hsplit
    cases mid with
    | nil =>
      rw [List.nil_append] at hmid
      have hrest := hrest.2 [] x post hmid.symm
      rwa [List.append_nil, List.append_nil] at hrest
    | cons y mid =>
      obtain ⟨rfl, -⟩ := List.cons.inj hmid
      exact h.2 pre x mid rfl

theorem Kept.single (hP : Kept c P) {hs : List (Gateway × Input)} {g : Gateway} {i : Input} (h : P hs g) :
    Holds P hs [(g, i)] (g.handle c i).1 := by
  refine ⟨hP.handle hs g i h, fun pre x post heq => ?_⟩
  cases pre with
  | nil =>
    obtain ⟨rfl, -⟩ := List.cons.inj heq
    rwa [List.append_nil]
  | cons y pre =>
    have hlen := congrArg List.length heq
    simp at hlen

theorem Kept.l2Side (hP : Kept c P) {hs : List (Gateway × Input)} {g : Gateway} {r : Round} (h : P hs g) :
    Holds P hs (g.handledL2 r) (g.l2Side c r).1 := by
  rw [Gateway.l2Side, Gateway.handledL2]
  cases r.l2 with
  | none => exact holds_nil h
  | some data =>
    by_cases hl2 : g.cfg.l2.isNone = true
    · simp only [if_pos hl2]
      exact holds_nil h
    · simp only [if_neg hl2]
      exact hP.single (hP.recvInto hs g data h)

theorem Kept.next (hP : Kept c P) {hs : List (Gateway × Input)} {g : Gateway} {r : Round} (h : P hs g) :
    Holds P hs (g.handled c r) (g.next c r) := by
  have hpolled : P hs (g.polled c r) := hP.wait _ _ _ (hP.housekeeping _ _ (hP.wait _ _ _ h))
  rw [Gateway.next, Gateway.round, Gateway.handled]
  cases r.udp with
  | none => exact hP.l2Side hpolled
  | some x =>
    obtain ⟨ep, data⟩ := x
    have hfirst := @Kept.single _ _ hP _ _ (.udp ep (min data.length 1700)) (hP.recvInto _ _ data hpolled)
    dsimp only
    split
    · exact hfirst
    · exact holds_append hfirst (hP.l2Side hfirst.1)

/-- The rule for runs: what the parts of a round keep holds in front of each input of a run
and behind the run. -/
theorem Kept.run (hP : Kept c P) {g : Gateway} (rs : List Round) (h : P [] g) :
    Holds P [] (g.history c rs) (Runs.run (Gateway.next c) g rs) := by
  have key : ∀ rs hs g, P hs g → Holds P hs (Gateway.history c g rs) (Runs.run (Gateway.next c) g rs) := by
    intro rs
    induction rs with
    | nil => exact fun hs g h => holds_nil h
    | cons r rs ih => exact fun hs g h => holds_append (hP.next h) (ih _ _ (hP.next h).1)
  exact key rs [] g h

end Kept

variable {c}

theorem learn_cfg (g : Gateway) (buf : Bytes) (n : Nat) (ep : Option SockAddr) : (g.learn c buf n ep).cfg = g.cfg := by
  obtain ⟨peers, dirty, rate, -, heq⟩ := learn_effect c g buf n ep
  rw [heq]

theorem routeLearn_state (g : Gateway) (p : Bytes) (li : Nat) :
    ∃ routes, g.routeLearn p li = { g with routes := routes } := by
  rw [Gateway.routeLearn]
  split
  · exact ⟨g.routes, rfl⟩
  · split
    · exact ⟨_, rfl⟩
    · exact ⟨_, rfl⟩

theorem Effect.cfg {g g' : Gateway} {i : Input} {outs : List Out} (h : Effect c g i g' outs) : g'.cfg = g.cfg := by
  cases h with
  | dropped => exact learn_cfg g _ _ _
  | forwarded => exact learn_cfg g _ _ _
  | routed i li =>
    obtain ⟨routes, heq⟩ := routeLearn_state g (framePayload g.buf) li
    rw [heq]
  | _ => rfl

theorem Effect.clock {g g' : Gateway} {i : Input} {outs : List Out} (h : Effect c g i g' outs) :
    g'.clock = g.clock := by
  cases h with
  | dropped =>
    obtain ⟨peers, dirty, rate, -, heq⟩ := learn_effect c g g.buf i.size i.source
    rw [heq]
  | forwarded =>
    obtain ⟨peers, dirty, rate, -, heq⟩ := learn_effect c g g.buf i.size i.source
    rw [heq]
  | routed _ li =>
    obtain ⟨routes, heq⟩ := routeLearn_state g (framePayload g.buf) li
    rw [heq]
  | _ => rfl

theorem Effect.time {g g' : Gateway} {i : Input} {outs : List Out} (h : Effect c g i g' outs) :
    g'.time = g.time := by rw [Gateway.time, h.clock]; rfl

theorem mem_relays {frame frame' : Bytes} {ports : List Port} {via : Port}
    (h : Out.relay via frame' ∈ Gateway.relays frame ports) : frame' = frame := by
  obtain ⟨v, -, hv⟩ := List.mem_map.mp h
  exact (Out.relay.inj hv).2.symm

theorem relayTo_not_relay {g : Gateway} {e : GwPend} {p frame : Bytes} {via : Port} :
    Out.relay via frame ∉ g.relayTo e p := by
  rw [Gateway.relayTo]
  split
  · split
    · simp [Gateway.gwLinkSendPkt]
    · exact List.not_mem_nil
  · simp

theorem not_relay_of_isControl {outs : List Out} (h : ∀ o ∈ outs, o.isControl) {via : Port} {frame : Bytes} :
    Out.relay via frame ∉ outs := fun hmem => h _ hmem

/-- A relayed frame is the received one, it has passed the class filter, and it is of a link
or of a sender whose source has been checked. -/
theorem Effect.relay {g g' : Gateway} {i : Input} {outs : List Out} (h : Effect c g i g' outs) {via : Port}
    {frame : Bytes} (hout : Out.relay via frame ∈ outs) :
    frame = g.buf.take i.size ∧ g.classOk g.buf = true ∧ 47 ≤ i.size ∧
      ((∃ li l, g.fromLink i li l) ∨
        g.learns i ∧ (g.learn c g.buf i.size i.source).gwSrcOk g.buf = true) := by
  cases h with
  | fedData _ li l hl rate ports hclass hlen => exact ⟨mem_relays hout, hclass, hlen, .inl ⟨li, l, hl⟩⟩
  | forwarded _ hlearns rate ports hclass hlen hsrc =>
    exact ⟨mem_relays hout, hclass, hlen, .inr ⟨hlearns, hsrc⟩⟩
  | answered ep n rate calls a e hquery ha he hclass hcalls =>
    cases List.mem_append.mp hout with
    | inl h => exact absurd h (not_relay_of_isControl hcalls)
    | inr h => cases List.mem_singleton.mp h
  | asked ep n rate outs hmesh hnew houts => exact absurd hout (not_relay_of_isControl houts)
  | linkAsked _ li l hl outs hnew houts => exact absurd hout (not_relay_of_isControl houts)
  | meshAnswered n pkt => exact absurd hout (not_relay_of_isControl (gwMeshSend_isControl g pkt))
  | relayed _ e gwp hreply htake => exact absurd hout relayTo_not_relay
  | refused => cases List.mem_singleton.mp hout
  | linkAnswered => cases List.mem_singleton.mp hout
  | _ => cases hout

/-- The waiting askers change by a new one whose address nobody waits for, or by one that a
GW_R finds. -/
theorem Effect.gwp {g g' : Gateway} {i : Input} {outs : List Out} (h : Effect c g i g' outs) :
    g'.gwp = g.gwp ∨
      (∃ x, g.asked x.addr = false ∧ (x.viaLink = true ∨ g.asksMesh i ∧ x.addr = get40 g.buf 3) ∧
        g'.gwp = g.gwp.push x) ∨
      ∃ e, g.replies i ∧ outs = g.relayTo e (framePayload g.buf) ∧
        g.gwp.takeFirst (fun e => e.addr = get40 (framePayload g.buf) 1) = some (e, g'.gwp) := by
  cases h with
  | asked ep n rate outs hmesh hnew houts => exact .inr (.inl ⟨_, hnew, .inr ⟨hmesh, rfl⟩, rfl⟩)
  | linkAsked _ li l hl outs hnew houts => exact .inr (.inl ⟨_, hnew, .inl rfl, rfl⟩)
  | relayed _ e gwp hreply htake => exact .inr (.inr ⟨e, hreply, rfl, htake⟩)
  | dropped =>
    obtain ⟨peers, dirty, rate, -, heq⟩ := learn_effect c g g.buf i.size i.source
    exact .inl (by rw [heq])
  | forwarded =>
    obtain ⟨peers, dirty, rate, -, heq⟩ := learn_effect c g g.buf i.size i.source
    exact .inl (by rw [heq])
  | routed _ li =>
    obtain ⟨routes, heq⟩ := routeLearn_state g (framePayload g.buf) li
    exact .inl (by rw [heq])
  | _ => exact .inl rfl

/-- The configuration is that of the start. -/
theorem kept_cfg (cfg : Config) : Kept c fun _ g => g.cfg = cfg where
  wait _ _ _ h := h
  housekeeping _ _ h := h
  recvInto _ _ _ h := h
  handle _ g i h := (handle_effect c g i).cfg.trans h

/-- The places of a list, by their position. -/
theorem forall_split {α : Type*} {P : List α → α → Prop} {l : List α}
    (h : ∀ k < l.length, ∀ x ∈ l[k]?, P (l.take k) x) : ∀ pre x post, l = pre ++ x :: post → P pre x := by
  rintro pre x post rfl
  have hk : pre.length < (pre ++ x :: post).length := by simp
  have hx := h pre.length hk x (by simp)
  rwa [List.take_left] at hx

def demoEp (n : UInt8) : SockAddr := .v4 (pad 4 [10, 0, 0, n]) 6969

def demoKey (n : UInt8) : Arr 32 := pad 32 [n]

def demoConfig (n : UInt8) : Config := ⟨6969, pad 64 [n], [], false, none, 1⟩

def demoMac (n : UInt8) : Arr 6 := pad 6 [2, 0, 0, 0, 0, n]

def demoFrame (dstMac : Arr 6) (src dst : UInt64) (nextHeader : UInt8) (payload : Bytes) : Bytes :=
  buildFrame dstMac (demoMac 1) src dst nextHeader 64 0 0 payload

/-- `icsp_announce_send` by the holder of key `n`. -/
def demoAnnounce (n : UInt8) (addr : UInt64) : Bytes :=
  let head := 1 :: put40 addr
  demoFrame bcastMac addr 0xFFFFFFFFFF ipv69NextControl
    (head ++ (demoKey n).val ++ (toy.sign head (demoKey n)).val)

/-- A control frame of a gateway without a bridge. -/
def demoControl (pkt : Bytes) : Bytes :=
  buildFrame bcastMac (Arr.zero 6) 0 0xFFFFFFFFFF ipv69NextControl 64 0 0 pkt

def demoRound (ep : SockAddr) (data : Bytes) : Round := ⟨0, 0, some (ep, data), none⟩

end Gw
