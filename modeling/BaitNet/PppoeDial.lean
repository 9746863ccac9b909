import BaitNet.PppoeHost
import BaitNet.PppoeIsolation

/-!
# A host, a concentrator, and the network between them

The network keeps every discovery frame that the two have sent and delivers it whenever it
likes: late, twice, in another order, in a later dial, or never. What other stations send
reaches the concentrator as well, PADRs in the name of the host apart.
-/
namespace Pppoe

open Wire Link Crypto Tables Runs
open Dhcp (ipv69BcastAddr)

variable (c : TweetNaCl)

/-- A frame of the host and the dial that sent it. -/
structure HostMsg where
  dial : Nat
  frame : Bytes
  deriving DecidableEq

/-- A discovery frame of the concentrator and the frame of the host that it answers; for a
PADS also whether its session has ended since. -/
structure AcMsg where
  out : Out
  answers : Option HostMsg
  ended : Bool

/-- Both parties and all that they have sent. The number of the PADS that began the session
of the host, and whether that session has ended since by right, only record the run. -/
structure Net where
  ac : Ac
  phase : Phase
  dial : Nat
  hostSent : List HostMsg
  acSent : List AcMsg
  taken : Nat
  gone : Bool

def Out.frame : Out → Bytes
  | .pado _ frame => frame
  | .pads _ frame => frame
  | .padt _ frame => frame
  | .ndReply _ frame => frame
  | .wrap _ _ frame => frame
  | .bridge frame => frame

/-- A PADO, a PADS or a PADT. -/
def Out.isReply : Out → Bool
  | .pado _ _ => true
  | .pads _ _ => true
  | .padt _ _ => true
  | _ => false

def Phase.isUp : Phase → Bool
  | .up _ _ => true
  | _ => false

namespace Ac

/-- What the concentrator sends in a step. -/
def outs (a : Ac) : Event → List Out
  | .recv frame => (a.acRx c frame).2
  | .reap => a.reap.2
  | _ => []

/-- The step reaps a session with this id and MAC, or takes a PADT for it. -/
def ends (a : Ac) (e : Event) (sid : UInt16) (mac : Arr 6) : Bool :=
  match e with
  | .recv frame => (a.closing c frame).any fun i => (a.sessAt i).sid = sid && (a.sessAt i).cmac = mac
  | .reap => a.sess.any fun s => a.idle s && s.sid = sid && s.cmac = mac
  | _ => false

def Holds (a : Ac) (sid : UInt16) (mac : Arr 6) : Prop := ∃ i s, a.At i s ∧ s.sid = sid ∧ s.cmac = mac

end Ac

/-- A PADS in flight while the concentrator takes a step. -/
def AcMsg.pass (m : AcMsg) (a : Ac) (e : Event) : AcMsg :=
  match m.out with
  | .pads s _ => { m with ended := m.ended || a.ends c e s.sid s.cmac }
  | _ => m

namespace Net

variable (h : Host)

def start (a : Ac) : Net := ⟨a, .down, 0, [], [], 0, false⟩

/-- The step ends the session of the host by right: it is reaped, or closed in this dial. -/
def endsByRight (w : Net) (e : Event) (src : Option HostMsg) : Bool :=
  match w.phase with
  | .up sid _ =>
    w.ac.ends c e sid h.mac && (match e with | .reap => true | _ => src.any fun m => m.dial = w.dial)
  | _ => false

/-- The concentrator takes a step, perhaps because of a frame of the host. -/
def acStep (w : Net) (e : Event) (src : Option HostMsg) : Net :=
  { w with
    ac := step c w.ac e
    acSent := w.acSent.map (fun m => m.pass c w.ac e) ++
      ((w.ac.outs c e).filter Out.isReply).map fun o => ⟨o, src, false⟩
    gone := w.gone || w.endsByRight c h e src }

/-- The host has moved to a phase and sent some frames. -/
def hostStep (w : Net) (r : Phase × List Bytes) : Net :=
  { w with phase := r.1, hostSent := w.hostSent ++ r.2.map fun f => ⟨w.dial, f⟩ }

/-- The host takes the frame number `k`, which may be the PADS that begins its session. -/
def hostTakes (w : Net) (k : Nat) (m : AcMsg) : Net :=
  { w.hostStep (h.recv c w.phase m.out.frame) with
    taken := if w.phase.isUp then w.taken else k
    gone := w.phase.isUp && w.gone }

end Net

inductive NetEvent where
  | dial
  | timeout
  | quit
  | die
  | toHost (k : Nat)
  | toAc (k : Nat)
  | other (frame : Bytes)
  | reap
  | wait (ms : Nat)
  | reload (peers : Table maxPeers (Arr 32))

/-- A PADR in the name of the host. -/
def padrOf (mac : Arr 6) (frame : Bytes) : Bool :=
  byteAt (framePayload frame) 0 = ctrlPadr && arr (framePayload frame) 1 6 = mac

def netStep (h : Host) (w : Net) : NetEvent → Net
  | .dial =>
    match w.phase with
    | .down => Net.hostStep { w with dial := w.dial + 1 } (h.dial c w.phase)
    | _ => w
  | .timeout => w.hostStep (h.timeout c w.phase)
  | .quit => w.hostStep (h.quit c w.phase)
  | .die => { w with phase := .down }
  | .toHost k =>
    match w.acSent[k]? with
    | none => w
    | some m => w.hostTakes c h k m
  | .toAc k =>
    match w.hostSent[k]? with
    | none => w
    | some m => w.acStep c h (.recv m.frame) (some m)
  | .other frame => if padrOf h.mac frame then w else w.acStep c h (.recv frame) none
  | .reap => w.acStep c h .reap none
  | .wait ms => w.acStep c h (.wait ms) none
  | .reload peers => w.acStep c h (.reload peers) none

/-- The session of the host comes from a PADS of this dial, and the concentrator holds it
until it is reaped or closed in this dial. -/
structure Fresh (h : Host) (w : Net) : Prop where
  answered : ∀ sid ac, w.phase = .up sid ac →
    ∃ m p, w.acSent[w.taken]? = some m ∧ m.answers = some p ∧ p.dial = w.dial
  held : ∀ sid ac, w.phase = .up sid ac → w.gone = true ∨ w.ac.Holds sid h.mac

/-- Every PADS for the host answers a PADR that it has sent, and from then on the
concentrator holds the session until it is reaped or closed; and the session of the host
comes from such a PADS. -/
structure Promised (h : Host) (w : Net) : Prop where
  answered : ∀ m s f, m ∈ w.acSent → m.out = .pads s f → s.cmac = h.mac →
    (∃ p ∈ w.hostSent, m.answers = some p ∧ padrOf h.mac p.frame = true ∧ p.dial ≤ w.dial) ∧
      (m.ended = true ∨ w.ac.Holds s.sid h.mac)
  accepted : ∀ sid ac, w.phase = .up sid ac →
    ∃ m s f, w.acSent[w.taken]? = some m ∧ m.out = .pads s f ∧ s.sid = sid ∧ s.cmac = h.mac

namespace Ac

variable {c}

@[simp] theorem framePayload_acSend (a : Ac) (dst : Arr 6) (nh : UInt8) (payload : Bytes) :
    framePayload (a.acSend dst nh payload) = payload := framePayload_built ..

theorem acForward_replies (a : Ac) (i : Nat) (inner : Bytes) : (a.acForward i inner).filter Out.isReply = [] := by
  have hsend : ∀ j b, (a.acSessionSend j b).filter Out.isReply = [] := by
    intro j b
    rw [acSessionSend]
    split
    · rfl
    · rfl
  have hbridge : (a.acBridge i inner).filter Out.isReply = [] := by
    rw [acBridge]
    split
    · rfl
    · rfl
  have hstray : ∀ P : Prop, [Decidable P] → (if P then [] else a.acBridge i inner).filter Out.isReply = [] := by
    intro P _
    split
    · rfl
    · exact hbridge
  rw [acForward]
  dsimp only
  split
  · -- a lookup
    split
    · exact hsend _ _
    split
    · exact hsend _ _
    split
    · exact hbridge
    · rfl
  split
  · exact hbridge
  split
  · split
    · exact hsend _ _
    · exact hstray _
  · exact hstray _

theorem island_replies (a : Ac) (frame : Bytes) : (a.island frame).filter Out.isReply = [] := by
  rw [island]
  split
  · rename_i reply hnd
    rw [islandNd] at hnd
    split at hnd
    · split at hnd
      · rw [← Option.some.inj hnd]
        rfl
      · obtain ⟨j, -, heq⟩ := Option.map_eq_some_iff.mp hnd
        rw [← heq]
        rfl
    · cases hnd
  · split
    · rw [acSessionSend]
      split
      · rfl
      · rfl
    · rfl

theorem padrOf_of_dialing {a a' : Ac} {frame : Bytes} {mac : Arr 6} (h : a.dialing c frame = some (a', mac)) :
    padrOf mac frame = true := by
  obtain ⟨⟨-, hty⟩, -, rfl⟩ := dialing_elim c h
  rw [padrOf, hty, decide_eq_true rfl, decide_eq_true rfl]
  rfl

/-- A reply is a PADO, a PADT, or the PADS of a session that is in the table from then on,
to a PADR of its host. -/
theorem outs_reply {a : Ac} {e : Event} {o : Out} (h : o ∈ (a.outs c e).filter Out.isReply) :
    (∃ a' host, o = acPado c a' host) ∨ (∃ a' s, o = acPadt a' s) ∨
      ∃ a' s frame, o = acPads c a' s ∧ e = .recv frame ∧ padrOf s.cmac frame = true ∧
        (step c a e).Holds s.sid s.cmac := by
  cases e with
  | recv frame =>
    rw [outs] at h
    rw [step]
    have hrx := a.acRx_received (c := c) frame
    revert h hrx
    generalize a.acRx c frame = r
    intro h hrx
    cases hrx with
    | passed rate outs houts =>
      cases houts with
      | inl hnil =>
        rw [hnil] at h
        cases h
      | inr hpado =>
        obtain ⟨a', host, hpado⟩ := hpado
        rw [hpado] at h
        exact .inl ⟨a', host, List.mem_singleton.mp (List.mem_of_mem_filter h)⟩
    | learned i s inner hi hs hsrc =>
      rw [acForward_replies] at h
      cases h
    | redialed a' mac i s hd hi hs =>
      obtain ⟨t, ht, hmac⟩ := sessByCmac_at hi
      obtain rfl := Option.some.inj (hs.slot.symm.trans ht.slot)
      refine .inr (.inr ⟨a', s, frame, List.mem_singleton.mp (List.mem_of_mem_filter h), rfl, ?_, i, s, hs, rfl, rfl⟩)
      rw [hmac]
      exact padrOf_of_dialing hd
    | refused a' mac hd hnone hfull => cases h
    | dialed a' mac slot old sid hd hnone hgot hslot hold hfree hsid =>
      obtain ⟨hlt, -⟩ := List.getElem?_eq_some_iff.mp hslot
      exact .inr (.inr ⟨_, a'.newSession mac sid, frame, List.mem_singleton.mp (List.mem_of_mem_filter h), rfl,
        padrOf_of_dialing hd, slot, a'.newSession mac sid, ⟨List.getElem?_set_self hlt, rfl⟩, rfl, rfl⟩)
    | closed i s hc hs => cases h
    | island hisland =>
      rw [island_replies] at h
      cases h
  | reap =>
    obtain ⟨s, -, rfl⟩ := List.mem_map.mp (List.mem_of_mem_filter h)
    exact .inr (.inl ⟨a, s, rfl⟩)
  | wait ms => cases h
  | reload peers => cases h

/-- A received frame leaves a session its id and its MAC, unless it closes it. -/
theorem Received.persists {a : Ac} {frame : Bytes} {r : Ac × List Out} (h : a.Received c frame r) {i : Nat} {s : Session}
    (hs : a.At i s) (hopen : a.closing c frame ≠ some i) : r.1.Holds s.sid s.cmac := by
  cases h with
  | passed rate outs houts => exact ⟨i, s, ⟨hs.slot, hs.used⟩, rfl, rfl⟩
  | learned j t inner hj ht hsrc =>
    by_cases hij : j = i
    · subst hij
      obtain rfl := Option.some.inj (ht.slot.symm.trans hs.slot)
      obtain ⟨hlt, -⟩ := List.getElem?_eq_some_iff.mp hs.slot
      exact ⟨j, a.acLearn inner t, ⟨List.getElem?_set_self hlt, (acLearn_used a inner t).trans hs.used⟩,
        acLearn_sid a inner t, acLearn_cmac a inner t⟩
    · exact ⟨i, s, hs.set_ne hij _, rfl, rfl⟩
  | redialed a' mac j t hd hj ht => exact ⟨i, s, hs.dialing hd, rfl, rfl⟩
  | refused a' mac hd hnone hfull => exact ⟨i, s, hs.dialing hd, rfl, rfl⟩
  | dialed a' mac slot old sid hd hnone hgot hslot hold hfree hsid =>
    have hs' := hs.dialing hd
    exact ⟨i, s, hs'.set_ne (hs'.ne_unused hslot hold) _, rfl, rfl⟩
  | closed j t hc ht =>
    refine ⟨i, s, hs.set_ne ?_ _, rfl, rfl⟩
    rintro rfl
    exact hopen hc
  | island h => exact ⟨i, s, hs, rfl, rfl⟩

/-- A session goes only in a step that reaps it or takes a PADT for it. -/
theorem Holds.step {a : Ac} {sid : UInt16} {mac : Arr 6} (h : a.Holds sid mac) (e : Event)
    (hnot : a.ends c e sid mac = false) : (step c a e).Holds sid mac := by
  obtain ⟨i, s, hs, rfl, rfl⟩ := h
  cases e with
  | recv frame =>
    apply (a.acRx_received frame).persists hs
    intro hc
    rw [ends, hc, Option.any_some, hs.sessAt] at hnot
    simp at hnot
  | reap =>
    refine ⟨i, s, ⟨?_, hs.used⟩, rfl, rfl⟩
    have halive : a.idle s = false := by
      have hany := List.any_eq_false.mp hnot s (List.mem_of_getElem? hs.slot)
      simpa using hany
    rw [Pppoe.step, reap, List.getElem?_map, hs.slot, Option.map_some, halive]
    rfl
  | wait ms => exact ⟨i, s, ⟨hs.slot, hs.used⟩, rfl, rfl⟩
  | reload peers =>
    rw [Pppoe.step]
    split
    · exact ⟨i, s, ⟨hs.slot, hs.used⟩, rfl, rfl⟩
    · exact ⟨i, s, hs, rfl, rfl⟩

end Ac

namespace Host

variable {c} {h : Host}

/-- A session of the host goes on, or a PADS begins it. -/
theorem recv_up {ph : Phase} {frame : Bytes} {sid : UInt16} {ac : AcId} (hup : (h.recv c ph frame).1 = .up sid ac) :
    ph = .up sid ac ∨
      ph.isUp = false ∧ ∃ p, h.waitCtrl ctrlPads frame = some p ∧ h.takePads c ac p = some sid := by
  cases ph with
  | down => cases hup
  | padi n =>
    rw [recv] at hup
    split at hup
    · cases hup
    · cases hup
  | padr n ac' =>
    rw [recv] at hup
    cases hwait : h.waitCtrl ctrlPads frame with
    | none =>
      rw [hwait] at hup
      cases hup
    | some p =>
      rw [hwait] at hup
      dsimp only at hup
      cases htake : h.takePads c ac' p with
      | none =>
        rw [htake] at hup
        dsimp only at hup
        rw [retryPadr] at hup
        split at hup
        · cases hup
        · cases hup
      | some sid' =>
        rw [htake] at hup
        obtain ⟨rfl, rfl⟩ := Phase.up.inj hup
        exact .inr ⟨rfl, p, rfl, htake⟩
  | up sid' ac' =>
    rw [recv] at hup
    split at hup
    · exact .inl hup
    split at hup
    · cases hup
    · exact .inl hup

theorem timeout_up {ph : Phase} {sid : UInt16} {ac : AcId} (hup : (h.timeout c ph).1 = .up sid ac) : ph = .up sid ac := by
  cases ph with
  | down => cases hup
  | padi n =>
    rw [timeout] at hup
    split at hup
    · cases hup
    · cases hup
  | padr n ac' =>
    rw [timeout, retryPadr] at hup
    split at hup
    · cases hup
    · cases hup
  | up sid' ac' => exact hup

theorem quit_not_up (ph : Phase) (sid : UInt16) (ac : AcId) : (h.quit c ph).1 ≠ .up sid ac := by
  intro hup
  cases ph with
  | down => cases hup
  | padi n => cases hup
  | padr n ac' => cases hup
  | up sid' ac' => cases hup

theorem waitCtrl_some {code : UInt8} {frame p : Bytes} (hwait : h.waitCtrl code frame = some p) :
    byteAt (framePayload frame) 0 = code ∧ arr (framePayload frame) 1 6 = h.mac ∧ p = (framePayload frame).take 256 := by
  rw [waitCtrl] at hwait
  split at hwait
  · cases hwait
  · rename_i hpass
    simp only [not_or, not_not] at hpass
    exact ⟨hpass.2.2.2.1, hpass.2.2.2.2.2, (Option.some.inj hwait).symm⟩

end Host

/-- A PADS that a host takes is for its MAC, and brings it the id of the session. -/
theorem takePads_acPads {h : Host} {a : Ac} {s : Session} {ac : AcId} {p : Bytes} {sid : UInt16}
    (hwait : h.waitCtrl ctrlPads (a.acPads c s).frame = some p) (htake : h.takePads c ac p = some sid) :
    s.sid = sid ∧ s.cmac = h.mac := by
  obtain ⟨-, hmac, rfl⟩ := Host.waitCtrl_some hwait
  have hpayload : framePayload (a.acPads c s).frame =
      ctrlPads :: (s.cmac.val ++ (put16 s.sid ++ ((arr a.cfg.sk.val 32 32).val ++
        (ed25519Sign c (ctrlPads :: (s.cmac.val ++ put16 s.sid)) a.cfg.sk).val))) := by
    rw [Ac.acPads, Out.frame, Ac.framePayload_acSend, signAppend]
    simp
  have hlen : ((ctrlPads :: s.cmac.val) ++ (put16 s.sid ++ ((arr a.cfg.sk.val 32 32).val ++
      (ed25519Sign c (ctrlPads :: (s.cmac.val ++ put16 s.sid)) a.cfg.sk).val))).length ≤ 256 := by simp
  rw [hpayload] at hmac htake
  constructor
  · rw [← List.cons_append, List.take_of_length_le hlen, Host.takePads] at htake
    split at htake
    · cases htake
    split at htake
    · cases htake
    split at htake
    · cases htake
    · rw [get16_append_right _ _ 7 (by simp)] at htake
      simp only [List.length_cons, Arr.length] at htake
      rw [Nat.sub_self, get16_put16] at htake
      exact Option.some.inj htake
  · rw [← List.singleton_append, arr_append_right _ _ 1 6 (by simp)] at hmac
    simp only [List.length_singleton, Nat.sub_self, arr_append_exact] at hmac
    exact hmac

theorem AcMsg.pass_out (m : AcMsg) (a : Ac) (e : Event) : (m.pass c a e).out = m.out := by
  rw [pass]
  split
  · rfl
  · rfl

theorem AcMsg.pass_answers (m : AcMsg) (a : Ac) (e : Event) : (m.pass c a e).answers = m.answers := by
  rw [pass]
  split
  · rfl
  · rfl

namespace Net

variable {c} {h : Host}

/-- A discovery frame of the concentrator; behind a PADS stands a PADR of its host and,
until it ends, a session. -/
def Backed (c : TweetNaCl) (h : Host) (w : Net) (m : AcMsg) : Prop :=
  (∃ a host, m.out = Ac.acPado c a host) ∨ (∃ a s, m.out = Ac.acPadt a s) ∨
    ∃ a s, m.out = Ac.acPads c a s ∧
      (s.cmac = h.mac → ∃ p ∈ w.hostSent, m.answers = some p ∧ padrOf h.mac p.frame = true) ∧
      (m.ended = true ∨ w.ac.Holds s.sid s.cmac)

structure Inv (c : TweetNaCl) (h : Host) (w : Net) : Prop where
  dials : ∀ p ∈ w.hostSent, p.dial ≤ w.dial
  backed : ∀ m ∈ w.acSent, Backed c h w m
  accepted : ∀ sid ac, w.phase = .up sid ac →
    ∃ m s f, w.acSent[w.taken]? = some m ∧ m.out = .pads s f ∧ s.sid = sid ∧ s.cmac = h.mac

theorem inv_start (a : Ac) : Inv c h (start a) :=
  ⟨fun _ hp => (nomatch hp), fun _ hm => (nomatch hm), fun _ _ hup => nomatch hup⟩

/-- A PADS stays backed through a step of the concentrator. -/
theorem Backed.acStep {w : Net} {m : AcMsg} (hm : Backed c h w m) (e : Event) (src : Option HostMsg) :
    Backed c h (w.acStep c h e src) (m.pass c w.ac e) := by
  rw [Backed, AcMsg.pass_out, AcMsg.pass_answers]
  refine hm.imp_right fun hm => hm.imp_right fun hm => ?_
  obtain ⟨a, s, hout, hpadr, hheld⟩ := hm
  refine ⟨a, s, hout, hpadr, ?_⟩
  have hended : (m.pass c w.ac e).ended = (m.ended || w.ac.ends c e s.sid s.cmac) := by
    rw [AcMsg.pass, hout]
    rfl
  rw [hended, Bool.or_eq_true, or_assoc]
  refine hheld.imp_right fun hholds => ?_
  cases hends : w.ac.ends c e s.sid s.cmac with
  | true => exact .inl rfl
  | false => exact .inr (hholds.step e hends)

theorem Inv.acStep {w : Net} (hw : Inv c h w) {e : Event} {src : Option HostMsg}
    (hsrc : ∀ frame, e = .recv frame → padrOf h.mac frame = true →
      ∃ p ∈ w.hostSent, src = some p ∧ padrOf h.mac p.frame = true) : Inv c h (w.acStep c h e src) := by
  constructor
  · exact hw.dials
  · intro m hm
    cases List.mem_append.mp hm with
    | inl hold =>
      obtain ⟨m', hm', rfl⟩ := List.mem_map.mp hold
      exact (hw.backed m' hm').acStep e src
    | inr hnew =>
      obtain ⟨o, ho, rfl⟩ := List.mem_map.mp hnew
      rcases Ac.outs_reply ho with hpado | hpadt | ⟨a, s, frame, hout, he, hpadr, hholds⟩
      · exact .inl hpado
      · exact .inr (.inl hpadt)
      · exact .inr (.inr ⟨a, s, hout, fun hmac => hsrc frame he (hmac ▸ hpadr), .inr hholds⟩)
  · intro sid ac hup
    obtain ⟨m, s, f, hget, hout, hs⟩ := hw.accepted sid ac hup
    obtain ⟨hlt, -⟩ := List.getElem?_eq_some_iff.mp hget
    refine ⟨m.pass c w.ac e, s, f, ?_, (m.pass_out c w.ac e).trans hout, hs⟩
    change (w.acSent.map _ ++ _)[w.taken]? = _
    rw [List.getElem?_append_left (by rwa [List.length_map]), List.getElem?_map, hget]
    rfl

/-- More frames of the host back a PADS no less. -/
theorem Backed.mono {w w' : Net} {m : AcMsg} (hm : Backed c h w m) (hac : w'.ac = w.ac)
    (hsent : ∀ p ∈ w.hostSent, p ∈ w'.hostSent) : Backed c h w' m := by
  refine hm.imp_right fun hm => hm.imp_right fun hm => ?_
  obtain ⟨a, s, hout, hpadr, hheld⟩ := hm
  refine ⟨a, s, hout, fun hmac => ?_, hac ▸ hheld⟩
  obtain ⟨p, hp, hanswers⟩ := hpadr hmac
  exact ⟨p, hsent p hp, hanswers⟩

theorem Inv.hostStep {w : Net} (hw : Inv c h w) (r : Phase × List Bytes)
    (hup : ∀ sid ac, r.1 = .up sid ac → w.phase = .up sid ac) : Inv c h (w.hostStep r) := by
  constructor
  · intro p hp
    cases List.mem_append.mp hp with
    | inl hold => exact hw.dials p hold
    | inr hnew =>
      obtain ⟨f, -, rfl⟩ := List.mem_map.mp hnew
      exact le_rfl
  · exact fun m hm => (hw.backed m hm).mono rfl fun p hp => List.mem_append_left _ hp
  · exact fun sid ac hphase => hw.accepted sid ac (hup sid ac hphase)

/-- Only a PADS for the host begins its session. -/
theorem Inv.hostTakes {w : Net} (hw : Inv c h w) {k : Nat} {m : AcMsg} (hm : w.acSent[k]? = some m) :
    Inv c h (w.hostTakes c h k m) := by
  constructor
  · intro p hp
    cases List.mem_append.mp hp with
    | inl hold => exact hw.dials p hold
    | inr hnew =>
      obtain ⟨f, -, rfl⟩ := List.mem_map.mp hnew
      exact le_rfl
  · exact fun m' hm' => (hw.backed m' hm').mono rfl fun p hp => List.mem_append_left _ hp
  · intro sid ac hphase
    cases Host.recv_up hphase with
    | inl hon =>
      obtain ⟨m', s, f, hget, hs⟩ := hw.accepted sid ac hon
      refine ⟨m', s, f, ?_, hs⟩
      rw [Net.hostTakes, hon]
      exact hget
    | inr hbegin =>
      obtain ⟨hdown, p, hwait, htake⟩ := hbegin
      have htaken : (w.hostTakes c h k m).acSent[(w.hostTakes c h k m).taken]? = some m := by
        rw [Net.hostTakes, hdown]
        exact hm
      rcases hw.backed m (List.mem_of_getElem? hm) with ⟨a, host, hout⟩ | ⟨a, s, hout⟩ | ⟨a, s, hout, -, -⟩
      · obtain ⟨hcode, -⟩ := Host.waitCtrl_some hwait
        rw [hout, Ac.acPado, Out.frame, Ac.framePayload_acSend, signAppend] at hcode
        cases hcode
      · obtain ⟨hcode, -⟩ := Host.waitCtrl_some hwait
        rw [hout, Ac.acPadt, Out.frame, Ac.framePayload_acSend] at hcode
        cases hcode
      · rw [hout] at hwait
        exact ⟨m, s, _, htaken, hout, takePads_acPads c hwait htake⟩

theorem inv_step (w : Net) (e : NetEvent) (hw : Inv c h w) : Inv c h (netStep c h w e) := by
  cases e with
  | dial =>
    rw [netStep]
    split
    · rename_i hdown
      rw [hdown]
      have hnext : Inv c h { w with dial := w.dial + 1 } :=
        ⟨fun p hp => (hw.dials p hp).trans (Nat.le_succ _), hw.backed, hw.accepted⟩
      exact hnext.hostStep _ fun _ _ hup => nomatch hup
    · exact hw
  | timeout => exact hw.hostStep _ fun sid ac => Host.timeout_up
  | quit => exact hw.hostStep _ fun sid ac hup => absurd hup (Host.quit_not_up w.phase sid ac)
  | die => exact ⟨hw.dials, hw.backed, fun _ _ hup => nomatch hup⟩
  | toHost k =>
    rw [netStep]
    split
    · exact hw
    · exact hw.hostTakes ‹_›
  | toAc k =>
    rw [netStep]
    split
    · exact hw
    · rename_i m hm
      apply hw.acStep
      rintro frame heq hpadr
      obtain rfl := Event.recv.inj heq
      exact ⟨m, List.mem_of_getElem? hm, rfl, hpadr⟩
  | other frame =>
    rw [netStep]
    split
    · exact hw
    · rename_i hnot
      apply hw.acStep
      rintro frame' heq hpadr
      obtain rfl := Event.recv.inj heq
      exact absurd hpadr hnot
  | reap => exact hw.acStep fun frame heq => nomatch heq
  | wait ms => exact hw.acStep fun frame heq => nomatch heq
  | reload peers => exact hw.acStep fun frame heq => nomatch heq

theorem Inv.promised {w : Net} (hw : Inv c h w) : Promised h w := by
  constructor
  · intro m s f hm hout hmac
    rcases hw.backed m hm with ⟨a, host, hout'⟩ | ⟨a, t, hout'⟩ | ⟨a, t, hout', hpadr, hheld⟩
    · rw [hout] at hout'
      cases hout'
    · rw [hout] at hout'
      cases hout'
    · rw [hout] at hout'
      obtain ⟨rfl, -⟩ := Out.pads.inj hout'
      obtain ⟨p, hp, hanswers, hnamed⟩ := hpadr hmac
      exact ⟨⟨p, hp, hanswers, hnamed, hw.dials p hp⟩, hmac ▸ hheld⟩
  · exact hw.accepted

end Net

/-- In every state of every run: a PADS for the host answers one of its PADRs, of this dial
or an earlier one; the concentrator holds its session until it is reaped or closed; and
what a dial returns is the id of such a PADS. -/
theorem dial_promised (h : Host) (cfg : Config) (peers : Table maxPeers (Arr 32)) (clock : Nat) (es : List NetEvent) :
    Throughout (netStep c h) (Promised h) (.start (start cfg peers clock)) es := by
  rw [throughout_iff]
  intro k
  have hinv : Net.Inv c h (run (netStep c h) (.start (start cfg peers clock)) (es.take k)) :=
    inv_run_all Net.inv_step _ _ (Net.inv_start _)
  exact hinv.promised

/-- Host 7 with the key 9. -/
def toyHost : Host := ⟨toyMac 7, pad 64 ((toyPub 9).val ++ (toyPub 9).val), 0, none⟩

/-- The concentrator as that host sees it. -/
def toyAc : AcId := ⟨toyMac 1, toyAddr, .zero 32⟩

/-- The PADS of the first dial arrives in the second one, after the session was reaped. -/
def latePads : List NetEvent :=
  [.dial, .toAc 0, .toHost 0, .toAc 1, .timeout, .timeout, .timeout, .wait 301000, .reap, .dial, .toAc 4, .toHost 3, .toHost 1]

/-- The PADT of the first dial arrives after the host has dialed again. -/
def latePadt : List NetEvent :=
  [.dial, .toAc 0, .toHost 0, .toAc 1, .toHost 1, .quit, .dial, .toAc 3, .toHost 2, .toAc 4, .toHost 3, .toAc 2]

/-- Neither the PADS nor the PADT of a session is told from one of an earlier dial. -/
theorem earlier_dial_interferes :
    ¬ Throughout (netStep toy toyHost) (Fresh toyHost) (.start (start toyCfg .empty 0)) latePads ∧
      ¬ Throughout (netStep toy toyHost) (Fresh toyHost) (.start (start toyCfg .empty 0)) latePadt := by
  constructor
  · intro hall
    have hlast := (throughout_iff _ _ _ _).mp hall latePads.length
    rw [List.take_length] at hlast
    generalize hw : run (netStep toy toyHost) (.start (start toyCfg .empty 0)) latePads = w at hlast
    have hup : w.phase = .up 1 toyAc := by
      rw [← hw]
      decide +kernel
    have hdials : ((w.acSent[w.taken]?).bind AcMsg.answers).map HostMsg.dial = some 1 ∧ w.dial = 2 := by
      rw [← hw]
      decide +kernel
    obtain ⟨m, p, hm, hp, hdial⟩ := hlast.answered 1 toyAc hup
    rw [hm, Option.bind_some, hp, Option.map_some, hdial, hdials.2] at hdials
    cases hdials.1
  · intro hall
    have hlast := (throughout_iff _ _ _ _).mp hall latePadt.length
    rw [List.take_length] at hlast
    generalize hw : run (netStep toy toyHost) (.start (start toyCfg .empty 0)) latePadt = w at hlast
    have hup : w.phase = .up 1 toyAc ∧ w.gone = false := by
      rw [← hw]
      decide +kernel
    have hempty : w.ac.sess.all (fun s => !s.used) = true := by
      rw [← hw]
      decide +kernel
    cases hlast.held 1 toyAc hup.1 with
    | inl hgone =>
      rw [hup.2] at hgone
      cases hgone
    | inr hholds =>
      obtain ⟨i, s, hs, -⟩ := hholds
      have hunused := List.all_eq_true.mp hempty s (List.mem_of_getElem? hs.slot)
      rw [hs.used] at hunused
      cases hunused

end Pppoe
