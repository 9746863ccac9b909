import BaitNet.PppoeIsolation

/-!
# Island traffic and the sessions

A frame of the island goes into the session that has its 40-bit destination as its
address, or, sent to the 40-bit broadcast, into the session that has its Ethernet
destination as its wire MAC.
-/
namespace Pppoe

open Wire Link Crypto Tables Runs
open Gw (frameDstMac)
open Dhcp (ipv69BcastAddr)

variable (c : TweetNaCl)

/-- A MAC of a single station: no group bit, not all zero. -/
def isUnicast (mac : Arr 6) : Bool := byteAt mac.val 0 &&& 1 = 0 && mac ≠ .zero 6

/-- A concentrator, and for each slot the source MAC of the last inner frame of the session
there. -/
structure Tracked where
  ac : Ac
  learned : Nat → Option (Arr 6)

/-- An inner frame is learned from; an unused slot forgets. -/
def track (w : Tracked) (e : Event) : Tracked :=
  match e with
  | .recv frame =>
    ⟨step c w.ac (.recv frame), fun i =>
      if (w.ac.innerOf frame).map Prod.fst = some i then (w.ac.innerOf frame).map fun d => frameSrcMac d.2
      else if (w.ac.sessAt i).used then w.learned i else none⟩
  | e => ⟨step c w.ac e, w.learned⟩

def Tracked.start (a : Ac) : Tracked := ⟨a, fun _ => none⟩

namespace Tracked

/-- A wire MAC is the one learned last, and zero before the first inner frame. -/
def WmacLearned (w : Tracked) : Prop :=
  ∀ (i : Nat) (s : Session), w.ac.At i s → s.wmac = (w.learned i).getD (.zero 6)

/-- A frame that is wrapped into a session is for the address of that session, or for all
addresses and the single station that its inner traffic has shown. -/
def WrapsOwn (w : Tracked) (frame : Bytes) : Prop :=
  ∀ (i : Nat) (inner out : Bytes), w.ac.fromIsland frame = true → Out.wrap i inner out ∈ (w.ac.acRx c frame).2 →
    (frameDest frame ≠ ipv69BcastAddr ∧ frameDest frame ≠ 0 ∧ ∃ s, w.ac.At i s ∧ s.addr = frameDest frame) ∨
      (frameDest frame = ipv69BcastAddr ∧ w.learned i = some (frameDstMac frame) ∧ isUnicast (frameDstMac frame) = true)

theorem wmacLearned_start (a : Ac) (h : ∀ i s, ¬ a.At i s) : (start a).WmacLearned := fun i s hs => (h i s hs).elim

variable {c}

theorem wmacLearned_step (w : Tracked) (e : Event) (h : w.WmacLearned) : (track c w e).WmacLearned := by
  intro i s' hs'
  cases e with
  | recv frame =>
    rw [track] at hs' ⊢
    dsimp only at hs' ⊢
    cases hof : w.ac.innerOf frame with
    | some d =>
      obtain ⟨j, inner⟩ := d
      obtain ⟨s, hs, -, hrx⟩ := Ac.acRx_inner (c := c) hof
      rw [step, hrx] at hs'
      rw [Option.map_some, Option.map_some]
      cases getElem?_set_elim hs'.slot with
      | inl heq =>
        obtain ⟨rfl, rfl⟩ := heq
        rw [if_pos rfl, Ac.acLearn_wmac]
        rfl
      | inr hne =>
        have hwas : w.ac.At i s' := ⟨hne.2, hs'.used⟩
        rw [if_neg (fun heq => hne.1 (Option.some.inj heq).symm), hwas.sessAt, hwas.used, if_pos rfl]
        exact h i s' hwas
    | none =>
      rw [Option.map_none, if_neg (fun heq => by cases heq)]
      rcases (w.ac.acRx_received frame).at_elim hs' with hwas | ⟨inner, s, hof', -⟩ | ⟨a', mac, sid, -, -, -, hunused, rfl, -⟩
      · rw [hwas.sessAt, hwas.used, if_pos rfl]
        exact h i s' hwas
      · rw [hof] at hof'
        cases hof'
      · rw [hunused, if_neg Bool.false_ne_true]
        rfl
  | reap => exact h i s' hs'.of_reap
  | wait ms => exact h i s' ⟨hs'.slot, hs'.used⟩
  | reload peers => exact h i s' (Ac.At.of_reload (c := c) hs')

end Tracked

namespace Ac

theorem sessByAddr_at {a : Ac} {addr : UInt64} {i : Nat} (h : a.sessByAddr addr = some i) :
    addr ≠ 0 ∧ ∃ s, a.At i s ∧ s.addr = addr := by
  rw [sessByAddr] at h
  split at h
  · cases h
  · rename_i hzero
    obtain ⟨s, hs, haddr⟩ := at_of_find h
    exact ⟨hzero, s, hs, of_decide_eq_true haddr⟩

theorem sessByWmac_at {a : Ac} {mac : Arr 6} {i : Nat} (h : a.sessByWmac mac = some i) :
    ∃ s, a.At i s ∧ s.wmac = mac := by
  obtain ⟨s, hs, hmac⟩ := at_of_find h
  exact ⟨s, hs, of_decide_eq_true hmac⟩

theorem acRx_island {a : Ac} {frame : Bytes} (h : a.fromIsland frame = true) : a.acRx c frame = (a, a.island frame) := by
  simp only [fromIsland, Bool.and_eq_true, decide_eq_true_eq, Bool.not_eq_true'] at h
  obtain ⟨⟨⟨hlen, hsrc⟩, hty⟩, hdisc⟩ := h
  rw [acRx, if_neg (by omega), if_neg hsrc, if_neg hty, if_neg (by rw [hdisc]; decide)]

/-- A frame of the island is wrapped unless a lookup takes it, or it is too long. -/
theorem wrap_mem_island {a : Ac} {frame : Bytes} {i : Nat} :
    (∃ inner out, Out.wrap i inner out ∈ a.island frame) ↔
      a.islandNd frame = none ∧ a.islandSession frame = some i ∧ frame.length ≤ 2048 - 2 := by
  rw [island]
  cases hnd : a.islandNd frame with
  | some reply =>
    refine ⟨?_, fun h => nomatch h.1⟩
    rintro ⟨inner, out, hout⟩
    have hreply := List.mem_singleton.mp hout
    rw [islandNd] at hnd
    split at hnd
    · split at hnd
      · rw [← hreply] at hnd
        cases hnd
      · obtain ⟨j, -, heq⟩ := Option.map_eq_some_iff.mp hnd
        rw [← hreply] at heq
        cases heq
    · cases hnd
  | none =>
    cases hsess : a.islandSession frame with
    | none => simp
    | some j =>
      dsimp only
      rw [acSessionSend]
      split
      · simp
        omega
      · simp
        omega

/-- A frame to the 40-bit broadcast that is not for a single station, in a table that has
its Ethernet destination as the wire MAC of a session. -/
def stray (a : Ac) (frame : Bytes) : Bool :=
  a.fromIsland frame && (a.islandNd frame).isNone && decide (frame.length ≤ 2048 - 2) &&
    frameDest frame = ipv69BcastAddr && !isUnicast (frameDstMac frame) && (a.sessByWmac (frameDstMac frame)).isSome

end Ac

namespace Tracked

/-- When each wire MAC is a learned one, only a stray frame gets into a foreign session. -/
theorem wrapsOwn_iff {w : Tracked} (h : w.WmacLearned) (frame : Bytes) :
    w.WrapsOwn c frame ↔ w.ac.stray frame = false := by
  constructor
  · intro howns
    rw [Bool.eq_false_iff]
    intro hstray
    simp only [Ac.stray, Bool.and_eq_true, decide_eq_true_eq, Bool.not_eq_true', Option.isNone_iff_eq_none] at hstray
    obtain ⟨⟨⟨⟨⟨hisland, hnd⟩, hlen⟩, hdst⟩, hgroup⟩, hsome⟩ := hstray
    obtain ⟨i, hi⟩ := Option.isSome_iff_exists.mp hsome
    have hsess : w.ac.islandSession frame = some i := by rw [Ac.islandSession, if_neg (not_not.mpr hdst), hi]
    obtain ⟨inner, out, hout⟩ := Ac.wrap_mem_island.mpr ⟨hnd, hsess, hlen⟩
    cases howns i inner out hisland (by rw [Ac.acRx_island c hisland]; exact hout) with
    | inl haddr => exact haddr.1 hdst
    | inr hmac =>
      rw [hgroup] at hmac
      cases hmac.2.2
  · intro hstray i inner out hisland hout
    rw [Ac.acRx_island c hisland] at hout
    obtain ⟨hnd, hsess, hlen⟩ := Ac.wrap_mem_island.mp ⟨inner, out, hout⟩
    rw [Ac.islandSession] at hsess
    split at hsess
    · rename_i hdst
      obtain ⟨hzero, hs⟩ := Ac.sessByAddr_at hsess
      exact .inl ⟨hdst, hzero, hs⟩
    · rename_i hdst
      rw [not_not] at hdst
      have hunicast : isUnicast (frameDstMac frame) = true := by
        rw [Ac.stray, hisland, hnd, hdst, hsess] at hstray
        simpa [hlen] using hstray
      obtain ⟨s, hs, hmac⟩ := Ac.sessByWmac_at hsess
      refine .inr ⟨hdst, ?_, hunicast⟩
      have hlearned := h i s hs
      rw [hmac] at hlearned
      cases hl : w.learned i with
      | some m =>
        rw [hl] at hlearned
        exact congrArg some hlearned.symm
      | none =>
        -- a MAC of zeros is nobody's
        rw [hl] at hlearned
        rw [hlearned] at hunicast
        cases hunicast

end Tracked

/-- In every state of every run: a frame of the island gets into no session but that of its
address or of its station, exactly if it is not stray. -/
theorem island_wraps_iff (cfg : Config) (peers : Table maxPeers (Arr 32)) (clock : Nat) (es : List Event) (frame : Bytes) :
    (run (track c) (.start (start cfg peers clock)) es).WrapsOwn c frame ↔
      (run (track c) (.start (start cfg peers clock)) es).ac.stray frame = false := by
  have hlearned : (run (track c) (.start (start cfg peers clock)) es).WmacLearned := by
    apply inv_run_all Tracked.wmacLearned_step
    exact Tracked.wmacLearned_start _ fun i s => Ac.not_at_start cfg peers clock i s
  exact Tracked.wrapsOwn_iff c hlearned frame

/-- Session data of the host with MAC `x` with an inner frame from `mac`. -/
def toyInner (x : UInt8) (sid : UInt16) (mac : Arr 6) : Bytes :=
  toyFrame x ipv69NextPppoe (put16 sid ++ buildFrame bcastMac mac 0 ipv69BcastAddr ipv69NextControl 64 0 0 [0])

/-- A broadcast of an island host. -/
def toyBroadcast : Bytes := buildFrame bcastMac (toyMac 20) 5 ipv69BcastAddr 253 64 0 0 [1, 2, 3]

/-- Host 7 sends one inner frame with the broadcast MAC as its source; from then on the
broadcasts of the island go to it. -/
theorem broadcast_learned :
    ¬ (run (track toy) (.start (start toyCfg .empty 0)) [.recv (toyPadr 7 9 9), .recv (toyInner 7 1 bcastMac)]).WrapsOwn toy
      toyBroadcast := by
  generalize hw : run (track toy) (.start (start toyCfg .empty 0))
    [.recv (toyPadr 7 9 9), .recv (toyInner 7 1 bcastMac)] = w
  intro howns
  have hisland : w.ac.fromIsland toyBroadcast = true := by
    rw [← hw]
    decide +kernel
  have hnd : w.ac.islandNd toyBroadcast = none := by
    rw [← hw]
    decide +kernel
  have hsess : w.ac.islandSession toyBroadcast = some 0 := by
    rw [← hw]
    decide +kernel
  obtain ⟨inner, out, hout⟩ := Ac.wrap_mem_island.mpr ⟨hnd, hsess, by decide +kernel⟩
  have hown := howns 0 inner out hisland (by rw [Ac.acRx_island toy hisland]; exact hout)
  cases hown with
  | inl haddr => exact haddr.1 (by decide +kernel)
  | inr hmac =>
    have hunicast := hmac.2.2
    revert hunicast
    decide +kernel

end Pppoe
