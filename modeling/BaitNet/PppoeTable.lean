import BaitNet.Pppoe

/-!
# The session table

What a received frame does to the table, slot by slot, and the invariant of all runs:
ids and control MACs are distinct, and a table with a free slot has a free id.
-/
namespace Pppoe

open Wire Link Crypto Tables Runs
open Gw (frameDstMac)
open Dhcp (mac1Len)

variable (c : TweetNaCl)

namespace Ac

/-- A discovery message for this concentrator alone: its address, its MAC. -/
def toUs (a : Ac) (frame : Bytes) : Bool :=
  decide (14 + ipv69HeaderLen + 1 ≤ frame.length) && frameSrcMac frame ≠ a.cfg.mac && isDiscovery frame &&
    frameDest frame = a.cfg.addr && frameDstMac frame = a.cfg.mac

/-- The inner frame that session data brings to a slot. -/
def innerOf (a : Ac) (frame : Bytes) : Option (Nat × Bytes) :=
  if frame.length < 14 + ipv69HeaderLen + 1 ∨ frameSrcMac frame = a.cfg.mac ∨ frameNextHeader frame ≠ ipv69NextPppoe then
    none
  else (a.sessionData frame).filter fun d => 14 + ipv69HeaderLen + 1 ≤ d.2.length

/-- The host of a PADR that passes the checks, and the concentrator after them. -/
def dialing (a : Ac) (frame : Bytes) : Option (Ac × Arr 6) :=
  let p := framePayload frame
  if a.toUs frame && byteAt p 0 = ctrlPadr then
    match a.vetPadr c p with
    | (_, false) => none
    | (a, true) => some (a, arr p 1 6)
  else none

/-- The slot that an accepted PADT closes. -/
def closing (a : Ac) (frame : Bytes) : Option Nat :=
  let p := framePayload frame
  if a.toUs frame && byteAt p 0 = ctrlPadt && p.length = 3 + mac1Len &&
      mac1Verify c (mac1Key c a.cfg.addr) (slice p 0 3) (arr p 3 mac1Len) then a.sessBySid (get16 p 1)
  else none

/-- A slot that a lookup found. -/
structure At (a : Ac) (i : Nat) (s : Session) : Prop where
  slot : a.sess[i]? = some s
  used : s.used = true

theorem at_of_find {a : Ac} {P : Session → Bool} {i : Nat}
    (h : (a.sess.findIdx? fun s => s.used && P s) = some i) : ∃ s, a.At i s ∧ P s = true := by
  obtain ⟨hlt, hP, -⟩ := List.findIdx?_eq_some_iff_getElem.mp h
  rw [Bool.and_eq_true] at hP
  exact ⟨a.sess[i], ⟨List.getElem?_eq_getElem hlt, hP.1⟩, hP.2⟩

theorem sessByCmac_at {a : Ac} {mac : Arr 6} {i : Nat} (h : a.sessByCmac mac = some i) :
    ∃ s, a.At i s ∧ s.cmac = mac := by
  obtain ⟨s, hs, hmac⟩ := at_of_find h
  exact ⟨s, hs, of_decide_eq_true hmac⟩

theorem sessBySid_at {a : Ac} {sid : UInt16} {i : Nat} (h : a.sessBySid sid = some i) :
    ∃ s, a.At i s ∧ s.sid = sid := by
  obtain ⟨s, hs, hsid⟩ := at_of_find h
  exact ⟨s, hs, of_decide_eq_true hsid⟩

theorem At.sessAt {a : Ac} {i : Nat} {s : Session} (h : a.At i s) : a.sessAt i = s := by
  rw [Ac.sessAt, List.getD_eq_getElem?_getD, h.slot]
  rfl

theorem sessByCmac_none {a : Ac} {mac : Arr 6} (h : a.sessByCmac mac = none) {i : Nat} {s : Session} (hs : a.At i s) :
    s.cmac ≠ mac := by
  intro heq
  have hno := List.findIdx?_eq_none_iff.mp h s (List.mem_of_getElem? hs.slot)
  rw [hs.used, heq, decide_eq_true rfl] at hno
  cases hno

theorem sidTaken_iff (a : Ac) (sid : UInt16) : a.sidTaken sid = true ↔ ∃ i s, a.At i s ∧ s.sid = sid := by
  rw [sidTaken, List.any_eq_true]
  constructor
  · rintro ⟨s, hs, hP⟩
    rw [Bool.and_eq_true, decide_eq_true_eq] at hP
    obtain ⟨i, hi⟩ := List.mem_iff_getElem?.mp hs
    exact ⟨i, s, ⟨hi, hP.1⟩, hP.2⟩
  · rintro ⟨i, s, hs, hsid⟩
    exact ⟨s, List.mem_of_getElem? hs.slot, by rw [hs.used, hsid, decide_eq_true rfl]; rfl⟩

theorem freeSid_some {a : Ac} {fuel t : Nat} {sid : UInt16} (h : a.freeSid fuel t = some sid) :
    a.sidTaken sid = false ∧ ∃ n, t ≤ n ∧ n < t + fuel ∧ sid = .ofNat n := by
  induction fuel generalizing t with
  | zero => cases h
  | succ fuel ih =>
    rw [freeSid] at h
    split at h
    · obtain ⟨hfree, n, hlo, hhi, hn⟩ := ih h
      exact ⟨hfree, n, by omega, by omega, hn⟩
    · rename_i hno
      obtain rfl := Option.some.inj h
      exact ⟨Bool.eq_false_iff.mpr hno, t, le_rfl, by omega, rfl⟩

theorem freeSid_none {a : Ac} {fuel t : Nat} (h : a.freeSid fuel t = none) (n : Nat) (hlo : t ≤ n) (hhi : n < t + fuel) :
    a.sidTaken (.ofNat n) = true := by
  induction fuel generalizing t with
  | zero => omega
  | succ fuel ih =>
    rw [freeSid] at h
    split at h
    · rename_i htaken
      by_cases heq : n = t
      · rwa [heq]
      · exact ih h (by omega) (by omega)
    · cases h

/-- Fewer sessions than ids: the search always ends at a free id. -/
theorem freeSid_found {a : Ac} (hlen : a.sess.length ≤ maxSessions) : a.freeSid 0xffff 1 ≠ none := by
  intro hnone
  have hsub : (Finset.Ico 1 0x10000).image (fun n : Nat => UInt16.ofNat n) ⊆ (a.sess.map Session.sid).toFinset := by
    intro sid hsid
    obtain ⟨n, hn, rfl⟩ := Finset.mem_image.mp hsid
    obtain ⟨hlo, hhi⟩ := Finset.mem_Ico.mp hn
    obtain ⟨i, s, hs, hs'⟩ := (a.sidTaken_iff _).mp (freeSid_none hnone n hlo (by omega))
    rw [List.mem_toFinset, List.mem_map]
    exact ⟨s, List.mem_of_getElem? hs.slot, hs'⟩
  have hinj : Set.InjOn (fun n : Nat => UInt16.ofNat n) (Finset.Ico 1 0x10000 : Finset Nat) := by
    intro m hm n hn heq
    have hm' := Finset.mem_Ico.mp (Finset.mem_coe.mp hm)
    have hn' := Finset.mem_Ico.mp (Finset.mem_coe.mp hn)
    have hnat := congrArg UInt16.toNat heq
    simp only [UInt16.toNat_ofNat'] at hnat
    omega
  have hcard := Finset.card_le_card hsub
  rw [Finset.card_image_of_injOn hinj, Nat.card_Ico] at hcard
  have hids := List.toFinset_card_le (a.sess.map Session.sid)
  rw [List.length_map] at hids
  have hmax : maxSessions = 64 := rfl
  omega

/-- The session that a PADR of `mac` opens. -/
def newSession (a : Ac) (mac : Arr 6) (sid : UInt16) : Session := ⟨sid, true, mac, .zero 6, 0, a.time⟩

theorem sessAlloc_cases (a : Ac) :
    a.sessAlloc = none ∧ ((∀ s ∈ a.sess, s.used = true) ∨ a.freeSid 0xffff 1 = none) ∨
      ∃ slot s sid, a.sess[slot]? = some s ∧ s.used = false ∧ a.sidTaken sid = false ∧ sid ≠ 0 ∧
        a.sessAlloc = some ({ a with sess := a.sess.set slot (a.newSession (.zero 6) sid) }, slot) := by
  rw [sessAlloc]
  cases hslot : a.sess.findIdx? fun s => !s.used with
  | none =>
    refine .inl ⟨rfl, .inl fun s hs => ?_⟩
    have hused := List.findIdx?_eq_none_iff.mp hslot s hs
    simpa using hused
  | some slot =>
    dsimp only
    cases hsid : a.freeSid 0xffff 1 with
    | none => exact .inl ⟨rfl, .inr rfl⟩
    | some sid =>
      obtain ⟨hlt, hfree, -⟩ := List.findIdx?_eq_some_iff_getElem.mp hslot
      obtain ⟨hnot, n, hlo, hhi, rfl⟩ := freeSid_some hsid
      refine .inr ⟨slot, a.sess[slot], _, List.getElem?_eq_getElem hlt, by simpa using hfree, hnot, ?_, rfl⟩
      intro hzero
      have hnat := congrArg UInt16.toNat hzero
      simp only [UInt16.toNat_ofNat', UInt16.toNat_zero] at hnat
      omega

/-- Neither session data nor discovery: a frame of the island. -/
def fromIsland (a : Ac) (frame : Bytes) : Bool :=
  decide (14 + ipv69HeaderLen + 1 ≤ frame.length) && frameSrcMac frame ≠ a.cfg.mac &&
    frameNextHeader frame ≠ ipv69NextPppoe && !isDiscovery frame

/-- What a received frame does. -/
inductive Received (a : Ac) (frame : Bytes) : Ac × List Out → Prop
  /-- dropped, or a PADI -/
  | passed (rate : List RateBucket) (outs : List Out) (houts : outs = [] ∨ ∃ a' host, outs = [acPado c a' host]) :
      Received a frame ({ a with rate := rate }, outs)
  | learned (i : Nat) (s : Session) (inner : Bytes) (h : a.innerOf frame = some (i, inner)) (hs : a.At i s)
      (hsrc : s.cmac = frameSrcMac frame) :
      Received a frame ({ a with sess := a.sess.set i (a.acLearn inner s) },
        acForward { a with sess := a.sess.set i (a.acLearn inner s) } i inner)
  | redialed (a' : Ac) (mac : Arr 6) (i : Nat) (s : Session) (hd : a.dialing c frame = some (a', mac))
      (hi : a'.sessByCmac mac = some i) (hs : a'.At i s) : Received a frame (a', [a'.acPads c s])
  | refused (a' : Ac) (mac : Arr 6) (hd : a.dialing c frame = some (a', mac)) (hnone : a'.sessByCmac mac = none)
      (hfull : a'.sessAlloc = none) : Received a frame (a', [])
  | dialed (a' : Ac) (mac : Arr 6) (slot : Nat) (old : Session) (sid : UInt16)
      (hd : a.dialing c frame = some (a', mac)) (hnone : a'.sessByCmac mac = none) (hgot : a'.sessAlloc.isSome = true)
      (hslot : a'.sess[slot]? = some old) (hold : old.used = false) (hfree : a'.sidTaken sid = false) (hsid : sid ≠ 0) :
      Received a frame ({ a' with sess := a'.sess.set slot (a'.newSession mac sid) },
        [acPads c { a' with sess := a'.sess.set slot (a'.newSession mac sid) } (a'.newSession mac sid)])
  | closed (i : Nat) (s : Session) (hc : a.closing c frame = some i) (hs : a.At i s) :
      Received a frame (a.sessFree i, [])
  | island (h : a.fromIsland frame = true) : Received a frame (a, a.island frame)

theorem allow_state (a : Ac) (mac : Arr 6) : ∃ rate, (a.allow mac).1 = { a with rate := rate } := ⟨_, rfl⟩

theorem checkPadr_refused {a : Ac} {p : Bytes} (h : (a.checkPadr c p).2 = false) : (a.checkPadr c p).1 = a := by
  revert h
  rw [checkPadr]
  split
  · exact fun _ => rfl
  split
  · exact fun _ => rfl
  split
  · exact fun _ => rfl
  split
  · exact fun h => nomatch h
  · exact fun _ => rfl

theorem checkPadr_state (a : Ac) (p : Bytes) : ∃ peers, (a.checkPadr c p).1 = { a with peers := peers } := by
  rw [checkPadr]
  split
  · exact ⟨a.peers, rfl⟩
  split
  · exact ⟨a.peers, rfl⟩
  split
  · exact ⟨a.peers, rfl⟩
  split
  · rw [learnPub]
    split
    · exact ⟨a.peers, rfl⟩
    · exact ⟨_, rfl⟩
  · exact ⟨a.peers, rfl⟩

theorem vetPadr_refused {a : Ac} {p : Bytes} (h : (a.vetPadr c p).2 = false) :
    ∃ rate, (a.vetPadr c p).1 = { a with rate := rate } := by
  revert h
  rw [vetPadr]
  split
  · exact fun _ => ⟨a.rate, rfl⟩
  split
  · exact fun _ => ⟨a.rate, rfl⟩
  obtain ⟨rate, hrate⟩ := a.allow_state (arr p 1 6)
  cases hallow : a.allow (arr p 1 6) with
  | mk a₁ ok =>
    rw [hallow] at hrate
    cases ok with
    | false => exact fun _ => ⟨rate, hrate⟩
    | true => exact fun h => ⟨rate, (checkPadr_refused c h).trans hrate⟩

theorem vetPadr_state (a : Ac) (p : Bytes) : ∃ rate peers, (a.vetPadr c p).1 = { a with rate := rate, peers := peers } := by
  rw [vetPadr]
  split
  · exact ⟨a.rate, a.peers, rfl⟩
  split
  · exact ⟨a.rate, a.peers, rfl⟩
  obtain ⟨rate, hrate⟩ := a.allow_state (arr p 1 6)
  cases hallow : a.allow (arr p 1 6) with
  | mk a₁ ok =>
    rw [hallow] at hrate
    dsimp only at hrate
    subst hrate
    cases ok with
    | false => exact ⟨rate, a.peers, rfl⟩
    | true =>
      obtain ⟨peers, heq⟩ := checkPadr_state c { a with rate := rate } p
      exact ⟨rate, peers, heq⟩

/-- An admitted PADR: for this concentrator, with its checks passed. -/
theorem dialing_elim {a a' : Ac} {frame : Bytes} {mac : Arr 6} (h : a.dialing c frame = some (a', mac)) :
    (a.toUs frame = true ∧ byteAt (framePayload frame) 0 = ctrlPadr) ∧
      a.vetPadr c (framePayload frame) = (a', true) ∧ mac = arr (framePayload frame) 1 6 := by
  rw [dialing] at h
  split at h
  · rename_i hpadr
    rw [Bool.and_eq_true, decide_eq_true_eq] at hpadr
    cases hvet : a.vetPadr c (framePayload frame) with
    | mk a₁ ok =>
      rw [hvet] at h
      cases ok with
      | false => cases h
      | true =>
        obtain ⟨rfl, rfl⟩ := Prod.mk.inj (Option.some.inj h)
        exact ⟨hpadr, rfl, rfl⟩
  · cases h

theorem dialing_state {a a' : Ac} {frame : Bytes} {mac : Arr 6} (h : a.dialing c frame = some (a', mac)) :
    ∃ rate peers, a' = { a with rate := rate, peers := peers } := by
  obtain ⟨-, hvet, -⟩ := dialing_elim c h
  obtain ⟨rate, peers, heq⟩ := a.vetPadr_state c (framePayload frame)
  rw [hvet] at heq
  exact ⟨rate, peers, heq⟩

variable {c}

/-- The checks of a PADR leave the table alone. -/
theorem At.dialing {a a' : Ac} {frame : Bytes} {mac : Arr 6} {i : Nat} {s : Session} (hs : a.At i s)
    (hd : a.dialing c frame = some (a', mac)) : a'.At i s := by
  obtain ⟨rate, peers, rfl⟩ := dialing_state c hd
  exact ⟨hs.slot, hs.used⟩

theorem At.ne_unused {a : Ac} {i slot : Nat} {s old : Session} (hs : a.At i s) (hslot : a.sess[slot]? = some old)
    (hold : old.used = false) : slot ≠ i := by
  rintro rfl
  obtain rfl := Option.some.inj (hslot.symm.trans hs.slot)
  rw [hs.used] at hold
  cases hold

theorem At.set_ne {a : Ac} {i j : Nat} {s : Session} (h : a.At i s) (hij : j ≠ i) (t : Session) :
    At { a with sess := a.sess.set j t } i s :=
  ⟨(List.getElem?_set_ne hij).trans h.slot, h.used⟩

theorem padi_received (a : Ac) (frame p : Bytes) : a.Received c frame (a.padi c p) := by
  rw [padi]
  split
  · exact .passed a.rate [] (.inl rfl)
  split
  · exact .passed a.rate [] (.inl rfl)
  obtain ⟨rate, hrate⟩ := a.allow_state (arr p 1 6)
  cases hallow : a.allow (arr p 1 6) with
  | mk a₁ ok =>
    rw [hallow] at hrate
    dsimp only at hrate
    subst hrate
    cases ok with
    | false => exact .passed rate [] (.inl rfl)
    | true => exact .passed rate _ (.inr ⟨_, _, rfl⟩)

theorem answerPadr_known {a : Ac} {mac : Arr 6} {i : Nat} {s : Session} (hi : a.sessByCmac mac = some i)
    (hs : a.At i s) : a.answerPadr c mac = (a, [a.acPads c s]) := by
  rw [answerPadr, hi]
  dsimp only
  rw [hs.sessAt]

/-- A host without a session gets an unused slot and an unused id, or no answer. -/
theorem answerPadr_new {a : Ac} {mac : Arr 6} (hnone : a.sessByCmac mac = none) :
    a.sessAlloc = none ∧ a.answerPadr c mac = (a, []) ∨
      a.sessAlloc.isSome = true ∧ ∃ slot old sid, a.sess[slot]? = some old ∧ old.used = false ∧
        a.sidTaken sid = false ∧ sid ≠ 0 ∧
        a.answerPadr c mac = ({ a with sess := a.sess.set slot (a.newSession mac sid) },
          [acPads c { a with sess := a.sess.set slot (a.newSession mac sid) } (a.newSession mac sid)]) := by
  rw [answerPadr, hnone]
  dsimp only
  cases a.sessAlloc_cases with
  | inl hfull =>
    rw [hfull.1]
    exact .inl ⟨rfl, rfl⟩
  | inr hgot =>
    obtain ⟨slot, old, sid, hslot, hold, hfree, hsid, heq⟩ := hgot
    obtain ⟨hlt, -⟩ := List.getElem?_eq_some_iff.mp hslot
    have hself : (a.sess.set slot (a.newSession (.zero 6) sid))[slot]? = some (a.newSession (.zero 6) sid) :=
      List.getElem?_set_self hlt
    have hat : At { a with sess := a.sess.set slot (a.newSession mac sid) } slot (a.newSession mac sid) :=
      ⟨List.getElem?_set_self hlt, rfl⟩
    refine .inr ⟨by rw [heq]; rfl, slot, old, sid, hslot, hold, hfree, hsid, ?_⟩
    rw [heq]
    dsimp only
    rw [sessModify]
    dsimp only
    rw [modify_eq_set hself, List.set_set]
    change ({ a with sess := a.sess.set slot (a.newSession mac sid) },
      [acPads c { a with sess := a.sess.set slot (a.newSession mac sid) }
        (sessAt { a with sess := a.sess.set slot (a.newSession mac sid) } slot)]) = _
    rw [hat.sessAt]

theorem padr_received {a : Ac} {frame : Bytes} (hus : a.toUs frame = true)
    (hty : byteAt (framePayload frame) 0 = ctrlPadr) : a.Received c frame (a.padr c (framePayload frame)) := by
  rw [padr]
  cases hvet : a.vetPadr c (framePayload frame) with
  | mk a' ok =>
    cases ok with
    | false =>
      obtain ⟨rate, hrate⟩ := vetPadr_refused c (congrArg Prod.snd hvet)
      rw [hvet] at hrate
      dsimp only at hrate
      subst hrate
      exact .passed rate [] (.inl rfl)
    | true =>
      have hd : a.dialing c frame = some (a', arr (framePayload frame) 1 6) := by
        rw [dialing, hus, hty, hvet]
        rfl
      dsimp only
      cases hfind : a'.sessByCmac (arr (framePayload frame) 1 6) with
      | some i =>
        obtain ⟨s, hs, -⟩ := sessByCmac_at hfind
        rw [answerPadr_known hfind hs]
        exact .redialed a' _ i s hd hfind hs
      | none =>
        cases answerPadr_new (c := c) hfind with
        | inl hfull =>
          rw [hfull.2]
          exact .refused a' _ hd hfind hfull.1
        | inr hgot =>
          obtain ⟨hsome, slot, old, sid, hslot, hold, hfree, hsid, heq⟩ := hgot
          rw [heq]
          exact .dialed a' _ slot old sid hd hfind hsome hslot hold hfree hsid

theorem padt_received {a : Ac} {frame : Bytes} (hus : a.toUs frame = true)
    (hty : byteAt (framePayload frame) 0 = ctrlPadt) : a.Received c frame (a.padt c (framePayload frame), []) := by
  rw [padt]
  split
  · exact .passed a.rate [] (.inl rfl)
  split
  · exact .passed a.rate [] (.inl rfl)
  rename_i hlen hmac
  have hmac' := eq_true_of_ne_false hmac
  cases hfind : a.sessBySid (get16 (framePayload frame) 1) with
  | none => exact .passed a.rate [] (.inl rfl)
  | some i =>
    obtain ⟨s, hs, -⟩ := sessBySid_at hfind
    have hclosing : a.closing c frame = some i := by
      rw [closing, hus, hty, decide_eq_true (not_not.mp hlen), hmac', ← hfind]
      rfl
    exact .closed i s hclosing hs

theorem sessionData_at {a : Ac} {frame inner : Bytes} {i : Nat} (h : a.sessionData frame = some (i, inner)) :
    ∃ s, a.At i s ∧ s.cmac = frameSrcMac frame := by
  rw [sessionData] at h
  split at h
  · cases h
  cases hfind : a.sessByCmac (frameSrcMac frame) with
  | none =>
    rw [hfind] at h
    cases h
  | some j =>
    rw [hfind] at h
    dsimp only at h
    split at h
    · cases h
    · obtain ⟨rfl, -⟩ := Prod.mk.inj (Option.some.inj h)
      exact sessByCmac_at hfind

/-- An inner frame teaches the session of its sender, and goes on its way. -/
theorem acRx_inner {a : Ac} {frame inner : Bytes} {i : Nat} (h : a.innerOf frame = some (i, inner)) :
    ∃ s, a.At i s ∧ s.cmac = frameSrcMac frame ∧
      a.acRx c frame = ({ a with sess := a.sess.set i (a.acLearn inner s) },
        acForward { a with sess := a.sess.set i (a.acLearn inner s) } i inner) := by
  rw [innerOf] at h
  split at h
  · cases h
  · rename_i hframe
    rw [not_or, not_or, not_not] at hframe
    obtain ⟨hdata, hinner⟩ := Option.filter_eq_some_iff.mp h
    obtain ⟨s, hs, hsrc⟩ := sessionData_at hdata
    refine ⟨s, hs, hsrc, ?_⟩
    rw [acRx, if_neg hframe.1, if_neg hframe.2.1, if_pos hframe.2.2, hdata]
    dsimp only
    rw [acInner, if_neg (Nat.not_lt.mpr (of_decide_eq_true hinner)), sessModify, modify_eq_set hs.slot]

theorem inner_received {a : Ac} {frame inner : Bytes} {i : Nat} (hlen : ¬ frame.length < 14 + ipv69HeaderLen + 1)
    (hsrc : frameSrcMac frame ≠ a.cfg.mac) (hty : frameNextHeader frame = ipv69NextPppoe)
    (h : a.sessionData frame = some (i, inner)) : a.Received c frame (a.acInner i inner) := by
  by_cases hinner : inner.length < 14 + ipv69HeaderLen + 1
  · rw [acInner, if_pos hinner]
    exact .passed a.rate [] (.inl rfl)
  · have hof : a.innerOf frame = some (i, inner) := by
      rw [innerOf, if_neg (by simp [hlen, hsrc, hty]), h]
      simp [Option.filter, Nat.le_of_not_lt hinner]
    obtain ⟨s, hs, hcmac⟩ := sessionData_at h
    rw [acInner, if_neg hinner, sessModify, modify_eq_set hs.slot]
    exact .learned i s inner hof hs hcmac

/-- One case for each thing that a received frame can do. -/
theorem acRx_received (a : Ac) (frame : Bytes) : a.Received c frame (a.acRx c frame) := by
  rw [acRx]
  by_cases hlen : frame.length < 14 + ipv69HeaderLen + 1
  · rw [if_pos hlen]
    exact .passed a.rate [] (.inl rfl)
  rw [if_neg hlen]
  by_cases hsrc : frameSrcMac frame = a.cfg.mac
  · rw [if_pos hsrc]
    exact .passed a.rate [] (.inl rfl)
  rw [if_neg hsrc]
  by_cases hty : frameNextHeader frame = ipv69NextPppoe
  · rw [if_pos hty]
    cases hdata : a.sessionData frame with
    | none => exact .passed a.rate [] (.inl rfl)
    | some d => exact inner_received hlen hsrc hty hdata
  rw [if_neg hty]
  by_cases hdisc : isDiscovery frame = true
  · rw [if_pos hdisc, discovery]
    split
    · exact padi_received a frame _
    split
    · exact .passed a.rate [] (.inl rfl)
    · rename_i hdst
      rw [not_or, not_not, not_not] at hdst
      have hus : a.toUs frame = true := by
        simp [toUs, Nat.le_of_not_lt hlen, hsrc, hdisc, hdst]
      split
      · exact padr_received hus ‹_›
      split
      · exact padt_received hus ‹_›
      · exact .passed a.rate [] (.inl rfl)
  · rw [if_neg hdisc]
    refine .island ?_
    simp [fromIsland, Nat.le_of_not_lt hlen, hsrc, hty, hdisc]

/-- No id and no control MAC twice, no session with id 0. -/
structure TableOk (l : List Session) : Prop where
  size : l.length = maxSessions
  sids : ∀ sid, AtMostOne (fun s : Session => s.used = true ∧ s.sid = sid) l
  nonzero : ∀ s ∈ l, s.used = true → s.sid ≠ 0
  cmacs : ∀ mac, AtMostOne (fun s : Session => s.used = true ∧ s.cmac = mac) l

theorem not_at_start (cfg : Config) (peers : Table maxPeers (Arr 32)) (clock i : Nat) (s : Session) :
    ¬ (start cfg peers clock).At i s := by
  intro hs
  have hzero := (List.mem_replicate.mp (List.mem_of_getElem? hs.slot)).2
  have hused := hs.used
  rw [hzero] at hused
  cases hused

theorem tableOk_start (cfg : Config) (peers : Table maxPeers (Arr 32)) (clock : Nat) :
    TableOk (start cfg peers clock).sess := by
  constructor
  · exact List.length_replicate
  · exact fun sid i j x y hx hy hPx _ => (not_at_start cfg peers clock i x ⟨hx, hPx.1⟩).elim
  · intro s hs hused
    obtain ⟨i, hi⟩ := List.mem_iff_getElem?.mp hs
    exact (not_at_start cfg peers clock i s ⟨hi, hused⟩).elim
  · exact fun mac i j x y hx hy hPx _ => (not_at_start cfg peers clock i x ⟨hx, hPx.1⟩).elim

theorem TableOk.set {l : List Session} (h : TableOk l) {i : Nat} {s : Session}
    (hsid : s.used = true → ∀ (j : Nat) (y : Session), l[j]? = some y → y.used = true ∧ y.sid = s.sid → j = i)
    (hnz : s.used = true → s.sid ≠ 0)
    (hmac : s.used = true → ∀ (j : Nat) (y : Session), l[j]? = some y → y.used = true ∧ y.cmac = s.cmac → j = i) :
    TableOk (l.set i s) := by
  constructor
  · rw [List.length_set]
    exact h.size
  · intro sid
    apply (h.sids sid).set
    rintro ⟨hused, rfl⟩
    exact hsid hused
  · intro y hy hused
    cases List.mem_or_eq_of_mem_set hy with
    | inl hmem => exact h.nonzero y hmem hused
    | inr heq => exact heq ▸ hnz (heq ▸ hused)
  · intro mac
    apply (h.cmacs mac).set
    rintro ⟨hused, rfl⟩
    exact hmac hused

/-- What a session carries may change, its id and its MAC not. -/
theorem TableOk.set_same {l : List Session} (h : TableOk l) {i : Nat} {s s' : Session} (hi : l[i]? = some s)
    (hused : s.used = true) (hsid : s'.sid = s.sid) (hmac : s'.cmac = s.cmac) : TableOk (l.set i s') := by
  apply h.set
  · exact fun _ j y hj hy => h.sids s.sid j i y s hj hi (hsid ▸ hy) ⟨hused, rfl⟩
  · exact fun _ => hsid ▸ h.nonzero s (List.mem_of_getElem? hi) hused
  · exact fun _ j y hj hy => h.cmacs s.cmac j i y s hj hi (hmac ▸ hy) ⟨hused, rfl⟩

theorem TableOk.set_zero {l : List Session} (h : TableOk l) (i : Nat) : TableOk (l.set i Session.zero) :=
  h.set (fun hused => nomatch hused) (fun hused => nomatch hused) fun hused => nomatch hused

theorem TableOk.map_zero {l : List Session} (h : TableOk l) (dead : Session → Bool) :
    TableOk (l.map fun s => if dead s then Session.zero else s) := by
  have hkept : ∀ s, (if dead s then Session.zero else s).used = true → (if dead s then Session.zero else s) = s := by
    intro s
    split
    · exact fun hused => nomatch hused
    · exact fun _ => rfl
  constructor
  · rw [List.length_map]
    exact h.size
  · intro sid
    apply (h.sids sid).map
    intro s hs
    rwa [hkept s hs.1] at hs
  · intro y hy hused
    obtain ⟨s, hs, rfl⟩ := List.mem_map.mp hy
    have hkeep := hkept s hused
    rw [hkeep] at hused ⊢
    exact h.nonzero s hs hused
  · intro mac
    apply (h.cmacs mac).map
    intro s hs
    rwa [hkept s hs.1] at hs

@[simp] theorem acLearn_used (a : Ac) (inner : Bytes) (s : Session) : (a.acLearn inner s).used = s.used := by
  dsimp only [acLearn]
  split_ifs <;> rfl

@[simp] theorem acLearn_sid (a : Ac) (inner : Bytes) (s : Session) : (a.acLearn inner s).sid = s.sid := by
  dsimp only [acLearn]
  split_ifs <;> rfl

@[simp] theorem acLearn_cmac (a : Ac) (inner : Bytes) (s : Session) : (a.acLearn inner s).cmac = s.cmac := by
  dsimp only [acLearn]
  split_ifs <;> rfl

@[simp] theorem acLearn_wmac (a : Ac) (inner : Bytes) (s : Session) : (a.acLearn inner s).wmac = frameSrcMac inner := by
  dsimp only [acLearn]
  split_ifs <;> rfl

theorem Received.cfg {a : Ac} {frame : Bytes} {r : Ac × List Out} (h : a.Received c frame r) : r.1.cfg = a.cfg := by
  cases h with
  | passed rate outs houts => rfl
  | learned i s inner hi hs hsrc => rfl
  | redialed a' mac i s hd hi hs =>
    obtain ⟨rate, peers, rfl⟩ := dialing_state c hd
    rfl
  | refused a' mac hd hnone hfull =>
    obtain ⟨rate, peers, rfl⟩ := dialing_state c hd
    rfl
  | dialed a' mac slot old sid hd hnone hgot hslot hold hfree hsid =>
    obtain ⟨rate, peers, rfl⟩ := dialing_state c hd
    rfl
  | closed i s hc hs => rfl
  | island h => rfl

/-- Where a session after a frame comes from: it was there, it has learned, or its host has
dialed. -/
theorem Received.at_elim {a : Ac} {frame : Bytes} {r : Ac × List Out} (h : a.Received c frame r) {i : Nat} {s' : Session}
    (hs' : r.1.At i s') :
    a.At i s' ∨
      (∃ inner s, a.innerOf frame = some (i, inner) ∧ a.At i s ∧ s' = a.acLearn inner s) ∨
      ∃ a' mac sid, a.dialing c frame = some (a', mac) ∧ a'.sessByCmac mac = none ∧ a'.sessAlloc.isSome = true ∧
        (a.sessAt i).used = false ∧ s' = a'.newSession mac sid ∧ r.1.peers = a'.peers := by
  cases h with
  | passed rate outs houts => exact .inl ⟨hs'.slot, hs'.used⟩
  | learned j t inner hj ht hsrc =>
    cases getElem?_set_elim hs'.slot with
    | inl heq =>
      obtain ⟨rfl, rfl⟩ := heq
      exact .inr (.inl ⟨inner, t, hj, ht, rfl⟩)
    | inr hne => exact .inl ⟨hne.2, hs'.used⟩
  | redialed a' mac j t hd hj ht =>
    obtain ⟨rate, peers, rfl⟩ := dialing_state c hd
    exact .inl ⟨hs'.slot, hs'.used⟩
  | refused a' mac hd hnone hfull =>
    obtain ⟨rate, peers, rfl⟩ := dialing_state c hd
    exact .inl ⟨hs'.slot, hs'.used⟩
  | dialed a' mac slot old sid hd hnone hgot hslot hold hfree hsid =>
    have hsess : a'.sess = a.sess := by
      obtain ⟨rate, peers, rfl⟩ := dialing_state c hd
      rfl
    cases getElem?_set_elim hs'.slot with
    | inl heq =>
      obtain ⟨rfl, rfl⟩ := heq
      refine .inr (.inr ⟨a', mac, sid, hd, hnone, hgot, ?_, rfl, rfl⟩)
      rw [sessAt, List.getD_eq_getElem?_getD, ← hsess, hslot]
      exact hold
    | inr hne => exact .inl ⟨hsess ▸ hne.2, hs'.used⟩
  | closed j t hc ht =>
    cases getElem?_set_elim hs'.slot with
    | inl heq =>
      have hused := hs'.used
      rw [heq.2] at hused
      cases hused
    | inr hne => exact .inl ⟨hne.2, hs'.used⟩
  | island h => exact .inl hs'

theorem step_cfg (a : Ac) (e : Event) : (step c a e).cfg = a.cfg := by
  cases e with
  | recv frame => exact (acRx_received a frame).cfg
  | reap => rfl
  | wait ms => rfl
  | reload peers =>
    rw [step]
    split
    · rfl
    · rfl

/-- A session that survives the reaping is as it was. -/
theorem At.of_reap {a : Ac} {i : Nat} {s : Session} (h : a.reap.1.At i s) : a.At i s := by
  have hslot := h.slot
  have hused := h.used
  rw [reap, List.getElem?_map] at hslot
  obtain ⟨t, ht, rfl⟩ := Option.map_eq_some_iff.mp hslot
  split at hused
  · cases hused
  · rename_i halive
    rw [if_neg halive]
    exact ⟨ht, hused⟩

theorem At.of_reload {a : Ac} {i : Nat} {s : Session} {peers : Table maxPeers (Arr 32)}
    (h : (step c a (.reload peers)).At i s) : a.At i s := by
  rw [step] at h
  split at h
  · exact ⟨h.slot, h.used⟩
  · exact h

theorem Received.tableOk {a : Ac} {frame : Bytes} {r : Ac × List Out} (h : a.Received c frame r)
    (hok : TableOk a.sess) : TableOk r.1.sess := by
  cases h with
  | passed rate outs houts => exact hok
  | learned i s inner hi hs hsrc => exact hok.set_same hs.slot hs.used (acLearn_sid a inner s) (acLearn_cmac a inner s)
  | redialed a' mac i s hd hi hs =>
    obtain ⟨rate, peers, rfl⟩ := dialing_state c hd
    exact hok
  | refused a' mac hd hnone hfull =>
    obtain ⟨rate, peers, rfl⟩ := dialing_state c hd
    exact hok
  | dialed a' mac slot old sid hd hnone hgot hslot hold hfree hsid =>
    have hok' : TableOk a'.sess := by
      obtain ⟨rate, peers, rfl⟩ := dialing_state c hd
      exact hok
    apply hok'.set
    · intro _ j y hj hy
      have htaken := (a'.sidTaken_iff sid).mpr ⟨j, y, ⟨hj, hy.1⟩, hy.2⟩
      rw [hfree] at htaken
      cases htaken
    · exact fun _ => hsid
    · exact fun _ j y hj hy => (sessByCmac_none hnone ⟨hj, hy.1⟩ hy.2).elim
  | closed i s hc hs => exact hok.set_zero i
  | island h => exact hok

theorem tableOk_step (a : Ac) (e : Event) (h : TableOk a.sess) : TableOk (step c a e).sess := by
  cases e with
  | recv frame => exact (acRx_received a frame).tableOk h
  | reap => exact h.map_zero a.idle
  | wait ms => exact h
  | reload peers =>
    rw [step]
    split
    · exact h
    · exact h

/-- An admitted PADR of a host with a session is answered with it, and the table stays. -/
def Redials (c : TweetNaCl) (a : Ac) : Prop :=
  ∀ (frame : Bytes) (a' : Ac) (mac : Arr 6) (i : Nat) (s : Session), a.dialing c frame = some (a', mac) → a.At i s →
    s.cmac = mac → a.acRx c frame = (a', [a'.acPads c s]) ∧ a'.sess = a.sess

/-- An allocation fails only in a table of used slots. -/
def Allocates (a : Ac) : Prop :=
  a.sessAlloc = none → a.sess.length = maxSessions ∧ ∀ s ∈ a.sess, s.used = true

theorem sessByCmac_of_at {a : Ac} (hok : TableOk a.sess) {i : Nat} {s : Session} (hs : a.At i s) :
    a.sessByCmac s.cmac = some i := by
  cases hfind : a.sessByCmac s.cmac with
  | none => exact absurd rfl (sessByCmac_none hfind hs)
  | some j =>
    obtain ⟨t, ht, hmac⟩ := sessByCmac_at hfind
    rw [hok.cmacs s.cmac j i t s ht.slot hs.slot ⟨ht.used, hmac⟩ ⟨hs.used, rfl⟩]

theorem acRx_toUs {a : Ac} {frame : Bytes} (hus : a.toUs frame = true)
    (hpadi : byteAt (framePayload frame) 0 ≠ ctrlPadi) :
    a.acRx c frame =
      if byteAt (framePayload frame) 0 = ctrlPadr then a.padr c (framePayload frame)
      else if byteAt (framePayload frame) 0 = ctrlPadt then (a.padt c (framePayload frame), [])
      else (a, []) := by
  simp only [toUs, Bool.and_eq_true, decide_eq_true_eq] at hus
  obtain ⟨⟨⟨⟨hlen, hsrc⟩, hdisc⟩, hdst⟩, hmac⟩ := hus
  have hcontrol : frameNextHeader frame = ipv69NextControl := by
    rw [isDiscovery, Bool.and_eq_true, Bool.and_eq_true, decide_eq_true_eq] at hdisc
    exact hdisc.1.1
  rw [acRx, if_neg (by omega), if_neg hsrc, if_neg (by rw [hcontrol]; decide), if_pos hdisc, discovery, if_neg hpadi,
    if_neg (by simp [hdst, hmac])]

/-- An admitted PADR is answered. -/
theorem acRx_dialing {a a' : Ac} {frame : Bytes} {mac : Arr 6} (h : a.dialing c frame = some (a', mac)) :
    a.acRx c frame = a'.answerPadr c mac := by
  obtain ⟨⟨hus, hty⟩, hvet, rfl⟩ := dialing_elim c h
  rw [acRx_toUs hus (by rw [hty]; decide), if_pos hty, padr, hvet]

/-- An accepted PADT frees its slot. -/
theorem acRx_closing {a : Ac} {frame : Bytes} {i : Nat} (h : a.closing c frame = some i) :
    a.acRx c frame = (a.sessFree i, []) := by
  rw [closing] at h
  split at h
  · rename_i hpadt
    simp only [Bool.and_eq_true, decide_eq_true_eq] at hpadt
    obtain ⟨⟨⟨hus, hty⟩, hlen⟩, hmac⟩ := hpadt
    rw [acRx_toUs hus (by rw [hty]; decide), if_neg (by rw [hty]; decide), if_pos hty, padt,
      if_neg (not_not.mpr hlen), if_neg (by rw [hmac]; decide), h]
  · cases h

theorem redials_of_ok {a : Ac} (hok : TableOk a.sess) : a.Redials c := by
  intro frame a' mac i s hd hs hmac
  obtain ⟨rate, peers, heq⟩ := dialing_state c hd
  have hsess : a'.sess = a.sess := by rw [heq]
  have hs' : a'.At i s := ⟨hsess ▸ hs.slot, hs.used⟩
  have hfind := sessByCmac_of_at (hsess.symm ▸ hok) hs'
  rw [acRx_dialing hd, ← hmac, answerPadr_known hfind hs']
  exact ⟨rfl, hsess⟩

theorem allocates_of_ok {a : Ac} (hok : TableOk a.sess) : a.Allocates := by
  intro hnone
  cases a.sessAlloc_cases with
  | inl hfull =>
    cases hfull.2 with
    | inl hused => exact ⟨hok.size, hused⟩
    | inr hno => exact absurd hno (freeSid_found hok.size.le)
  | inr hgot =>
    obtain ⟨slot, s, sid, -, -, -, -, heq⟩ := hgot
    rw [hnone] at heq
    cases heq

/-- After every prefix of every run: the ids and the control MACs of the sessions are
distinct, dialing again gives the same session, and allocation fails only when full. -/
theorem session_table (cfg : Config) (peers : Table maxPeers (Arr 32)) (clock : Nat) (es : List Event) :
    Throughout (step c) (fun a => TableOk a.sess ∧ a.Redials c ∧ a.Allocates) (start cfg peers clock) es := by
  rw [throughout_iff]
  intro k
  have hok : TableOk (run (step c) (start cfg peers clock) (es.take k)).sess :=
    inv_run_all tableOk_step _ _ (tableOk_start cfg peers clock)
  exact ⟨hok, redials_of_ok hok, allocates_of_ok hok⟩

end Ac

end Pppoe
