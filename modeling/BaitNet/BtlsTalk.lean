import BaitNet.BtlsSides
import BaitNet.PyBtlsMessages

/-!
# Runs of a handshake between any two implementations

A schedule moves two sides through the same phases as two sessions of C. Two sessions of Python that have
come to the end pass on messages until their numbers run out.
-/
namespace Bite

open Wire Crypto Runs
open Interop (SameBoxes Impl)

def phaseRun (ij : Nat × Nat) (es : List HsEv) : Nat × Nat := run (fun ij ev => phaseStep ij.1 ij.2 ev) ij es

variable {nb : Py.PyBox} {c : TweetNaCl} (p : Setup c) (rs : Arr 32) {cl sv : Impl}

/-- The client has come `i` steps far, the server `j`. -/
structure TalkAt (i j : Nat) (st : Talk (sideOf nb c cl) (sideOf nb c sv)) : Prop where
  client : p.ClientAt nb rs i cl st.client
  server : p.ServerAt nb rs j sv st.server
  c2s : st.c2s = p.c2sAt rs i j
  s2c : st.s2c = p.s2cAt rs i j
  going : st.failed = false

namespace TalkAt

variable {p rs} {i j : Nat} {st : Talk (sideOf nb c cl) (sideOf nb c sv)}

theorem toClient (same : SameBoxes nb c) (hphase : Phase i j) (h : TalkAt p rs i j st) :
    TalkAt p rs (if i < 4 ∧ i + 1 < j then i + 1 else i) j (st.step .toClient) ∧
      (¬ (i < 4 ∧ i + 1 < j) → st.step .toClient = st) := by
  by_cases hdue : i < 4 ∧ i + 1 < j
  · obtain ⟨st', hfeed, hclient⟩ := p.clientAt_takes rs same hdue.1 h.client
    have hq := h.s2c.trans (p.s2cAt_cons rs hdue.1 hdue.2)
    have hc2s : st.c2s = p.c2sAt rs (i + 1) j := by
      rw [h.c2s, p.c2sAt_nil rs (by omega) (by omega), p.c2sAt_nil rs (by omega) (by omega)]
    refine ⟨?_, fun hno => absurd hdue hno⟩
    rw [if_pos hdue, Talk.step, hq]
    simp only [hfeed]
    exact ⟨hclient, h.server, hc2s, rfl, (Bool.or_false _).trans h.going⟩
  · have hstep : st.step .toClient = st := by
      rw [Talk.step, h.s2c, p.s2cAt_nil rs hphase hdue]
    rw [if_neg hdue, hstep]
    exact ⟨h, fun _ => rfl⟩

theorem toServer (same : SameBoxes nb c) (hphase : Phase i j) (h : TalkAt p rs i j st) :
    TalkAt p rs i (if j = 0 then 1 else if i = 5 ∧ j = 5 then 6 else j) (st.step .toServer) ∧
      (¬ (j = 0 ∨ i = 5 ∧ j = 5) → st.step .toServer = st) := by
  by_cases hj : j = 0
  · have hi : i = 0 := by
      rw [Phase] at hphase
      omega
    subst hi hj
    obtain ⟨st', hfeed, hserver⟩ := p.serverAt_takes_ch rs h.server
    have hq : st.c2s = [p.rec0] := h.c2s
    refine ⟨?_, fun hno => absurd (.inl rfl) hno⟩
    rw [if_pos rfl, Talk.step, hq]
    simp only [hfeed]
    exact ⟨h.client, hserver, rfl, h.s2c, (Bool.or_false _).trans h.going⟩
  · by_cases hlast : i = 5 ∧ j = 5
    · obtain ⟨rfl, rfl⟩ := hlast
      obtain ⟨st', hfeed, hserver⟩ := p.serverAt_takes_fin rs same h.server
      have hq : st.c2s = [p.answer rs] := h.c2s
      refine ⟨?_, fun hno => absurd (.inr ⟨rfl, rfl⟩) hno⟩
      rw [if_neg hj, if_pos ⟨rfl, rfl⟩, Talk.step, hq]
      simp only [hfeed]
      exact ⟨h.client, hserver, rfl, h.s2c, (Bool.or_false _).trans h.going⟩
    · have hstep : st.step .toServer = st := by
        rw [Talk.step, h.c2s, p.c2sAt_nil rs hj hlast]
      rw [if_neg hj, if_neg hlast, hstep]
      exact ⟨h, fun _ => rfl⟩

theorem clientPump (same : SameBoxes nb c) (hphase : Phase i j) (h : TalkAt p rs i j st) (rnd : Arr 32) :
    TalkAt p rs (if i = 4 then 5 else i) j (st.step (.clientPump rnd)) ∧
      (i ≠ 4 → st.step (.clientPump rnd) = st) := by
  by_cases hi : i = 4
  · have hj : j = 5 := by
      rw [Phase] at hphase
      omega
    subst hi hj
    obtain ⟨st', hpump, hclient⟩ := p.clientAt_answers rs same rnd h.client
    have hq : st.c2s = [] := h.c2s
    refine ⟨?_, fun hno => absurd rfl hno⟩
    rw [if_pos rfl, Talk.step]
    simp only [hpump, hq]
    exact ⟨hclient, h.server, rfl, h.s2c, (Bool.or_false _).trans h.going⟩
  · have hstep : st.step (.clientPump rnd) = st := by
      have hpump := h.client.idle rnd (p.client_waits rs hi)
      simp only [Talk.step, hpump, Option.toList_none, List.append_nil, Bool.or_false]
    rw [if_neg hi, hstep]
    exact ⟨h, fun _ => rfl⟩

theorem serverPump (same : SameBoxes nb c) (hphase : Phase i j) (h : TalkAt p rs i j st) (rnd : Arr 32) :
    ∃ rs', TalkAt p rs' i (if 1 ≤ j ∧ j ≤ 4 then j + 1 else j) (st.step (.serverPump rnd)) ∧
      (¬ (1 ≤ j ∧ j ≤ 4) → st.step (.serverPump rnd) = st) := by
  by_cases hdue : 1 ≤ j ∧ j ≤ 4
  · rw [if_pos hdue]
    rw [Phase] at hphase
    by_cases hone : j = 1
    · have hi : i = 0 := by omega
      subst hi hone
      obtain ⟨rs', st', hpump, hserver⟩ := p.serverAt_hello rs same rnd h.server
      have hc2s : st.c2s = [] := h.c2s
      have hs2c : st.s2c = [] := h.s2c
      refine ⟨rs', ?_, fun hno => absurd hdue hno⟩
      rw [Talk.step]
      simp only [hpump, hs2c]
      exact ⟨h.client, hserver, hc2s, rfl, (Bool.or_false _).trans h.going⟩
    · obtain ⟨st', hpump, hserver⟩ := p.serverAt_sends rs same rnd (j := j) (by omega) h.server
      have hc2s : st.c2s = p.c2sAt rs i (j + 1) := by
        rw [h.c2s, p.c2sAt_nil rs (by omega) (by omega), p.c2sAt_nil rs (by omega) (by omega)]
      have hs2c := p.s2cAt_snoc rs (i := i) (j := j) (by omega) hdue.2
      refine ⟨rs, ?_, fun hno => absurd hdue hno⟩
      rw [Talk.step]
      simp only [hpump, h.s2c]
      exact ⟨h.client, hserver, hc2s, hs2c.symm, (Bool.or_false _).trans h.going⟩
  · have hstep : st.step (.serverPump rnd) = st := by
      have hpump := h.server.1.idle rnd (p.server_waits rs hdue)
      simp only [Talk.step, hpump, Option.toList_none, List.append_nil, Bool.or_false]
    rw [if_neg hdue, hstep]
    exact ⟨rs, h, fun _ => rfl⟩

/-- An event moves the two as it moves two sessions of C. -/
theorem step (same : SameBoxes nb c) (hphase : Phase i j) (h : TalkAt p rs i j st) (ev : HsEv) :
    ∃ rs', TalkAt p rs' (phaseStep i j ev).1 (phaseStep i j ev).2 (st.step ev) ∧
      (phaseStep i j ev = (i, j) → st.step ev = st) := by
  cases ev with
  | clientPump rnd =>
    obtain ⟨hat, hidle⟩ := h.clientPump same hphase rnd
    refine ⟨rs, hat, fun hsame => hidle fun hi => ?_⟩
    have hi' : (if i = 4 then 5 else i) = i := congrArg Prod.fst hsame
    rw [if_pos hi] at hi'
    omega
  | serverPump rnd =>
    obtain ⟨rs', hat, hidle⟩ := h.serverPump same hphase rnd
    refine ⟨rs', hat, fun hsame => hidle fun hdue => ?_⟩
    have hj : (if 1 ≤ j ∧ j ≤ 4 then j + 1 else j) = j := congrArg Prod.snd hsame
    rw [if_pos hdue] at hj
    omega
  | toClient =>
    obtain ⟨hat, hidle⟩ := h.toClient same hphase
    refine ⟨rs, hat, fun hsame => hidle fun hdue => ?_⟩
    have hi : (if i < 4 ∧ i + 1 < j then i + 1 else i) = i := congrArg Prod.fst hsame
    rw [if_pos hdue] at hi
    omega
  | toServer =>
    obtain ⟨hat, hidle⟩ := h.toServer same hphase
    refine ⟨rs, hat, fun hsame => hidle fun hdue => ?_⟩
    have hj : (if j = 0 then 1 else if i = 5 ∧ j = 5 then 6 else j) = j := congrArg Prod.snd hsame
    obtain rfl | ⟨rfl, rfl⟩ := hdue
    · cases hj
    · cases hj

/-- A whole schedule, and how many of its events change anything. -/
theorem run (same : SameBoxes nb c) (es : List HsEv) (hphase : Phase i j) (h : TalkAt p rs i j st) :
    let ij := phaseRun (i, j) es
    (∃ rs', TalkAt p rs' ij.1 ij.2 (Runs.run Talk.step st es)) ∧ Phase ij.1 ij.2 ∧
      i + j + st.moves es ≤ ij.1 + ij.2 := by
  induction es generalizing rs i j st with
  | nil => exact ⟨⟨rs, h⟩, hphase, le_rfl⟩
  | cons ev es ih =>
    obtain ⟨rs₁, hstep, hsame⟩ := h.step same hphase ev
    obtain ⟨hle, hlt⟩ := phaseStep_le i j ev
    obtain ⟨hrun, hnext, hmoves⟩ := ih (hphase.step ev) hstep
    refine ⟨hrun, hnext, ?_⟩
    rw [Talk.moves]
    change _ ≤ (phaseRun ((phaseStep i j ev).1, (phaseStep i j ev).2) es).1 +
      (phaseRun ((phaseStep i j ev).1, (phaseStep i j ev).2) es).2
    split
    · omega
    · rename_i hmoved
      have hlt' := hlt fun heq => hmoved (hsame heq)
      omega

/-- Only at the end can nothing move. -/
theorem stuck (same : SameBoxes nb c) (hphase : Phase i j) (h : TalkAt p rs i j st) (hstuck : ∀ ev, st.step ev = st) :
    i = 5 ∧ j = 6 := by
  refine hphase.last fun ev => ?_
  obtain ⟨rs', hstep, -⟩ := h.step same hphase ev
  obtain ⟨hi, hj⟩ := hphase.le
  obtain ⟨hi', hj'⟩ := (hphase.step ev).le
  rw [hstuck ev] at hstep
  have hclient := p.client_phase hi' hi (hstep.client.transcript.symm.trans h.client.transcript)
  have hserver := p.server_phase hj' hj (hstep.server.1.transcript.symm.trans h.server.1.transcript)
  exact Prod.ext hclient hserver

/-- At the end nothing moves. -/
theorem still (same : SameBoxes nb c) (h : TalkAt p rs 5 6 st) (ev : HsEv) : st.step ev = st := by
  obtain ⟨-, -, hsame⟩ := h.step same (.inr (by decide)) ev
  refine hsame ?_
  cases ev <;> rfl

end TalkAt

/-- What the two sides have in common when both are done. -/
structure Talk.Agreed {x y : Side} (st : Talk x y) : Prop where
  done : (x.seen st.client).state = .done ∧ (y.seen st.server).state = .done
  epoch : (x.seen st.client).epoch = 2 ∧ (y.seen st.server).epoch = 2
  transcript : (x.seen st.client).transcript = (y.seen st.server).transcript
  mirrored : (x.seen st.client).sendKey = (y.seen st.server).recvKey ∧
    (x.seen st.client).recvKey = (y.seen st.server).sendKey
  sent : (x.seen st.client).sendSeq = 0 ∧ (y.seen st.server).sendSeq = 0
  received : (x.seen st.client).recvSeq = 0 ∧ (y.seen st.server).recvSeq = 0

section End

variable {nb : Py.PyBox} {c : TweetNaCl} {p : Setup c} {rs : Arr 32}

theorem TalkAt.agreed {cl sv : Impl} {st : Talk (sideOf nb c cl) (sideOf nb c sv)} (h : TalkAt p rs 5 6 st) :
    st.Agreed := by
  have hclient : (sideOf nb c cl).seen st.client = (cSide c).seen (p.client5 rs) := Like.seen h.client two_ne_zero
  have hserver : (sideOf nb c sv).seen st.server = (cSide c).seen (p.server6 rs) := Like.seen h.server.1 two_ne_zero
  constructor <;> rw [hclient, hserver]
  · exact ⟨rfl, rfl⟩
  · exact ⟨rfl, rfl⟩
  · rfl
  · exact ⟨rfl, rfl⟩
  · exact ⟨rfl, rfl⟩
  · exact ⟨rfl, rfl⟩

theorem talk_start (same : SameBoxes nb c) (p : Setup c) (rs : Arr 32) (cl sv : Impl) :
    ∃ st, p.talk nb rs cl sv = some st ∧ TalkAt p rs 0 0 st := by
  obtain ⟨client, hclient, hat⟩ : ∃ st, p.sideClient nb cl = some (st, p.rec0) ∧ p.ClientAt nb rs 0 cl st := by
    cases cl with
    | c =>
      refine ⟨p.client0, ?_, rfl⟩
      rw [Setup.sideClient, p.client_start]
      rfl
    | python =>
      obtain ⟨q, hq, hat⟩ := p.pyClient_at rs same
      refine ⟨q, ?_, hat⟩
      rw [Setup.sideClient, hq]
      rfl
  obtain ⟨server, hserver, hat'⟩ : ∃ st, p.sideServer nb rs sv = some st ∧ p.ServerAt nb rs 0 sv st := by
    cases sv with
    | c => exact ⟨p.server, rfl, rfl, trivial⟩
    | python =>
      obtain ⟨q, hq, hat⟩ := p.pyServer_at rs same
      refine ⟨q, ?_, hat⟩
      rw [Setup.sideServer, hq]
      rfl
  refine ⟨⟨client, server, [p.rec0], [], false⟩, ?_, hat, hat', rfl, rfl, rfl⟩
  rw [Setup.talk, hclient, hserver]
  rfl

/-- From one session of Python to another that is in step with it, messages come out as they went in until there is
no number left for a record. -/
theorem Sim.delivers (same : SameBoxes nb c) {pub : Arr 32} {t t' : Btls} {a b : Py.Btls} (ha : Sim nb pub t a)
    (hb : Sim nb pub t' b) (hdone : t.state = .done ∧ t'.state = .done) (hepoch : t.epoch ≠ 0 ∧ t'.epoch ≠ 0)
    (hkeys : t.sendKey = t'.recvKey) (hzero : t.sendSeq = 0 ∧ t'.recvSeq = 0) {msgs : List Bytes}
    (hmsgs : Py.Btls.Sendable msgs) :
    Py.Btls.deliver nb a b msgs =
      if Py.Btls.recordCount msgs ≤ 2 ^ 64 then .ok msgs else .error .overflowError := by
  have hsend := (ha.keys hepoch.1).1
  have hrecv := (hb.keys hepoch.2).2
  rw [← hkeys] at hrecv
  have hsendSeq : a.sendSeq = 0 := by
    rw [ha.sendSeq, hzero.1]
    rfl
  have hrecvSeq : b.recvSeq = 0 := by
    rw [hb.recvSeq, hzero.2]
    rfl
  have hstate := ha.state.trans hdone.1
  split
  · rename_i hfew
    exact Py.Btls.deliver_ok same hstate hsend hmsgs (hb.state.trans hdone.2) hrecv
      (hrecvSeq.trans hsendSeq.symm) hb.rxBuf (by omega)
  · rename_i hmany
    exact Py.Btls.deliver_overflow same hstate hsend hmsgs (by omega) (by omega)

/-- In both directions between two sessions of Python at the end. -/
theorem TalkAt.delivers (same : SameBoxes nb c) {st : Talk (sideOf nb c .python) (sideOf nb c .python)}
    (h : TalkAt p rs 5 6 st) {msgs : List Bytes} (hmsgs : Py.Btls.Sendable msgs) :
    Py.Btls.deliver nb st.client st.server msgs =
        (if Py.Btls.recordCount msgs ≤ 2 ^ 64 then .ok msgs else .error .overflowError) ∧
      Py.Btls.deliver nb st.server st.client msgs =
        if Py.Btls.recordCount msgs ≤ 2 ^ 64 then .ok msgs else .error .overflowError := by
  have hclient : Sim nb p.pub (p.client5 rs) st.client := h.client
  have hserver : Sim nb p.pub (p.server6 rs) st.server := h.server.1
  exact ⟨hclient.delivers same hserver ⟨rfl, rfl⟩ ⟨two_ne_zero, two_ne_zero⟩ rfl ⟨rfl, rfl⟩ hmsgs,
    hserver.delivers same hclient ⟨rfl, rfl⟩ ⟨two_ne_zero, two_ne_zero⟩ rfl ⟨rfl, rfl⟩ hmsgs⟩

/-- Any assignment of the implementations ends with both sides done and in agreement, after eleven moves at most.
Between two sessions of Python every list of messages then comes out as it went in, unless it takes more records
than there are numbers. -/
theorem btls_interoperate (same : SameBoxes nb c) (p : Setup c) (rs : Arr 32) :
    (∀ cl sv : Impl, ∃ st₀, p.talk nb rs cl sv = some st₀ ∧ ∀ es : List HsEv,
      let st := run Talk.step st₀ es
      st.failed = false ∧ st₀.moves es ≤ 11 ∧ ((∀ ev, st.step ev = st) → st.Agreed)) ∧
    ∃ st₀, p.talk nb rs .python .python = some st₀ ∧ ∀ es : List HsEv,
      let st := run Talk.step st₀ es
      (∀ ev, st.step ev = st) → ∀ msgs, Py.Btls.Sendable msgs →
        (Py.Btls.deliver nb st.client st.server msgs = .ok msgs ↔ Py.Btls.recordCount msgs ≤ 2 ^ 64) ∧
          (Py.Btls.deliver nb st.server st.client msgs = .ok msgs ↔ Py.Btls.recordCount msgs ≤ 2 ^ 64) := by
  have hzero : Phase 0 0 := .inl (by omega)
  constructor
  · intro cl sv
    obtain ⟨st₀, hstart, hat₀⟩ := talk_start same p rs cl sv
    refine ⟨st₀, hstart, fun es => ?_⟩
    intro st
    obtain ⟨⟨rs', hat⟩, hphase, hmoves⟩ := hat₀.run same es hzero
    obtain ⟨hi, hj⟩ := hphase.le
    refine ⟨hat.going, by omega, fun hstuck => ?_⟩
    obtain ⟨hlast, hlast'⟩ := hat.stuck same hphase hstuck
    rw [hlast, hlast'] at hat
    exact hat.agreed
  · obtain ⟨st₀, hstart, hat₀⟩ := talk_start same p rs .python .python
    refine ⟨st₀, hstart, fun es => ?_⟩
    intro st hstuck msgs hmsgs
    obtain ⟨⟨rs', hat⟩, hphase, -⟩ := hat₀.run same es hzero
    obtain ⟨hlast, hlast'⟩ := hat.stuck same hphase hstuck
    rw [hlast, hlast'] at hat
    obtain ⟨hforth, hback⟩ := hat.delivers same hmsgs
    have hexact : (if Py.Btls.recordCount msgs ≤ 2 ^ 64 then Except.ok msgs else .error Py.Exn.overflowError) =
        .ok msgs ↔ Py.Btls.recordCount msgs ≤ 2 ^ 64 := by
      split
      · rename_i hfew
        exact ⟨fun _ => hfew, fun _ => rfl⟩
      · rename_i hmany
        exact ⟨fun hno => (nomatch hno), fun hfew => absurd hfew hmany⟩
    exact ⟨hforth ▸ hexact, hback ▸ hexact⟩

end End

def toyPair : Setup Interop.toyNaCl := ⟨none, .zero 64, .zero 32, pad 32 [1], .zero 32, by decide⟩

/-- Every record is taken as soon as it is there. -/
def toySchedule : List HsEv :=
  [.toServer, .serverPump (.zero 32), .toClient, .serverPump (.zero 32), .toClient, .serverPump (.zero 32), .toClient,
    .serverPump (.zero 32), .toClient, .clientPump (.zero 32), .toServer]

theorem toySchedule_last : phaseRun (0, 0) toySchedule = (5, 6) := by decide

theorem toySchedule_done : ∃ st₀, toyPair.talk Interop.toyBox (.zero 32) .python .python = some st₀ ∧
    ∃ rs, TalkAt toyPair rs 5 6 (run Talk.step st₀ toySchedule) := by
  obtain ⟨st₀, hstart, hat₀⟩ := talk_start Interop.toyBox_same toyPair (.zero 32) .python .python
  obtain ⟨hat, -⟩ := hat₀.run Interop.toyBox_same toySchedule (.inl (by omega))
  rw [toySchedule_last] at hat
  exact ⟨st₀, hstart, hat⟩

theorem sendable_replicate (n : Nat) : Py.Btls.Sendable (List.replicate n [0]) := by
  intro msg hmsg
  rw [List.eq_of_mem_replicate hmsg]
  decide

theorem recordCount_replicate (n : Nat) : Py.Btls.recordCount (List.replicate n [0]) = n := by
  induction n with
  | zero => rfl
  | succ n ih =>
    have hone : (Py.Btls.appInners [0]).length = 1 := rfl
    rw [List.replicate_succ, Py.Btls.recordCount_cons, hone, ih, Nat.add_comm]

/-- Two sessions of Python, a message in two records and a short one. -/
theorem btls_interoperate_toy : Interop.SameBoxes Interop.toyBox Interop.toyNaCl ∧
    ∃ st₀, toyPair.talk Interop.toyBox (.zero 32) .python .python = some st₀ ∧
      let st := run Talk.step st₀ toySchedule
      let msgs := [List.replicate 1300 7, [1, 2]]
      (∀ ev, st.step ev = st) ∧ Py.Btls.Sendable msgs ∧ Py.Btls.recordCount msgs = 3 ∧
        Py.Btls.deliver Interop.toyBox st.client st.server msgs = .ok msgs := by
  obtain ⟨st₀, hstart, rs, hat⟩ := toySchedule_done
  obtain ⟨-, st₁, hstart₁, hdelivers⟩ := btls_interoperate Interop.toyBox_same toyPair (.zero 32)
  obtain rfl : st₀ = st₁ := Option.some.inj (hstart.symm.trans hstart₁)
  have hstill := hat.still Interop.toyBox_same
  have hmsgs : Py.Btls.Sendable [List.replicate 1300 7, [1, 2]] := by
    rintro msg (_ | ⟨_, _ | ⟨_, hno⟩⟩)
    · rw [List.length_replicate]
      decide
    · decide
    · cases hno
  have hcount : Py.Btls.recordCount [List.replicate 1300 7, [1, 2]] = 3 := by
    rw [Py.Btls.recordCount_cons, Py.Btls.recordCount_cons, Py.Btls.appInners_length, List.length_replicate]
    rfl
  refine ⟨Interop.toyBox_same, st₀, hstart, hstill, hmsgs, hcount, ?_⟩
  refine ((hdelivers toySchedule hstill _ hmsgs).1).mpr ?_
  rw [hcount]
  decide

/-- Of one message more than there are numbers nothing comes out: `send_app` raises OverflowError. -/
theorem btls_numbers_run_out : ∃ st₀, toyPair.talk Interop.toyBox (.zero 32) .python .python = some st₀ ∧
    let st := run Talk.step st₀ toySchedule
    let msgs := List.replicate (2 ^ 64 + 1) [0]
    st.Agreed ∧ Py.Btls.Sendable msgs ∧
      Py.Btls.deliver Interop.toyBox st.client st.server msgs = .error .overflowError := by
  obtain ⟨st₀, hstart, rs, hat⟩ := toySchedule_done
  have hmsgs := sendable_replicate (2 ^ 64 + 1)
  obtain ⟨hforth, -⟩ := hat.delivers Interop.toyBox_same hmsgs
  have hmany : ¬ Py.Btls.recordCount (List.replicate (2 ^ 64 + 1) [0]) ≤ 2 ^ 64 := by
    rw [recordCount_replicate]
    omega
  rw [if_neg hmany] at hforth
  exact ⟨st₀, hstart, hat.agreed, hmsgs, hforth⟩

end Bite
