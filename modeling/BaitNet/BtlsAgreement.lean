import BaitNet.BtlsFlight
import BaitNet.Runs

/-!
# The bTLS handshake between two honest sides

However feeding and pumping are scheduled, how far each side has come, and what is in
flight, is all there is to a reachable state.
-/
namespace Bite

open Wire Crypto Runs

/-- Two sessions, the records in flight in each direction, the keys that each installed,
and whether any call failed. -/
structure Hs where
  client : Btls
  server : Btls
  c2s : List Bytes
  s2c : List Bytes
  clientKeys : List Act
  serverKeys : List Act
  failed : Bool
  deriving DecidableEq

inductive HsEv where
  | clientPump (rnd : Arr 32)
  | serverPump (rnd : Arr 32)
  | toClient
  | toServer

/-- The installed keys among a list of acts. -/
def installs (acts : List Act) : List Act :=
  acts.filter fun
    | .install .. => true
    | .seal .. => false

variable (c : TweetNaCl)

def pumpClient (st : Hs) (rnd : Arr 32) : Hs :=
  let (t, acts, ret, out) := btlsPump c rnd st.client
  { st with
    client := t
    c2s := if ret = 1 then st.c2s ++ [out] else st.c2s
    clientKeys := st.clientKeys ++ installs acts
    failed := st.failed || decide (ret = -1) }

def pumpServer (st : Hs) (rnd : Arr 32) : Hs :=
  let (t, acts, ret, out) := btlsPump c rnd st.server
  { st with
    server := t
    s2c := if ret = 1 then st.s2c ++ [out] else st.s2c
    serverKeys := st.serverKeys ++ installs acts
    failed := st.failed || decide (ret = -1) }

/-- The client is fed the oldest record sent to it. -/
def feedClient (st : Hs) : Hs :=
  match st.s2c with
  | [] => st
  | rec :: q =>
    let (t, acts, ret) := btlsFeed c rec st.client
    { st with
      client := t
      s2c := q
      clientKeys := st.clientKeys ++ installs acts
      failed := st.failed || decide (ret = -1) }

def feedServer (st : Hs) : Hs :=
  match st.c2s with
  | [] => st
  | rec :: q =>
    let (t, acts, ret) := btlsFeed c rec st.server
    { st with
      server := t
      c2s := q
      serverKeys := st.serverKeys ++ installs acts
      failed := st.failed || decide (ret = -1) }

def hsStep (st : Hs) : HsEv → Hs
  | .clientPump rnd => pumpClient c st rnd
  | .serverPump rnd => pumpServer c st rnd
  | .toClient => feedClient c st
  | .toServer => feedServer c st

variable {c} (p : Setup c) (rs : Arr 32)

namespace Setup

/-- The client has sent its hello. -/
def start : Hs :=
  let (t, rec) := btlsClientStart p.rndC p.client
  ⟨t, p.server, rec.toList, [], [], [], false⟩

theorem start_eq : p.start = ⟨p.client0, p.server, [p.rec0], [], [], [], false⟩ := by
  rw [start, client_start]
  rfl

def clientAt : Nat → Btls
  | 0 => p.client0
  | 1 => p.client1 rs
  | 2 => p.client2 rs
  | 3 => p.client3 rs
  | 4 => p.client4 rs
  | _ => p.client5 rs

def serverAt : Nat → Btls
  | 0 => p.server
  | 1 => p.server1
  | 2 => p.server2 rs
  | 3 => p.server3 rs
  | 4 => p.server4 rs
  | 5 => p.server5 rs
  | _ => p.server6 rs

def clientKeysAt : Nat → List Act
  | 0 => []
  | 1 | 2 | 3 | 4 => [p.hsKeys rs]
  | _ => [p.hsKeys rs, p.appKeys rs]

def serverKeysAt : Nat → List Act
  | 0 | 1 => []
  | 2 | 3 | 4 | 5 => [p.hsKeys rs]
  | _ => [p.hsKeys rs, p.appKeys rs]

/-- The hello, and at the end the answer. -/
def c2sAt (i j : Nat) : List Bytes :=
  if j = 0 then [p.rec0] else if i = 5 ∧ j = 5 then [p.answer rs] else []

/-- What the server sent of its flight and the client did not take yet. -/
def s2cAt (i j : Nat) : List Bytes := ((p.flight rs).take (j - 1)).drop i

/-- The client has come `i` steps far, the server `j`. -/
def stateAt (i j : Nat) : Hs where
  client := p.clientAt rs i
  server := p.serverAt rs j
  c2s := p.c2sAt rs i j
  s2c := p.s2cAt rs i j
  clientKeys := p.clientKeysAt rs i
  serverKeys := p.serverKeysAt rs j
  failed := false

end Setup

/-- The client is not ahead of the flight, and the answer is taken only once given. -/
def Phase (i j : Nat) : Prop := (i + 1 ≤ max j 1 ∧ i ≤ 4 ∧ j ≤ 5) ∨ (i = 5 ∧ (j = 5 ∨ j = 6))

/-- Who moves at an event. -/
def phaseStep (i j : Nat) : HsEv → Nat × Nat
  | .clientPump _ => (if i = 4 then 5 else i, j)
  | .serverPump _ => (i, if 1 ≤ j ∧ j ≤ 4 then j + 1 else j)
  | .toClient => (if i < 4 ∧ i + 1 < j then i + 1 else i, j)
  | .toServer => (i, if j = 0 then 1 else if i = 5 ∧ j = 5 then 6 else j)

theorem Phase.step {i j : Nat} (h : Phase i j) (ev : HsEv) :
    Phase (phaseStep i j ev).1 (phaseStep i j ev).2 := by
  cases ev with
  | clientPump rnd =>
    rw [phaseStep]
    simp only [Phase] at h ⊢
    split <;> omega
  | serverPump rnd =>
    rw [phaseStep]
    simp only [Phase] at h ⊢
    split <;> omega
  | toClient =>
    rw [phaseStep]
    simp only [Phase] at h ⊢
    split <;> omega
  | toServer =>
    rw [phaseStep]
    simp only [Phase] at h ⊢
    split
    · omega
    · split <;> omega

theorem Phase.le {i j : Nat} (h : Phase i j) : i ≤ 5 ∧ j ≤ 6 := by
  rw [Phase] at h
  omega

/-- Only at the end does no event move anyone. -/
theorem Phase.last {i j : Nat} (h : Phase i j) (hstuck : ∀ ev, phaseStep i j ev = (i, j)) : i = 5 ∧ j = 6 := by
  have h1 := congrArg Prod.fst (hstuck (.clientPump (.zero 32)))
  have h2 := congrArg Prod.fst (hstuck .toClient)
  have h3 := congrArg Prod.snd (hstuck (.serverPump (.zero 32)))
  have h4 := congrArg Prod.snd (hstuck .toServer)
  rw [Phase] at h
  simp only [phaseStep] at h1 h2 h3 h4
  split at h1
  · omega
  · split at h2
    · omega
    · split at h3
      · omega
      · split at h4
        · omega
        · split at h4
          · omega
          · omega

namespace Setup

/-- The client has something to say in one phase only. -/
theorem client_waits {i : Nat} (h : i ≠ 4) :
    ¬ ((p.clientAt rs i).state = .hs ∧ ((p.clientAt rs i).role = .server ∨ (p.clientAt rs i).wantHs = 0)) := by
  obtain ⟨hrole, -⟩ := p.client_fields
  have hwant : hsCertificate ≠ 0 ∧ hsCertificateVerify ≠ 0 ∧ hsFinished ≠ 0 := by decide
  have hwaits : ∀ t : Btls, t.role = .client → t.wantHs ≠ 0 ∨ t.state ≠ .hs →
      ¬ (t.state = .hs ∧ (t.role = .server ∨ t.wantHs = 0)) := by
    rintro t ht hor ⟨hst, hserver | hwant⟩
    · rw [ht] at hserver
      cases hserver
    · exact hor.elim (fun hne => hne hwant) (fun hne => hne hst)
  match i with
  | 0 => exact hwaits _ hrole (.inr fun hst => nomatch hst)
  | 1 => exact hwaits _ hrole (.inl hwant.1)
  | 2 => exact hwaits _ hrole (.inl hwant.2.1)
  | 3 => exact hwaits _ hrole (.inl hwant.2.2)
  | 4 => exact absurd rfl h
  | _ + 5 => exact hwaits _ hrole (.inr fun hst => nomatch hst)

theorem client_idle (rnd : Arr 32) {i : Nat} (h : i ≠ 4) :
    btlsPump c rnd (p.clientAt rs i) = (p.clientAt rs i, [], 0, []) := pump_idle _ rnd (p.client_waits rs h)

theorem server_waits {j : Nat} (h : ¬ (1 ≤ j ∧ j ≤ 4)) :
    ¬ ((p.serverAt rs j).state = .hs ∧ ((p.serverAt rs j).role = .server ∨ (p.serverAt rs j).wantHs = 0)) := by
  obtain ⟨-, hst, -⟩ := p.server_fields
  rintro ⟨hst', -⟩
  match j with
  | 0 =>
    have hst'' : p.server.state = .hs := hst'
    rw [hst] at hst''
    cases hst''
  | 1 | 2 | 3 | 4 => omega
  | 5 => cases hst'
  | _ + 6 => cases hst'

theorem server_idle (rnd : Arr 32) {j : Nat} (h : ¬ (1 ≤ j ∧ j ≤ 4)) :
    btlsPump c rnd (p.serverAt rs j) = (p.serverAt rs j, [], 0, []) := pump_idle _ rnd (p.server_waits rs h)

theorem pumpClient_at (rnd : Arr 32) {i j : Nat} (h : Phase i j) :
    pumpClient c (p.stateAt rs i j) rnd = p.stateAt rs (if i = 4 then 5 else i) j := by
  by_cases hi : i = 4
  · have hj : j = 5 := by
      rw [Phase] at h
      omega
    subst hi hj
    have hanswer : btlsPump c rnd (p.stateAt rs 4 5).client = _ := p.client_answers rs rnd
    rw [pumpClient, hanswer]
    rfl
  · have hidle : btlsPump c rnd (p.stateAt rs i j).client = _ := p.client_idle rs rnd hi
    rw [pumpClient, hidle, if_neg hi]
    simp only [stateAt, installs, List.filter_nil, List.append_nil]
    rfl

/-- Between the hello and the answer nothing is on its way to the server. -/
theorem c2sAt_nil {i j : Nat} (hj : j ≠ 0) (hlast : ¬ (i = 5 ∧ j = 5)) : p.c2sAt rs i j = [] := by
  rw [c2sAt, if_neg hj, if_neg hlast]

theorem feedServer_at {i j : Nat} (h : Phase i j) :
    feedServer c (p.stateAt rs i j) =
      p.stateAt rs i (if j = 0 then 1 else if i = 5 ∧ j = 5 then 6 else j) := by
  by_cases hj : j = 0
  · have hi : i = 0 := by
      rw [Phase] at h
      omega
    subst hi hj
    have htake : btlsFeed c p.rec0 (p.stateAt rs 0 0).server = _ := p.server_takes_ch
    have hq : (p.stateAt rs 0 0).c2s = [p.rec0] := rfl
    simp only [feedServer, hq, htake]
    rfl
  · rw [if_neg hj]
    by_cases hlast : i = 5 ∧ j = 5
    · obtain ⟨rfl, rfl⟩ := hlast
      have htake : btlsFeed c (p.answer rs) (p.stateAt rs 5 5).server = _ := p.server_takes_fin rs
      have hq : (p.stateAt rs 5 5).c2s = [p.answer rs] := rfl
      simp only [feedServer, hq, htake]
      rfl
    · have hq : (p.stateAt rs i j).c2s = [] := p.c2sAt_nil rs hj hlast
      rw [if_neg hlast, feedServer, hq]

theorem s2cAt_nil {i j : Nat} (h : Phase i j) (hno : ¬ (i < 4 ∧ i + 1 < j)) : p.s2cAt rs i j = [] := by
  have hphase := h
  rw [Phase] at hphase
  rw [s2cAt, List.drop_eq_nil_iff, List.length_take]
  have hlen : (p.flight rs).length = 4 := rfl
  omega

theorem s2cAt_cons {i j : Nat} (hi : i < 4) (hj : i + 1 < j) :
    p.s2cAt rs i j = (p.flight rs).getD i [] :: p.s2cAt rs (i + 1) j := by
  have hlen : i < ((p.flight rs).take (j - 1)).length := by
    rw [List.length_take]
    have hlen : (p.flight rs).length = 4 := rfl
    omega
  have hlen' : i < (p.flight rs).length := hi
  rw [s2cAt, List.drop_eq_getElem_cons hlen, List.getElem_take, List.getD_eq_getElem _ _ hlen']
  rfl

/-- What the server sends goes to the end of what the client did not take yet. -/
theorem s2cAt_snoc {i j : Nat} (hi : i + 1 ≤ j) (hj : j ≤ 4) :
    p.s2cAt rs i (j + 1) = p.s2cAt rs i j ++ [(p.flight rs).getD (j - 1) []] := by
  have hflight : (p.flight rs).length = 4 := rfl
  have hlen : j - 1 < (p.flight rs).length := by omega
  have hsucc : j + 1 - 1 = j - 1 + 1 := by omega
  have hdrop : i ≤ ((p.flight rs).take (j - 1)).length := by
    rw [List.length_take]
    omega
  rw [s2cAt, s2cAt, hsucc, List.take_succ_eq_append_getElem hlen,
    List.drop_append_of_le_length hdrop, List.getD_eq_getElem _ _ hlen]

/-- The client takes the record that is due. -/
theorem client_takes {i : Nat} (hi : i < 4) :
    ∃ acts, btlsFeed c ((p.flight rs).getD i []) (p.clientAt rs i) = (p.clientAt rs (i + 1), acts, 0) ∧
      p.clientKeysAt rs (i + 1) = p.clientKeysAt rs i ++ installs acts := by
  match i with
  | 0 => exact ⟨_, p.client_takes_sh rs, rfl⟩
  | 1 => exact ⟨_, p.client_takes_cert rs, rfl⟩
  | 2 => exact ⟨_, p.client_takes_cv rs, rfl⟩
  | 3 => exact ⟨_, p.client_takes_fin rs, rfl⟩
  | n + 4 => omega

theorem feedClient_at {i j : Nat} (h : Phase i j) :
    feedClient c (p.stateAt rs i j) = p.stateAt rs (if i < 4 ∧ i + 1 < j then i + 1 else i) j := by
  by_cases hdue : i < 4 ∧ i + 1 < j
  · obtain ⟨acts, hfeed, hkeys⟩ := p.client_takes rs hdue.1
    have hfeed' : btlsFeed c ((p.flight rs).getD i []) (p.stateAt rs i j).client = _ := hfeed
    have hq : (p.stateAt rs i j).s2c = _ := p.s2cAt_cons rs hdue.1 hdue.2
    have hc2s : p.c2sAt rs i j = p.c2sAt rs (i + 1) j := by
      rw [p.c2sAt_nil rs (by omega) (by omega), p.c2sAt_nil rs (by omega) (by omega)]
    rw [if_pos hdue]
    simp only [feedClient, hq, hfeed']
    simp only [stateAt, hkeys, hc2s]
    rfl
  · have hq : (p.stateAt rs i j).s2c = [] := p.s2cAt_nil rs h hdue
    rw [if_neg hdue, feedClient, hq]

/-- The server sends the record that is due; its random is drawn with the hello. -/
theorem server_sends (rnd : Arr 32) {j : Nat} (hj : 2 ≤ j ∧ j ≤ 4) :
    ∃ acts, btlsPump c rnd (p.serverAt rs j) =
        (p.serverAt rs (j + 1), acts, 1, (p.flight rs).getD (j - 1) []) ∧
      p.serverKeysAt rs (j + 1) = p.serverKeysAt rs j ++ installs acts := by
  match j with
  | 0 | 1 => omega
  | 2 => exact ⟨_, p.server_cert rs rnd, rfl⟩
  | 3 => exact ⟨_, p.server_cv rs rnd, rfl⟩
  | 4 => exact ⟨_, p.server_fin rs rnd, rfl⟩
  | n + 5 => omega

theorem pumpServer_at (rnd : Arr 32) {i j : Nat} (h : Phase i j) :
    ∃ rs', pumpServer c (p.stateAt rs i j) rnd =
      p.stateAt rs' i (if 1 ≤ j ∧ j ≤ 4 then j + 1 else j) := by
  by_cases hdue : 1 ≤ j ∧ j ≤ 4
  · rw [if_pos hdue]
    by_cases hone : j = 1
    · have hi : i = 0 := by
        rw [Phase] at h
        omega
      subst hi hone
      have hsend : btlsPump c rnd (p.stateAt rs 0 1).server = _ := p.server_hello rnd
      refine ⟨rnd, ?_⟩
      rw [pumpServer, hsend]
      rfl
    · obtain ⟨acts, hpump, hkeys⟩ := p.server_sends rs rnd (j := j) (by omega)
      have hpump' : btlsPump c rnd (p.stateAt rs i j).server = _ := hpump
      rw [Phase] at h
      have hc2s : p.c2sAt rs i (j + 1) = p.c2sAt rs i j := by
        rw [p.c2sAt_nil rs (by omega) (by omega), p.c2sAt_nil rs (by omega) (by omega)]
      have hs2c := p.s2cAt_snoc rs (i := i) (j := j) (by omega) hdue.2
      refine ⟨rs, ?_⟩
      rw [pumpServer, hpump']
      simp only [stateAt, if_true, hkeys, hc2s, hs2c]
      rfl
  · have hidle : btlsPump c rnd (p.stateAt rs i j).server = _ := p.server_idle rs rnd hdue
    refine ⟨rs, ?_⟩
    rw [pumpServer, hidle, if_neg hdue]
    simp only [stateAt, installs, List.filter_nil, List.append_nil]
    rfl

/-- A step goes on by the phases, and leaves the state alone when they stay. -/
theorem step_at {i j : Nat} (h : Phase i j) (ev : HsEv) :
    ∃ rs', hsStep c (p.stateAt rs i j) ev = p.stateAt rs' (phaseStep i j ev).1 (phaseStep i j ev).2 ∧
      (phaseStep i j ev = (i, j) → hsStep c (p.stateAt rs i j) ev = p.stateAt rs i j) := by
  cases ev with
  | clientPump rnd =>
    have hstep : hsStep c (p.stateAt rs i j) (.clientPump rnd) = _ := p.pumpClient_at rs rnd h
    refine ⟨rs, hstep, fun hsame => ?_⟩
    rw [hstep, (Prod.mk.inj hsame).1]
  | toServer =>
    have hstep : hsStep c (p.stateAt rs i j) .toServer = _ := p.feedServer_at rs h
    refine ⟨rs, hstep, fun hsame => ?_⟩
    rw [hstep, (Prod.mk.inj hsame).2]
  | toClient =>
    have hstep : hsStep c (p.stateAt rs i j) .toClient = _ := p.feedClient_at rs h
    refine ⟨rs, hstep, fun hsame => ?_⟩
    rw [hstep, (Prod.mk.inj hsame).1]
  | serverPump rnd =>
    obtain ⟨rs', hstep⟩ := p.pumpServer_at rs rnd h
    refine ⟨rs', hstep, fun hsame => ?_⟩
    have hno : ¬ (1 ≤ j ∧ j ≤ 4) := by
      intro hdue
      have hj : (if 1 ≤ j ∧ j ≤ 4 then j + 1 else j) = j := (Prod.mk.inj hsame).2
      rw [if_pos hdue] at hj
      omega
    have hidle : btlsPump c rnd (p.stateAt rs i j).server = _ := p.server_idle rs rnd hno
    rw [hsStep, pumpServer, hidle]
    simp only [stateAt, installs, List.filter_nil, List.append_nil]
    rfl

end Setup

theorem phaseStep_le (i j : Nat) (ev : HsEv) :
    i + j ≤ (phaseStep i j ev).1 + (phaseStep i j ev).2 ∧
      (phaseStep i j ev ≠ (i, j) → i + j + 1 ≤ (phaseStep i j ev).1 + (phaseStep i j ev).2) := by
  cases ev with
  | clientPump rnd =>
    rw [phaseStep]
    split
    · omega
    · exact ⟨le_rfl, fun hne => absurd rfl hne⟩
  | serverPump rnd =>
    rw [phaseStep]
    split
    · omega
    · exact ⟨le_rfl, fun hne => absurd rfl hne⟩
  | toClient =>
    rw [phaseStep]
    split
    · omega
    · exact ⟨le_rfl, fun hne => absurd rfl hne⟩
  | toServer =>
    rw [phaseStep]
    split
    · omega
    · split
      · omega
      · exact ⟨le_rfl, fun hne => absurd rfl hne⟩

/-- Each side moves by one phase at most. -/
theorem phaseStep_moves (i j : Nat) (ev : HsEv) :
    ((phaseStep i j ev).1 = i ∨ (phaseStep i j ev).1 = i + 1) ∧
      ((phaseStep i j ev).2 = j ∨ (phaseStep i j ev).2 = j + 1) := by
  cases ev with
  | clientPump rnd =>
    rw [phaseStep]
    split <;> simp_all
  | serverPump rnd =>
    rw [phaseStep]
    split <;> simp
  | toClient =>
    rw [phaseStep]
    split <;> simp
  | toServer =>
    rw [phaseStep]
    split
    · simp_all
    · split <;> simp_all

/-- How many events of a schedule change anything. -/
def moves (c : TweetNaCl) (st : Hs) : List HsEv → Nat
  | [] => 0
  | ev :: es => (if hsStep c st ev = st then 0 else 1) + moves c (hsStep c st ev) es

namespace Setup

/-- The phase of a whole run, which counts its moves. -/
theorem run_at (es : List HsEv) {i j : Nat} (h : Phase i j) :
    ∃ rs' i' j', run (hsStep c) (p.stateAt rs i j) es = p.stateAt rs' i' j' ∧ Phase i' j' ∧
      i + j + moves c (p.stateAt rs i j) es ≤ i' + j' := by
  induction es generalizing rs i j with
  | nil => exact ⟨rs, i, j, rfl, h, le_rfl⟩
  | cons ev es ih =>
    obtain ⟨rs₁, hstep, hsame⟩ := p.step_at rs h ev
    obtain ⟨hle, hlt⟩ := phaseStep_le i j ev
    obtain ⟨rs', i', j', hrun, hphase, hmoves⟩ := ih rs₁ (h.step ev)
    refine ⟨rs', i', j', ?_, hphase, ?_⟩
    · rw [run_cons, hstep, hrun]
    · rw [moves]
      split
      · rw [hstep]
        omega
      · rename_i hmoved
        have hne : phaseStep i j ev ≠ (i, j) := fun heq => hmoved (hsame heq)
        have hlt' := hlt hne
        rw [hstep]
        omega

theorem start_at : p.start = p.stateAt rs 0 0 := by
  rw [start_eq]
  rfl

theorem th6_length : (p.th6 rs).length = 306 := by simp [th6, finC, th5_length]

/-- The transcripts tell the phases apart. -/
theorem client_progress {i : Nat} (h : i ≤ 5) :
    (p.clientAt rs i).thbuf.length = [67, 134, 169, 236, 271, 306].getD i 0 := by
  match i with
  | 0 => exact p.ch_length
  | 1 => exact p.th2_length rs
  | 2 => exact p.th3_length rs
  | 3 => exact p.th4_length rs
  | 4 => exact p.th5_length rs
  | 5 => exact p.th6_length rs
  | n + 6 => omega

theorem server_progress {j : Nat} (h : j ≤ 6) :
    (p.serverAt rs j).thbuf.length = [0, 67, 134, 169, 236, 271, 306].getD j 0 := by
  match j with
  | 0 =>
    obtain ⟨-, -, -, -, -, hempty, -⟩ := p.server_fields
    have hempty' : (p.serverAt rs 0).thbuf = [] := hempty
    rw [hempty']
    rfl
  | 1 => exact p.ch_length
  | 2 => exact p.th2_length rs
  | 3 => exact p.th3_length rs
  | 4 => exact p.th4_length rs
  | 5 => exact p.th5_length rs
  | 6 => exact p.th6_length rs
  | n + 7 => omega

/-- The length of its transcript tells how far a client is. -/
theorem client_phase {rs rs' : Arr 32} {i i' : Nat} (hi : i ≤ 5) (hi' : i' ≤ 5)
    (h : (p.clientAt rs i).thbuf = (p.clientAt rs' i').thbuf) : i = i' := by
  have hlen := congrArg List.length h
  rw [p.client_progress rs hi, p.client_progress rs' hi'] at hlen
  interval_cases i <;> interval_cases i' <;> first | rfl | cases hlen

theorem server_phase {rs rs' : Arr 32} {j j' : Nat} (hj : j ≤ 6) (hj' : j' ≤ 6)
    (h : (p.serverAt rs j).thbuf = (p.serverAt rs' j').thbuf) : j = j' := by
  have hlen := congrArg List.length h
  rw [p.server_progress rs hj, p.server_progress rs' hj'] at hlen
  interval_cases j <;> interval_cases j' <;> first | rfl | cases hlen

/-- Wherever the two are, but at the end, some event moves one of them. -/
theorem not_stuck {i j : Nat} (h : Phase i j)
    (hstuck : ∀ ev, hsStep c (p.stateAt rs i j) ev = p.stateAt rs i j) : i = 5 ∧ j = 6 := by
  refine h.last fun ev => ?_
  obtain ⟨rs', hstep, -⟩ := p.step_at rs h ev
  obtain ⟨hi, hj⟩ := h.le
  obtain ⟨hi', hj'⟩ := (h.step ev).le
  have hsame := hstep.symm.trans (hstuck ev)
  have hclient := p.client_phase hi' hi (congrArg (fun st => st.client.thbuf) hsame)
  have hserver := p.server_phase hj' hj (congrArg (fun st => st.server.thbuf) hsame)
  exact Prod.ext hclient hserver

end Setup

/-- What the two sides have in common when both are done. -/
structure Agreed (st : Hs) : Prop where
  done : st.client.state = .done ∧ st.server.state = .done
  epoch : st.client.epoch = 2 ∧ st.server.epoch = 2
  transcript : st.client.thbuf = st.server.thbuf
  /-- every key derivation: the labels, the transcript and both keys -/
  derived : st.clientKeys = st.serverKeys ∧ st.clientKeys.length = 2
  mirrored : st.client.sendKey = st.server.recvKey ∧ st.client.recvKey = st.server.sendKey
  counters : st.client.sendSeq = 0 ∧ st.client.recvSeq = 0 ∧ st.server.sendSeq = 0 ∧ st.server.recvSeq = 0

/-- In one epoch the keys are mirrored, and the counters differ by what is in flight. -/
structure Aligned (st : Hs) : Prop where
  mirrored : st.client.epoch = st.server.epoch →
    st.client.sendKey = st.server.recvKey ∧ st.client.recvKey = st.server.sendKey
  counters : st.client.epoch = st.server.epoch →
    st.client.sendSeq = st.server.recvSeq ∧
      st.server.sendSeq = st.client.recvSeq + .ofNat st.s2c.length

/-- A session that enters another epoch starts with both counters at 0. -/
def Restarts (t t' : Btls) : Prop := t'.epoch ≠ t.epoch → t'.sendSeq = 0 ∧ t'.recvSeq = 0

namespace Setup

theorem agreed_at : Agreed (p.stateAt rs 5 6) where
  done := ⟨rfl, rfl⟩
  epoch := ⟨rfl, rfl⟩
  transcript := rfl
  derived := ⟨rfl, rfl⟩
  mirrored := ⟨rfl, rfl⟩
  counters := ⟨rfl, rfl, rfl, rfl⟩

theorem client_epoch {i : Nat} (h : i ≤ 5) : (p.clientAt rs i).epoch = [0, 1, 1, 1, 1, 2].getD i 0 := by
  obtain ⟨-, -, hepoch, -⟩ := p.client_fields
  match i with
  | 0 => exact hepoch
  | 1 | 2 | 3 | 4 | 5 => rfl
  | n + 6 => omega

theorem server_epoch {j : Nat} (h : j ≤ 6) :
    (p.serverAt rs j).epoch = [0, 0, 1, 1, 1, 1, 2].getD j 0 := by
  obtain ⟨-, -, hepoch, -⟩ := p.server_fields
  match j with
  | 0 => exact hepoch
  | 1 => exact hepoch
  | 2 | 3 | 4 | 5 | 6 => rfl
  | n + 7 => omega

theorem same_epoch {i j : Nat} (h : Phase i j) (heq : (p.clientAt rs i).epoch = (p.serverAt rs j).epoch) :
    (i = 0 ∧ j ≤ 1) ∨ (1 ≤ i ∧ i ≤ 4 ∧ i + 1 ≤ j ∧ j ≤ 5) ∨ (i = 5 ∧ j = 6) := by
  rw [Phase] at h
  rw [p.client_epoch rs (by omega), p.server_epoch rs (by omega)] at heq
  rcases h with ⟨hle, hi, hj⟩ | ⟨rfl, rfl | rfl⟩
  · by_cases hzero : i = 0
    · subst hzero
      refine .inl ⟨rfl, ?_⟩
      interval_cases j <;> first | omega | cases heq
    · exact .inr (.inl (by omega))
  · cases heq
  · exact .inr (.inr ⟨rfl, rfl⟩)

theorem client_hs_keys {i : Nat} (h : 1 ≤ i ∧ i ≤ 4) :
    (p.clientAt rs i).sendKey = p.key (p.th2 rs) "btls-hs-c2s" ∧
      (p.clientAt rs i).recvKey = p.key (p.th2 rs) "btls-hs-s2c" ∧
      (p.clientAt rs i).sendSeq = 0 ∧ (p.clientAt rs i).recvSeq = .ofNat (i - 1) := by
  match i with
  | 0 => omega
  | 1 | 2 | 3 | 4 => exact ⟨rfl, rfl, rfl, rfl⟩
  | n + 5 => omega

theorem server_hs_keys {j : Nat} (h : 2 ≤ j ∧ j ≤ 5) :
    (p.serverAt rs j).sendKey = p.key (p.th2 rs) "btls-hs-s2c" ∧
      (p.serverAt rs j).recvKey = p.key (p.th2 rs) "btls-hs-c2s" ∧
      (p.serverAt rs j).recvSeq = 0 ∧ (p.serverAt rs j).sendSeq = .ofNat (j - 2) := by
  match j with
  | 0 | 1 => omega
  | 2 | 3 | 4 | 5 => exact ⟨rfl, rfl, rfl, rfl⟩
  | n + 6 => omega

theorem s2cAt_length {i j : Nat} (hj : j ≤ 5) : (p.s2cAt rs i j).length = j - 1 - i := by
  have hlen : (p.flight rs).length = 4 := rfl
  rw [s2cAt, List.length_drop, List.length_take, hlen]
  omega

theorem aligned_at {i j : Nat} (h : Phase i j) : Aligned (p.stateAt rs i j) := by
  obtain ⟨-, -, -, -, -, -, hcs, hcr, -⟩ := p.client_fields
  obtain ⟨-, -, -, -, -, -, hss, hsr, -⟩ := p.server_fields
  constructor
  · intro heq
    rcases p.same_epoch rs h heq with ⟨rfl, hj⟩ | ⟨hi, hi', hj, hj'⟩ | ⟨rfl, rfl⟩
    · interval_cases j
      · exact p.initial_keys
      · exact p.initial_keys
    · obtain ⟨hck, hcr', -⟩ := p.client_hs_keys rs ⟨hi, hi'⟩
      obtain ⟨hsk, hsr', -⟩ := p.server_hs_keys rs (j := j) ⟨by omega, hj'⟩
      exact ⟨hck.trans hsr'.symm, hcr'.trans hsk.symm⟩
    · exact ⟨rfl, rfl⟩
  · intro heq
    rcases p.same_epoch rs h heq with ⟨rfl, hj⟩ | ⟨hi, hi', hj, hj'⟩ | ⟨rfl, rfl⟩
    · interval_cases j
      · refine ⟨hcs.trans hsr.symm, ?_⟩
        change p.server.sendSeq = p.client.recvSeq + 0
        rw [hss, hcr]
        rfl
      · refine ⟨hcs.trans hsr.symm, ?_⟩
        change p.server.sendSeq = p.client.recvSeq + 0
        rw [hss, hcr]
        rfl
    · obtain ⟨-, -, hcs', hcr'⟩ := p.client_hs_keys rs ⟨hi, hi'⟩
      obtain ⟨-, -, hsr', hss'⟩ := p.server_hs_keys rs (j := j) ⟨by omega, hj'⟩
      have hlen := p.s2cAt_length rs (i := i) hj'
      refine ⟨hcs'.trans hsr'.symm, ?_⟩
      change (p.serverAt rs j).sendSeq = (p.clientAt rs i).recvSeq + .ofNat (p.s2cAt rs i j).length
      rw [hss', hcr', hlen, ← UInt64.ofNat_add]
      congr 1
      omega
    · exact ⟨rfl, rfl⟩

theorem client_restarts (rs' : Arr 32) {i : Nat} (h : i + 1 ≤ 5) :
    Restarts (p.clientAt rs i) (p.clientAt rs' (i + 1)) := by
  intro hne
  rw [p.client_epoch rs (by omega), p.client_epoch rs' h] at hne
  match i with
  | 0 => exact ⟨rfl, rfl⟩
  | 1 | 2 | 3 => exact absurd rfl hne
  | 4 => exact ⟨rfl, rfl⟩
  | n + 5 => omega

theorem server_restarts (rs' : Arr 32) {j : Nat} (h : j + 1 ≤ 6) :
    Restarts (p.serverAt rs j) (p.serverAt rs' (j + 1)) := by
  intro hne
  rw [p.server_epoch rs (by omega), p.server_epoch rs' h] at hne
  match j with
  | 0 => exact absurd rfl hne
  | 1 => exact ⟨rfl, rfl⟩
  | 2 | 3 | 4 => exact absurd rfl hne
  | 5 => exact ⟨rfl, rfl⟩
  | n + 6 => omega

/-- A step into another epoch resets the counters of the side that makes it. -/
theorem restarts_at {i j : Nat} (h : Phase i j) (ev : HsEv) :
    Restarts (p.stateAt rs i j).client (hsStep c (p.stateAt rs i j) ev).client ∧
      Restarts (p.stateAt rs i j).server (hsStep c (p.stateAt rs i j) ev).server := by
  obtain ⟨rs', hstep, -⟩ := p.step_at rs h ev
  have hphase := h
  have hnext := h.step ev
  rw [Phase] at hphase hnext
  have hmove := phaseStep_moves i j ev
  rw [hstep]
  generalize phaseStep i j ev = next at hnext hmove
  obtain ⟨i', j'⟩ := next
  constructor
  · rcases hmove.1 with rfl | rfl
    · intro hne
      have heq := (p.client_epoch rs' (i := i') (by omega)).trans (p.client_epoch rs (by omega)).symm
      exact absurd heq hne
    · exact p.client_restarts rs rs' (by omega)
  · rcases hmove.2 with rfl | rfl
    · intro hne
      have heq := (p.server_epoch rs' (j := j') (by omega)).trans (p.server_epoch rs (by omega)).symm
      exact absurd heq hne
    · exact p.server_restarts rs rs' (by omega)

end Setup

/-- Whatever the schedule: no call fails, at most eleven events change anything, in one
epoch the two sides are aligned, a new epoch restarts the counters, and once nothing
can move any more both are done and agree. -/
theorem handshake_agrees (p : Setup c) (es : List HsEv) :
    let st := run (hsStep c) p.start es
    st.failed = false ∧ moves c p.start es ≤ 11 ∧ Aligned st ∧
      (∀ ev, Restarts st.client (hsStep c st ev).client ∧ Restarts st.server (hsStep c st ev).server) ∧
      ((∀ ev, hsStep c st ev = st) → Agreed st) := by
  intro st
  have hzero : Phase 0 0 := .inl (by omega)
  obtain ⟨rs, i, j, hrun, hphase, hmoves⟩ := p.run_at (Arr.zero 32) es hzero
  rw [← p.start_at] at hrun hmoves
  have hst : st = p.stateAt rs i j := hrun
  rw [hst]
  refine ⟨rfl, ?_, p.aligned_at rs hphase, p.restarts_at rs hphase, fun hstuck => ?_⟩
  · rw [Phase] at hphase
    omega
  · obtain ⟨rfl, rfl⟩ := p.not_stuck rs hphase hstuck
    exact p.agreed_at rs

end Bite
