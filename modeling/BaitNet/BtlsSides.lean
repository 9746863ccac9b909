import BaitNet.BtlsInterop

/-!
# A bTLS handshake between any two implementations

A side is a session of either language. Whichever two they are, the exchange of their records goes through
the phases that it has between two sessions of C.
-/
namespace Bite

open Wire Crypto Runs
open Interop (SameBoxes Impl)

/-- What both languages keep of a session. -/
structure Seen where
  state : St
  epoch : Nat
  transcript : Bytes
  sendKey : Bytes
  recvKey : Bytes
  sendSeq : Nat
  recvSeq : Nat
  deriving DecidableEq

/-- One side. A call may fail, and `pump` may have nothing to send. -/
structure Side where
  State : Type
  dec : DecidableEq State
  feed : Bytes → State → State × Bool
  pump : Arr 32 → State → State × Bool × Option Bytes
  seen : State → Seen

instance (x : Side) : DecidableEq x.State := x.dec

variable (nb : Py.PyBox) (c : TweetNaCl)

def cSide : Side where
  State := Btls
  dec := inferInstance
  feed rec t :=
    let (t, _, ret) := btlsFeed c rec t
    (t, decide (ret = -1))
  pump rnd t :=
    let (t, _, ret, out) := btlsPump c rnd t
    (t, decide (ret = -1), if ret = 1 then some out else none)
  seen t := ⟨t.state, t.epoch, t.thbuf, t.sendKey.val, t.recvKey.val, t.sendSeq.toNat, t.recvSeq.toNat⟩

/-- Python has drawn its random at the start. -/
def pySide : Side where
  State := Py.Btls
  dec := inferInstance
  feed rec q :=
    match Py.Btls.feed nb q rec with
    | (q, .ok ret) => (q, decide (ret = -1))
    | (q, .error _) => (q, true)
  pump _ q :=
    match Py.Btls.pump nb q with
    | (q, .ok out) => (q, false, out)
    | (q, .error _) => (q, true, none)
  seen q := ⟨q.state, q.epoch, q.transcript, q.sendKey, q.recvKey, q.sendSeq, q.recvSeq⟩

def sideOf : Impl → Side
  | .c => cSide c
  | .python => pySide nb

/-- Two sides, the records in flight in each direction, and whether any call failed. -/
structure Talk (x y : Side) where
  client : x.State
  server : y.State
  c2s : List Bytes
  s2c : List Bytes
  failed : Bool
  deriving DecidableEq

variable {x y : Side}

def Talk.step (st : Talk x y) : HsEv → Talk x y
  | .clientPump rnd =>
    let (client, bad, out) := x.pump rnd st.client
    { st with client, c2s := st.c2s ++ out.toList, failed := st.failed || bad }
  | .serverPump rnd =>
    let (server, bad, out) := y.pump rnd st.server
    { st with server, s2c := st.s2c ++ out.toList, failed := st.failed || bad }
  | .toClient =>
    match st.s2c with
    | [] => st
    | rec :: q =>
      let (client, bad) := x.feed rec st.client
      { st with client, s2c := q, failed := st.failed || bad }
  | .toServer =>
    match st.c2s with
    | [] => st
    | rec :: q =>
      let (server, bad) := y.feed rec st.server
      { st with server, c2s := q, failed := st.failed || bad }

/-- How many events of a schedule change anything. -/
def Talk.moves (st : Talk x y) : List HsEv → Nat
  | [] => 0
  | ev :: es => (if st.step ev = st then 0 else 1) + (st.step ev).moves es

/-- A session of either language that holds what `t` holds. -/
def Like (pub : Arr 32) (t : Btls) : (l : Impl) → (sideOf nb c l).State → Prop
  | .c, t' => t' = t
  | .python, q => Sim nb pub t q

section Like

variable {nb : Py.PyBox} {c : TweetNaCl} {pub : Arr 32} {t t' : Btls} {acts : List Act} {l : Impl}
  {st : (sideOf nb c l).State} (h : Like nb c pub t l st)
include h

/-- What C takes, Python takes. -/
theorem Like.takes {rec : Bytes} {ret : Int} (hfeed : btlsFeed c rec t = (t', acts, ret)) (hret : ret ≠ -1)
    (hpy : ∀ q, Sim nb pub t q → Takes nb c pub t q rec) :
    ∃ st', (sideOf nb c l).feed rec st = (st', false) ∧ Like nb c pub t' l st' := by
  cases l with
  | c =>
    have hst : st = t := h
    refine ⟨t', ?_, rfl⟩
    change ((btlsFeed c rec st).1, decide ((btlsFeed c rec st).2.2 = -1)) = _
    rw [hst, hfeed]
    exact congrArg (Prod.mk t') (decide_eq_false hret)
  | python =>
    obtain ⟨q', hq, hsim⟩ := hpy st h
    rw [hfeed] at hq hsim
    refine ⟨q', ?_, hsim⟩
    simp only [sideOf, pySide, hq, decide_eq_false hret]

/-- What C sends, Python sends. -/
theorem Like.sends {rnd : Arr 32} {out : Bytes} (hpump : btlsPump c rnd t = (t', acts, 1, out))
    (hpy : ∀ q, Sim nb pub t q → Sends nb c pub t q rnd) :
    ∃ st', (sideOf nb c l).pump rnd st = (st', false, some out) ∧ Like nb c pub t' l st' := by
  cases l with
  | c =>
    have hst : st = t := h
    refine ⟨t', ?_, rfl⟩
    change ((btlsPump c rnd st).1, decide ((btlsPump c rnd st).2.2.1 = -1),
      if (btlsPump c rnd st).2.2.1 = 1 then some (btlsPump c rnd st).2.2.2 else none) = _
    rw [hst, hpump]
    rfl
  | python =>
    obtain ⟨q', hq, hsim⟩ := hpy st h
    rw [hpump] at hq hsim
    refine ⟨q', ?_, hsim⟩
    simp only [sideOf, pySide, hq]

theorem Like.idle (rnd : Arr 32) (hno : ¬ (t.state = .hs ∧ (t.role = .server ∨ t.wantHs = 0))) :
    (sideOf nb c l).pump rnd st = (st, false, none) := by
  cases l with
  | c =>
    have hst : st = t := h
    change ((btlsPump c rnd st).1, decide ((btlsPump c rnd st).2.2.1 = -1),
      if (btlsPump c rnd st).2.2.1 = 1 then some (btlsPump c rnd st).2.2.2 else none) = _
    rw [hst, pump_idle t rnd hno]
    rfl
  | python =>
    have hq := Sim.idle h hno
    simp only [sideOf, pySide, hq]

theorem Like.transcript : ((sideOf nb c l).seen st).transcript = t.thbuf := by
  cases l with
  | c =>
    have hst : st = t := h
    rw [hst]
    rfl
  | python => exact Sim.transcript h

/-- Once there are keys, either language shows the same. -/
theorem Like.seen (hepoch : t.epoch ≠ 0) : (sideOf nb c l).seen st = (cSide c).seen t := by
  cases l with
  | c =>
    have hst : st = t := h
    rw [hst]
    rfl
  | python =>
    have hsim : Sim nb pub t st := h
    simp only [sideOf, pySide, cSide, hsim.state, hsim.epoch, hsim.transcript, hsim.sendSeq, hsim.recvSeq,
      hsim.keys hepoch]

end Like

variable {c} (p : Setup c) (rs : Arr 32)

namespace Setup

/-- The client of Python, pinned to the label of the server. -/
def pyClient : Except Py.Exn (Py.Btls × Bytes) := do
  let label ← Py.labelFromPub nb.toPyNaCl p.pub.val
  let seed := (p.clientSk.map fun sk => (arr sk.val 0 32).val).getD []
  let q ← Py.Btls.new nb .client seed (some label) p.rndC p.ephC
  match q.clientStart with
  | (_, .error e) => .error e
  | (q, .ok rec) => .ok (q, rec)

def pyServer : Except Py.Exn Py.Btls :=
  Py.Btls.new nb .server (arr p.serverSk.val 0 32).val none rs p.ephS

/-- The client that has sent its hello, and the hello. -/
def sideClient : (i : Impl) → Option ((sideOf nb c i).State × Bytes)
  | .c => (btlsClientStart p.rndC p.client).2.map fun rec => ((btlsClientStart p.rndC p.client).1, rec)
  | .python => (p.pyClient nb).toOption

def sideServer : (i : Impl) → Option (sideOf nb c i).State
  | .c => some p.server
  | .python => (p.pyServer nb rs).toOption

/-- `rs` is what a server of Python draws for its random; one of C draws it when it sends the hello. -/
def talk (cl sv : Impl) : Option (Talk (sideOf nb c cl) (sideOf nb c sv)) := do
  let (client, rec) ← p.sideClient nb cl
  let server ← p.sideServer nb rs sv
  return ⟨client, server, [rec], [], false⟩

/-- A client that has come `i` steps far. -/
def ClientAt (i : Nat) (l : Impl) (st : (sideOf nb c l).State) : Prop := Like nb c p.pub (p.clientAt rs i) l st

/-- Python's server draws its random at the start and has it until it says hello. -/
def Drawn (j : Nat) : (l : Impl) → (sideOf nb c l).State → Prop
  | .c, _ => True
  | .python, q => j ≤ 1 → q.random = rs.val

/-- A server that has come `j` steps far. -/
def ServerAt (j : Nat) (l : Impl) (st : (sideOf nb c l).State) : Prop :=
  Like nb c p.pub (p.serverAt rs j) l st ∧ Drawn nb rs j l st

section Start

variable {nb} (same : SameBoxes nb c)
include same

theorem pyServer_at : ∃ q, p.pyServer nb rs = .ok q ∧ p.ServerAt nb rs 0 .python q := by
  have hne : ¬ (arr p.serverSk.val 0 32).val = [] := List.ne_nil_of_length_pos (by simp)
  have hpub : (if (arr p.serverSk.val 0 32).val = [] then pure []
      else Py.seedToPub nb.toPyNaCl (arr p.serverSk.val 0 32).val) = .ok (arr p.serverSk.val 32 32).val := by
    rw [if_neg hne, Interop.seedToPub_eq same.toSamePrimitives, p.identity]
  have hnew := @Py.Btls.new_eq nb c same .server _ _ none _ hpub rfl (fun hne => absurd rfl hne) rs p.ephS
  refine ⟨_, hnew, ?_, fun _ => rfl⟩
  change Sim nb p.pub p.server _
  rw [server]
  exact {
    role := rfl, state := rfl, epoch := rfl, want := rfl, ephPriv := rfl, ephPub := rfl, transcript := rfl
    sendSeq := rfl, recvSeq := rfl, rxBuf := rfl, seed := fun _ => ⟨rfl, rfl⟩, label := fun hno => (by cases hno)
    peerEph := fun hno => (by cases hno), certPub := fun hno => (by cases hno)
    prk := fun hno => absurd rfl hno, keys := fun hno => absurd rfl hno }

theorem pyClient_at : ∃ q, p.pyClient nb = .ok (q, p.rec0) ∧ p.ClientAt nb rs 0 .python q := by
  obtain ⟨label, hlabel, -⟩ := @Py.labelFromPub_eq c nb.toPyNaCl same.sha512 p.pub
  obtain ⟨hlower, hvalid⟩ := Py.labelFromPub_clean same.sha512 hlabel
  obtain ⟨pub, hpub⟩ : ∃ pub, (if (p.clientSk.map fun sk => (arr sk.val 0 32).val).getD [] = [] then pure []
      else Py.seedToPub nb.toPyNaCl ((p.clientSk.map fun sk => (arr sk.val 0 32).val).getD [])) = Except.ok pub := by
    cases p.clientSk with
    | none => exact ⟨[], rfl⟩
    | some sk =>
      have hne : ¬ (arr sk.val 0 32).val = [] := List.ne_nil_of_length_pos (by simp)
      exact ⟨_, (if_neg hne).trans (Interop.seedToPub_eq same.toSamePrimitives _)⟩
  have hnew := @Py.Btls.new_eq nb c same .client _ _ (some label) _ hpub hlower (fun _ => hvalid) p.rndC p.ephC
  obtain ⟨q, hq, hnew⟩ : ∃ q, Sim nb p.pub p.client q ∧ q.random = p.rndC.val ∧
      Py.Btls.new nb .client ((p.clientSk.map fun sk => (arr sk.val 0 32).val).getD []) (some label) p.rndC p.ephC =
        .ok q := by
    refine ⟨_, ?_, rfl, hnew⟩
    rw [client]
    exact {
      role := rfl, state := rfl, epoch := rfl, want := rfl, ephPriv := rfl, ephPub := rfl, transcript := rfl
      sendSeq := rfl, recvSeq := rfl, rxBuf := rfl, seed := fun hno => (by cases hno), label := fun _ => hlabel
      peerEph := fun hno => (by cases hno)
      certPub := fun _ hno => absurd (show 0 = hsCertificateVerify from hno) (by decide)
      prk := fun hno => absurd rfl hno, keys := fun hno => absurd rfl hno }
  obtain ⟨hrole, hstate, hepoch, -, hpub', hth, -⟩ := p.client_fields
  have hstart := Py.Btls.clientStart_eq (hq.role.trans hrole) (hq.state.trans hstate) hnew.1
    (hq.ephPub.trans (congrArg Subtype.val hpub'))
  have hch : hsFrame Py.Btls.hsClientHello (p.rndC.val ++ (c.scalarmultBase p.ephC).val) = p.ch := by
    rw [ch]
    rfl
  simp only [hch, hq.transcript, hth, List.nil_append] at hstart
  refine ⟨{ q with transcript := p.ch, state := .chSent, wantHs := Py.Btls.hsServerHello }, ?_, ?_⟩
  · simp only [pyClient, hlabel, Py.ok_bind, hnew.2, hstart]
    rfl
  · exact { hq with
      state := rfl, want := rfl, transcript := rfl, peerEph := fun hno => (by cases hno)
      certPub := fun _ hno => absurd (show hsServerHello = hsCertificateVerify from hno) (by decide) }

end Start

section Client

variable {nb} (same : SameBoxes nb c)
include same

/-- A client of Python takes what is due. -/
theorem pyClient_takes {i : Nat} (hi : i < 4) {q : Py.Btls} (h : Sim nb p.pub (p.clientAt rs i) q) :
    Takes nb c p.pub (p.clientAt rs i) q ((p.flight rs).getD i []) := by
  obtain ⟨hrole, -, hepoch, -, -, -, -, -, hlabel⟩ := p.client_fields
  have hsmall : (0 : UInt64).toNat < 100 ∧ (1 : UInt64).toNat < 100 ∧ (2 : UInt64).toNat < 100 := by decide
  match i with
  | 0 =>
    have htake := h.takes_sh same hrole (p.ch_length.le.trans (by decide)) hepoch rfl rfl rs p.ephS
    rw [← sh] at htake
    exact htake
  | 1 =>
    have htake := h.takes_cert same hrole ((p.th2_length rs).le.trans (by decide)) Nat.one_ne_zero hsmall.1 rfl
      fun _ => hlabel.symm
    rw [← cert] at htake
    exact htake
  | 2 =>
    have htake := h.takes_certVerify same hrole ((p.th3_length rs).le.trans (by decide)) Nat.one_ne_zero hsmall.2.1 rfl
      p.identity
    have hcv : hsFrame hsCertificateVerify
        (c.sign (certDigest c (p.client2 rs)).val (arr p.serverSk.val 0 32)).val = p.cv rs := by
      rw [cv, sig, digest]
      rfl
    have hcv' : hsFrame hsCertificateVerify
        (c.sign (certDigest c (p.clientAt rs 2)).val (arr p.serverSk.val 0 32)).val = p.cv rs := hcv
    rw [hcv'] at htake
    exact htake
  | 3 =>
    have htake := h.takes_serverFin same hrole ((p.th4_length rs).le.trans (by decide)) Nat.one_ne_zero hsmall.2.2 rfl
    have hfin : hsFrame hsFinished (keyOf c (p.clientAt rs 3).prk (p.clientAt rs 3).thbuf (ascii "btls-fin-s")).val =
        p.finS rs := by
      rw [finS]
      rfl
    rw [hfin] at htake
    exact htake
  | n + 4 => omega

/-- A client takes what is due. -/
theorem clientAt_takes {i : Nat} (hi : i < 4) {l : Impl} {st : (sideOf nb c l).State} (h : p.ClientAt nb rs i l st) :
    ∃ st', (sideOf nb c l).feed ((p.flight rs).getD i []) st = (st', false) ∧ p.ClientAt nb rs (i + 1) l st' := by
  obtain ⟨acts, hfeed, -⟩ := p.client_takes rs hi
  exact Like.takes h hfeed (by decide) fun q hq => p.pyClient_takes rs same hi hq

theorem clientAt_answers (rnd : Arr 32) {l : Impl} {st : (sideOf nb c l).State} (h : p.ClientAt nb rs 4 l st) :
    ∃ st', (sideOf nb c l).pump rnd st = (st', false, some (p.answer rs)) ∧ p.ClientAt nb rs 5 l st' := by
  obtain ⟨hrole, -⟩ := p.client_fields
  exact Like.sends h (p.client_answers rs rnd) fun q hq =>
    hq.sends_fin same hrole ((p.th5_length rs).le.trans (by decide)) Nat.one_ne_zero rfl rfl rnd

end Client

section Server

variable {nb} (same : SameBoxes nb c)

/-- The server takes the hello, and Python's keeps its random. -/
theorem serverAt_takes_ch {l : Impl} {st : (sideOf nb c l).State} (h : p.ServerAt nb rs 0 l st) :
    ∃ st', (sideOf nb c l).feed p.rec0 st = (st', false) ∧ p.ServerAt nb rs 1 l st' := by
  obtain ⟨hrole, hstate, hepoch, -, -, hth, -⟩ := p.server_fields
  have hfeed := p.server_takes_ch
  obtain ⟨hlike, hdrawn⟩ := h
  cases l with
  | c =>
    have hst : st = p.server := hlike
    refine ⟨p.server1, ?_, rfl, trivial⟩
    change ((btlsFeed c p.rec0 st).1, decide ((btlsFeed c p.rec0 st).2.2 = -1)) = _
    rw [hst, hfeed]
    rfl
  | python =>
    have hsim : Sim nb p.pub p.server st := hlike
    obtain ⟨q', hq, hnext, hrnd⟩ :=
      @Sim.takes_ch nb c p.pub p.server st hsim hrole hepoch hstate hth p.rndC (c.scalarmultBase p.ephC)
    rw [← ch, ← rec0, hfeed] at hq hnext
    refine ⟨q', ?_, hnext, fun _ => hrnd.trans (hdrawn (by decide))⟩
    simp only [sideOf, pySide, hq]
    rfl

include same

/-- The server says hello: with the random that it draws, or has drawn. -/
theorem serverAt_hello (rnd : Arr 32) {l : Impl} {st : (sideOf nb c l).State} (h : p.ServerAt nb rs 1 l st) :
    ∃ rs' st', (sideOf nb c l).pump rnd st = (st', false, some (helloRec (p.sh rs'))) ∧ p.ServerAt nb rs' 2 l st' := by
  obtain ⟨hrole, -⟩ := p.server_fields
  obtain ⟨hlike, hdrawn⟩ := h
  cases l with
  | c =>
    have hst : st = p.server1 := hlike
    refine ⟨rnd, p.server2 rnd, ?_, rfl, trivial⟩
    change ((btlsPump c rnd st).1, decide ((btlsPump c rnd st).2.2.1 = -1),
      if (btlsPump c rnd st).2.2.1 = 1 then some (btlsPump c rnd st).2.2.2 else none) = _
    rw [hst, p.server_hello]
    rfl
  | python =>
    have hsim : Sim nb p.pub p.server1 st := hlike
    obtain ⟨q', hq, hnext⟩ := hsim.sends_hello same hrole rfl rfl (p.ch_length.le.trans (by decide)) rfl
      (hdrawn le_rfl)
    rw [p.server_hello] at hq hnext
    refine ⟨rs, q', ?_, hnext, fun hno => absurd hno (by decide)⟩
    simp only [sideOf, pySide, hq]

omit same in
theorem drawn_late {j : Nat} (hj : 2 ≤ j) (l : Impl) (st : (sideOf nb c l).State) : Drawn nb rs j l st := by
  cases l with
  | c => trivial
  | python => exact fun hno => absurd hno (by omega)

/-- A server of Python sends what is due. -/
theorem pyServer_sends (rnd : Arr 32) {j : Nat} (hj : 2 ≤ j ∧ j ≤ 4) {q : Py.Btls}
    (h : Sim nb p.pub (p.serverAt rs j) q) : Sends nb c p.pub (p.serverAt rs j) q rnd := by
  obtain ⟨hrole, -, -, -, -, -, -, -, hsk⟩ := p.server_fields
  have hsmall : (0 : UInt64).toNat < 100 ∧ (1 : UInt64).toNat < 100 ∧ (2 : UInt64).toNat < 100 := by decide
  match j with
  | 0 | 1 => omega
  | 2 =>
    have hpump : btlsPump c rnd (p.serverAt rs 2) = _ := p.server_cert rs rnd
    have hsend := h.sends_cert same hrole rfl Nat.one_ne_zero hsmall.1 rfl
    have hsk' : (p.serverAt rs 2).sk = p.serverSk := hsk
    have hth : (p.serverAt rs 2).thbuf ++ p.cert = p.th3 rs := by
      rw [th3]
      rfl
    have hcert : hsFrame hsCertificate (arr (p.serverAt rs 2).sk.val 32 32).val = p.cert := by
      rw [cert, hsk']
      rfl
    simp only [hcert, hth] at hsend
    rw [Sends, hpump]
    exact hsend
  | 3 =>
    have hpump : btlsPump c rnd (p.serverAt rs 3) = _ := p.server_cv rs rnd
    have hsend := h.sends_certVerify same hrole rfl Nat.one_ne_zero hsmall.2.1 rfl
    have hsk' : (p.serverAt rs 3).sk = p.serverSk := hsk
    have hth : (p.serverAt rs 3).thbuf ++ p.cv rs = p.th4 rs := by
      rw [th4]
      rfl
    have hcv : hsFrame hsCertificateVerify
        (ed25519Sign c (certDigest c (p.serverAt rs 3)).val (p.serverAt rs 3).sk).val = p.cv rs := by
      rw [cv, sig, digest, hsk']
      rfl
    simp only [hcv, hth] at hsend
    rw [Sends, hpump]
    exact hsend
  | 4 =>
    have hpump : btlsPump c rnd (p.serverAt rs 4) = _ := p.server_fin rs rnd
    have hsend := h.sends_serverFin same hrole rfl Nat.one_ne_zero hsmall.2.2 rfl
    have hth : (p.serverAt rs 4).thbuf ++ p.finS rs = p.th5 rs := by
      rw [th5]
      rfl
    have hfin : hsFrame hsFinished (keyOf c (p.serverAt rs 4).prk (p.serverAt rs 4).thbuf (ascii "btls-fin-s")).val =
        p.finS rs := by
      rw [finS]
      rfl
    simp only [hfin, hth] at hsend
    rw [Sends, hpump]
    exact hsend
  | n + 5 => omega

/-- The server sends what is due. -/
theorem serverAt_sends (rnd : Arr 32) {j : Nat} (hj : 2 ≤ j ∧ j ≤ 4) {l : Impl} {st : (sideOf nb c l).State}
    (h : p.ServerAt nb rs j l st) :
    ∃ st', (sideOf nb c l).pump rnd st = (st', false, some ((p.flight rs).getD (j - 1) [])) ∧
      p.ServerAt nb rs (j + 1) l st' := by
  obtain ⟨acts, hpump, -⟩ := p.server_sends rs rnd hj
  obtain ⟨st', hst', hlike⟩ := h.1.sends hpump fun q hq => p.pyServer_sends rs same rnd hj hq
  exact ⟨st', hst', hlike, drawn_late rs (by omega) l st'⟩

theorem serverAt_takes_fin {l : Impl} {st : (sideOf nb c l).State} (h : p.ServerAt nb rs 5 l st) :
    ∃ st', (sideOf nb c l).feed (p.answer rs) st = (st', false) ∧ p.ServerAt nb rs 6 l st' := by
  obtain ⟨hrole, -⟩ := p.server_fields
  have hzero : (0 : UInt64).toNat < 100 := by decide
  obtain ⟨st', hst', hlike⟩ := h.1.takes (p.server_takes_fin rs) (by decide) fun q hq => by
    have hsim : Sim nb p.pub (p.server5 rs) q := hq
    have htake := hsim.takes_fin same hrole Nat.one_ne_zero rfl hzero ((p.th5_length rs).le.trans (by decide))
    have hfin : hsFrame hsFinished (keyOf c (p.server5 rs).prk (p.server5 rs).thbuf (ascii "btls-fin-c")).val =
        p.finC rs := by
      rw [finC]
      rfl
    rw [hfin] at htake
    exact htake
  exact ⟨st', hst', hlike, drawn_late rs (by decide) l st'⟩

end Server

end Setup

end Bite
