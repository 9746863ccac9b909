import BaitNet.BtlsAgreement
import BaitNet.PyBtlsSpec

/-!
# bTLS between the two implementations

Python's session follows the C session through an honest handshake: what the one takes, sends and
derives, the other does too. So the two agree in any assignment to client and server.
-/
namespace Bite

open Wire Crypto Runs
open Interop (SameBoxes)

/-- The sessions of both languages hold the same. What Python leaves empty until it is known is compared from then on.
`pub` is the key whose label the client expects. -/
structure Sim (nb : Py.PyBox) (pub : Arr 32) (t : Btls) (q : Py.Btls) : Prop where
  role : q.role = t.role
  state : q.state = t.state
  epoch : q.epoch = t.epoch
  want : q.wantHs = t.wantHs
  ephPriv : q.ephPriv = t.ephPriv.val
  ephPub : q.ephPub = t.ephPub.val
  transcript : q.transcript = t.thbuf
  sendSeq : q.sendSeq = t.sendSeq.toNat
  recvSeq : q.recvSeq = t.recvSeq.toNat
  rxBuf : q.rxBuf = []
  seed : t.role = .server → q.seed = (arr t.sk.val 0 32).val ∧ q.pub = (arr t.sk.val 32 32).val
  label : t.role = .client → Py.labelFromPub nb.toPyNaCl pub.val = .ok q.expectLabel
  peerEph : t.state = .hs → q.peerEph = t.peerEph.val
  certPub : t.role = .client → t.wantHs = hsCertificateVerify → q.certPub = t.certPub.val
  prk : t.epoch ≠ 0 → q.prk = t.prk.val
  keys : t.epoch ≠ 0 → q.sendKey = t.sendKey.val ∧ q.recvKey = t.recvKey.val

variable {nb : Py.PyBox} {c : TweetNaCl} {pub : Arr 32} {t : Btls} {q : Py.Btls}

variable (nb c pub t q) in
/-- Python takes a record as C does. -/
def Takes (rec : Bytes) : Prop :=
  ∃ q', Py.Btls.feed nb q rec = (q', .ok (btlsFeed c rec t).2.2) ∧ Sim nb pub (btlsFeed c rec t).1 q'

variable (nb c pub t q) in
/-- Python sends what C sends. -/
def Sends (rnd : Arr 32) : Prop :=
  ∃ q', Py.Btls.pump nb q = (q', .ok (some (btlsPump c rnd t).2.2.2)) ∧ Sim nb pub (btlsPump c rnd t).1 q'

theorem succ_toNat {n : UInt64} (h : n.toNat < 100) {m : Nat} (hm : m = n.toNat) : m + 1 = (n + 1).toNat := by
  rw [hm, UInt64.toNat_add]
  have hone : (1 : UInt64).toNat = 1 := rfl
  omega

theorem Sim.opened (h : Sim nb pub t q) (hseq : t.recvSeq.toNat < 100) :
    Sim nb pub { t with recvSeq := t.recvSeq + 1 } q.opened :=
  { h with recvSeq := succ_toNat hseq h.recvSeq }

theorem Sim.append {th : Bytes} (h : Sim nb pub t q) (frame : Bytes) (hth : t.thbuf ++ frame = th) :
    q.transcript ++ frame = th := by rw [h.transcript, hth]

variable (same : SameBoxes nb c)
include same

theorem Sim.derive (h : Sim nb pub t q) (hepoch : t.epoch ≠ 0) (label : Bytes) :
    Py.Btls.derive nb q label = (keyOf c t.prk t.thbuf label).val := by
  rw [Py.Btls.derive_eq same (h.prk hepoch), h.transcript]

theorem Sim.certDigest (h : Sim nb pub t q) : Py.Btls.certDigest nb q = (certDigest c t).val := by
  rw [Py.Btls.certDigest_eq same, h.transcript]
  rfl

section Client

variable (h : Sim nb pub t q) (hrole : t.role = .client) (hth : t.thbuf.length ≤ 400)
include h hrole hth

/-- The ServerHello. -/
theorem Sim.takes_sh (hepoch : t.epoch = 0) (hstate : t.state = .chSent) (hwant : t.wantHs = hsServerHello)
    (rnd eph : Arr 32) : Takes nb c pub t q (helloRec (hsFrame hsServerHello (rnd.val ++ (c.scalarmultBase eph).val))) := by
  have hc := btlsFeed_hello c t hsServerHello (rnd.val ++ (c.scalarmultBase eph).val) hepoch (by simp)
  rw [feedHello_client t rnd (c.scalarmultBase eph) hrole hstate hwant hth] at hc
  have hpy := (Py.Btls.feedRec_hello (h.epoch.trans hepoch) hsServerHello rnd (c.scalarmultBase eph)).trans
    (Py.Btls.feedHello_client same rnd eph (h.role.trans hrole) (h.state.trans hstate) (h.want.trans hwant) h.ephPriv)
  rw [h.transcript] at hpy
  rw [Takes, hc]
  refine ⟨_, Py.Btls.feed_ok hpy, ?_⟩
  exact { h with
    state := rfl, epoch := rfl, want := rfl, transcript := rfl, sendSeq := rfl, recvSeq := rfl
    peerEph := fun _ => rfl
    certPub := fun _ hno => absurd (show hsCertificate = hsCertificateVerify from hno) (by decide)
    prk := fun _ => rfl
    keys := fun _ => ⟨rfl, rfl⟩ }

variable (hepoch : t.epoch ≠ 0) (hseq : t.recvSeq.toNat < 100)
include hepoch hseq

theorem Sim.takes_cert (hwant : t.wantHs = hsCertificate)
    (hlabel : byteAt t.expectLabel 0 ≠ 0 → baitLabelFromPub c pub = t.expectLabel) :
    Takes nb c pub t q (appRec c t.recvKey t.recvSeq (rtHandshake :: hsFrame hsCertificate pub.val)) := by
  have hc := Bite.takes_cert t hepoch pub hrole hwant hlabel hth
  have hpy := (Py.Btls.feedRec_sealed same (h.epoch.trans_ne hepoch) (h.keys hepoch).2 h.recvSeq hsCertificate
    (by simp)).trans ((Py.Btls.feedHs_cert (q := q.opened) (h.role.trans hrole) (h.want.trans hwant) _
      (by simp)).trans (Py.Btls.feedCert_ok (q := q.opened) (h.label hrole) _))
  rw [Takes, hc]
  refine ⟨_, Py.Btls.feed_ok hpy, ?_⟩
  exact { h.opened hseq with
    want := rfl, transcript := h.append _ rfl, certPub := fun _ _ => rfl }

/-- A signature of the server under the key that it has shown. -/
theorem Sim.takes_certVerify {seed : Arr 32} (hwant : t.wantHs = hsCertificateVerify)
    (hcert : t.certPub = c.seedToPk seed) :
    Takes nb c pub t q (appRec c t.recvKey t.recvSeq
      (rtHandshake :: hsFrame hsCertificateVerify (c.sign (Bite.certDigest c t).val seed).val)) := by
  have hver : ed25519Verify c (Bite.certDigest c t).val (c.sign (Bite.certDigest c t).val seed) t.certPub = true := by
    rw [hcert]
    exact c.open_sign _ _
  have hc := Bite.takes_certVerify t hepoch _ hrole hwant hver hth
  have hkey : q.opened.certPub = (c.seedToPk seed).val := (h.certPub hrole hwant).trans (congrArg Subtype.val hcert)
  have hpy := (Py.Btls.feedRec_sealed same (h.epoch.trans_ne hepoch) (h.keys hepoch).2 h.recvSeq hsCertificateVerify
    (by simp)).trans
      ((Py.Btls.feedHs_certVerify (q := q.opened) (h.role.trans hrole) (h.want.trans hwant) _ (by simp)).trans
        (Py.Btls.feedCertVerify_ok same hkey ((h.opened hseq).certDigest same) _))
  rw [Takes, hc]
  refine ⟨_, Py.Btls.feed_ok hpy, ?_⟩
  exact { h.opened hseq with
    want := rfl, transcript := h.append _ rfl
    certPub := fun _ hno => absurd (show hsFinished = hsCertificateVerify from hno) (by decide) }

theorem Sim.takes_serverFin (hwant : t.wantHs = hsFinished) :
    Takes nb c pub t q (appRec c t.recvKey t.recvSeq
      (rtHandshake :: hsFrame hsFinished (keyOf c t.prk t.thbuf (ascii "btls-fin-s")).val)) := by
  have hc := Bite.takes_serverFin (c := c) t hepoch hrole hwant hth
  have hpy := (Py.Btls.feedRec_sealed same (h.epoch.trans_ne hepoch) (h.keys hepoch).2 h.recvSeq hsFinished
    (by simp)).trans
      ((Py.Btls.feedHs_serverFin (q := q.opened) (h.role.trans hrole) (h.want.trans hwant) _ (by simp)).trans
        (Py.Btls.feedServerFin_ok ((h.opened hseq).derive same hepoch _) _))
  rw [Takes, hc]
  refine ⟨_, Py.Btls.feed_ok hpy, ?_⟩
  exact { h.opened hseq with
    want := rfl, transcript := h.append _ rfl
    certPub := fun _ hno => absurd (show 0 = hsCertificateVerify from hno) (by decide) }

end Client

/-- The client's Finished. -/
theorem Sim.sends_fin (h : Sim nb pub t q) (hrole : t.role = .client) (hth : t.thbuf.length ≤ 400)
    (hepoch : t.epoch ≠ 0) (hstate : t.state = .hs) (hwant : t.wantHs = 0) (rnd : Arr 32) : Sends nb c pub t q rnd := by
  have hc := Bite.pump_fin (c := c) t rnd hrole hstate hwant hth
  have hpy := Py.Btls.pump_fin same (h.role.trans hrole) (h.state.trans hstate) (h.want.trans hwant) (h.prk hepoch)
    (h.keys hepoch).1 h.sendSeq (h.derive same hepoch _)
  rw [h.transcript] at hpy
  rw [Sends, hc]
  refine ⟨_, hpy, ?_⟩
  exact { h with
    state := rfl, epoch := rfl, transcript := rfl, sendSeq := rfl, recvSeq := rfl
    peerEph := fun hno => (nomatch hno), prk := fun _ => h.prk hepoch, keys := fun _ => ⟨rfl, rfl⟩ }

section Server

variable (h : Sim nb pub t q) (hrole : t.role = .server)
include h hrole

omit same in
/-- The ClientHello. The random that Python has drawn stays. -/
theorem Sim.takes_ch (hepoch : t.epoch = 0) (hstate : t.state = .init) (hth : t.thbuf = []) (rnd eph : Arr 32) :
    let hello := helloRec (hsFrame hsClientHello (rnd.val ++ eph.val))
    ∃ q', Py.Btls.feed nb q hello = (q', .ok (btlsFeed c hello t).2.2) ∧ Sim nb pub (btlsFeed c hello t).1 q' ∧
      q'.random = q.random := by
  intro hello
  have hc := btlsFeed_hello c t hsClientHello (rnd.val ++ eph.val) hepoch (by simp)
  rw [feedHello_server t rnd eph hrole hstate hth] at hc
  have hpy := (@Py.Btls.feedRec_hello nb q (h.epoch.trans hepoch) hsClientHello rnd eph).trans
    (Py.Btls.feedHello_server rnd eph (h.role.trans hrole) (h.state.trans hstate))
  rw [h.transcript, hth, List.nil_append] at hpy
  simp only [hello, hc]
  refine ⟨_, Py.Btls.feed_ok hpy, ?_, rfl⟩
  exact { h with
    state := rfl, want := rfl, transcript := rfl, peerEph := fun _ => rfl
    certPub := fun hclient _ => (nomatch hclient.symm.trans hrole) }

/-- The ServerHello, with the random that Python drew at the start. -/
theorem Sim.sends_hello (hstate : t.state = .hs) (hwant : t.wantHs = hsServerHello) (hth : t.thbuf.length ≤ 400)
    {eph : Arr 32} (heph : t.peerEph = c.scalarmultBase eph) {rnd : Arr 32} (hrnd : q.random = rnd.val) :
    Sends nb c pub t q rnd := by
  have hc := Bite.pump_hello (c := c) t rnd hrole hstate hwant hth
  have hpy := Py.Btls.pump_hello same eph (h.role.trans hrole) (h.state.trans hstate) (h.want.trans hwant) h.ephPriv
    ((h.peerEph hstate).trans (congrArg Subtype.val heph)) hrnd h.ephPub
  rw [h.transcript, ← heph] at hpy
  rw [Sends, hc]
  refine ⟨_, hpy, ?_⟩
  exact { h with
    epoch := rfl, want := rfl, transcript := rfl, sendSeq := rfl, recvSeq := rfl
    certPub := fun hclient _ => (nomatch hclient.symm.trans hrole), prk := fun _ => rfl
    keys := fun _ => ⟨rfl, rfl⟩ }

/-- The client's Finished. -/
theorem Sim.takes_fin (hepoch : t.epoch ≠ 0) (hstate : t.state = .waitFin) (hseq : t.recvSeq.toNat < 100)
    (hth : t.thbuf.length ≤ 400) :
    Takes nb c pub t q (appRec c t.recvKey t.recvSeq
      (rtHandshake :: hsFrame hsFinished (keyOf c t.prk t.thbuf (ascii "btls-fin-c")).val)) := by
  have hc := Bite.takes_fin (c := c) t hepoch hrole hstate hth
  have hpy := (Py.Btls.feedRec_sealed same (h.epoch.trans_ne hepoch) (h.keys hepoch).2 h.recvSeq hsFinished
    (by simp)).trans ((Py.Btls.feedHs_fin (q := q.opened) (h.role.trans hrole) _ (by simp)).trans
      (Py.Btls.feedFin_ok same (q := q.opened) (h.role.trans hrole) (h.state.trans hstate) (h.prk hepoch)
        ((h.opened hseq).derive same hepoch _) _))
  have htranscript : q.opened.transcript = t.thbuf := h.transcript
  rw [htranscript] at hpy
  rw [Takes, hc]
  refine ⟨_, Py.Btls.feed_ok hpy, ?_⟩
  exact { h with
    state := rfl, epoch := rfl, transcript := rfl, sendSeq := rfl, recvSeq := rfl
    peerEph := fun hno => (nomatch hno), prk := fun _ => h.prk hepoch, keys := fun _ => ⟨rfl, rfl⟩ }

variable (hstate : t.state = .hs) (hepoch : t.epoch ≠ 0) (hseq : t.sendSeq.toNat < 100)
include hstate hepoch hseq

/-- A frame of the flight. -/
theorem Sim.emits {frame : Bytes} (hframe : frame.length ≤ 67) (state : St) (wantHs : UInt8)
    (hpump : Py.Btls.pump nb q = Py.Btls.emitHs nb q (.ok frame) state wantHs) :
    ∃ q', Py.Btls.pump nb q = (q', .ok (some (appRec c t.sendKey t.sendSeq (rtHandshake :: frame)))) ∧
      Sim nb pub { t with thbuf := t.thbuf ++ frame, state, wantHs, sendSeq := t.sendSeq + 1 } q' := by
  have hpy := Py.Btls.emitHs_eq same (h.keys hepoch).1 h.sendSeq hframe state wantHs
  refine ⟨_, hpump.trans hpy, ?_⟩
  exact { h with
    state := rfl, want := rfl, transcript := h.append _ rfl, sendSeq := succ_toNat hseq h.sendSeq
    peerEph := fun _ => h.peerEph hstate, certPub := fun hclient _ => (nomatch hclient.symm.trans hrole) }

theorem Sim.sends_cert (hwant : t.wantHs = hsCertificate) :
    let frame := hsFrame hsCertificate (arr t.sk.val 32 32).val
    ∃ q', Py.Btls.pump nb q = (q', .ok (some (appRec c t.sendKey t.sendSeq (rtHandshake :: frame)))) ∧
      Sim nb pub { t with
        thbuf := t.thbuf ++ frame, state := .hs, wantHs := hsCertificateVerify, sendSeq := t.sendSeq + 1 } q' := by
  refine h.emits same hrole hstate hepoch hseq (by simp) .hs hsCertificateVerify ?_
  rw [Py.Btls.pump_cert (h.role.trans hrole) (h.state.trans hstate) (h.want.trans hwant), (h.seed hrole).2,
    Py.Btls.hsFrame_eq _ (by simp)]
  rfl

theorem Sim.sends_certVerify (hwant : t.wantHs = hsCertificateVerify) :
    let frame := hsFrame hsCertificateVerify (ed25519Sign c (Bite.certDigest c t).val t.sk).val
    ∃ q', Py.Btls.pump nb q = (q', .ok (some (appRec c t.sendKey t.sendSeq (rtHandshake :: frame)))) ∧
      Sim nb pub { t with
        thbuf := t.thbuf ++ frame, state := .hs, wantHs := hsFinished, sendSeq := t.sendSeq + 1 } q' := by
  refine h.emits same hrole hstate hepoch hseq (by simp) .hs hsFinished ?_
  rw [Py.Btls.pump_certVerify (h.role.trans hrole) (h.state.trans hstate) (h.want.trans hwant), (h.seed hrole).1,
    h.certDigest same, Interop.sign_eq same.toSamePrimitives, Py.ok_bind, Py.Btls.hsFrame_eq _ (by simp)]
  rfl

theorem Sim.sends_serverFin (hwant : t.wantHs = hsFinished) :
    let frame := hsFrame hsFinished (keyOf c t.prk t.thbuf (ascii "btls-fin-s")).val
    ∃ q', Py.Btls.pump nb q = (q', .ok (some (appRec c t.sendKey t.sendSeq (rtHandshake :: frame)))) ∧
      Sim nb pub { t with
        thbuf := t.thbuf ++ frame, state := .waitFin, wantHs := hsFinished, sendSeq := t.sendSeq + 1 } q' := by
  refine h.emits same hrole hstate hepoch hseq (by simp) .waitFin hsFinished ?_
  rw [Py.Btls.pump_serverFin (h.role.trans hrole) (h.state.trans hstate) (h.want.trans hwant), h.derive same hepoch,
    Py.Btls.hsFrame_eq _ (by simp)]
  rfl

end Server

omit same in
/-- Where C has nothing to send, Python has not either. -/
theorem Sim.idle (h : Sim nb pub t q) (hno : ¬ (t.state = .hs ∧ (t.role = .server ∨ t.wantHs = 0))) :
    Py.Btls.pump nb q = (q, .ok none) := by
  refine Py.Btls.pump_idle ?_
  rwa [h.state, h.role, h.want]

end Bite
