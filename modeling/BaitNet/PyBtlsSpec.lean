import BaitNet.BtlsMessages
import BaitNet.PyBtls
import BaitNet.StreamReset

/-!
# Python's bTLS speaks the records of C

What the methods of `Btls` do with frames and records, written with the frames, keys and records of
`btls.c`.
-/
namespace Py.Btls

open Wire Crypto
open Interop (SameBoxes)
open Bite (Role)

theorem record_eq (rt : UInt8) {body : Bytes} (h : body.length < 2 ^ 16) :
    record rt body = .ok (rt :: put16 (.ofNat body.length) ++ body) := by
  simp only [record, Interop.toBytes_len h, Py.ok_bind]
  rfl

theorem hsFrame_eq (msgType : UInt8) {body : Bytes} (h : body.length < 2 ^ 16) :
    hsFrame msgType body = .ok (Bite.hsFrame msgType body) := by
  simp only [hsFrame, Interop.toBytes_len h, Py.ok_bind]
  rfl

theorem recNonce_eq (seq : UInt64) : recNonce seq.toNat = .ok (Bite.recNonce seq).val := by
  simp only [recNonce, Interop.toBytes_u64, Py.ok_bind]
  rfl

theorem recNonce_overflow {seq : Nat} (h : 2 ^ 64 ≤ seq) : recNonce seq = .error .overflowError := by
  have hbig : ¬ seq < 256 ^ 8 := by omega
  simp only [recNonce, toBytes, if_neg hbig, Py.error_bind]

variable {nb : PyBox} {c : TweetNaCl} (same : SameBoxes nb c)
include same

theorem derive_eq {q : Btls} {prk : Arr 64} (h : q.prk = prk.val) (label : Bytes) :
    derive nb q label = (Bite.keyOf c prk q.transcript label).val := by
  rw [derive, h, Interop.kdf_eq same.toSamePrimitives]
  rfl

theorem certDigest_eq (q : Btls) :
    certDigest nb q = (ed25519Sha512 c (ascii "btls/1.0-cert-verify" ++ q.transcript)).val := by
  rw [certDigest, same.sha512]
  rfl

/-- The product of two honest key pairs. -/
theorem ecdhe_eq {q : Btls} {priv eph : Arr 32} (hpriv : q.ephPriv = priv.val)
    (heph : q.peerEph = (c.scalarmultBase eph).val) :
    ecdhe nb q = .ok { q with prk := (Bite.prkOf c priv (c.scalarmultBase eph)).val } := by
  have hne : ¬ q.peerEph = [] := by
    rw [heph]
    exact List.ne_nil_of_length_pos (by simp)
  have hshared : nb.scalarmult priv (c.scalarmultBase eph) = some (c.scalarmult priv (c.scalarmultBase eph)) := by
    have hsame := same.scalarmult priv eph
    rwa [same.scalarmultBase] at hsame
  have hprk : x25519 nb.toPyNaCl q.ephPriv q.peerEph = .ok (c.scalarmult priv (c.scalarmultBase eph)).val := by
    simp only [x25519, hpriv, heph, Interop.sized_arr, Py.ok_bind, hshared, Py.pure_eq_ok]
  simp only [ecdhe, if_neg hne, hprk, Py.ok_bind, Py.pure_eq_ok, Interop.hmacSha512_eq same.toSamePrimitives]
  rfl

theorem installEpoch_client {q : Btls} {prk : Arr 64} (h : q.prk = prk.val) (hrole : q.role = .client)
    (lC2s lS2c : Bytes) : installEpoch nb q lC2s lS2c =
      { q with
        sendKey := (Bite.keyOf c prk q.transcript lC2s).val, recvKey := (Bite.keyOf c prk q.transcript lS2c).val
        sendSeq := 0, recvSeq := 0 } := by
  rw [installEpoch, hrole, derive_eq same h, derive_eq same h]

theorem installEpoch_server {q : Btls} {prk : Arr 64} (h : q.prk = prk.val) (hrole : q.role = .server)
    (lC2s lS2c : Bytes) : installEpoch nb q lC2s lS2c =
      { q with
        sendKey := (Bite.keyOf c prk q.transcript lS2c).val, recvKey := (Bite.keyOf c prk q.transcript lC2s).val
        sendSeq := 0, recvSeq := 0 } := by
  rw [installEpoch, hrole, derive_eq same h, derive_eq same h]

/-- A new session. Its seed may be empty, and its label. -/
theorem new_eq (role : Role) {seed pub : Bytes} {expect : Option (List Char)} {label : List Char}
    (hpub : (if seed = [] then pure [] else seedToPub nb.toPyNaCl seed) = Except.ok pub)
    (hlabel : (expect.getD []).map lower = label) (hvalid : label ≠ [] → labelValid label = true) (rnd eph : Arr 32) :
    new nb role seed expect rnd eph =
      .ok {
        role, seed, pub, expectLabel := label, state := .init, epoch := 0, wantHs := 0, random := rnd.val
        ephPriv := eph.val, ephPub := (c.scalarmultBase eph).val, peerEph := [], certPub := [], transcript := []
        prk := [], sendKey := [], recvKey := [], sendSeq := 0, recvSeq := 0, rxBuf := [], error := "" } := by
  have hgood : ¬ (label ≠ [] ∧ labelValid label = false) := by
    rintro ⟨hne, hbad⟩
    exact Bool.noConfusion ((hvalid hne).symm.trans hbad)
  have hbase := Interop.x25519Base_eq same.toSamePrimitives eph
  by_cases hseed : seed = []
  · rw [if_pos hseed] at hpub
    obtain rfl := Except.ok.inj hpub
    rw [new, if_pos hseed]
    simp only [Py.pure_eq_ok, Py.ok_bind, hlabel, if_neg hgood, hbase]
  · rw [if_neg hseed] at hpub
    rw [new, if_neg hseed]
    simp only [hpub, Py.pure_eq_ok, Py.ok_bind, hlabel, if_neg hgood, hbase]

omit same in
theorem clientStart_eq {q : Btls} {rnd eph : Arr 32} (hrole : q.role = .client) (hstate : q.state = .init)
    (hrnd : q.random = rnd.val) (heph : q.ephPub = eph.val) :
    let frame := Bite.hsFrame hsClientHello (rnd.val ++ eph.val)
    q.clientStart =
      ({ q with transcript := q.transcript ++ frame, state := .chSent, wantHs := hsServerHello },
        .ok (Bite.helloRec frame)) := by
  intro frame
  have hguard : ¬ (q.role ≠ .client ∨ q.state ≠ .init) := by simp [hrole, hstate]
  have hframe : hsFrame hsClientHello (q.random ++ q.ephPub) = .ok frame := by
    rw [hrnd, heph]
    exact hsFrame_eq _ (by simp)
  have hrec : record rtHandshake frame = .ok (Bite.helloRec frame) := record_eq _ (by simp [frame])
  rw [clientStart, if_neg hguard, hframe]
  simp only [hrec]
  rfl

theorem sealInner_eq {q : Btls} {key : Arr 32} {seq : UInt64} {inner : Bytes} (hkey : q.sendKey = key.val)
    (hseq : q.sendSeq = seq.toNat) (h : inner.length ≤ 2 + btlsMaxPayload) :
    sealInner nb q inner = ({ q with sendSeq := q.sendSeq + 1 }, .ok (Bite.appRec c key seq inner)) := by
  have hfit : inner.length ≤ 2048 := h.trans (by decide)
  have hbox := ed25519Secretbox_length c inner (Bite.recNonce seq) key
  have hrec := @record_eq rtApplication (ed25519Secretbox c inner (Bite.recNonce seq) key) (by omega)
  rw [hbox, Nat.add_comm inner.length 32] at hrec
  simp only [sealInner, hseq, recNonce_eq, hkey, Py.ok_bind, Interop.sealBlob_eq same.toSamePrimitives _ _ hfit, hrec]
  rfl

omit same in
/-- The numbers of `btls.c` start again at 0, these do not. -/
theorem sealInner_overflow {q : Btls} (h : 2 ^ 64 ≤ q.sendSeq) (inner : Bytes) :
    sealInner nb q inner = (q, .error .overflowError) := by
  simp only [sealInner, recNonce_overflow h, Py.error_bind]

theorem openRec_eq {q : Btls} {key : Arr 32} {seq : UInt64} {inner : Bytes} (hkey : q.recvKey = key.val)
    (hseq : q.recvSeq = seq.toNat) (hpos : 1 ≤ inner.length) (h : inner.length ≤ 2 + btlsMaxPayload) :
    openRec nb q (Bite.appRec c key seq inner) = ({ q with recvSeq := q.recvSeq + 1 }, .ok inner) := by
  have hfit : inner.length ≤ 2048 := h.trans (by decide)
  have hlen := Bite.appRec_length c key seq inner
  have hfield := Bite.appRec_len c key seq inner h
  rw [← Interop.fromBytes_u16 (by omega)] at hfield
  have hhead : ¬ ((Bite.appRec c key seq inner).length < 3 ∨
      byteAt (Bite.appRec c key seq inner) 0 ≠ rtApplication) := by
    rintro (hshort | hne)
    · omega
    · exact hne rfl
  have hdrop : (Bite.appRec c key seq inner).drop 3 = ed25519Secretbox c inner (Bite.recNonce seq) key := rfl
  rw [btlsMaxPayload] at h
  have hbounds : ¬ (32 + inner.length < 33 ∨ 34 + btlsMaxPayload < 32 + inner.length ∨
      35 + inner.length ≠ 3 + (32 + inner.length)) := by
    rw [btlsMaxPayload]
    omega
  rw [openRec, if_neg hhead]
  simp only [hfield, hlen, if_neg hbounds, hseq, recNonce_eq, hkey, hdrop, Py.ok_bind,
    Interop.openBlob_eq same _ _ hfit]

section Handshake

omit same

variable {q : Btls}

theorem feedHs_frame (msgType : UInt8) {body : Bytes} (h : body.length ≤ 64) :
    feedHs nb q (Bite.hsFrame msgType body) =
      match q.role with
      | .server => feedFin nb q msgType body (Bite.hsFrame msgType body)
      | .client =>
        if q.wantHs = hsCertificate then feedCert nb q msgType body (Bite.hsFrame msgType body)
        else if q.wantHs = hsCertificateVerify then feedCertVerify nb q msgType body (Bite.hsFrame msgType body)
        else if q.wantHs = hsFinished then feedServerFin nb q msgType body (Bite.hsFrame msgType body)
        else (q, .error (.valueError "bTLS: unexpected handshake message")) := by
  have hlen := Bite.hsFrame_length msgType body
  have hfield := Bite.hsFrame_len msgType body (by omega)
  rw [← Interop.fromBytes_u16 (by omega)] at hfield
  have hshort : ¬ (Bite.hsFrame msgType body).length < 3 := by omega
  have hfit : ¬ 3 + body.length ≠ (Bite.hsFrame msgType body).length := not_not.mpr hlen.symm
  rw [feedHs, if_neg hshort]
  simp only [hfield, if_neg hfit]
  rfl

variable (hrole : q.role = .client)
include hrole

theorem feedHs_cert (hwant : q.wantHs = hsCertificate) (msgType : UInt8) {body : Bytes} (h : body.length ≤ 64) :
    feedHs nb q (Bite.hsFrame msgType body) = feedCert nb q msgType body (Bite.hsFrame msgType body) := by
  rw [feedHs_frame msgType h, hrole]
  exact if_pos hwant

theorem feedHs_certVerify (hwant : q.wantHs = hsCertificateVerify) (msgType : UInt8) {body : Bytes}
    (h : body.length ≤ 64) : feedHs nb q (Bite.hsFrame msgType body) = feedCertVerify nb q msgType body (Bite.hsFrame msgType body) := by
  have hnot : ¬ q.wantHs = hsCertificate := by
    rw [hwant]
    decide
  rw [feedHs_frame msgType h, hrole]
  exact (if_neg hnot).trans (if_pos hwant)

theorem feedHs_serverFin (hwant : q.wantHs = hsFinished) (msgType : UInt8) {body : Bytes} (h : body.length ≤ 64) :
    feedHs nb q (Bite.hsFrame msgType body) = feedServerFin nb q msgType body (Bite.hsFrame msgType body) := by
  have hnot : ¬ q.wantHs = hsCertificate ∧ ¬ q.wantHs = hsCertificateVerify := by
    rw [hwant]
    decide
  rw [feedHs_frame msgType h, hrole]
  exact (if_neg hnot.1).trans ((if_neg hnot.2).trans (if_pos hwant))

omit hrole

theorem feedHs_fin (hrole : q.role = .server) (msgType : UInt8) {body : Bytes} (h : body.length ≤ 64) :
    feedHs nb q (Bite.hsFrame msgType body) = feedFin nb q msgType body (Bite.hsFrame msgType body) := by
  rw [feedHs_frame msgType h, hrole]

/-- The client takes a certificate of the expected label. -/
theorem feedCert_ok {pub : Arr 32} (hlabel : labelFromPub nb.toPyNaCl pub.val = .ok q.expectLabel) (frame : Bytes) :
    feedCert nb q hsCertificate pub.val frame =
      ({ q with certPub := pub.val, transcript := q.transcript ++ frame, wantHs := hsCertificateVerify }, .ok 0) := by
  have hshape : ¬ (hsCertificate ≠ hsCertificate ∨ pub.val.length ≠ 32) := by simp
  rw [feedCert, if_neg hshape]
  simp only [hlabel, ne_eq, not_true_eq_false, if_false, ite_self]
  rfl

theorem feedServerFin_ok {mac : Arr 32} (hmac : derive nb q (ascii "btls-fin-s") = mac.val) (frame : Bytes) :
    feedServerFin nb q hsFinished mac.val frame =
      ({ q with transcript := q.transcript ++ frame, wantHs := 0 }, .ok 0) := by
  have hshape : ¬ (hsFinished ≠ hsFinished ∨ mac.val.length ≠ 32) := by simp
  rw [feedServerFin, if_neg hshape, if_neg (not_not.mpr hmac)]
  rfl

end Handshake

theorem feedCertVerify_ok {q : Btls} {seed : Arr 32} {digest : Arr 64} (hkey : q.certPub = (c.seedToPk seed).val)
    (hdigest : certDigest nb q = digest.val) (frame : Bytes) :
    feedCertVerify nb q hsCertificateVerify (c.sign digest.val seed).val frame =
      ({ q with transcript := q.transcript ++ frame, wantHs := hsFinished }, .ok 0) := by
  have hshape : ¬ (hsCertificateVerify ≠ hsCertificateVerify ∨ (c.sign digest.val seed).val.length ≠ 64) := by simp
  have hver : verify nb.toPyNaCl q.certPub (c.sign digest.val seed).val (certDigest nb q) = true := by
    rw [hkey, hdigest]
    exact Interop.verify_eq same.toSamePrimitives seed digest.val
  rw [feedCertVerify, if_neg hshape, hver, if_neg Bool.noConfusion]
  rfl

/-- The server takes the client's Finished and has the keys of epoch 2. -/
theorem feedFin_ok {q : Btls} {prk : Arr 64} {mac : Arr 32} (hrole : q.role = .server) (hstate : q.state = .waitFin)
    (hprk : q.prk = prk.val) (hmac : derive nb q (ascii "btls-fin-c") = mac.val) (frame : Bytes) :
    feedFin nb q hsFinished mac.val frame =
      ({ q with
          transcript := q.transcript ++ frame
          sendKey := (Bite.keyOf c prk (q.transcript ++ frame) (ascii "btls-app-s2c")).val
          recvKey := (Bite.keyOf c prk (q.transcript ++ frame) (ascii "btls-app-c2s")).val
          sendSeq := 0, recvSeq := 0, epoch := 2, state := .done }, .ok 1) := by
  have hshape : ¬ (q.state ≠ .waitFin ∨ hsFinished ≠ hsFinished ∨ mac.val.length ≠ 32) := by simp [hstate]
  rw [feedFin, if_neg hshape, if_neg (not_not.mpr hmac), @installEpoch_server nb c same (q.th frame) prk hprk hrole]
  rfl

/-- A session that has opened a record. -/
def opened (q : Btls) : Btls := { q with recvSeq := q.recvSeq + 1 }

/-- A sealed handshake frame at a session that has its keys. -/
theorem feedRec_sealed {q : Btls} {key : Arr 32} {seq : UInt64} (hepoch : q.epoch ≠ 0) (hkey : q.recvKey = key.val)
    (hseq : q.recvSeq = seq.toNat) (msgType : UInt8) {body : Bytes} (h : body.length ≤ 64) :
    feedRec nb q (Bite.appRec c key seq (rtHandshake :: Bite.hsFrame msgType body)) =
      feedHs nb q.opened (Bite.hsFrame msgType body) := by
  have hinner : (rtHandshake :: Bite.hsFrame msgType body).length = 4 + body.length := by
    rw [List.length_cons, Bite.hsFrame_length]
    omega
  have hfit : (rtHandshake :: Bite.hsFrame msgType body).length ≤ 2 + btlsMaxPayload := by
    rw [hinner, btlsMaxPayload]
    omega
  have hlen := Bite.appRec_length c key seq (rtHandshake :: Bite.hsFrame msgType body)
  have hfield := Bite.appRec_len c key seq _ hfit
  rw [← Interop.fromBytes_u16 (by omega)] at hfield
  have hshort : ¬ (Bite.appRec c key seq (rtHandshake :: Bite.hsFrame msgType body)).length < 3 := by omega
  have hbounds : ¬ (btlsMaxRec - 3 < 32 + (4 + body.length) ∨
      (Bite.appRec c key seq (rtHandshake :: Bite.hsFrame msgType body)).length ≠ 3 + (32 + (4 + body.length))) := by
    rw [hlen, hinner, btlsMaxRec]
    omega
  have hhandshake : ¬ (rtHandshake :: Bite.hsFrame msgType body = [] ∨
      byteAt (rtHandshake :: Bite.hsFrame msgType body) 0 ≠ rtHandshake) := by
    rintro (hnil | hne)
    · cases hnil
    · exact hne rfl
  rw [hinner] at hfield
  rw [feedRec, if_neg hshort]
  simp only [hfield, if_neg hbounds, if_neg hepoch, openRec_eq same hkey hseq (by rw [hinner]; omega) hfit,
    if_neg hhandshake]
  rfl

omit same in
/-- A hello in epoch 0. -/
theorem feedRec_hello {q : Btls} (hepoch : q.epoch = 0) (msgType : UInt8) (rnd eph : Arr 32) :
    feedRec nb q (Bite.helloRec (Bite.hsFrame msgType (rnd.val ++ eph.val))) =
      feedHello nb q (Bite.hsFrame msgType (rnd.val ++ eph.val)) := by
  have hframe : (Bite.hsFrame msgType (rnd.val ++ eph.val)).length = 67 := by simp
  have hlen := Bite.helloRec_length (Bite.hsFrame msgType (rnd.val ++ eph.val))
  have hfield : fromBytes (cut (Bite.helloRec (Bite.hsFrame msgType (rnd.val ++ eph.val))) 1 3) = 67 := by
    have hfield := @Interop.fromBytes_u16 (Bite.helloRec (Bite.hsFrame msgType (rnd.val ++ eph.val))) 1 (by omega)
    rw [hfield, Bite.helloRec, Bite.get16_field, hframe]
    rfl
  have hdrop : (Bite.helloRec (Bite.hsFrame msgType (rnd.val ++ eph.val))).drop 3 =
      Bite.hsFrame msgType (rnd.val ++ eph.val) := rfl
  have hshort : ¬ (Bite.helloRec (Bite.hsFrame msgType (rnd.val ++ eph.val))).length < 3 := by omega
  have hbounds : ¬ (btlsMaxRec - 3 < 67 ∨
      (Bite.helloRec (Bite.hsFrame msgType (rnd.val ++ eph.val))).length ≠ 3 + 67) := by
    rw [hlen, hframe, btlsMaxRec]
    omega
  have hplain : ¬ (byteAt (Bite.helloRec (Bite.hsFrame msgType (rnd.val ++ eph.val))) 0 ≠ rtHandshake ∨
      (Bite.hsFrame msgType (rnd.val ++ eph.val)).length < 3) := by
    rw [hframe]
    rintro (hne | hlt)
    · exact hne rfl
    · omega
  rw [feedRec, if_neg hshort]
  simp only [hfield, if_neg hbounds, if_pos hepoch, hdrop, if_neg hplain]

omit same in
/-- A call that comes back without an exception comes back as it is. -/
theorem feed_ok {q q' : Btls} {rec : Bytes} {ret : Int} (h : feedRec nb q rec = (q', .ok ret)) :
    feed nb q rec = (q', .ok ret) := by
  rw [feed, h]

omit same in
/-- The frame of a hello, taken apart. -/
theorem hello_fields (msgType : UInt8) (rnd eph : Arr 32) :
    fromBytes (cut (Bite.hsFrame msgType (rnd.val ++ eph.val)) 1 3) = 64 ∧
      (Bite.hsFrame msgType (rnd.val ++ eph.val)).length - 3 = 64 ∧
      cut (Bite.hsFrame msgType (rnd.val ++ eph.val)) 35 67 = eph.val := by
  have hlen : (Bite.hsFrame msgType (rnd.val ++ eph.val)).length = 67 := by simp
  refine ⟨?_, by omega, ?_⟩
  · have hfield := @Interop.fromBytes_u16 (Bite.hsFrame msgType (rnd.val ++ eph.val)) 1 (by omega)
    rw [hfield, Bite.hsFrame_len _ _ (by simp)]
    simp
  · have hslice := @Interop.cut_eq_slice (Bite.hsFrame msgType (rnd.val ++ eph.val)) 35 32 (by omega)
    rw [hslice]
    exact congrArg Subtype.val (Bite.hello_eph msgType rnd eph)

omit same in
/-- The server takes a ClientHello. -/
theorem feedHello_server {q : Btls} (rnd eph : Arr 32) (hrole : q.role = .server) (hstate : q.state = .init) :
    feedHello nb q (Bite.hsFrame hsClientHello (rnd.val ++ eph.val)) =
      ({ q with
          peerEph := eph.val, transcript := q.transcript ++ Bite.hsFrame hsClientHello (rnd.val ++ eph.val)
          state := .hs, wantHs := hsServerHello }, .ok 0) := by
  obtain ⟨hfield, hlen, heph⟩ := hello_fields hsClientHello rnd eph
  have hfit : ¬ 64 ≠ (Bite.hsFrame hsClientHello (rnd.val ++ eph.val)).length - 3 := not_not.mpr hlen.symm
  have hshape : ¬ (byteAt (Bite.hsFrame hsClientHello (rnd.val ++ eph.val)) 0 ≠ hsClientHello ∨ 64 ≠ 64) := by
    rintro (hne | hne)
    · exact hne rfl
    · exact hne rfl
  rw [feedHello]
  simp only [hfield, if_neg hfit, heph]
  rw [if_pos ⟨hrole, hstate⟩, if_neg hshape]
  rfl

/-- The client takes a ServerHello and has the keys of epoch 1. -/
theorem feedHello_client {q : Btls} {priv : Arr 32} (rnd eph : Arr 32) (hrole : q.role = .client)
    (hstate : q.state = .chSent) (hwant : q.wantHs = hsServerHello) (hpriv : q.ephPriv = priv.val) :
    let frame := Bite.hsFrame hsServerHello (rnd.val ++ (c.scalarmultBase eph).val)
    let prk := Bite.prkOf c priv (c.scalarmultBase eph)
    feedHello nb q frame =
      ({ q with
          peerEph := (c.scalarmultBase eph).val, transcript := q.transcript ++ frame, prk := prk.val
          sendKey := (Bite.keyOf c prk (q.transcript ++ frame) (ascii "btls-hs-c2s")).val
          recvKey := (Bite.keyOf c prk (q.transcript ++ frame) (ascii "btls-hs-s2c")).val
          sendSeq := 0, recvSeq := 0, epoch := 1, state := .hs, wantHs := hsCertificate }, .ok 0) := by
  intro frame prk
  obtain ⟨hfield, hlen, heph⟩ := hello_fields hsServerHello rnd (c.scalarmultBase eph)
  have hfit : ¬ 64 ≠ frame.length - 3 := not_not.mpr hlen.symm
  have hnot : ¬ (q.role = .server ∧ q.state = .init) := by
    rw [hrole]
    exact fun h => nomatch h.1
  have hshape : ¬ (byteAt frame 0 ≠ hsServerHello ∨ 64 ≠ 64) := by
    rintro (hne | hne)
    · exact hne rfl
    · exact hne rfl
  obtain ⟨q₁, hq₁, hecdhe⟩ : ∃ q₁,
      q₁ = { th { q with peerEph := (c.scalarmultBase eph).val } frame with prk := prk.val } ∧
      ecdhe nb (th { q with peerEph := (c.scalarmultBase eph).val } frame) = .ok q₁ :=
    ⟨_, rfl, ecdhe_eq same hpriv rfl⟩
  have hrole₁ : q₁.role = .client := by rw [hq₁]; exact hrole
  have hprk₁ : q₁.prk = prk.val := by rw [hq₁]
  rw [feedHello]
  simp only [frame, hfield, heph] at hfit hecdhe ⊢
  rw [if_neg hfit, if_neg hnot, if_pos ⟨hrole, hstate, hwant⟩, if_neg hshape, hecdhe]
  dsimp only
  rw [installEpoch_client same hprk₁ hrole₁, hq₁]
  rfl

/-- What the server says after the ClientHello, and the keys of epoch 1. -/
theorem pump_hello {q : Btls} {priv rnd pub : Arr 32} (eph : Arr 32) (hrole : q.role = .server) (hstate : q.state = .hs)
    (hwant : q.wantHs = hsServerHello) (hpriv : q.ephPriv = priv.val) (heph : q.peerEph = (c.scalarmultBase eph).val)
    (hrnd : q.random = rnd.val) (hpub : q.ephPub = pub.val) :
    let frame := Bite.hsFrame hsServerHello (rnd.val ++ pub.val)
    let prk := Bite.prkOf c priv (c.scalarmultBase eph)
    pump nb q =
      ({ q with
          transcript := q.transcript ++ frame, prk := prk.val
          sendKey := (Bite.keyOf c prk (q.transcript ++ frame) (ascii "btls-hs-s2c")).val
          recvKey := (Bite.keyOf c prk (q.transcript ++ frame) (ascii "btls-hs-c2s")).val
          sendSeq := 0, recvSeq := 0, epoch := 1, wantHs := hsCertificate }, .ok (some (Bite.helloRec frame))) := by
  intro frame prk
  have hframe : hsFrame hsServerHello (q.random ++ q.ephPub) = .ok frame := by
    rw [hrnd, hpub]
    exact hsFrame_eq _ (by simp)
  have hrec : record rtHandshake frame = .ok (Bite.helloRec frame) := record_eq _ (by simp [frame])
  obtain ⟨q₁, hq₁, hecdhe⟩ : ∃ q₁, q₁ = { q.th frame with prk := prk.val } ∧ ecdhe nb (q.th frame) = .ok q₁ :=
    ⟨_, rfl, ecdhe_eq same hpriv heph⟩
  have hrole₁ : q₁.role = .server := by rw [hq₁]; exact hrole
  have hprk₁ : q₁.prk = prk.val := by rw [hq₁]
  rw [pump, if_pos ⟨hrole, hstate, hwant⟩, hframe]
  simp only [hecdhe, hrec]
  rw [installEpoch_server same hprk₁ hrole₁, hq₁]
  rfl

section Flight

omit same

variable {q : Btls} (hrole : q.role = .server) (hstate : q.state = .hs)
include hrole hstate

theorem pump_cert (hwant : q.wantHs = hsCertificate) :
    pump nb q = emitHs nb q (hsFrame hsCertificate q.pub) .hs hsCertificateVerify := by
  have hnot : ¬ q.wantHs = hsServerHello := by
    rw [hwant]
    decide
  rw [pump, if_neg fun h => hnot h.2.2, if_pos ⟨hrole, hstate, hwant⟩]

theorem pump_certVerify (hwant : q.wantHs = hsCertificateVerify) :
    pump nb q =
      emitHs nb q (sign nb.toPyNaCl q.seed (certDigest nb q) >>= hsFrame hsCertificateVerify) .hs hsFinished := by
  have hnot : ¬ q.wantHs = hsServerHello ∧ ¬ q.wantHs = hsCertificate := by
    rw [hwant]
    decide
  rw [pump, if_neg fun h => hnot.1 h.2.2, if_neg fun h => hnot.2 h.2.2, if_pos ⟨hrole, hstate, hwant⟩]

theorem pump_serverFin (hwant : q.wantHs = hsFinished) :
    pump nb q = emitHs nb q (hsFrame hsFinished (derive nb q (ascii "btls-fin-s"))) .waitFin hsFinished := by
  have hnot : ¬ q.wantHs = hsServerHello ∧ ¬ q.wantHs = hsCertificate ∧ ¬ q.wantHs = hsCertificateVerify := by
    rw [hwant]
    decide
  rw [pump, if_neg fun h => hnot.1 h.2.2, if_neg fun h => hnot.2.1 h.2.2, if_neg fun h => hnot.2.2 h.2.2,
    if_pos ⟨hrole, hstate, hwant⟩]

end Flight

/-- A frame of the flight: the transcript with it, and its record. -/
theorem emitHs_eq {q : Btls} {key : Arr 32} {seq : UInt64} {frame : Bytes} (hkey : q.sendKey = key.val)
    (hseq : q.sendSeq = seq.toNat) (h : frame.length ≤ 67) (state : BtlsSt) (wantHs : UInt8) :
    emitHs nb q (.ok frame) state wantHs =
      ({ q with transcript := q.transcript ++ frame, state, wantHs, sendSeq := q.sendSeq + 1 },
        .ok (some (Bite.appRec c key seq (rtHandshake :: frame)))) := by
  have hfit : (rtHandshake :: frame).length ≤ 2 + btlsMaxPayload := by
    rw [List.length_cons, btlsMaxPayload]
    omega
  have hsealed := @sealInner_eq nb c same { q.th frame with state, wantHs } key seq (rtHandshake :: frame)
    hkey hseq hfit
  rw [emitHs]
  simp only [List.singleton_append, hsealed]
  rfl

/-- The client's Finished, sealed under the old keys, and then the keys of epoch 2. -/
theorem pump_fin {q : Btls} {prk : Arr 64} {key mac : Arr 32} {seq : UInt64} (hrole : q.role = .client)
    (hstate : q.state = .hs) (hwant : q.wantHs = 0) (hprk : q.prk = prk.val) (hkey : q.sendKey = key.val)
    (hseq : q.sendSeq = seq.toNat) (hmac : derive nb q (ascii "btls-fin-c") = mac.val) :
    let frame := Bite.hsFrame hsFinished mac.val
    pump nb q =
      ({ q with
          transcript := q.transcript ++ frame
          sendKey := (Bite.keyOf c prk (q.transcript ++ frame) (ascii "btls-app-c2s")).val
          recvKey := (Bite.keyOf c prk (q.transcript ++ frame) (ascii "btls-app-s2c")).val
          sendSeq := 0, recvSeq := 0, epoch := 2, state := .done },
        .ok (some (Bite.appRec c key seq (rtHandshake :: frame)))) := by
  intro frame
  have hnot : ∀ x, ¬ (q.role = .server ∧ q.state = .hs ∧ q.wantHs = x) := by
    rw [hrole]
    exact fun x h => nomatch h.1
  have hframe : hsFrame hsFinished mac.val = .ok frame := hsFrame_eq _ (by simp)
  have hfit : (rtHandshake :: frame).length ≤ 2 + btlsMaxPayload := by
    rw [List.length_cons, btlsMaxPayload, Bite.hsFrame_length, Arr.length]
    omega
  obtain ⟨q₁, hq₁, hsealed⟩ : ∃ q₁, q₁ = { q.th frame with sendSeq := q.sendSeq + 1 } ∧
      sealInner nb (q.th frame) (rtHandshake :: frame) = (q₁, .ok (Bite.appRec c key seq (rtHandshake :: frame))) :=
    ⟨_, rfl, sealInner_eq same hkey hseq hfit⟩
  have hrole₁ : q₁.role = .client := by rw [hq₁]; exact hrole
  have hprk₁ : q₁.prk = prk.val := by rw [hq₁]; exact hprk
  rw [pump, if_neg (hnot _), if_neg (hnot _), if_neg (hnot _), if_neg (hnot _), if_pos ⟨hrole, hstate, hwant⟩, hmac,
    hframe]
  simp only [List.singleton_append, hsealed]
  rw [installEpoch_client same hprk₁ hrole₁, hq₁]
  rfl

omit same in
/-- There is nothing to send but in these states. -/
theorem pump_idle {q : Btls} (h : ¬ (q.state = .hs ∧ (q.role = .server ∨ q.wantHs = 0))) :
    pump nb q = (q, .ok none) := by
  have hserver : ∀ x, ¬ (q.role = .server ∧ q.state = .hs ∧ q.wantHs = x) := fun x hx => h ⟨hx.2.1, .inl hx.1⟩
  rw [pump, if_neg (hserver _), if_neg (hserver _), if_neg (hserver _), if_neg (hserver _),
    if_neg fun hx => h ⟨hx.2.1, .inr hx.2.2⟩]

end Py.Btls
