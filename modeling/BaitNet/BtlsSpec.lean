import BaitNet.Btls

/-!
# Records and frames of bTLS

What a receiver makes of a record that the sealer or a hello built, and how long a
label is.
-/
namespace Bite

open Wire Crypto

theorem labelDrain_length (acc : UInt32) : ∀ n : Nat,
    (labelDrain acc n).1.length * 5 + (labelDrain acc n).2 = n ∧ (labelDrain acc n).2 < 5
  | n + 5 => by
    obtain ⟨hlen, hleft⟩ := labelDrain_length acc n
    rw [labelDrain]
    dsimp only
    rw [List.length_cons]
    omega
  | 0 => ⟨rfl, Nat.lt_of_sub_pos (Nat.zero_lt_succ 4)⟩
  | 1 => ⟨rfl, Nat.lt_of_sub_pos (Nat.zero_lt_succ 3)⟩
  | 2 => ⟨rfl, Nat.lt_of_sub_pos (Nat.zero_lt_succ 2)⟩
  | 3 => ⟨rfl, Nat.lt_of_sub_pos (Nat.zero_lt_succ 1)⟩
  | 4 => ⟨rfl, Nat.lt_of_sub_pos (Nat.zero_lt_succ 0)⟩

theorem labelLoop_length (acc : UInt32) (nbits : Nat) (h : nbits < 5) (ds : Bytes) :
    (labelLoop acc nbits ds).length = (nbits + 8 * ds.length) / 5 := by
  induction ds generalizing acc nbits with
  | nil =>
    rw [labelLoop, List.length_nil]
    omega
  | cons d ds ih =>
    obtain ⟨hlen, hleft⟩ := labelDrain_length (acc <<< 8 ||| d.toUInt32) (nbits + 8)
    rw [labelLoop, List.length_append, ih _ _ hleft, List.length_cons]
    omega

variable (c : TweetNaCl)

/-- A label fills its 32 characters. -/
theorem baitLabelFromPub_length (pub : Arr 32) : (baitLabelFromPub c pub).length = baitLabelLen := by
  rw [baitLabelFromPub, labelLoop_length 0 0 (by decide), slice_length]
  rfl

theorem btlsInit_label (ephRnd : Arr 32) (sk : Option (Arr 64)) (label : Bytes)
    (h : label.length = baitLabelLen) :
    (btlsInit c .client ephRnd sk (some label)).expectLabel = label := by
  have hif : (btlsInit c .client ephRnd sk (some label)).expectLabel =
      if label.length = baitLabelLen then label else [] := rfl
  rw [hif, if_pos h]

@[simp] theorem hsFrame_length (type : UInt8) (body : Bytes) :
    (hsFrame type body).length = 3 + body.length := by
  simp only [hsFrame, List.length_append, List.length_cons, put16_length]

@[simp] theorem helloRec_length (frame : Bytes) : (helloRec frame).length = 3 + frame.length := by
  simp only [helloRec, List.length_append, List.length_cons, put16_length]

/-- The length field of `[x][len 2]...`. -/
theorem get16_field (x : UInt8) (v : UInt16) (b : Bytes) : get16 (x :: put16 v ++ b) 1 = v := by
  rw [List.cons_append, ← List.singleton_append, get16_append_right [x] _ 1 le_rfl]
  exact get16_put16 v b

theorem hsFrame_len (type : UInt8) (body : Bytes) (h : body.length < 2 ^ 16) :
    (get16 (hsFrame type body) 1).toNat = body.length := by
  rw [hsFrame, get16_field, UInt16.toNat_ofNat_of_lt' h]

theorem hsFrame_body (type : UInt8) (body : Bytes) : slice (hsFrame type body) 3 body.length = body := by
  have hlen : (type :: put16 (.ofNat body.length)).length = 3 := rfl
  rw [hsFrame, slice_append_right _ _ _ _ hlen.le, hlen, Nat.sub_self]
  have h := slice_append_exact body []
  rwa [List.append_nil] at h

/-- A handshake frame that fills its record, at either side. -/
theorem feedHs_frame (t : Btls) (type : UInt8) (body : Bytes) (h : body.length < 2 ^ 16) :
    (t.role = .server →
      feedHs c t (hsFrame type body) = feedFin c t type body (hsFrame type body)) ∧
    (t.role = .client → t.wantHs = hsCertificate →
      feedHs c t (hsFrame type body) =
        ((feedCert c t type body (hsFrame type body)).1, [],
          (feedCert c t type body (hsFrame type body)).2)) ∧
    (t.role = .client → t.wantHs = hsCertificateVerify →
      feedHs c t (hsFrame type body) =
        ((feedCertVerify c t type body (hsFrame type body)).1, [],
          (feedCertVerify c t type body (hsFrame type body)).2)) ∧
    (t.role = .client → t.wantHs = hsFinished →
      feedHs c t (hsFrame type body) =
        ((feedServerFin c t type body (hsFrame type body)).1, [],
          (feedServerFin c t type body (hsFrame type body)).2)) := by
  have htake : (hsFrame type body).take (3 + body.length) = hsFrame type body :=
    List.take_of_length_le (hsFrame_length type body).le
  have htype : byteAt (hsFrame type body) 0 = type := rfl
  have hcv : hsCertificateVerify ≠ hsCertificate := by decide
  have hfin : hsFinished ≠ hsCertificate ∧ hsFinished ≠ hsCertificateVerify := by decide
  rw [feedHs, if_neg (by rw [hsFrame_length]; omega), hsFrame_len type body h]
  simp only [hsFrame_body, htake, htype]
  rw [if_neg (by rw [hsFrame_length]; omega)]
  refine ⟨?_, ?_, ?_, ?_⟩
  · intro hrole
    rw [hrole]
  · intro hrole hwant
    simp only [hrole, hwant, if_true]
  · intro hrole hwant
    simp only [hrole, hwant, if_neg hcv, if_true]
  · intro hrole hwant
    simp only [hrole, hwant, if_neg hfin.1, if_neg hfin.2, if_true]

/-- The record in which `inner` is sealed. -/
def appRec (key : Arr 32) (seq : UInt64) (inner : Bytes) : Bytes :=
  rtApplication :: put16 (.ofNat (32 + inner.length)) ++
    ed25519Secretbox c inner (recNonce seq) key

theorem sealBox_eq (t : Btls) (inner : Bytes) (h : inner.length ≤ 2 + btlsMaxPayload) :
    sealBox c t inner =
      ({ t with sendSeq := t.sendSeq + 1 }, [.seal t.sendKey t.sendSeq inner],
        some (appRec c t.sendKey t.sendSeq inner)) := if_neg (Nat.not_lt.mpr h)

@[simp] theorem appRec_length (key : Arr 32) (seq : UInt64) (inner : Bytes) :
    (appRec c key seq inner).length = 35 + inner.length := by
  simp only [appRec, List.length_append, List.length_cons, put16_length, ed25519Secretbox_length]
  omega

theorem appRec_len (key : Arr 32) (seq : UInt64) (inner : Bytes) (h : inner.length ≤ 2 + btlsMaxPayload) :
    (get16 (appRec c key seq inner) 1).toNat = 32 + inner.length := by
  simp only [btlsMaxPayload] at h
  rw [appRec, get16_field, UInt16.toNat_ofNat_of_lt' (by rw [UInt16.size]; omega)]

/-- A record opens under its key and number as far as the opener's buffer goes; the
number is used up in any case. -/
theorem openRec_appRec (t : Btls) (inner : Bytes) (hpos : 1 ≤ inner.length)
    (h : inner.length ≤ 2 + btlsMaxPayload) :
    openRec c t (appRec c t.recvKey t.recvSeq inner) =
      ({ t with recvSeq := t.recvSeq + 1 }, if inner.length ≤ 1024 then some inner else none) := by
  have hlen := appRec_len c t.recvKey t.recvSeq inner h
  have hbyte : byteAt (appRec c t.recvKey t.recvSeq inner) 0 = rtApplication := rfl
  have hdrop : (appRec c t.recvKey t.recvSeq inner).drop 3 =
      ed25519Secretbox c inner (recNonce t.recvSeq) t.recvKey := rfl
  simp only [btlsMaxPayload] at h
  have hhead : ¬ ((appRec c t.recvKey t.recvSeq inner).length < 3 ∨
      byteAt (appRec c t.recvKey t.recvSeq inner) 0 ≠ rtApplication) := by
    rw [appRec_length, hbyte]
    rintro (hshort | hne)
    · omega
    · exact hne rfl
  have hsub : 32 + inner.length - 32 = inner.length := by omega
  rw [openRec, if_neg hhead]
  simp only [hlen, appRec_length, hdrop, hsub, btlsMaxPayload]
  rw [if_neg (by omega)]
  by_cases hfit : inner.length ≤ 1024
  · have hopen := open_ed25519Secretbox c inner [] (recNonce t.recvSeq) t.recvKey hfit
    rw [List.append_nil] at hopen
    have hslice := slice_append_exact inner []
    rw [List.append_nil] at hslice
    rw [hopen, if_pos hfit, Option.map_some, hslice]
  · rw [if_neg hfit, ed25519SecretboxOpen, if_pos (by omega), Option.map_none]

/-- A sealed handshake frame at a session that has its keys. -/
theorem btlsFeed_sealed (t : Btls) (key : Arr 32) (seq : UInt64) (type : UInt8) (body : Bytes)
    (hepoch : t.epoch ≠ 0) (hkey : key = t.recvKey) (hseq : seq = t.recvSeq) (h : body.length ≤ 64) :
    btlsFeed c (appRec c key seq (rtHandshake :: hsFrame type body)) t =
      feedHs c { t with recvSeq := t.recvSeq + 1 } (hsFrame type body) := by
  subst hkey hseq
  have hinner : (rtHandshake :: hsFrame type body).length = 4 + body.length := by
    rw [List.length_cons, hsFrame_length]
    omega
  have hfit : (rtHandshake :: hsFrame type body).length ≤ 2 + btlsMaxPayload := by
    rw [hinner, btlsMaxPayload]
    omega
  have hopen := openRec_appRec c t (rtHandshake :: hsFrame type body) (by omega) hfit
  rw [if_pos (by omega)] at hopen
  have hmatch : ¬ ((rtHandshake :: hsFrame type body).length < 1 ∨
      byteAt (rtHandshake :: hsFrame type body) 0 ≠ rtHandshake) := by
    rintro (hshort | hne)
    · omega
    · exact hne rfl
  rw [btlsFeed, if_neg (by rw [appRec_length]; omega)]
  simp only [appRec_len c _ _ _ hfit, appRec_length, btlsMaxRec, hopen]
  rw [if_neg (by omega), if_neg hepoch, if_neg hmatch]
  rfl

/-- A hello record at a session without keys. -/
theorem btlsFeed_hello (t : Btls) (type : UInt8) (body : Bytes) (hepoch : t.epoch = 0)
    (h : body.length ≤ 64) :
    btlsFeed c (helloRec (hsFrame type body)) t = feedHello c t (hsFrame type body) := by
  have hlen : (get16 (helloRec (hsFrame type body)) 1).toNat = 3 + body.length := by
    rw [helloRec, get16_field, hsFrame_length, UInt16.toNat_ofNat_of_lt' (by rw [UInt16.size]; omega)]
  have hbyte : byteAt (helloRec (hsFrame type body)) 0 = rtHandshake := rfl
  have hdrop : (helloRec (hsFrame type body)).drop 3 = hsFrame type body := rfl
  have hplain : ¬ (byteAt (helloRec (hsFrame type body)) 0 ≠ rtHandshake ∨ 3 + body.length < 3) := by
    rintro (hne | hshort)
    · exact hne rfl
    · omega
  rw [btlsFeed, if_neg (by rw [helloRec_length]; omega)]
  simp only [hlen, helloRec_length, hsFrame_length, btlsMaxRec]
  rw [if_neg (by omega), if_pos hepoch, if_neg hplain, hdrop]

/-- The secret of an exchange. -/
def prkOf (priv eph : Arr 32) : Arr 64 :=
  ed25519HmacSha512 c (c.scalarmult priv eph).val (ascii "btls-v1")

/-- The key of a label over a transcript. -/
def keyOf (prk : Arr 64) (th label : Bytes) : Arr 32 :=
  arr (ed25519HmacSha512 c (label ++ th ++ [1]) prk.val).val 0 32

variable {c} (t : Btls)

theorem thAppend_fits {frame : Bytes} (h : t.thbuf.length + frame.length ≤ 512) :
    thAppend t frame = { t with thbuf := t.thbuf ++ frame } := if_pos h

theorem installEpoch_client (h : t.role = .client) (lC2s lS2c : Bytes) :
    installEpoch c t lC2s lS2c =
      ({ t with
          sendKey := keyOf c t.prk t.thbuf lC2s, recvKey := keyOf c t.prk t.thbuf lS2c
          sendSeq := 0, recvSeq := 0 },
        [.install lC2s lS2c t.thbuf (keyOf c t.prk t.thbuf lC2s) (keyOf c t.prk t.thbuf lS2c)]) := by
  rw [installEpoch, h]
  rfl

theorem installEpoch_server (h : t.role = .server) (lC2s lS2c : Bytes) :
    installEpoch c t lC2s lS2c =
      ({ t with
          sendKey := keyOf c t.prk t.thbuf lS2c, recvKey := keyOf c t.prk t.thbuf lC2s
          sendSeq := 0, recvSeq := 0 },
        [.install lC2s lS2c t.thbuf (keyOf c t.prk t.thbuf lC2s) (keyOf c t.prk t.thbuf lS2c)]) := by
  rw [installEpoch, h]
  rfl

theorem hello_eph (type : UInt8) (rnd eph : Arr 32) :
    arr (hsFrame type (rnd.val ++ eph.val)) 35 32 = eph := by
  have hhead : (type :: put16 (.ofNat (rnd.val ++ eph.val).length) ++ rnd.val).length = 35 := by simp
  have hlast := arr_append_right (type :: put16 (.ofNat (rnd.val ++ eph.val).length) ++ rnd.val) eph.val 35
    32 hhead.le
  rw [hhead, Nat.sub_self] at hlast
  rw [hsFrame, ← List.append_assoc, hlast]
  exact arr_self eph

/-- A hello has the shape that its receiver checks. -/
theorem hello_shape (type : UInt8) (rnd eph : Arr 32) :
    ¬ (byteAt (hsFrame type (rnd.val ++ eph.val)) 0 ≠ type ∨
      (hsFrame type (rnd.val ++ eph.val)).length ≠ 3 + 64 ∨
      byteAt (hsFrame type (rnd.val ++ eph.val)) 2 ≠ 64) := by
  have hlen : (rnd.val ++ eph.val).length = 64 := by simp
  rw [hsFrame_length, hlen]
  rintro (h | h | h)
  · exact h rfl
  · exact h rfl
  · rw [hsFrame, hlen] at h
    exact h rfl

/-- The server takes a ClientHello. -/
theorem feedHello_server (rnd eph : Arr 32) (hrole : t.role = .server) (hst : t.state = .init)
    (hth : t.thbuf = []) :
    feedHello c t (hsFrame hsClientHello (rnd.val ++ eph.val)) =
      ({ t with
          peerEph := eph, thbuf := hsFrame hsClientHello (rnd.val ++ eph.val)
          state := .hs, wantHs := hsServerHello }, [], 0) := by
  have hfits : thAppend { t with peerEph := eph } (hsFrame hsClientHello (rnd.val ++ eph.val)) =
      { t with peerEph := eph, thbuf := hsFrame hsClientHello (rnd.val ++ eph.val) } := by
    rw [thAppend_fits]
    · simp only [hth, List.nil_append]
    · simp only [hth, List.length_nil, hsFrame_length, List.length_append, Arr.length]
      omega
  rw [feedHello, if_pos ⟨hrole, hst⟩, if_neg (hello_shape hsClientHello rnd eph), hello_eph, hfits]

/-- The client takes a ServerHello and has the keys of epoch 1. -/
theorem feedHello_client (rnd eph : Arr 32) (hrole : t.role = .client) (hst : t.state = .chSent)
    (hwant : t.wantHs = hsServerHello) (hth : t.thbuf.length ≤ 400) :
    feedHello c t (hsFrame hsServerHello (rnd.val ++ eph.val)) =
      let th := t.thbuf ++ hsFrame hsServerHello (rnd.val ++ eph.val)
      let prk := prkOf c t.ephPriv eph
      ({ t with
          peerEph := eph, thbuf := th, prk := prk
          sendKey := keyOf c prk th (ascii "btls-hs-c2s"), recvKey := keyOf c prk th (ascii "btls-hs-s2c")
          sendSeq := 0, recvSeq := 0, epoch := 1, state := .hs, wantHs := hsCertificate },
        [.install (ascii "btls-hs-c2s") (ascii "btls-hs-s2c") th
          (keyOf c prk th (ascii "btls-hs-c2s")) (keyOf c prk th (ascii "btls-hs-s2c"))], 0) := by
  have hnot : ¬ (t.role = .server ∧ t.state = .init) := by
    rintro ⟨hrole', -⟩
    rw [hrole] at hrole'
    cases hrole'
  have hfits : thAppend { t with peerEph := eph } (hsFrame hsServerHello (rnd.val ++ eph.val)) =
      { t with peerEph := eph, thbuf := t.thbuf ++ hsFrame hsServerHello (rnd.val ++ eph.val) } := by
    rw [thAppend_fits]
    simp only [hsFrame_length, List.length_append, Arr.length]
    omega
  rw [feedHello, if_neg hnot, if_pos ⟨hrole, hst, hwant⟩, if_neg (hello_shape hsServerHello rnd eph),
    hello_eph, hfits]
  dsimp only [ecdhPrk]
  rw [installEpoch_client _ (by exact hrole)]
  rfl

/-- The client takes a certificate of the expected label. -/
theorem feedCert_ok (pub : Arr 32) (frame : Bytes)
    (hlabel : byteAt t.expectLabel 0 ≠ 0 → baitLabelFromPub c pub = t.expectLabel)
    (hfit : t.thbuf.length + frame.length ≤ 512) :
    feedCert c t hsCertificate pub.val frame =
      ({ t with certPub := pub, thbuf := t.thbuf ++ frame, wantHs := hsCertificateVerify }, 0) := by
  have hshape : ¬ (hsCertificate ≠ hsCertificate ∨ pub.val.length ≠ 32) := by simp
  rw [feedCert, if_neg hshape, arr_self]
  dsimp only
  rw [if_neg (fun h => h.2 (hlabel h.1)), thAppend_fits _ (by exact hfit)]

theorem feedCertVerify_ok (sig : Arr 64) (frame : Bytes)
    (hver : ed25519Verify c (certDigest c t).val sig t.certPub = true)
    (hfit : t.thbuf.length + frame.length ≤ 512) :
    feedCertVerify c t hsCertificateVerify sig.val frame =
      ({ t with thbuf := t.thbuf ++ frame, wantHs := hsFinished }, 0) := by
  have hshape : ¬ (hsCertificateVerify ≠ hsCertificateVerify ∨ sig.val.length ≠ 64) := by simp
  rw [feedCertVerify, if_neg hshape, arr_self, hver, if_neg Bool.noConfusion, thAppend_fits _ hfit]

theorem feedServerFin_ok (frame : Bytes) (hfit : t.thbuf.length + frame.length ≤ 512) :
    feedServerFin c t hsFinished (keyOf c t.prk t.thbuf (ascii "btls-fin-s")).val frame =
      ({ t with thbuf := t.thbuf ++ frame, wantHs := 0 }, 0) := by
  have hshape : ¬ (hsFinished ≠ hsFinished ∨
      (keyOf c t.prk t.thbuf (ascii "btls-fin-s")).val.length ≠ 32) := by simp
  have hmac : finishedMac c t (ascii "btls-fin-s") = keyOf c t.prk t.thbuf (ascii "btls-fin-s") := rfl
  rw [feedServerFin, if_neg hshape, hmac, if_neg (fun h => h rfl), thAppend_fits _ hfit]

/-- The server takes the client's Finished and has the keys of epoch 2. -/
theorem feedFin_ok (frame : Bytes) (hrole : t.role = .server) (hst : t.state = .waitFin)
    (hfit : t.thbuf.length + frame.length ≤ 512) :
    feedFin c t hsFinished (keyOf c t.prk t.thbuf (ascii "btls-fin-c")).val frame =
      let th := t.thbuf ++ frame
      ({ t with
          thbuf := th
          sendKey := keyOf c t.prk th (ascii "btls-app-s2c"), recvKey := keyOf c t.prk th (ascii "btls-app-c2s")
          sendSeq := 0, recvSeq := 0, epoch := 2, state := .done },
        [.install (ascii "btls-app-c2s") (ascii "btls-app-s2c") th
          (keyOf c t.prk th (ascii "btls-app-c2s")) (keyOf c t.prk th (ascii "btls-app-s2c"))], 1) := by
  have hshape : ¬ (t.state ≠ .waitFin ∨ hsFinished ≠ hsFinished ∨
      (keyOf c t.prk t.thbuf (ascii "btls-fin-c")).val.length ≠ 32) := by simp [hst]
  have hmac : finishedMac c t (ascii "btls-fin-c") = keyOf c t.prk t.thbuf (ascii "btls-fin-c") := rfl
  rw [feedFin, if_neg hshape, hmac, if_neg (fun h => h rfl), thAppend_fits _ hfit]
  rw [installEpoch_server _ (by exact hrole)]

/-- The server's hello, with which it has the keys of epoch 1. -/
theorem pump_hello (rnd : Arr 32) (hrole : t.role = .server) (hst : t.state = .hs)
    (hwant : t.wantHs = hsServerHello) (hth : t.thbuf.length ≤ 400) :
    btlsPump c rnd t =
      let frame := hsFrame hsServerHello (rnd.val ++ t.ephPub.val)
      let th := t.thbuf ++ frame
      let prk := prkOf c t.ephPriv t.peerEph
      ({ t with
          random := rnd, thbuf := th, prk := prk
          sendKey := keyOf c prk th (ascii "btls-hs-s2c"), recvKey := keyOf c prk th (ascii "btls-hs-c2s")
          sendSeq := 0, recvSeq := 0, epoch := 1, wantHs := hsCertificate },
        [.install (ascii "btls-hs-c2s") (ascii "btls-hs-s2c") th
          (keyOf c prk th (ascii "btls-hs-c2s")) (keyOf c prk th (ascii "btls-hs-s2c"))], 1,
        helloRec frame) := by
  have hhello : hello hsServerHello { t with random := rnd } =
      hsFrame hsServerHello (rnd.val ++ t.ephPub.val) := rfl
  have hfits : thAppend { t with random := rnd } (hsFrame hsServerHello (rnd.val ++ t.ephPub.val)) =
      { t with random := rnd, thbuf := t.thbuf ++ hsFrame hsServerHello (rnd.val ++ t.ephPub.val) } := by
    rw [thAppend_fits]
    simp only [hsFrame_length, List.length_append, Arr.length]
    omega
  rw [btlsPump, if_pos ⟨hrole, hst⟩, if_pos hwant]
  dsimp only
  rw [hhello, hfits]
  dsimp only [ecdhPrk]
  rw [installEpoch_server _ (by exact hrole)]
  rfl

/-- The rest of the flight: a frame, the transcript with it, and its record. -/
theorem emitHs_ok (frame : Bytes) (state : St) (wantHs : UInt8) (hframe : frame.length ≤ 67)
    (hth : t.thbuf.length ≤ 400) :
    emitHs c t frame state wantHs =
      ({ t with thbuf := t.thbuf ++ frame, state, wantHs, sendSeq := t.sendSeq + 1 },
        [.seal t.sendKey t.sendSeq (rtHandshake :: frame)], 1,
        appRec c t.sendKey t.sendSeq (rtHandshake :: frame)) := by
  have hlen : (rtHandshake :: frame).length ≤ 2 + btlsMaxPayload := by
    rw [List.length_cons, btlsMaxPayload]
    omega
  rw [emitHs, thAppend_fits _ (by omega), sealHs, sealBox_eq c _ _ hlen]
  rfl

/-- The client's Finished, sealed under the old keys, and then the keys of epoch 2. -/
theorem pump_fin (rnd : Arr 32) (hrole : t.role = .client) (hst : t.state = .hs) (hwant : t.wantHs = 0)
    (hth : t.thbuf.length ≤ 400) :
    btlsPump c rnd t =
      let frame := hsFrame hsFinished (keyOf c t.prk t.thbuf (ascii "btls-fin-c")).val
      let th := t.thbuf ++ frame
      ({ t with
          thbuf := th
          sendKey := keyOf c t.prk th (ascii "btls-app-c2s"), recvKey := keyOf c t.prk th (ascii "btls-app-s2c")
          sendSeq := 0, recvSeq := 0, epoch := 2, state := .done },
        [.seal t.sendKey t.sendSeq (rtHandshake :: frame),
          .install (ascii "btls-app-c2s") (ascii "btls-app-s2c") th
            (keyOf c t.prk th (ascii "btls-app-c2s")) (keyOf c t.prk th (ascii "btls-app-s2c"))], 1,
        appRec c t.sendKey t.sendSeq (rtHandshake :: frame)) := by
  have hnot : ¬ (t.role = .server ∧ t.state = .hs) := by
    rintro ⟨hrole', -⟩
    rw [hrole] at hrole'
    cases hrole'
  have hmac : finishedMac c t (ascii "btls-fin-c") = keyOf c t.prk t.thbuf (ascii "btls-fin-c") := rfl
  have hlen : (hsFrame hsFinished (keyOf c t.prk t.thbuf (ascii "btls-fin-c")).val).length = 35 := by simp
  have hinner : (rtHandshake :: hsFrame hsFinished
      (keyOf c t.prk t.thbuf (ascii "btls-fin-c")).val).length ≤ 2 + btlsMaxPayload := by
    rw [List.length_cons, hlen]
    decide
  rw [btlsPump, if_neg hnot, if_pos ⟨hrole, hst, hwant⟩]
  dsimp only
  rw [hmac, thAppend_fits _ (by omega), sealHs, sealBox_eq c _ _ hinner]
  dsimp only
  rw [installEpoch_client _ (by exact hrole)]
  rfl

/-- There is nothing to send but in these states. -/
theorem pump_idle (rnd : Arr 32)
    (h : ¬ (t.state = .hs ∧ (t.role = .server ∨ t.wantHs = 0))) :
    btlsPump c rnd t = (t, [], 0, []) := by
  rw [btlsPump, if_neg, if_neg]
  · rintro ⟨-, hst, hwant⟩
    exact h ⟨hst, .inr hwant⟩
  · rintro ⟨hrole, hst⟩
    exact h ⟨hst, .inl hrole⟩

section Takes

variable (hepoch : t.epoch ≠ 0)
include hepoch

theorem takes_cert (pub : Arr 32) (hrole : t.role = .client) (hwant : t.wantHs = hsCertificate)
    (hlabel : byteAt t.expectLabel 0 ≠ 0 → baitLabelFromPub c pub = t.expectLabel)
    (hth : t.thbuf.length ≤ 400) :
    btlsFeed c (appRec c t.recvKey t.recvSeq (rtHandshake :: hsFrame hsCertificate pub.val)) t =
      ({ t with
          recvSeq := t.recvSeq + 1, certPub := pub, thbuf := t.thbuf ++ hsFrame hsCertificate pub.val
          wantHs := hsCertificateVerify }, [], 0) := by
  have hfit : t.thbuf.length + (hsFrame hsCertificate pub.val).length ≤ 512 := by
    rw [hsFrame_length, Arr.length]
    omega
  rw [btlsFeed_sealed c t _ _ _ _ hepoch rfl rfl (by simp),
    (feedHs_frame c { t with recvSeq := t.recvSeq + 1 } _ _ (by simp)).2.1 hrole hwant,
    feedCert_ok _ _ _ (by exact hlabel) (by exact hfit)]

theorem takes_certVerify (sig : Arr 64) (hrole : t.role = .client)
    (hwant : t.wantHs = hsCertificateVerify)
    (hver : ed25519Verify c (certDigest c t).val sig t.certPub = true) (hth : t.thbuf.length ≤ 400) :
    btlsFeed c (appRec c t.recvKey t.recvSeq (rtHandshake :: hsFrame hsCertificateVerify sig.val)) t =
      ({ t with
          recvSeq := t.recvSeq + 1, thbuf := t.thbuf ++ hsFrame hsCertificateVerify sig.val
          wantHs := hsFinished }, [], 0) := by
  have hfit : t.thbuf.length + (hsFrame hsCertificateVerify sig.val).length ≤ 512 := by
    rw [hsFrame_length, Arr.length]
    omega
  rw [btlsFeed_sealed c t _ _ _ _ hepoch rfl rfl (by simp),
    (feedHs_frame c { t with recvSeq := t.recvSeq + 1 } _ _ (by simp)).2.2.1 hrole hwant,
    feedCertVerify_ok _ _ _ (by exact hver) (by exact hfit)]

theorem takes_serverFin (hrole : t.role = .client) (hwant : t.wantHs = hsFinished)
    (hth : t.thbuf.length ≤ 400) :
    let frame := hsFrame hsFinished (keyOf c t.prk t.thbuf (ascii "btls-fin-s")).val
    btlsFeed c (appRec c t.recvKey t.recvSeq (rtHandshake :: frame)) t =
      ({ t with recvSeq := t.recvSeq + 1, thbuf := t.thbuf ++ frame, wantHs := 0 }, [], 0) := by
  intro frame
  have hfit : t.thbuf.length + frame.length ≤ 512 := by
    rw [hsFrame_length, Arr.length]
    omega
  have hfin := feedServerFin_ok (c := c) { t with recvSeq := t.recvSeq + 1 } frame (by exact hfit)
  rw [btlsFeed_sealed c t _ _ _ _ hepoch rfl rfl (by simp),
    (feedHs_frame c { t with recvSeq := t.recvSeq + 1 } _ _ (by simp)).2.2.2 hrole hwant, hfin]

theorem takes_fin (hrole : t.role = .server) (hst : t.state = .waitFin) (hth : t.thbuf.length ≤ 400) :
    let frame := hsFrame hsFinished (keyOf c t.prk t.thbuf (ascii "btls-fin-c")).val
    let th := t.thbuf ++ frame
    btlsFeed c (appRec c t.recvKey t.recvSeq (rtHandshake :: frame)) t =
      ({ t with
          thbuf := th
          sendKey := keyOf c t.prk th (ascii "btls-app-s2c"), recvKey := keyOf c t.prk th (ascii "btls-app-c2s")
          sendSeq := 0, recvSeq := 0, epoch := 2, state := .done },
        [.install (ascii "btls-app-c2s") (ascii "btls-app-s2c") th
          (keyOf c t.prk th (ascii "btls-app-c2s")) (keyOf c t.prk th (ascii "btls-app-s2c"))], 1) := by
  intro frame th
  have hfit : t.thbuf.length + frame.length ≤ 512 := by
    rw [hsFrame_length, Arr.length]
    omega
  have hfin := feedFin_ok (c := c) { t with recvSeq := t.recvSeq + 1 } frame hrole hst (by exact hfit)
  rw [btlsFeed_sealed c t _ _ _ _ hepoch rfl rfl (by simp),
    (feedHs_frame c { t with recvSeq := t.recvSeq + 1 } _ _ (by simp)).1 hrole]
  exact hfin

end Takes

end Bite
