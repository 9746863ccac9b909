import BaitNet.BtlsSpec
import BaitNet.Runs

/-!
# What a call can do to a bTLS session

Each call of `btls.c`, whatever its arguments and whatever the state, has one of a few
outcomes.
-/
namespace Bite

open Wire Crypto Runs

/-- The transcript after a frame. -/
def thAfter (th frame : Bytes) : Bytes := if th.length + frame.length ≤ 512 then th ++ frame else th

theorem thAppend_eq (t : Btls) (frame : Bytes) :
    thAppend t frame = { t with thbuf := thAfter t.thbuf frame } := by
  rw [thAppend, thAfter]
  split
  · rfl
  · rfl

theorem thAfter_fits {th frame : Bytes} (h : th.length + frame.length ≤ 512) :
    thAfter th frame = th ++ frame := if_pos h

theorem put16_get16 (x y : UInt8) (q : Bytes) : put16 (get16 (x :: y :: q) 0) = [x, y] := by
  have hx : x.toNat < 2 ^ 8 := x.toNat_lt
  have hy : y.toNat < 2 ^ 8 := y.toNat_lt
  have hlo : byteAt (x :: y :: q) 0 = x := rfl
  have hhi : byteAt (x :: y :: q) 1 = y := rfl
  rw [get16_eq, hlo, hhi, put16, UInt16.toNat_ofNat_of_lt' (by rw [UInt16.size]; omega), List.cons.injEq, List.cons.injEq]
  constructor
  · rw [← UInt8.toNat_inj, UInt8.toNat_ofNat']
    omega
  · constructor
    · rw [← UInt8.toNat_inj, UInt8.toNat_ofNat']
      omega
    · rfl

/-- What a record is taken to carry is a frame with its type and its length. -/
theorem take_frame (p : Bytes) (hlen : 3 + (get16 p 1).toNat ≤ p.length) :
    p.take (3 + (get16 p 1).toNat) = hsFrame (byteAt p 0) (slice p 3 (get16 p 1).toNat) := by
  cases p with
  | nil =>
    rw [List.length_nil] at hlen
    omega
  | cons a p =>
    cases p with
    | nil =>
      rw [List.length_singleton] at hlen
      omega
    | cons x p =>
      cases p with
      | nil =>
        simp only [List.length_cons, List.length_nil] at hlen
        omega
      | cons y q =>
        have hget : get16 (a :: x :: y :: q) 1 = get16 (x :: y :: q) 0 := by
          rw [get16_eq, get16_eq]
          rfl
        have htake : (a :: x :: y :: q).take (3 + (get16 (x :: y :: q) 0).toNat) =
            a :: x :: y :: q.take (get16 (x :: y :: q) 0).toNat := by
          rw [Nat.add_comm, List.take_succ_cons, List.take_succ_cons, List.take_succ_cons]
        have hbody : slice (a :: x :: y :: q) 3 (get16 (x :: y :: q) 0).toNat =
            q.take (get16 (x :: y :: q) 0).toNat := by
          rw [hget] at hlen
          simp only [List.length_cons] at hlen
          rw [slice]
          exact List.takeD_eq_take _ (by simp only [List.drop_succ_cons, List.drop_zero]; omega)
        have hput := put16_get16 x y q
        rw [hget, htake, hsFrame, slice_length, UInt16.ofNat_toNat, hput, hbody]
        rfl

variable (c : TweetNaCl)

/-- The handshake frame that a record brings, in the clear or sealed. -/
def fedFrame (rec : Bytes) (t : Btls) : Bytes :=
  if t.epoch = 0 then rec.drop 3
  else
    match (openRec c t rec).2 with
    | none => []
    | some inner => (inner.drop 1).take (3 + (get16 (inner.drop 1) 1).toNat)

/-- The shape that the receiver of a hello checks. -/
def IsHello (type : UInt8) (p : Bytes) : Prop := byteAt p 0 = type ∧ p.length = 67 ∧ byteAt p 2 = 64

/-- The keys of an epoch as they are installed. -/
def epochKeys (prk : Arr 64) (th lC2s lS2c : Bytes) : Act :=
  .install lC2s lS2c th (keyOf c prk th lC2s) (keyOf c prk th lS2c)

inductive FeedOutcome (t : Btls) (frame : Bytes) : Btls × List Act × Int → Prop where
  /-- a certificate may have been looked at -/
  | refused (n : UInt64) (pub : Arr 32)
      (hpub : pub = t.certPub ∨ t.role = .client ∧ t.epoch ≠ 0 ∧ t.wantHs = hsCertificate) :
      FeedOutcome t frame ({ t with recvSeq := n, certPub := pub }, [], -1)
  | clientHello (hrole : t.role = .server) (hst : t.state = .init) (hepoch : t.epoch = 0)
      (hshape : IsHello hsClientHello frame) :
      FeedOutcome t frame
        ({ t with
            peerEph := arr frame 35 32, thbuf := thAfter t.thbuf frame, state := .hs
            wantHs := hsServerHello }, [], 0)
  | serverHello (hrole : t.role = .client) (hst : t.state = .chSent) (hepoch : t.epoch = 0)
      (hshape : IsHello hsServerHello frame) (th : Bytes) (hth : th = thAfter t.thbuf frame)
      (prk : Arr 64) (hprk : prk = prkOf c t.ephPriv (arr frame 35 32)) :
      FeedOutcome t frame
        ({ t with
            peerEph := arr frame 35 32, thbuf := th, prk := prk
            sendKey := keyOf c prk th (ascii "btls-hs-c2s"), recvKey := keyOf c prk th (ascii "btls-hs-s2c")
            sendSeq := 0, recvSeq := 0, epoch := 1, state := .hs, wantHs := hsCertificate },
          [epochKeys c prk th (ascii "btls-hs-c2s") (ascii "btls-hs-s2c")], 0)
  | cert (n : UInt64) (pub : Arr 32) (hrole : t.role = .client) (hepoch : t.epoch ≠ 0)
      (hwant : t.wantHs = hsCertificate) (hframe : frame = hsFrame hsCertificate pub.val)
      (hlabel : byteAt t.expectLabel 0 ≠ 0 → baitLabelFromPub c pub = t.expectLabel) :
      FeedOutcome t frame
        ({ t with
            recvSeq := n, certPub := pub, thbuf := thAfter t.thbuf frame
            wantHs := hsCertificateVerify }, [], 0)
  | certVerify (n : UInt64) (sig : Arr 64) (hrole : t.role = .client) (hepoch : t.epoch ≠ 0)
      (hwant : t.wantHs = hsCertificateVerify) (hframe : frame = hsFrame hsCertificateVerify sig.val)
      (hver : ed25519Verify c (certDigest c t).val sig t.certPub = true) :
      FeedOutcome t frame
        ({ t with recvSeq := n, thbuf := thAfter t.thbuf frame, wantHs := hsFinished }, [], 0)
  | serverFin (n : UInt64) (hrole : t.role = .client) (hepoch : t.epoch ≠ 0)
      (hwant : t.wantHs = hsFinished)
      (hframe : frame = hsFrame hsFinished (finishedMac c t (ascii "btls-fin-s")).val) :
      FeedOutcome t frame ({ t with recvSeq := n, thbuf := thAfter t.thbuf frame, wantHs := 0 }, [], 0)
  | clientFin (hrole : t.role = .server) (hst : t.state = .waitFin) (hepoch : t.epoch ≠ 0)
      (hframe : frame = hsFrame hsFinished (finishedMac c t (ascii "btls-fin-c")).val)
      (th : Bytes) (hth : th = thAfter t.thbuf frame) :
      FeedOutcome t frame
        ({ t with
            thbuf := th
            sendKey := keyOf c t.prk th (ascii "btls-app-s2c"), recvKey := keyOf c t.prk th (ascii "btls-app-c2s")
            sendSeq := 0, recvSeq := 0, epoch := 2, state := .done },
          [epochKeys c t.prk th (ascii "btls-app-c2s") (ascii "btls-app-s2c")], 1)

variable {c} {t : Btls}

theorem FeedOutcome.unchanged {frame : Bytes} : FeedOutcome c t frame (t, [], -1) :=
  .refused t.recvSeq t.certPub (.inl rfl)

theorem feedHello_outcome (p : Bytes) (hepoch : t.epoch = 0) : FeedOutcome c t p (feedHello c t p) := by
  rw [feedHello]
  split
  · rename_i hserver
    split
    · exact .unchanged
    · rename_i hshape
      have hhello : IsHello hsClientHello p := by simpa [IsHello, not_or] using hshape
      rw [thAppend_eq]
      exact .clientHello hserver.1 hserver.2 hepoch hhello
  · split
    · rename_i hclient
      obtain ⟨hrole, hst, hwant⟩ := hclient
      split
      · exact .unchanged
      · rename_i hshape
        have hhello : IsHello hsServerHello p := by simpa [IsHello, not_or] using hshape
        dsimp only
        rw [thAppend_eq]
        dsimp only [ecdhPrk]
        rw [installEpoch_client _ (by exact hrole)]
        exact .serverHello hrole hst hepoch hhello _ rfl _ rfl
    · exact .unchanged

/-- A body of the wanted length is an array. -/
theorem exists_arr {n : Nat} {body : Bytes} (h : body.length = n) : ∃ a : Arr n, a.val = body :=
  ⟨⟨body, h⟩, rfl⟩

section Handlers

variable (n : UInt64) (type : UInt8) (body : Bytes) (hepoch : t.epoch ≠ 0)
include hepoch

theorem feedFin_outcome (hrole : t.role = .server) :
    FeedOutcome c t (hsFrame type body) (feedFin c { t with recvSeq := n } type body (hsFrame type body)) := by
  rw [feedFin]
  split
  · exact .refused n t.certPub (.inl rfl)
  · rename_i hshape
    split
    · exact .refused n t.certPub (.inl rfl)
    · rename_i hmac
      simp only [not_or, not_not] at hshape hmac
      obtain ⟨hst, rfl, -⟩ := hshape
      subst hmac
      rw [thAppend_eq, installEpoch_server _ (by exact hrole)]
      exact .clientFin hrole hst hepoch rfl _ rfl

variable (hrole : t.role = .client)
include hrole

theorem feedCert_outcome (hwant : t.wantHs = hsCertificate) :
    FeedOutcome c t (hsFrame type body)
      ((feedCert c { t with recvSeq := n } type body (hsFrame type body)).1, [],
        (feedCert c { t with recvSeq := n } type body (hsFrame type body)).2) := by
  rw [feedCert]
  split
  · exact .refused n t.certPub (.inl rfl)
  · rename_i hshape
    simp only [not_or, not_not] at hshape
    obtain ⟨rfl, hlen⟩ := hshape
    obtain ⟨pub, rfl⟩ := exists_arr hlen
    dsimp only
    rw [arr_self]
    split
    · exact .refused n pub (.inr ⟨hrole, hepoch, hwant⟩)
    · rename_i hlabel
      rw [thAppend_eq]
      apply FeedOutcome.cert n pub hrole hepoch hwant rfl
      intro hpinned
      by_contra hne
      exact hlabel ⟨hpinned, hne⟩

theorem feedCertVerify_outcome (hwant : t.wantHs = hsCertificateVerify) :
    FeedOutcome c t (hsFrame type body)
      ((feedCertVerify c { t with recvSeq := n } type body (hsFrame type body)).1, [],
        (feedCertVerify c { t with recvSeq := n } type body (hsFrame type body)).2) := by
  rw [feedCertVerify]
  split
  · exact .refused n t.certPub (.inl rfl)
  · rename_i hshape
    simp only [not_or, not_not] at hshape
    obtain ⟨rfl, hlen⟩ := hshape
    obtain ⟨sig, rfl⟩ := exists_arr hlen
    rw [arr_self]
    split
    · exact .refused n t.certPub (.inl rfl)
    · rename_i hver
      rw [thAppend_eq]
      exact .certVerify n sig hrole hepoch hwant rfl (Bool.eq_true_of_not_eq_false hver)

theorem feedServerFin_outcome (hwant : t.wantHs = hsFinished) :
    FeedOutcome c t (hsFrame type body)
      ((feedServerFin c { t with recvSeq := n } type body (hsFrame type body)).1, [],
        (feedServerFin c { t with recvSeq := n } type body (hsFrame type body)).2) := by
  rw [feedServerFin]
  split
  · exact .refused n t.certPub (.inl rfl)
  · rename_i hshape
    split
    · exact .refused n t.certPub (.inl rfl)
    · rename_i hmac
      simp only [not_or, not_not] at hshape hmac
      obtain ⟨rfl, -⟩ := hshape
      subst hmac
      rw [thAppend_eq]
      exact .serverFin n hrole hepoch hwant rfl

end Handlers

theorem feedHs_outcome (n : UInt64) (p : Bytes) (hepoch : t.epoch ≠ 0) :
    FeedOutcome c t (p.take (3 + (get16 p 1).toNat)) (feedHs c { t with recvSeq := n } p) := by
  have hrefused : FeedOutcome c t (p.take (3 + (get16 p 1).toNat)) ({ t with recvSeq := n }, [], -1) :=
    .refused n t.certPub (.inl rfl)
  rw [feedHs]
  split
  · exact hrefused
  · dsimp only
    split
    · exact hrefused
    · rename_i hlen
      rw [take_frame p (Nat.not_lt.mp hlen)] at hrefused ⊢
      generalize slice p 3 (get16 p 1).toNat = body at hrefused ⊢
      generalize byteAt p 0 = type at hrefused ⊢
      split
      · rename_i hrole
        exact feedFin_outcome n type body hepoch hrole
      · rename_i hrole
        split
        · rename_i hwant
          exact feedCert_outcome n type body hepoch hrole hwant
        · split
          · rename_i hwant
            exact feedCertVerify_outcome n type body hepoch hrole hwant
          · split
            · rename_i hwant
              exact feedServerFin_outcome n type body hepoch hrole hwant
            · exact hrefused

theorem openRec_fst (c : TweetNaCl) (t : Btls) (rec : Bytes) :
    ∃ n, (openRec c t rec).1 = { t with recvSeq := n } := by
  rw [openRec]
  split
  · exact ⟨t.recvSeq, rfl⟩
  · dsimp only
    split
    · exact ⟨t.recvSeq, rfl⟩
    · exact ⟨t.recvSeq + 1, rfl⟩

theorem btlsFeed_outcome (c : TweetNaCl) (rec : Bytes) (t : Btls) :
    FeedOutcome c t (fedFrame c rec t) (btlsFeed c rec t) := by
  rw [btlsFeed]
  split
  · exact .unchanged
  · dsimp only
    split
    · exact .unchanged
    · rw [fedFrame]
      split
      · rename_i hepoch
        split
        · exact .unchanged
        · exact feedHello_outcome _ hepoch
      · rename_i hepoch
        obtain ⟨n, hn⟩ := openRec_fst c t rec
        cases hopen : openRec c t rec with
        | mk t' inner =>
          rw [hopen] at hn
          dsimp only at hn
          subst hn
          cases inner with
          | none => exact .refused n t.certPub (.inl rfl)
          | some inner =>
            dsimp only
            split
            · exact .refused n t.certPub (.inl rfl)
            · exact feedHs_outcome n _ hepoch

variable (c t)

inductive PumpOutcome : Btls × List Act × Int × Bytes → Prop where
  | idle : PumpOutcome (t, [], 0, [])
  | hello (hrole : t.role = .server) (hst : t.state = .hs) (hwant : t.wantHs = hsServerHello)
      (rnd : Arr 32) (th : Bytes) (prk : Arr 64) (rec : Bytes) :
      PumpOutcome
        ({ t with
            random := rnd, thbuf := th, prk := prk
            sendKey := keyOf c prk th (ascii "btls-hs-s2c"), recvKey := keyOf c prk th (ascii "btls-hs-c2s")
            sendSeq := 0, recvSeq := 0, epoch := 1, wantHs := hsCertificate },
          [epochKeys c prk th (ascii "btls-hs-c2s") (ascii "btls-hs-s2c")], 1, rec)
  | flight (hrole : t.role = .server) (hst : t.state = .hs) (hwant : t.wantHs ≠ hsServerHello)
      (th : Bytes) (state : St) (wantHs : UInt8) (inner rec : Bytes)
      (hnext : state = .hs ∧ wantHs ≠ hsServerHello ∨ state = .waitFin) :
      PumpOutcome
        ({ t with thbuf := th, state, wantHs, sendSeq := t.sendSeq + 1 },
          [.seal t.sendKey t.sendSeq inner], 1, rec)
  | clientFin (hrole : t.role = .client) (hst : t.state = .hs) (hwant : t.wantHs = 0)
      (th : Bytes) (inner rec : Bytes) :
      PumpOutcome
        ({ t with
            thbuf := th
            sendKey := keyOf c t.prk th (ascii "btls-app-c2s"), recvKey := keyOf c t.prk th (ascii "btls-app-s2c")
            sendSeq := 0, recvSeq := 0, epoch := 2, state := .done },
          [.seal t.sendKey t.sendSeq inner,
            epochKeys c t.prk th (ascii "btls-app-c2s") (ascii "btls-app-s2c")], 1, rec)

inductive SendOutcome : Btls × List Act × Int × Bytes → Prop where
  | refused : SendOutcome (t, [], -1, [])
  | sealed (hst : t.state = .done) (hepoch : t.epoch = 2) (ptr len off : Nat) (inner rec : Bytes)
      (ret : Int) :
      SendOutcome
        ({ t with txMsg := ptr, txLen := len, txOff := off, sendSeq := t.sendSeq + 1 },
          [.seal t.sendKey t.sendSeq inner], ret, rec)

inductive RecvOutcome : Btls → Prop where
  | refused : RecvOutcome t
  | opened (hst : t.state = .done) (hepoch : t.epoch = 2) (n : UInt64) (rxLen : Nat) :
      RecvOutcome { t with recvSeq := n, rxLen := rxLen }

variable {c t}

/-- The frames of the flight and of the answer always fit a record. -/
theorem emitHs_outcome (body : Bytes) (type : UInt8) (state : St) (wantHs : UInt8)
    (hlen : body.length ≤ 64) (hrole : t.role = .server) (hst : t.state = .hs)
    (hwant : t.wantHs ≠ hsServerHello)
    (hnext : state = .hs ∧ wantHs ≠ hsServerHello ∨ state = .waitFin) :
    PumpOutcome c t (emitHs c t (hsFrame type body) state wantHs) := by
  have hinner : (rtHandshake :: hsFrame type body).length ≤ 2 + btlsMaxPayload := by
    rw [List.length_cons, hsFrame_length, btlsMaxPayload]
    omega
  rw [emitHs, thAppend_eq, sealHs, sealBox_eq c _ _ hinner]
  exact .flight hrole hst hwant _ state wantHs _ _ hnext

theorem btlsPump_outcome (c : TweetNaCl) (rnd : Arr 32) (t : Btls) :
    PumpOutcome c t (btlsPump c rnd t) := by
  rw [btlsPump]
  split
  · rename_i hserver
    obtain ⟨hrole, hst⟩ := hserver
    split
    · rename_i hwant
      dsimp only
      rw [thAppend_eq]
      dsimp only [ecdhPrk]
      rw [installEpoch_server _ (by exact hrole)]
      exact .hello hrole hst hwant rnd _ _ _
    · rename_i hwant
      split
      · exact emitHs_outcome _ _ _ _ (by simp) hrole hst hwant (.inl ⟨rfl, by decide⟩)
      · split
        · exact emitHs_outcome _ _ _ _ (by simp) hrole hst hwant (.inl ⟨rfl, by decide⟩)
        · split
          · exact emitHs_outcome _ _ _ _ (by simp) hrole hst hwant (.inr rfl)
          · exact .idle
  · split
    · rename_i hclient
      obtain ⟨hrole, hst, hwant⟩ := hclient
      have hinner : (rtHandshake :: hsFrame hsFinished
          (finishedMac c t (ascii "btls-fin-c")).val).length ≤ 2 + btlsMaxPayload := by
        rw [List.length_cons, hsFrame_length, btlsMaxPayload, Arr.length]
        omega
      dsimp only
      rw [thAppend_eq, sealHs, sealBox_eq c _ _ hinner]
      dsimp only
      rw [installEpoch_client _ (by exact hrole)]
      exact .clientFin hrole hst hwant _ _ _
    · exact .idle

/-- A fragment always fits a record. -/
theorem sealApp_chunk (flags : UInt8) (msg : Bytes) (off : Nat) :
    sealApp c t flags (slice msg off (sendChunk t)) =
      ({ t with sendSeq := t.sendSeq + 1 },
        [.seal t.sendKey t.sendSeq (rtApplication :: flags :: slice msg off (sendChunk t))],
        some (appRec c t.sendKey t.sendSeq (rtApplication :: flags :: slice msg off (sendChunk t)))) := by
  have hchunk : sendChunk t ≤ btlsMaxPayload := Nat.min_le_right _ _
  rw [sealApp, if_neg (by rw [slice_length]; omega), sealBox_eq]
  simp only [List.length_cons, slice_length]
  omega

theorem btlsSendApp_outcome (c : TweetNaCl) (ptr : Nat) (msg : Bytes) (t : Btls) :
    SendOutcome t (btlsSendApp c ptr msg t) := by
  rw [btlsSendApp]
  split
  · exact .refused
  · rename_i hready
    simp only [not_or, not_not] at hready
    obtain ⟨-, hst, hepoch, -⟩ := hready
    split
    · exact .refused
    · have hloaded : ∃ ptr' len off, (if t.txMsg = 0 then { t with txMsg := ptr, txLen := msg.length, txOff := 0 }
          else t) = { t with txMsg := ptr', txLen := len, txOff := off } := by
        split
        · exact ⟨_, _, _, rfl⟩
        · exact ⟨_, _, _, rfl⟩
      obtain ⟨ptr', len, off, hload⟩ := hloaded
      dsimp only
      rw [hload, sealApp_chunk]
      dsimp only
      split
      · exact .sealed hst hepoch ptr' len _ _ _ _
      · exact .sealed hst hepoch 0 len 0 _ _ _

theorem btlsRecvApp_outcome (c : TweetNaCl) (rec msg : Bytes) (t : Btls) :
    RecvOutcome t (btlsRecvApp c rec msg t).1 := by
  rw [btlsRecvApp]
  split
  · exact .refused
  · rename_i hready
    simp only [not_or, not_not] at hready
    obtain ⟨hst, hepoch⟩ := hready
    obtain ⟨n, hn⟩ := openRec_fst c t rec
    cases hopen : openRec c t rec with
    | mk t' inner =>
      rw [hopen] at hn
      dsimp only at hn
      subst hn
      cases inner with
      | none => exact .opened hst hepoch n 0
      | some inner =>
        dsimp only
        split
        · exact .opened hst hepoch n 0
        · split
          · exact .opened hst hepoch n 0
          · split
            · exact .opened hst hepoch n 0
            · exact .opened hst hepoch n _

/-- A session, what its calls did, each with the epoch in which the call was made, and
the handshake frames that it took. -/
structure Sess where
  t : Btls
  log : List (Nat × Act)
  heard : List Bytes

inductive SessEv where
  | start (rnd : Arr 32)
  | feed (rec : Bytes)
  | pump (rnd : Arr 32)
  | send (ptr : Nat) (msg : Bytes)
  | recv (rec msg : Bytes)

variable (c)

def Sess.called (s : Sess) (t : Btls) (acts : List Act) (heard : List Bytes) : Sess :=
  ⟨t, s.log ++ acts.map (s.t.epoch, ·), s.heard ++ heard⟩

def sessStep (s : Sess) : SessEv → Sess
  | .start rnd => s.called (btlsClientStart rnd s.t).1 [] []
  | .feed rec =>
    let (t, acts, ret) := btlsFeed c rec s.t
    s.called t acts (if ret = -1 then [] else [fedFrame c rec s.t])
  | .pump rnd =>
    let (t, acts, _) := btlsPump c rnd s.t
    s.called t acts []
  | .send ptr msg =>
    let (t, acts, _) := btlsSendApp c ptr msg s.t
    s.called t acts []
  | .recv rec msg => s.called (btlsRecvApp c rec msg s.t).1 [] []

def freshSess (t : Btls) : Sess := ⟨t, [], []⟩

variable {c}

/-- A property that the outcome of every call keeps is kept by every step. -/
theorem sessStep_inv {I : Sess → Prop} (s : Sess)
    (hstart : ∀ rnd, s.t.role = .client → s.t.state = .init →
      I (s.called { s.t with
        random := rnd, thbuf := thAfter s.t.thbuf (hello hsClientHello { s.t with random := rnd })
        state := .chSent, wantHs := hsServerHello } [] []))
    (hfeed : ∀ frame r, FeedOutcome c s.t frame r →
      I (s.called r.1 r.2.1 (if r.2.2 = -1 then [] else [frame])))
    (hpump : ∀ r, PumpOutcome c s.t r → I (s.called r.1 r.2.1 []))
    (hsend : ∀ r, SendOutcome s.t r → I (s.called r.1 r.2.1 []))
    (hrecv : ∀ t, RecvOutcome s.t t → I (s.called t [] [])) (e : SessEv) : I (sessStep c s e) := by
  cases e with
  | start rnd =>
    have hsame := hrecv s.t .refused
    rw [sessStep, btlsClientStart]
    split
    · exact hsame
    · rename_i hready
      simp only [not_or, not_not] at hready
      dsimp only
      rw [thAppend_eq]
      exact hstart rnd hready.1 hready.2
  | feed rec => exact hfeed _ _ (btlsFeed_outcome c rec s.t)
  | pump rnd => exact hpump _ (btlsPump_outcome c rnd s.t)
  | send ptr msg => exact hsend _ (btlsSendApp_outcome c ptr msg s.t)
  | recv rec msg => exact hrecv _ (btlsRecvApp_outcome c rec msg s.t)

end Bite
