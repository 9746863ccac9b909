import BaitNet.BtlsCalls

/-!
# The name a bTLS client insists on

Whatever a client is fed, it has its keys for application data only once the other side
has shown the key of the expected name.
-/
namespace Bite

open Wire Crypto Runs

/-- The label of a `.bait` name, a C string of 32 characters. -/
structure BaitLabel where
  chars : Bytes
  length_eq : chars.length = baitLabelLen
  no_nul : ∀ x ∈ chars, x ≠ 0

theorem BaitLabel.pinned (l : BaitLabel) : byteAt l.chars 0 ≠ 0 := by
  have hlen := l.length_eq
  have hchars := l.no_nul
  cases hl : l.chars with
  | nil =>
    rw [hl] at hlen
    cases hlen
  | cons x xs =>
    rw [hl] at hchars
    exact hchars x List.mem_cons_self

def certFrame (pub : Arr 32) : Bytes := hsFrame hsCertificate pub.val
def certVerifyFrame (sig : Arr 64) : Bytes := hsFrame hsCertificateVerify sig.val

@[simp] theorem certFrame_length (pub : Arr 32) : (certFrame pub).length = 35 := by simp [certFrame]
@[simp] theorem certVerifyFrame_length (sig : Arr 64) : (certVerifyFrame sig).length = 67 := by
  simp [certVerifyFrame]

variable (c : TweetNaCl) (l : BaitLabel)

/-- A signature under `pub` over the transcript `th`. -/
def VerifiesOver (pub : Arr 32) (sig : Arr 64) (th : Bytes) : Prop :=
  ed25519Verify c (ed25519Sha512 c (ascii "btls/1.0-cert-verify" ++ th)).val sig pub = true

def serverFinFrame (prk : Arr 64) (th : Bytes) : Bytes :=
  hsFrame hsFinished (keyOf c prk th (ascii "btls-fin-s")).val

@[simp] theorem serverFinFrame_length (prk : Arr 64) (th : Bytes) :
    (serverFinFrame c prk th).length = 35 := by simp [serverFinFrame]

/-- What the frames taken so far have shown, and the frame that is due after them. -/
inductive Shown (ch : Bytes) (priv : Arr 32) (prk : Arr 64) (certPub : Arr 32) :
    UInt8 → List Bytes → Prop where
  | serverHello (sh : Bytes) (hsh : IsHello hsServerHello sh) (hprk : prk = prkOf c priv (arr sh 35 32)) :
      Shown ch priv prk certPub hsCertificate [sh]
  | cert (sh : Bytes) (hsh : IsHello hsServerHello sh) (hprk : prk = prkOf c priv (arr sh 35 32))
      (hname : baitLabelFromPub c certPub = l.chars) :
      Shown ch priv prk certPub hsCertificateVerify [sh, certFrame certPub]
  | certVerify (sh : Bytes) (hsh : IsHello hsServerHello sh) (hprk : prk = prkOf c priv (arr sh 35 32))
      (pub : Arr 32) (hname : baitLabelFromPub c pub = l.chars) (sig : Arr 64)
      (hver : VerifiesOver c pub sig (ch ++ sh ++ certFrame pub)) :
      Shown ch priv prk certPub hsFinished [sh, certFrame pub, certVerifyFrame sig]
  | serverFin (sh : Bytes) (hsh : IsHello hsServerHello sh) (hprk : prk = prkOf c priv (arr sh 35 32))
      (pub : Arr 32) (hname : baitLabelFromPub c pub = l.chars) (sig : Arr 64)
      (hver : VerifiesOver c pub sig (ch ++ sh ++ certFrame pub)) :
      Shown ch priv prk certPub 0
        [sh, certFrame pub, certVerifyFrame sig,
          serverFinFrame c prk (ch ++ sh ++ certFrame pub ++ certVerifyFrame sig)]

/-- How far a client has come with the frames that it took. -/
inductive Stage (t : Btls) (heard : List Bytes) : Prop where
  | init (hst : t.state = .init) (hepoch : t.epoch = 0) (hth : t.thbuf = []) (hheard : heard = [])
  | chSent (hst : t.state = .chSent) (hepoch : t.epoch = 0) (hth : t.thbuf = hello hsClientHello t)
      (hheard : heard = [])
  | hs (hst : t.state = .hs) (hepoch : t.epoch = 1)
      (hth : t.thbuf = hello hsClientHello t ++ heard.flatten)
      (hshown : Shown c l (hello hsClientHello t) t.ephPriv t.prk t.certPub t.wantHs heard)
  | done (hst : t.state = .done) (hepoch : t.epoch = 2) (hwant : t.wantHs = 0)
      (hshown : Shown c l (hello hsClientHello t) t.ephPriv t.prk t.certPub 0 heard)

/-- A client that insists on the name `l`. -/
structure Pinning (s : Sess) : Prop where
  client : s.t.role = .client
  label : s.t.expectLabel = l.chars
  stage : Stage c l s.t s.heard

@[simp] theorem hello_length (type : UInt8) (t : Btls) : (hello type t).length = 67 := by
  simp [hello]

variable {c l}

/-- The certificate that is kept matters only between the two frames about it. -/
theorem Shown.certPub {ch : Bytes} {priv : Arr 32} {prk : Arr 64} {pub : Arr 32} {want : UInt8}
    {heard : List Bytes} (h : Shown c l ch priv prk pub want heard) (pub' : Arr 32)
    (hpub : pub' = pub ∨ want = hsCertificate) : Shown c l ch priv prk pub' want heard := by
  obtain rfl | hwant := hpub
  · exact h
  · cases h with
    | serverHello sh hsh hprk => exact .serverHello sh hsh hprk
    | cert sh hsh hprk hname => exact absurd hwant (by decide)
    | certVerify sh hsh hprk pub hname sig hver => exact absurd hwant (by decide)
    | serverFin sh hsh hprk pub hname sig hver => exact absurd hwant (by decide)

/-- A call after which the same frames count as taken. -/
theorem Stage.kept {t : Btls} {heard : List Bytes} (h : Stage c l t heard) (n m : UInt64)
    (ptr len off rx : Nat) (pub : Arr 32)
    (hpub : pub = t.certPub ∨ t.epoch ≠ 0 ∧ t.wantHs = hsCertificate) :
    Stage c l { t with
      recvSeq := n, sendSeq := m, certPub := pub, txMsg := ptr, txLen := len, txOff := off, rxLen := rx }
      (heard ++ []) := by
  rw [List.append_nil]
  cases h with
  | init hst hepoch hth hheard => exact .init hst hepoch hth hheard
  | chSent hst hepoch hth hheard => exact .chSent hst hepoch hth hheard
  | hs hst hepoch hth hshown =>
    exact .hs hst hepoch hth (hshown.certPub pub (hpub.imp_right And.right))
  | done hst hepoch hwant hshown =>
    have hkept : pub = t.certPub ∨ (0 : UInt8) = hsCertificate := by
      rw [← hwant]
      exact hpub.imp_right And.right
    exact .done hst hepoch hwant (hshown.certPub pub hkept)

theorem IsHello.length {type : UInt8} {p : Bytes} (h : IsHello type p) : p.length = 67 := h.2.1

/-- Handshake frames are taken in the middle of a handshake only. -/
theorem Stage.shown {t : Btls} {heard : List Bytes} {want : UInt8} (h : Stage c l t heard)
    (hepoch : t.epoch ≠ 0) (hwant : t.wantHs = want) (hne : want ≠ 0) :
    t.state = .hs ∧ t.epoch = 1 ∧ t.thbuf = hello hsClientHello t ++ heard.flatten ∧
      Shown c l (hello hsClientHello t) t.ephPriv t.prk t.certPub want heard := by
  subst hwant
  cases h with
  | init _ h0 => exact absurd h0 hepoch
  | chSent _ h0 => exact absurd h0 hepoch
  | hs hst h1 hth hshown => exact ⟨hst, h1, hth, hshown⟩
  | done _ _ hzero => exact absurd hzero hne

theorem Stage.feed {t : Btls} {heard : List Bytes} (h : Stage c l t heard) (hrole : t.role = .client)
    (hlabel : t.expectLabel = l.chars) {frame : Bytes} {r : Btls × List Act × Int}
    (hr : FeedOutcome c t frame r) :
    Stage c l r.1 (heard ++ if r.2.2 = -1 then [] else [frame]) := by
  have hok : ¬ (0 : Int) = -1 := by decide
  cases hr with
  | refused n pub hpub => exact h.kept n _ _ _ _ _ pub (hpub.imp_right And.right)
  | clientHello hserver => exact absurd (hrole.symm.trans hserver) (by decide)
  | clientFin hserver => exact absurd (hrole.symm.trans hserver) (by decide)
  | serverHello _ hst hepoch hshape th hth prk hprk =>
    dsimp only
    rw [if_neg hok]
    cases h with
    | chSent _ _ hch hheard =>
      subst hheard
      have hfits : th = hello hsClientHello t ++ [frame].flatten := by
        rw [hth, hch, thAfter_fits (by rw [hello_length, hshape.length]; omega), List.flatten_singleton]
      exact .hs rfl rfl hfits (.serverHello frame hshape hprk)
    | init hst' => exact absurd (hst.symm.trans hst') (by decide)
    | hs hst' => exact absurd (hst.symm.trans hst') (by decide)
    | done hst' => exact absurd (hst.symm.trans hst') (by decide)
  | cert n pub _ hepoch hwant hframe hname =>
    obtain ⟨hst, hepoch, hth, hshown⟩ := h.shown hepoch hwant (by decide)
    dsimp only
    rw [if_neg hok]
    cases hshown with
    | serverHello sh hsh hprk =>
      have hfits : thAfter t.thbuf frame = hello hsClientHello t ++ ([sh] ++ [frame]).flatten := by
        subst hframe
        rw [hth, thAfter_fits]
        · simp
        · simp [hsh.length]
      have hpin : baitLabelFromPub c pub = l.chars := by
        rw [← hlabel]
        apply hname
        rw [hlabel]
        exact l.pinned
      subst hframe
      exact .hs hst hepoch hfits (.cert sh hsh hprk hpin)
  | certVerify n sig _ hepoch hwant hframe hver =>
    obtain ⟨hst, hepoch, hth, hshown⟩ := h.shown hepoch hwant (by decide)
    dsimp only
    rw [if_neg hok]
    cases hshown with
    | cert sh hsh hprk hname =>
      have hfits : thAfter t.thbuf frame =
          hello hsClientHello t ++ ([sh, certFrame t.certPub] ++ [frame]).flatten := by
        subst hframe
        rw [hth, thAfter_fits]
        · simp
        · simp [hsh.length]
      have hsigned : VerifiesOver c t.certPub sig (hello hsClientHello t ++ sh ++ certFrame t.certPub) := by
        rw [certDigest, hth] at hver
        simp only [List.flatten_cons, List.flatten_nil, List.append_nil] at hver
        rwa [VerifiesOver, List.append_assoc]
      subst hframe
      exact .hs hst hepoch hfits (.certVerify sh hsh hprk _ hname sig hsigned)
  | serverFin n _ hepoch hwant hframe =>
    obtain ⟨hst, hepoch, hth, hshown⟩ := h.shown hepoch hwant (by decide)
    dsimp only
    rw [if_neg hok]
    cases hshown with
    | certVerify sh hsh hprk pub hname sig hver =>
      have hall : t.thbuf = hello hsClientHello t ++ sh ++ certFrame pub ++ certVerifyFrame sig := by
        rw [hth]
        simp
      have hfin : frame = serverFinFrame c t.prk
          (hello hsClientHello t ++ sh ++ certFrame pub ++ certVerifyFrame sig) := by
        rw [hframe, serverFinFrame, ← hall]
        rfl
      have hfits : thAfter t.thbuf frame =
          hello hsClientHello t ++ ([sh, certFrame pub, certVerifyFrame sig] ++ [frame]).flatten := by
        rw [hfin, hth, thAfter_fits]
        · simp
        · simp [hsh.length]
      rw [hfin] at hfits ⊢
      exact .hs hst hepoch hfits (.serverFin sh hsh hprk pub hname sig hver)

/-- The keys for application data come from nowhere but the end of the handshake. -/
theorem Stage.pump {t : Btls} {heard : List Bytes} (h : Stage c l t heard) (hrole : t.role = .client)
    {r : Btls × List Act × Int × Bytes} (hr : PumpOutcome c t r) : Stage c l r.1 heard := by
  cases hr with
  | idle => exact h
  | hello hserver => exact absurd (hrole.symm.trans hserver) (by decide)
  | flight hserver => exact absurd (hrole.symm.trans hserver) (by decide)
  | clientFin _ hst hwant th inner rec =>
    cases h with
    | hs _ _ _ hshown =>
      rw [hwant] at hshown
      exact .done rfl rfl hwant hshown
    | init hst' => exact absurd (hst.symm.trans hst') (by decide)
    | chSent hst' => exact absurd (hst.symm.trans hst') (by decide)
    | done hst' => exact absurd (hst.symm.trans hst') (by decide)

theorem Stage.start {t : Btls} {heard : List Bytes} (h : Stage c l t heard) (rnd : Arr 32)
    (hst : t.state = .init) :
    Stage c l
      { t with
        random := rnd, thbuf := thAfter t.thbuf (hello hsClientHello { t with random := rnd })
        state := .chSent, wantHs := hsServerHello } heard := by
  cases h with
  | init _ hepoch hth hheard =>
    have hfits : thAfter t.thbuf (hello hsClientHello { t with random := rnd }) =
        hello hsClientHello { t with random := rnd } := by
      rw [hth, thAfter_fits (by simp), List.nil_append]
    exact .chSent rfl hepoch hfits hheard
  | chSent hst' => exact absurd (hst.symm.trans hst') (by decide)
  | hs hst' => exact absurd (hst.symm.trans hst') (by decide)
  | done hst' => exact absurd (hst.symm.trans hst') (by decide)

theorem pinning_step (s : Sess) (e : SessEv) (h : Pinning c l s) : Pinning c l (sessStep c s e) := by
  obtain ⟨hrole, hlabel, hstage⟩ := h
  have hquiet : ∀ t' acts, Stage c l t' s.heard → t'.role = s.t.role → t'.expectLabel = s.t.expectLabel →
      Pinning c l (s.called t' acts []) := by
    intro t' acts hs hr hl
    have hheard : (s.called t' acts []).heard = s.heard := List.append_nil s.heard
    rw [← hheard] at hs
    exact ⟨hr.trans hrole, hl.trans hlabel, hs⟩
  apply sessStep_inv s
  · intro rnd _ hst
    exact hquiet _ [] (hstage.start rnd hst) rfl rfl
  · intro frame r hr
    have hfed := hstage.feed hrole hlabel hr
    cases hr with
    | refused => exact ⟨hrole, hlabel, hfed⟩
    | clientHello => exact ⟨hrole, hlabel, hfed⟩
    | serverHello => exact ⟨hrole, hlabel, hfed⟩
    | cert => exact ⟨hrole, hlabel, hfed⟩
    | certVerify => exact ⟨hrole, hlabel, hfed⟩
    | serverFin => exact ⟨hrole, hlabel, hfed⟩
    | clientFin => exact ⟨hrole, hlabel, hfed⟩
  · intro r hr
    have hpumped := hstage.pump hrole hr
    cases hr with
    | idle => exact hquiet _ _ hpumped rfl rfl
    | hello => exact hquiet _ _ hpumped rfl rfl
    | flight => exact hquiet _ _ hpumped rfl rfl
    | clientFin => exact hquiet _ _ hpumped rfl rfl
  · intro r hr
    cases hr with
    | refused => exact hquiet _ _ hstage rfl rfl
    | sealed _ _ ptr len off => exact ⟨hrole, hlabel, hstage.kept _ _ ptr len off _ _ (.inl rfl)⟩
  · intro t' ht
    cases ht with
    | refused => exact hquiet _ _ hstage rfl rfl
    | opened _ _ n rx => exact ⟨hrole, hlabel, hstage.kept n _ _ _ _ rx _ (.inl rfl)⟩

variable (c l)

/-- A client that was told to expect the name `l`. -/
def pinnedClient (ephRnd : Arr 32) (sk : Option (Arr 64)) : Sess :=
  freshSess (btlsInit c .client ephRnd sk (some l.chars))

theorem pinning_init (ephRnd : Arr 32) (sk : Option (Arr 64)) : Pinning c l (pinnedClient c l ephRnd sk) :=
  ⟨rfl, btlsInit_label c ephRnd sk l.chars l.length_eq, .init rfl rfl rfl rfl⟩

/-- A client whose handshake is complete has taken a ServerHello, a certificate of the
name, a CertificateVerify under that key over CH, SH and CERT, and the server's
Finished, in this order and nothing else; before that no application data pass. -/
theorem name_pinned (ephRnd : Arr 32) (sk : Option (Arr 64)) (es : List SessEv) :
    let s := run (sessStep c) (pinnedClient c l ephRnd sk) es
    let ch := hello hsClientHello s.t
    (s.t.state = .done → ∃ (sh : Bytes) (pub : Arr 32) (sig : Arr 64),
      IsHello hsServerHello sh ∧ baitLabelFromPub c pub = l.chars ∧
      VerifiesOver c pub sig (ch ++ sh ++ certFrame pub) ∧
      s.heard = [sh, certFrame pub, certVerifyFrame sig,
        serverFinFrame c (prkOf c s.t.ephPriv (arr sh 35 32))
          (ch ++ sh ++ certFrame pub ++ certVerifyFrame sig)]) ∧
    (s.t.state ≠ .done → ∀ ptr msg rec buf,
      btlsSendApp c ptr msg s.t = (s.t, [], -1, []) ∧ btlsRecvApp c rec buf s.t = (s.t, buf, -1, 0)) := by
  intro s ch
  have hpin : Pinning c l s :=
    inv_run_all pinning_step _ es (pinning_init c l ephRnd sk)
  constructor
  · intro hdone
    have hshown : Shown c l ch s.t.ephPriv s.t.prk s.t.certPub 0 s.heard := by
      cases hpin.stage with
      | init hst => exact absurd (hdone.symm.trans hst) (by decide)
      | chSent hst => exact absurd (hdone.symm.trans hst) (by decide)
      | hs hst => exact absurd (hdone.symm.trans hst) (by decide)
      | done _ _ _ hshown => exact hshown
    generalize hheard : s.heard = heard at hshown
    cases hshown with
    | serverFin sh hsh hprk pub hname sig hver =>
      rw [hprk]
      exact ⟨sh, pub, sig, hsh, hname, hver, rfl⟩
  · intro hst ptr msg rec buf
    constructor
    · rw [btlsSendApp, if_pos (.inr (.inl hst))]
    · rw [btlsRecvApp, if_pos (.inl hst)]

end Bite
