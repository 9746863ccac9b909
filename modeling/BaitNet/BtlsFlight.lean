import BaitNet.BtlsSpec

/-!
# The bTLS flight between two honest sides

The messages that a client and a server with given identities, ephemerals and randoms
exchange, the state of each side after each of them, and one lemma a message: the
client takes the four records of the server's flight and answers, the server takes a
hello, sends its flight and takes the answer.
-/
namespace Bite

open Wire Crypto

variable (c : TweetNaCl)

/-- Identities, ephemerals and the client's random; the secret key of the server ends in
its public key. -/
structure Setup where
  clientSk : Option (Arr 64)
  serverSk : Arr 64
  ephC : Arr 32
  ephS : Arr 32
  rndC : Arr 32
  identity : arr serverSk.val 32 32 = c.seedToPk (arr serverSk.val 0 32)

variable {c} (p : Setup c) (rs : Arr 32)

namespace Setup

def pub : Arr 32 := arr p.serverSk.val 32 32

/-- The client is pinned to the server's label. -/
@[irreducible] def client : Btls := btlsInit c .client p.ephC p.clientSk (some (baitLabelFromPub c p.pub))

@[irreducible] def server : Btls := btlsInit c .server p.ephS (some p.serverSk) none

theorem client_fields : p.client.role = .client ∧ p.client.state = .init ∧ p.client.epoch = 0 ∧
    p.client.ephPriv = p.ephC ∧ p.client.ephPub = c.scalarmultBase p.ephC ∧ p.client.thbuf = [] ∧
    p.client.sendSeq = 0 ∧ p.client.recvSeq = 0 ∧ p.client.expectLabel = baitLabelFromPub c p.pub := by
  rw [client]
  refine ⟨rfl, rfl, rfl, rfl, rfl, rfl, rfl, rfl, ?_⟩
  exact btlsInit_label c _ _ _ (baitLabelFromPub_length c p.pub)

theorem initial_keys : p.client.sendKey = p.server.recvKey ∧ p.client.recvKey = p.server.sendKey := by
  rw [client, server]
  exact ⟨rfl, rfl⟩

theorem server_fields : p.server.role = .server ∧ p.server.state = .init ∧ p.server.epoch = 0 ∧
    p.server.ephPriv = p.ephS ∧ p.server.ephPub = c.scalarmultBase p.ephS ∧ p.server.thbuf = [] ∧
    p.server.sendSeq = 0 ∧ p.server.recvSeq = 0 ∧ p.server.sk = p.serverSk := by
  rw [server]
  exact ⟨rfl, rfl, rfl, rfl, rfl, rfl, rfl, rfl, rfl⟩

@[irreducible] def ch : Bytes := hsFrame hsClientHello (p.rndC.val ++ (c.scalarmultBase p.ephC).val)
@[irreducible] def sh : Bytes := hsFrame hsServerHello (rs.val ++ (c.scalarmultBase p.ephS).val)
@[irreducible] def th2 : Bytes := p.ch ++ p.sh rs
@[irreducible] def cert : Bytes := hsFrame hsCertificate p.pub.val
@[irreducible] def th3 : Bytes := p.th2 rs ++ p.cert

@[irreducible] def prk : Arr 64 := prkOf c p.ephC (c.scalarmultBase p.ephS)

/-- `derive_key` over the transcript `th`. -/
def key (th : Bytes) (label : String) : Arr 32 := keyOf c p.prk th (ascii label)

@[irreducible] def digest : Arr 64 := ed25519Sha512 c (ascii "btls/1.0-cert-verify" ++ p.th3 rs)
@[irreducible] def sig : Arr 64 := ed25519Sign c (p.digest rs).val p.serverSk
@[irreducible] def cv : Bytes := hsFrame hsCertificateVerify (p.sig rs).val
@[irreducible] def th4 : Bytes := p.th3 rs ++ p.cv rs
@[irreducible] def finS : Bytes := hsFrame hsFinished (p.key (p.th4 rs) "btls-fin-s").val
@[irreducible] def th5 : Bytes := p.th4 rs ++ p.finS rs
@[irreducible] def finC : Bytes := hsFrame hsFinished (p.key (p.th5 rs) "btls-fin-c").val
@[irreducible] def th6 : Bytes := p.th5 rs ++ p.finC rs

theorem ch_length : p.ch.length = 67 := by simp [ch]
theorem th2_length : (p.th2 rs).length = 134 := by simp [th2, ch, sh]
theorem th3_length : (p.th3 rs).length = 169 := by simp [th3, cert, th2_length]
theorem th4_length : (p.th4 rs).length = 236 := by simp [th4, cv, th3_length]
theorem th5_length : (p.th5 rs).length = 271 := by simp [th5, finS, th4_length]

/-- The keys of the two epochs. -/
def hsKeys : Act :=
  .install (ascii "btls-hs-c2s") (ascii "btls-hs-s2c") (p.th2 rs) (p.key (p.th2 rs) "btls-hs-c2s")
    (p.key (p.th2 rs) "btls-hs-s2c")

def appKeys : Act :=
  .install (ascii "btls-app-c2s") (ascii "btls-app-s2c") (p.th6 rs) (p.key (p.th6 rs) "btls-app-c2s")
    (p.key (p.th6 rs) "btls-app-s2c")

def rec0 : Bytes := helloRec p.ch

/-- The server's flight. -/
def flight : List Bytes :=
  [helloRec (p.sh rs),
    appRec c (p.key (p.th2 rs) "btls-hs-s2c") 0 (rtHandshake :: p.cert),
    appRec c (p.key (p.th2 rs) "btls-hs-s2c") 1 (rtHandshake :: p.cv rs),
    appRec c (p.key (p.th2 rs) "btls-hs-s2c") 2 (rtHandshake :: p.finS rs)]

def answer : Bytes := appRec c (p.key (p.th2 rs) "btls-hs-c2s") 0 (rtHandshake :: p.finC rs)

def client0 : Btls :=
  { p.client with random := p.rndC, thbuf := p.ch, state := .chSent, wantHs := hsServerHello }

def client1 : Btls :=
  { p.client0 with
    peerEph := c.scalarmultBase p.ephS, thbuf := p.th2 rs, prk := p.prk
    sendKey := p.key (p.th2 rs) "btls-hs-c2s", recvKey := p.key (p.th2 rs) "btls-hs-s2c"
    sendSeq := 0, recvSeq := 0, epoch := 1, state := .hs, wantHs := hsCertificate }

def client2 : Btls :=
  { p.client1 rs with
    certPub := p.pub, thbuf := p.th3 rs, wantHs := hsCertificateVerify, recvSeq := 1 }

def client3 : Btls := { p.client2 rs with thbuf := p.th4 rs, wantHs := hsFinished, recvSeq := 2 }

def client4 : Btls := { p.client3 rs with thbuf := p.th5 rs, wantHs := 0, recvSeq := 3 }

def client5 : Btls :=
  { p.client4 rs with
    thbuf := p.th6 rs, sendSeq := 0, recvSeq := 0
    sendKey := p.key (p.th6 rs) "btls-app-c2s", recvKey := p.key (p.th6 rs) "btls-app-s2c"
    epoch := 2, state := .done }

def server1 : Btls :=
  { p.server with
    peerEph := c.scalarmultBase p.ephC, thbuf := p.ch, state := .hs, wantHs := hsServerHello }

def server2 : Btls :=
  { p.server1 with
    random := rs, thbuf := p.th2 rs, prk := p.prk
    sendKey := p.key (p.th2 rs) "btls-hs-s2c", recvKey := p.key (p.th2 rs) "btls-hs-c2s"
    sendSeq := 0, recvSeq := 0, epoch := 1, wantHs := hsCertificate }

def server3 : Btls :=
  { p.server2 rs with thbuf := p.th3 rs, wantHs := hsCertificateVerify, sendSeq := 1 }

def server4 : Btls := { p.server3 rs with thbuf := p.th4 rs, wantHs := hsFinished, sendSeq := 2 }

def server5 : Btls := { p.server4 rs with thbuf := p.th5 rs, state := .waitFin, sendSeq := 3 }

def server6 : Btls :=
  { p.server5 rs with
    thbuf := p.th6 rs, sendSeq := 0, recvSeq := 0
    sendKey := p.key (p.th6 rs) "btls-app-s2c", recvKey := p.key (p.th6 rs) "btls-app-c2s"
    epoch := 2, state := .done }

theorem client_start : btlsClientStart p.rndC p.client = (p.client0, some p.rec0) := by
  obtain ⟨hrole, hstate, -, -, hpub, hempty, -⟩ := p.client_fields
  have hfits : thAppend { p.client with random := p.rndC } p.ch =
      { p.client with random := p.rndC, thbuf := p.ch } := by
    rw [thAppend_fits]
    · simp only [hempty, List.nil_append]
    · simp only [hempty, List.length_nil, ch_length]
      decide
  have hguard : ¬ (p.client.role ≠ .client ∨ p.client.state ≠ .init) := by
    rintro (h | h)
    · exact h hrole
    · exact h hstate
  have hhello : hello hsClientHello { p.client with random := p.rndC } = p.ch := by
    rw [hello, ch, hpub]
  rw [btlsClientStart, if_neg hguard]
  dsimp only
  rw [hhello, hfits, rec0]
  rfl

theorem client_takes_sh :
    btlsFeed c (helloRec (p.sh rs)) p.client0 = (p.client1 rs, [p.hsKeys rs], 0) := by
  obtain ⟨hrole, -, hepoch, hpriv, -, -, hss, hrs, -⟩ := p.client_fields
  have hfeed := btlsFeed_hello c p.client0 hsServerHello (rs.val ++ (c.scalarmultBase p.ephS).val)
    hepoch (by simp)
  have hlen : p.client0.thbuf.length ≤ 400 := p.ch_length.le.trans (by decide)
  have hth : p.client0.thbuf ++ p.sh rs = p.th2 rs := by
    rw [th2]
    rfl
  have hprk : prkOf c p.client0.ephPriv (c.scalarmultBase p.ephS) = p.prk := by
    rw [prk, ← hpriv]
    rfl
  rw [feedHello_client p.client0 rs (c.scalarmultBase p.ephS) hrole rfl rfl hlen, ← sh, hth, hprk]
    at hfeed
  rw [hfeed, hsKeys]
  rfl

theorem client_takes_cert :
    btlsFeed c (appRec c (p.key (p.th2 rs) "btls-hs-s2c") 0 (rtHandshake :: p.cert)) (p.client1 rs) =
      (p.client2 rs, [], 0) := by
  obtain ⟨hrole, -, -, -, -, -, -, -, hlabel⟩ := p.client_fields
  have hlen : (p.client1 rs).thbuf.length ≤ 400 := (p.th2_length rs).le.trans (by decide)
  have hfeed := takes_cert (c := c) (p.client1 rs) Nat.one_ne_zero p.pub hrole rfl (fun _ => hlabel.symm) hlen
  have hth : (p.client1 rs).thbuf ++ p.cert = p.th3 rs := by
    rw [th3]
    rfl
  rw [← cert, hth] at hfeed
  exact hfeed

theorem client_takes_cv :
    btlsFeed c (appRec c (p.key (p.th2 rs) "btls-hs-s2c") 1 (rtHandshake :: p.cv rs)) (p.client2 rs) =
      (p.client3 rs, [], 0) := by
  obtain ⟨hrole, -⟩ := p.client_fields
  have hlen : (p.client2 rs).thbuf.length ≤ 400 := (p.th3_length rs).le.trans (by decide)
  have hver : ed25519Verify c (certDigest c (p.client2 rs)).val (p.sig rs) (p.client2 rs).certPub = true := by
    have hdig : certDigest c (p.client2 rs) = p.digest rs := by
      rw [digest]
      rfl
    have hpub : (p.client2 rs).certPub = c.seedToPk (arr p.serverSk.val 0 32) := p.identity
    rw [hdig, hpub, sig]
    exact c.open_sign _ _
  have hfeed := takes_certVerify (c := c) (p.client2 rs) Nat.one_ne_zero (p.sig rs) hrole rfl hver hlen
  have hth : (p.client2 rs).thbuf ++ p.cv rs = p.th4 rs := by
    rw [th4]
    rfl
  rw [← cv, hth] at hfeed
  exact hfeed

theorem client_takes_fin :
    btlsFeed c (appRec c (p.key (p.th2 rs) "btls-hs-s2c") 2 (rtHandshake :: p.finS rs)) (p.client3 rs) =
      (p.client4 rs, [], 0) := by
  obtain ⟨hrole, -⟩ := p.client_fields
  have hlen : (p.client3 rs).thbuf.length ≤ 400 := (p.th4_length rs).le.trans (by decide)
  have hfeed := takes_serverFin (c := c) (p.client3 rs) Nat.one_ne_zero hrole rfl hlen
  have hfin : hsFrame hsFinished
      (keyOf c (p.client3 rs).prk (p.client3 rs).thbuf (ascii "btls-fin-s")).val = p.finS rs := by
    rw [finS]
    rfl
  have hth : (p.client3 rs).thbuf ++ p.finS rs = p.th5 rs := by
    rw [th5]
    rfl
  simp only [hfin, hth] at hfeed
  exact hfeed

/-- What the client does with its answer. -/
def clientActs : List Act :=
  [.seal (p.key (p.th2 rs) "btls-hs-c2s") 0 (rtHandshake :: p.finC rs), p.appKeys rs]

theorem client_answers (rnd : Arr 32) :
    btlsPump c rnd (p.client4 rs) = (p.client5 rs, p.clientActs rs, 1, p.answer rs) := by
  obtain ⟨hrole, -⟩ := p.client_fields
  have hlen : (p.client4 rs).thbuf.length ≤ 400 := (p.th5_length rs).le.trans (by decide)
  have hpump := pump_fin (c := c) (p.client4 rs) rnd hrole rfl rfl hlen
  have hfin : hsFrame hsFinished
      (keyOf c (p.client4 rs).prk (p.client4 rs).thbuf (ascii "btls-fin-c")).val = p.finC rs := by
    rw [finC]
    rfl
  have hth : (p.client4 rs).thbuf ++ p.finC rs = p.th6 rs := by
    rw [th6]
    rfl
  simp only [hfin, hth] at hpump
  rw [hpump, answer, clientActs, appKeys]
  rfl

theorem server_takes_ch : btlsFeed c p.rec0 p.server = (p.server1, [], 0) := by
  obtain ⟨hrole, hst, hepoch, -, -, hempty, -⟩ := p.server_fields
  have hfeed := btlsFeed_hello c p.server hsClientHello (p.rndC.val ++ (c.scalarmultBase p.ephC).val)
    hepoch (by simp)
  rw [feedHello_server p.server p.rndC (c.scalarmultBase p.ephC) hrole hst hempty, ← ch] at hfeed
  rw [rec0, hfeed]
  rfl

theorem server_hello :
    btlsPump c rs p.server1 = (p.server2 rs, [p.hsKeys rs], 1, helloRec (p.sh rs)) := by
  obtain ⟨hrole, -, -, hpriv, hpub, -⟩ := p.server_fields
  have hlen : p.server1.thbuf.length ≤ 400 := p.ch_length.le.trans (by decide)
  have hpump := pump_hello (c := c) p.server1 rs hrole rfl rfl hlen
  have hsh : hsFrame hsServerHello (rs.val ++ p.server1.ephPub.val) = p.sh rs := by
    rw [sh, ← hpub]
    rfl
  have hth : p.server1.thbuf ++ p.sh rs = p.th2 rs := by
    rw [th2]
    rfl
  have hprk : prkOf c p.server1.ephPriv p.server1.peerEph = p.prk := by
    have hpriv' : p.server1.ephPriv = p.ephS := hpriv
    rw [prk, hpriv', prkOf, prkOf, c.scalarmult_comm p.ephC p.ephS]
    rfl
  simp only [hsh, hth, hprk] at hpump
  rw [hpump, hsKeys]
  rfl

/-- The record and the sealing of the server's message `frame`. -/
def serverActs (seq : UInt64) (frame : Bytes) : List Act :=
  [.seal (p.key (p.th2 rs) "btls-hs-s2c") seq (rtHandshake :: frame)]

theorem server_cert (rnd : Arr 32) :
    btlsPump c rnd (p.server2 rs) = (p.server3 rs, p.serverActs rs 0 p.cert, 1,
      appRec c (p.key (p.th2 rs) "btls-hs-s2c") 0 (rtHandshake :: p.cert)) := by
  obtain ⟨hrole, -, -, -, -, -, -, -, hsk⟩ := p.server_fields
  have hlen : (p.server2 rs).thbuf.length ≤ 400 := (p.th2_length rs).le.trans (by decide)
  have hcert : hsFrame hsCertificate (slice (p.server2 rs).sk.val 32 32) = p.cert := by
    have hsk' : (p.server2 rs).sk = p.serverSk := hsk
    rw [cert, hsk']
    rfl
  have hemit := emitHs_ok (c := c) (p.server2 rs) p.cert .hs hsCertificateVerify
    (by rw [cert, hsFrame_length, Arr.length]; decide) hlen
  have hth : (p.server2 rs).thbuf ++ p.cert = p.th3 rs := by
    rw [th3]
    rfl
  have hstate : (p.server2 rs).role = .server ∧ (p.server2 rs).state = .hs := ⟨hrole, rfl⟩
  have hnot : ¬ (p.server2 rs).wantHs = hsServerHello := fun h => nomatch h
  have hwant : (p.server2 rs).wantHs = hsCertificate := rfl
  rw [btlsPump, if_pos hstate, if_neg hnot, if_pos hwant, hcert, hemit, hth]
  rfl

theorem server_cv (rnd : Arr 32) :
    btlsPump c rnd (p.server3 rs) = (p.server4 rs, p.serverActs rs 1 (p.cv rs), 1,
      appRec c (p.key (p.th2 rs) "btls-hs-s2c") 1 (rtHandshake :: p.cv rs)) := by
  obtain ⟨hrole, -, -, -, -, -, -, -, hsk⟩ := p.server_fields
  have hlen : (p.server3 rs).thbuf.length ≤ 400 := (p.th3_length rs).le.trans (by decide)
  have hcv : hsFrame hsCertificateVerify
      (ed25519Sign c (certDigest c (p.server3 rs)).val (p.server3 rs).sk).val = p.cv rs := by
    have hsk' : (p.server3 rs).sk = p.serverSk := hsk
    have hdig : certDigest c (p.server3 rs) = p.digest rs := by
      rw [digest]
      rfl
    rw [cv, sig, hdig, hsk']
  have hemit := emitHs_ok (c := c) (p.server3 rs) (p.cv rs) .hs hsFinished
    (by rw [cv, hsFrame_length, Arr.length]) hlen
  have hth : (p.server3 rs).thbuf ++ p.cv rs = p.th4 rs := by
    rw [th4]
    rfl
  have hstate : (p.server3 rs).role = .server ∧ (p.server3 rs).state = .hs := ⟨hrole, rfl⟩
  have hnot : ¬ (p.server3 rs).wantHs = hsServerHello := fun h => nomatch h
  have hnot' : ¬ (p.server3 rs).wantHs = hsCertificate := fun h => nomatch h
  have hwant : (p.server3 rs).wantHs = hsCertificateVerify := rfl
  rw [btlsPump, if_pos hstate, if_neg hnot, if_neg hnot', if_pos hwant, hcv, hemit, hth]
  rfl

theorem server_fin (rnd : Arr 32) :
    btlsPump c rnd (p.server4 rs) = (p.server5 rs, p.serverActs rs 2 (p.finS rs), 1,
      appRec c (p.key (p.th2 rs) "btls-hs-s2c") 2 (rtHandshake :: p.finS rs)) := by
  obtain ⟨hrole, -⟩ := p.server_fields
  have hlen : (p.server4 rs).thbuf.length ≤ 400 := (p.th4_length rs).le.trans (by decide)
  have hfin : hsFrame hsFinished (finishedMac c (p.server4 rs) (ascii "btls-fin-s")).val = p.finS rs := by
    rw [finS]
    rfl
  have hemit := emitHs_ok (c := c) (p.server4 rs) (p.finS rs) .waitFin hsFinished
    (by rw [finS, hsFrame_length, Arr.length]; decide) hlen
  have hth : (p.server4 rs).thbuf ++ p.finS rs = p.th5 rs := by
    rw [th5]
    rfl
  have hstate : (p.server4 rs).role = .server ∧ (p.server4 rs).state = .hs := ⟨hrole, rfl⟩
  have hnot : ¬ (p.server4 rs).wantHs = hsServerHello := fun h => nomatch h
  have hnot' : ¬ (p.server4 rs).wantHs = hsCertificate := fun h => nomatch h
  have hnot'' : ¬ (p.server4 rs).wantHs = hsCertificateVerify := fun h => nomatch h
  have hwant : (p.server4 rs).wantHs = hsFinished := rfl
  rw [btlsPump, if_pos hstate, if_neg hnot, if_neg hnot', if_neg hnot'', if_pos hwant, hfin, hemit, hth]
  rfl

theorem server_takes_fin : btlsFeed c (p.answer rs) (p.server5 rs) = (p.server6 rs, [p.appKeys rs], 1) := by
  obtain ⟨hrole, -⟩ := p.server_fields
  have hlen : (p.server5 rs).thbuf.length ≤ 400 := (p.th5_length rs).le.trans (by decide)
  have hfeed := takes_fin (c := c) (p.server5 rs) Nat.one_ne_zero hrole rfl hlen
  have hfin : hsFrame hsFinished
      (keyOf c (p.server5 rs).prk (p.server5 rs).thbuf (ascii "btls-fin-c")).val = p.finC rs := by
    rw [finC]
    rfl
  have hth : (p.server5 rs).thbuf ++ p.finC rs = p.th6 rs := by
    rw [th6]
    rfl
  simp only [hfin, hth] at hfeed
  have hrec : appRec c (p.server5 rs).recvKey (p.server5 rs).recvSeq (rtHandshake :: p.finC rs) =
      p.answer rs := rfl
  rw [← hrec, hfeed, appKeys]
  rfl

end Setup

/-- A setup that can be run. -/
def toySetup : Setup toy := ⟨none, .zero 64, .zero 32, pad 32 [1], .zero 32, by decide⟩

end Bite
