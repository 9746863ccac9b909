import BaitNet.CallSpec

/-!
# Cookies and the server secret

`cookie_make` hashes the server secret and then the INIT parameters into one buffer. The
second hash writes all of it, so nothing of the secret is left in a cookie: whoever knows
the parameters can compute it, and no rotation takes an old one out of use.
-/
namespace Icsp

open Wire Link Crypto

variable (c : TweetNaCl)

/-- `ed25519_sha512` into a buffer, of which all 64 bytes are written. -/
def sha512Into (_ : Arr 64) (msg : Bytes) : Arr 64 := ed25519Sha512 c msg

/-- The buffer `h` of `cookie_make` after both hashes. -/
def cookieHash (secret : Arr 32) (buf : Bytes) : Arr 64 :=
  sha512Into c (sha512Into c (.zero 64) secret.val) buf

def cookieUnder (secret : Arr 32) (a : IcspAssoc) : Arr 48 :=
  arr (cookieHash c secret (a.peerId.val ++ a.peerEph.val ++ putStreams a)).val 0 cookieLen

/-- The cookie of an association under the secret that is due. -/
theorem cookieMake_under (io : Io) (h : Host) :
    (cookieMake c io h).2 = cookieUnder c (secretRefresh io h.glob).serverSecret h.assoc := rfl

theorem cookieUnder_blind (secret secret' : Arr 32) (a : IcspAssoc) :
    cookieUnder c secret a = cookieUnder c secret' a := rfl

/-- The cookie of the parameters is another one under the other secret, where the old one is refused. -/
def CookieBound (io io' : Io) (a : IcspAssoc) (g g' : Globals) : Prop :=
  (cookieMake c io ⟨a, g⟩).2 ≠ (cookieMake c io' ⟨a, g'⟩).2 ∧
    (cookieValid c io' ⟨a, g'⟩ (cookieMake c io ⟨a, g⟩).2).2 = false

instance (io io' : Io) (a : IcspAssoc) (g g' : Globals) : Decidable (CookieBound c io io' a g g') :=
  inferInstanceAs (Decidable (_ ≠ _ ∧ _ = false))

/-- The verdict of `cookie_valid` does not depend on the secret either. -/
theorem cookieValid_iff (io : Io) (h : Host) (cookie : Arr 48) :
    (cookieValid c io h cookie).2 = true ↔ cookie = cookieOf c h.assoc := decide_eq_true_iff

/-- Two rounds that differ in the process-wide state at most. -/
def SameRound (r r' : ServerCall × List Act) : Prop :=
  r.1.phase = r'.1.phase ∧ r.1.host.assoc = r'.1.host.assoc ∧ r.2 = r'.2

theorem serverListen_blind (io : Io) (args : ServerArgs) (a : IcspAssoc) (g g' : Globals) :
    SameRound (serverListen c io args ⟨a, g⟩) (serverListen c io args ⟨a, g'⟩) := by
  simp only [serverListen]
  split
  · exact ⟨rfl, rfl, rfl⟩
  · exact ⟨rfl, rfl, rfl⟩

/-- A round of the wait for the COOKIE-ECHO is the same under any secret. -/
theorem serverStep_blind (io : Io) (args : ServerArgs) (a : IcspAssoc) (g g' : Globals) (rx : Rx) :
    SameRound (serverStep c io args ⟨⟨a, g⟩, .waitCookie⟩ rx) (serverStep c io args ⟨⟨a, g'⟩, .waitCookie⟩ rx) := by
  cases hrecv : icspRecvFrame io a rx with
  | mk b ret =>
    cases ret with
    | failed transient =>
      simp only [serverStep, hrecv]
      exact ⟨rfl, rfl, rfl⟩
    | noise =>
      simp only [serverStep, hrecv]
      exact ⟨rfl, rfl, rfl⟩
    | timedOut =>
      simp only [serverStep, hrecv]
      split
      · obtain ⟨hph, has, hacts⟩ := serverListen_blind c io args (icspAnnounceSend c io b).1 g g'
        exact ⟨hph, has, congrArg ((icspAnnounceSend c io b).2 ++ ·) hacts⟩
      · exact ⟨rfl, rfl, rfl⟩
    | payload p n src =>
      have hall : ∀ k : Globals, cookieValid c io ⟨b, k⟩
          (arr (p.drop (icspHeaderLen + icspChunkHdr)) 0 cookieLen) = (⟨b, secretRefresh io k⟩,
            (cookieValid c io ⟨b, g⟩ (arr (p.drop (icspHeaderLen + icspChunkHdr)) 0 cookieLen)).2) :=
        fun _ => rfl
      obtain ⟨v, hvalid⟩ : ∃ v, ∀ k : Globals, cookieValid c io ⟨b, k⟩
          (arr (p.drop (icspHeaderLen + icspChunkHdr)) 0 cookieLen) = (⟨b, secretRefresh io k⟩, v) :=
        ⟨_, hall⟩
      simp only [serverStep, hrecv, hvalid]
      split
      · exact ⟨rfl, rfl, rfl⟩
      · cases v with
        | false => exact serverListen_blind c io args b _ _
        | true =>
          simp only
          split
          · exact serverListen_blind c io args b _ _
          · split
            · exact ⟨rfl, rfl, rfl⟩
            · exact ⟨rfl, rfl, rfl⟩

/-- No two secrets tell a cookie apart: that of the one is accepted under the other. -/
theorem cookie_never_bound (io io' : Io) (a : IcspAssoc) (g g' : Globals) :
    ¬ CookieBound c io io' a g g' ∧ (cookieValid c io' ⟨a, g'⟩ (cookieMake c io ⟨a, g⟩).2).2 = true := by
  constructor
  · intro h
    have hne := h.1
    rw [cookieMake_under, cookieMake_under] at hne
    exact hne (cookieUnder_blind c _ _ a)
  · exact (cookieValid_iff c io' ⟨a, g'⟩ _).mpr rfl

/-- A server waits for the cookie under one secret; 301 s later it draws another one, and the
COOKIE-ECHO made under the first still completes the call. -/
theorem stale_cookie_accepted :
    let io := Io.quiet 1
    let later := { Io.quiet 302 with secretRnd := toyId 2 }
    let old : Globals := ⟨toyId 1, 1, rateInit⟩
    let a := { toyAssoc 7 with peerId := toyId 9, peerEph := toyId 5, streamsIn := 4, streamsOut := 4 }
    let echo := { toyAssoc 9 with dstAddr := 7 }
    let cookie := (cookieMake toy io ⟨a, old⟩).2
    let chunk := icspChunkPut chunkCookieEcho (cookieLen + 64) ++ (cookie.val ++ (ed25519Sign toy cookie.val (toyKey 9)).val)
    (secretRefresh io old).serverSecret ≠ (secretRefresh later old).serverSecret ∧
      ¬ CookieBound toy io later a old old ∧
      (serverStep toy later toyServer ⟨⟨a, old⟩, .waitCookie⟩ (lastFrame (icspSendPkt io echo chunk).1)).1.phase = .done 0 := by
  decide +kernel

end Icsp
