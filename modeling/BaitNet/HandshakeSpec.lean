import BaitNet.Session

/-!
# What the handshake functions can do

One outcome relation or equation for each function of `icsp_handshake.c` that later
proofs cite, so that none of them unfolds the function itself.
-/
namespace Icsp

open Wire Link Crypto

variable (c : TweetNaCl)

/-- The data area of a payload's first chunk. -/
def chunkData0 (payload : Bytes) : Bytes := payload.drop (icspHeaderLen + icspChunkHdr)

/-- The INIT passes every check that comes before its fields are taken. -/
def initAdmitted (io : Io) (h : Host) (buf payload : Bytes) (plen : Nat) : Bool :=
  initWellFormed c buf payload plen &&
    (rateAllow h.glob.gRate io.nowMs (pad 8 (frameSrcMac buf).val) 10 20 1).2 &&
    decide (h.assoc.lastInitTs < get64 (chunkData0 payload) 37)

/-- The identity that the INIT in `payload` claims, as `a` reads it. -/
def claimedIdentity (a : IcspAssoc) (payload : Bytes) : Option (Arr 32) :=
  initIdentity c a (byteAt payload (icspHeaderLen + 1)) (chunkData0 payload)

/-- The part of an INIT that its signature covers. -/
def initSigned (payload : Bytes) : Bytes :=
  slice (chunkData0 payload) 0 (initPreSig (byteAt payload (icspHeaderLen + 1)))

/-- The signature of the INIT in `payload` verifies under `id`. -/
def initVerifies (payload : Bytes) (id : Arr 32) : Bool :=
  ed25519Verify c (initSigned payload)
    (arr (chunkData0 payload) (initPreSig (byteAt payload (icspHeaderLen + 1))) 64) id

inductive InitOutcome (io : Io) (h : Host) (buf payload : Bytes) (plen : Nat)
    (peers : List (Arr 32)) : Host × Option UInt8 → Prop
  /-- dropped before anything but the rate limiter's table changed -/
  | refused (g : Globals) (hadm : initAdmitted c io h buf payload plen = false) :
      InitOutcome io h buf payload plen peers ({ h with glob := g }, none)
  /-- an identity box that does not open -/
  | boxed (g : Globals) (hadm : initAdmitted c io h buf payload plen = true)
      (hid : claimedIdentity c h.assoc payload = none) :
      InitOutcome io h buf payload plen peers (⟨takeInit h.assoc payload, g⟩, none)
  /-- a bad signature or a peer that is not on the list -/
  | rejected (g : Globals) (id : Arr 32) (hadm : initAdmitted c io h buf payload plen = true)
      (hid : claimedIdentity c h.assoc payload = some id) :
      InitOutcome io h buf payload plen peers
        (⟨{ takeInit h.assoc payload with peerId := id }, g⟩, none)
  | accepted (g : Globals) (id : Arr 32) (hadm : initAdmitted c io h buf payload plen = true)
      (hid : claimedIdentity c h.assoc payload = some id) (hsig : initVerifies c payload id = true)
      (hpeers : peers = [] ∨ id ∈ peers) :
      InitOutcome io h buf payload plen peers
        (⟨{ takeInit h.assoc payload with peerId := id }, g⟩,
          some (byteAt payload (icspHeaderLen + 1)))

theorem initCheck_outcome (io : Io) (h : Host) (buf payload : Bytes) (plen : Nat)
    (peers : List (Arr 32)) :
    InitOutcome c io h buf payload plen peers (initCheck c io h buf payload plen peers) := by
  have hid : initIdentity c (takeInit h.assoc payload) (byteAt payload (icspHeaderLen + 1))
      (chunkData0 payload) = claimedIdentity c h.assoc payload := rfl
  rw [initCheck]
  by_cases hw : initWellFormed c buf payload plen = false
  · rw [if_pos hw]
    exact .refused h.glob (by rw [initAdmitted, hw, Bool.false_and, Bool.false_and])
  rw [if_neg hw]
  rw [Bool.not_eq_false] at hw
  cases hr : rateAllow h.glob.gRate io.nowMs (pad 8 (frameSrcMac buf).val) 10 20 1 with
  | mk table allowed =>
  cases allowed with
  | false => exact .refused _ (by rw [initAdmitted, hr, Bool.and_false, Bool.false_and])
  | true =>
  simp only [Bool.true_eq_false, if_false]
  by_cases hts : get64 (chunkData0 payload) 37 ≤ h.assoc.lastInitTs
  · rw [chunkData0] at hts
    rw [if_pos hts]
    exact .refused _ (by
      rw [initAdmitted, chunkData0, decide_eq_false (UInt64.not_lt.mpr hts), Bool.and_false])
  have hadm : initAdmitted c io h buf payload plen = true := by
    rw [initAdmitted, hw, hr, Bool.true_and, Bool.true_and, decide_eq_true (UInt64.not_le.mp hts)]
  rw [chunkData0] at hts hid
  rw [if_neg hts, hid]
  cases hcl : claimedIdentity c h.assoc payload with
  | none => exact .boxed _ hadm hcl
  | some id =>
    simp only
    split
    · exact .rejected _ id hadm hcl
    · rename_i hver
      split
      · exact .rejected _ id hadm hcl
      · rename_i hlist
        refine .accepted _ id hadm hcl (Bool.not_eq_false _ ▸ hver) ?_
        by_cases hnil : peers = []
        · exact .inl hnil
        · exact .inr (not_not.mp fun hmem => hlist ⟨hnil, hmem⟩)

/-- The association once it has answered an INIT. -/
def answered (io : Io) (a : IcspAssoc) : IcspAssoc :=
  { newEph c io a with
    sendKey := (sessionKeys c a.isInitiator (c.scalarmult io.ephRnd a.peerEph)).1
    recvKey := (sessionKeys c a.isInitiator (c.scalarmult io.ephRnd a.peerEph)).2
    hasKey := true
    keyTs := io.now }

/-- What `icsp_derive_key` installs with the private key `priv`. -/
def installOf (a : IcspAssoc) (priv : Arr 32) : Act :=
  .install priv a.peerEph (sessionKeys c a.isInitiator (c.scalarmult priv a.peerEph)).1
    (sessionKeys c a.isInitiator (c.scalarmult priv a.peerEph)).2

/-- The association with the keys of its own ephemeral and the peer's. -/
def derived (io : Io) (a : IcspAssoc) : IcspAssoc :=
  { a with
    sendKey := (sessionKeys c a.isInitiator (c.scalarmult a.ephPriv a.peerEph)).1
    recvKey := (sessionKeys c a.isInitiator (c.scalarmult a.ephPriv a.peerEph)).2
    hasKey := true
    keyTs := io.now }

theorem icspDeriveKey_eq (io : Io) (a : IcspAssoc) :
    icspDeriveKey c io a a.ephPriv = (derived c io a, [installOf c a a.ephPriv]) := rfl

theorem initAckSend_eq (io : Io) (h : Host) (sk : Arr 64) :
    initAckSend c io h sk =
      (⟨answered c io h.assoc, secretRefresh io h.glob⟩,
        installOf c h.assoc io.ephRnd :: .sign (initAckBody (answered c io h.assoc)) ::
          (icspSendPkt io (answered c io h.assoc) (initAckChunk c (answered c io h.assoc) sk)).1,
        (icspSendPkt io (answered c io h.assoc) (initAckChunk c (answered c io h.assoc) sk)).2) := rfl

/-- The association after `icsp_rekey_start` but for its state. -/
def rekeyed (io : Io) (a : IcspAssoc) : IcspAssoc :=
  newEph c io { a with assocId := get32 io.assocRnd.val 0 }

def rekeyInit (io : Io) (a : IcspAssoc) : Bytes :=
  initChunk c (rekeyed c io a) a.sk 0 (initBody c io (rekeyed c io a) none)

theorem icspRekeyStart_eq (io : Io) (a : IcspAssoc) :
    icspRekeyStart c io a =
      (if (icspSendPkt io (rekeyed c io a) (rekeyInit c io a)).2 then
          { rekeyed c io a with state := .rekeyWaitAck } else rekeyed c io a,
        .sign (initBody c io (rekeyed c io a) none) ::
          (icspSendPkt io (rekeyed c io a) (rekeyInit c io a)).1,
        if (icspSendPkt io (rekeyed c io a) (rekeyInit c io a)).2 then 0 else -1) := by
  have hunf : icspRekeyStart c io a =
      if (icspSendPkt io (rekeyed c io a) (rekeyInit c io a)).2 then
        ({ rekeyed c io a with state := .rekeyWaitAck },
          .sign (initBody c io (rekeyed c io a) none) ::
            (icspSendPkt io (rekeyed c io a) (rekeyInit c io a)).1, 0)
      else (rekeyed c io a, .sign (initBody c io (rekeyed c io a) none) ::
            (icspSendPkt io (rekeyed c io a) (rekeyInit c io a)).1, -1) := rfl
  rw [hunf]
  split
  · rfl
  · rfl

/-- Bytes 133 to 180 of an INIT-ACK. -/
def ackCookie (payload : Bytes) : Bytes := slice (chunkData0 payload) (69 + 64) cookieLen

/-- The 69 bytes of an INIT-ACK that its signature covers. -/
def ackSigned (payload : Bytes) : Bytes := slice (chunkData0 payload) 0 69

/-- The signature of the INIT-ACK in `payload` verifies under the identity in it. -/
def ackVerifies (payload : Bytes) : Bool :=
  ed25519Verify c (ackSigned payload) (arr (chunkData0 payload) 69 64) (arr (chunkData0 payload) 37 32)

/-- The association once it has taken an INIT-ACK. -/
def tookAck (a : IcspAssoc) (payload : Bytes) : IcspAssoc := takeInitAck a (chunkData0 payload)

/-- The COOKIE-ECHO with which `a` answers an INIT-ACK. -/
def echoOf (a : IcspAssoc) (payload : Bytes) : Bytes := cookieEcho c (chunkData0 payload) a.sk

inductive RekeyClientOutcome (io : Io) (a : IcspAssoc) (payload : Bytes) :
    IcspAssoc × List Act × Int → Prop
  | badAck (hst : a.state = .rekeyWaitAck) (hty : byteAt payload icspHeaderLen = chunkInitAck)
      (hver : ackVerifies c payload = false) :
      RekeyClientOutcome io a payload (tookAck a payload, [], -1)
  /-- the echo left -/
  | echoed (hst : a.state = .rekeyWaitAck) (hty : byteAt payload icspHeaderLen = chunkInitAck)
      (hver : ackVerifies c payload = true) (acts : List Act)
      (hs : icspSendPkt io (tookAck a payload) (echoOf c a payload) = (acts, true)) :
      RekeyClientOutcome io a payload
        ({ tookAck a payload with state := .rekeyWaitCookieAck }, .sign (ackCookie payload) :: acts, 0)
  | unsent (hst : a.state = .rekeyWaitAck) (hty : byteAt payload icspHeaderLen = chunkInitAck)
      (hver : ackVerifies c payload = true) (acts : List Act)
      (hs : icspSendPkt io (tookAck a payload) (echoOf c a payload) = (acts, false)) :
      RekeyClientOutcome io a payload (tookAck a payload, .sign (ackCookie payload) :: acts, -1)
  | completed (hst : a.state = .rekeyWaitCookieAck)
      (hty : byteAt payload icspHeaderLen = chunkCookieAck) :
      RekeyClientOutcome io a payload
        ({ dataPlaneReset io (derived c io a) with state := .established },
          [installOf c a a.ephPriv], 1)
  | other (h₁ : ¬ (a.state = .rekeyWaitAck ∧ byteAt payload icspHeaderLen = chunkInitAck))
      (h₂ : ¬ (a.state = .rekeyWaitCookieAck ∧ byteAt payload icspHeaderLen = chunkCookieAck)) :
      RekeyClientOutcome io a payload (a, [], 0)

theorem icspRekeyClientStep_outcome (io : Io) (a : IcspAssoc) (payload : Bytes) :
    RekeyClientOutcome c io a payload (icspRekeyClientStep c io a payload) := by
  rw [icspRekeyClientStep]
  by_cases h₁ : a.state = .rekeyWaitAck ∧ byteAt payload icspHeaderLen = chunkInitAck
  · rw [if_pos h₁]
    obtain ⟨hst, hty⟩ := h₁
    have hver : initAckVerify c (takeInitAck a (payload.drop (icspHeaderLen + icspChunkHdr)))
        (payload.drop (icspHeaderLen + icspChunkHdr)) = ackVerifies c payload := rfl
    have hsend : icspSendPkt io (takeInitAck a (payload.drop (icspHeaderLen + icspChunkHdr)))
        (cookieEcho c (payload.drop (icspHeaderLen + icspChunkHdr))
          (takeInitAck a (payload.drop (icspHeaderLen + icspChunkHdr))).sk) =
        icspSendPkt io (tookAck a payload) (echoOf c a payload) := rfl
    simp only [hver, hsend]
    cases hv : ackVerifies c payload with
    | false => exact .badAck hst hty hv
    | true =>
      simp only [Bool.true_eq_false, if_false]
      cases hs : icspSendPkt io (tookAck a payload) (echoOf c a payload) with
      | mk acts sent =>
        cases sent with
        | true => exact .echoed hst hty hv acts hs
        | false => exact .unsent hst hty hv acts hs
  · rw [if_neg h₁]
    by_cases h₂ : a.state = .rekeyWaitCookieAck ∧ byteAt payload icspHeaderLen = chunkCookieAck
    · rw [if_pos h₂]
      exact .completed h₂.1 h₂.2
    · rw [if_neg h₂]
      exact .other h₁ h₂

/-- The COOKIE-ECHO in `payload` returns our cookie and verifies under the peer's identity. -/
def echoValid (a : IcspAssoc) (payload : Bytes) : Bool :=
  decide (arr (chunkData0 payload) 0 48 = cookieOf c a) &&
    ed25519Verify c (slice (chunkData0 payload) 0 48) (arr (chunkData0 payload) 48 64) a.peerId

inductive RekeyServerOutcome (io : Io) (h : Host) (buf payload : Bytes) (plen : Nat) :
    Host × List Act × Int → Prop
  /-- an INIT that `init_check` drops -/
  | dropped (hst : h.assoc.state = .established) (hty : byteAt payload icspHeaderLen = chunkInit)
      (h' : Host) (hout : InitOutcome c io h buf payload plen [] (h', none)) :
      RekeyServerOutcome io h buf payload plen (h', [], -1)
  /-- a valid INIT of another identity -/
  | stranger (hst : h.assoc.state = .established) (hty : byteAt payload icspHeaderLen = chunkInit)
      (h' : Host) (flags : UInt8) (hout : InitOutcome c io h buf payload plen [] (h', some flags))
      (hid : h'.assoc.peerId ≠ h.assoc.peerId) :
      RekeyServerOutcome io h buf payload plen (h', [], -1)
  /-- answered; the keys are in place whether or not the INIT-ACK leaves -/
  | answered (hst : h.assoc.state = .established) (hty : byteAt payload icspHeaderLen = chunkInit)
      (h' : Host) (flags : UInt8) (hout : InitOutcome c io h buf payload plen [] (h', some flags))
      (hid : h'.assoc.peerId = h.assoc.peerId) (acts : List Act) (sent : Bool)
      (hs : icspSendPkt io (Icsp.answered c io h'.assoc)
        (initAckChunk c (Icsp.answered c io h'.assoc) h'.assoc.sk) = (acts, sent)) :
      RekeyServerOutcome io h buf payload plen
        (⟨if sent then { Icsp.answered c io h'.assoc with state := .rekeyWaitCookie }
            else Icsp.answered c io h'.assoc, secretRefresh io h'.glob⟩,
          installOf c h'.assoc io.ephRnd :: .sign (initAckBody (Icsp.answered c io h'.assoc)) :: acts,
          if sent then 0 else -1)
  | badEcho (hst : h.assoc.state = .rekeyWaitCookie)
      (hty : byteAt payload icspHeaderLen = chunkCookieEcho) (hv : echoValid c h.assoc payload = false) :
      RekeyServerOutcome io h buf payload plen ({ h with glob := secretRefresh io h.glob }, [], -1)
  | completed (hst : h.assoc.state = .rekeyWaitCookie)
      (hty : byteAt payload icspHeaderLen = chunkCookieEcho) (hv : echoValid c h.assoc payload = true)
      (acts : List Act) (hs : icspSendPkt io h.assoc cookieAck = (acts, true)) :
      RekeyServerOutcome io h buf payload plen
        (⟨{ dataPlaneReset io h.assoc with state := .established }, secretRefresh io h.glob⟩, acts, 1)
  | unsent (hst : h.assoc.state = .rekeyWaitCookie)
      (hty : byteAt payload icspHeaderLen = chunkCookieEcho) (hv : echoValid c h.assoc payload = true)
      (acts : List Act) (hs : icspSendPkt io h.assoc cookieAck = (acts, false)) :
      RekeyServerOutcome io h buf payload plen ({ h with glob := secretRefresh io h.glob }, acts, -1)
  | other (h₁ : ¬ (h.assoc.state = .established ∧ byteAt payload icspHeaderLen = chunkInit))
      (h₂ : ¬ (h.assoc.state = .rekeyWaitCookie ∧ byteAt payload icspHeaderLen = chunkCookieEcho)) :
      RekeyServerOutcome io h buf payload plen (h, [], 0)

theorem icspRekeyServerStep_outcome (io : Io) (h : Host) (buf payload : Bytes) (plen : Nat) :
    RekeyServerOutcome c io h buf payload plen (icspRekeyServerStep c io h buf payload plen) := by
  rw [icspRekeyServerStep]
  by_cases h₁ : h.assoc.state = .established ∧ byteAt payload icspHeaderLen = chunkInit
  · rw [if_pos h₁]
    obtain ⟨hst, hty⟩ := h₁
    have hout := initCheck_outcome c io h buf payload plen []
    revert hout
    generalize initCheck c io h buf payload plen [] = r
    intro hout
    obtain ⟨h', flags⟩ := r
    cases flags with
    | none => exact .dropped hst hty h' hout
    | some flags =>
      by_cases hid : h'.assoc.peerId = h.assoc.peerId
      · simp only [hid, ne_eq, not_true_eq_false, if_false, initAckSend_eq]
        cases hs : icspSendPkt io (Icsp.answered c io h'.assoc)
            (initAckChunk c (Icsp.answered c io h'.assoc) h'.assoc.sk) with
        | mk acts sent =>
          cases sent with
          | true => exact .answered hst hty h' flags hout hid acts true hs
          | false => exact .answered hst hty h' flags hout hid acts false hs
      · simp only [ne_eq, hid, not_false_eq_true, if_true]
        exact .stranger hst hty h' flags hout hid
  · rw [if_neg h₁]
    by_cases h₂ : h.assoc.state = .rekeyWaitCookie ∧ byteAt payload icspHeaderLen = chunkCookieEcho
    · rw [if_pos h₂]
      obtain ⟨hst, hty⟩ := h₂
      have hck : cookieValid c io h (arr (payload.drop (icspHeaderLen + icspChunkHdr)) 0 cookieLen) =
          ({ h with glob := secretRefresh io h.glob },
            decide (arr (chunkData0 payload) 0 48 = cookieOf c h.assoc)) := rfl
      simp only [hck]
      cases hc : decide (arr (chunkData0 payload) 0 48 = cookieOf c h.assoc) with
      | false => exact .badEcho hst hty (by rw [echoValid, hc, Bool.false_and])
      | true =>
        have hsig : ed25519Verify c (slice (payload.drop (icspHeaderLen + icspChunkHdr)) 0 cookieLen)
            (arr (payload.drop (icspHeaderLen + icspChunkHdr)) cookieLen 64) h.assoc.peerId =
            ed25519Verify c (slice (chunkData0 payload) 0 48) (arr (chunkData0 payload) 48 64)
              h.assoc.peerId := rfl
        simp only [hsig]
        by_cases hv : ed25519Verify c (slice (chunkData0 payload) 0 48)
            (arr (chunkData0 payload) 48 64) h.assoc.peerId = false
        · rw [if_pos hv]
          exact .badEcho hst hty (by rw [echoValid, hc, hv, Bool.and_false])
        · rw [if_neg hv]
          have hvalid : echoValid c h.assoc payload = true := by
            rw [echoValid, hc, Bool.true_and]
            exact Bool.not_eq_false _ ▸ hv
          cases hs : icspSendPkt io h.assoc cookieAck with
          | mk acts sent =>
            cases sent with
            | true => exact .completed hst hty hvalid acts hs
            | false => exact .unsent hst hty hvalid acts hs
    · rw [if_neg h₂]
      exact .other h₁ h₂

end Icsp
