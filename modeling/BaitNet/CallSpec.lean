import BaitNet.HandshakeSpec

/-!
# What one round of the blocking calls can do

The outcomes of a round of `icsp_server_accept` and of `icsp_client_handshake`: most of
them change nothing but what is known of the link; the others answer, take or complete.
-/
namespace Icsp

open Wire Link Crypto

/-- The association once `icsp_recv_frame` has noted where the frame came from. -/
def recvd (io : Io) (a : IcspAssoc) (buf : Bytes) : IcspAssoc :=
  { a with
    peerMac := frameSrcMac buf, hasPeerMac := true, dstAddr := frameSource buf, lastRx := io.now }

/-- `b` differs from `a` in its link and its endpoint at most. -/
def SameCore (a b : IcspAssoc) : Prop :=
  ∃ (e : Endpoint) (l : LinkState), b = { a with toEndpoint := e, toLinkState := l }

theorem SameCore.refl (a : IcspAssoc) : SameCore a a := ⟨a.toEndpoint, a.toLinkState, rfl⟩

theorem SameCore.trans {a b d : IcspAssoc} (h₁ : SameCore a b) (h₂ : SameCore b d) : SameCore a d := by
  obtain ⟨e₁, l₁, rfl⟩ := h₁
  obtain ⟨e₂, l₂, rfl⟩ := h₂
  exact ⟨e₂, l₂, rfl⟩

theorem sameCore_recvd (io : Io) (a : IcspAssoc) (buf : Bytes) : SameCore a (recvd io a buf) :=
  ⟨{ a.toEndpoint with dstAddr := frameSource buf },
    { a.toLinkState with peerMac := frameSrcMac buf, hasPeerMac := true, lastRx := io.now }, rfl⟩

/-- Either a payload arrived, from a frame, or the association is the one before. -/
theorem icspRecvFrame_cases (io : Io) (a : IcspAssoc) (rx : Rx) :
    (∃ buf n, rx = .frame buf n ∧ frameNextHeader buf = ipv69NextStream ∧ 58 ≤ n ∧
      icspRecvFrame io a rx =
        (recvd io a buf, .payload (framePayload buf) (n - 46) (frameSource buf))) ∨
    (∃ ret, icspRecvFrame io a rx = (a, ret) ∧ ∀ p n src, ret ≠ .payload p n src) := by
  cases h : icspRecvFrame io a rx with
  | mk a' ret =>
    cases ret with
    | payload p n src =>
      obtain ⟨buf, m, hrx, hnh, hm, rfl, rfl, rfl, rfl⟩ := icspRecvFrame_payload h
      exact .inl ⟨buf, m, hrx, hnh, hm, rfl⟩
    | timedOut =>
      have hret : ∀ p n src, RecvRet.timedOut ≠ .payload p n src := fun _ _ _ h => nomatch h
      rw [icspRecvFrame_other h hret]
      exact .inr ⟨_, rfl, hret⟩
    | failed transient =>
      have hret : ∀ p n src, RecvRet.failed transient ≠ .payload p n src := fun _ _ _ h => nomatch h
      rw [icspRecvFrame_other h hret]
      exact .inr ⟨_, rfl, hret⟩
    | noise =>
      have hret : ∀ p n src, RecvRet.noise ≠ .payload p n src := fun _ _ _ h => nomatch h
      rw [icspRecvFrame_other h hret]
      exact .inr ⟨_, rfl, hret⟩

variable (c : TweetNaCl)

/-- Announces sign their six bytes and leave for the gateway. -/
def Announces (acts : List Act) : Prop :=
  ∀ act ∈ acts, (∃ m, act = .sign m ∧ m.length = 6) ∨ ∃ frame, act = .announce frame

theorem announces_nil : Announces [] := fun _ h => nomatch h

theorem Announces.append {acts acts' : List Act} (h : Announces acts) (h' : Announces acts') :
    Announces (acts ++ acts') := by
  intro act hact
  cases List.mem_append.mp hact with
  | inl hmem => exact h act hmem
  | inr hmem => exact h' act hmem

theorem icspAnnounceSend_core (io : Io) (a : IcspAssoc) :
    SameCore a (icspAnnounceSend c io a).1 ∧ Announces (icspAnnounceSend c io a).2 := by
  have hsign : ∀ rest, Announces rest →
      Announces (.sign (ipv69CtrlNdRequest :: put40 a.srcAddr) :: rest) := by
    intro rest hrest act hact
    cases List.mem_cons.mp hact with
    | inl heq => exact .inl ⟨_, heq, rfl⟩
    | inr hmem => exact hrest act hmem
  rw [icspAnnounceSend]
  split
  · refine ⟨⟨a.toEndpoint, { a.toLinkState with lastAnn := io.now }, rfl⟩, hsign _ ?_⟩
    intro act hact
    exact .inr ⟨_, List.mem_singleton.mp hact⟩
  · exact ⟨SameCore.refl a, hsign _ announces_nil⟩

theorem listenAnnounce_core (io : Io) (a : IcspAssoc) :
    SameCore a (listenAnnounce c io a).1 ∧ Announces (listenAnnounce c io a).2 := by
  rw [listenAnnounce]
  split
  · exact icspAnnounceSend_core c io a
  · exact ⟨SameCore.refl a, announces_nil⟩

theorem serverListen_core (io : Io) (args : ServerArgs) (h : Host) :
    ∃ a acts, serverListen c io args h = (⟨⟨a, h.glob⟩, .waitInit⟩, acts) ∧ SameCore h.assoc a ∧
      Announces acts := by
  have hann := listenAnnounce_core c io h.assoc
  rw [serverListen]
  split
  · revert hann
    generalize listenAnnounce c io h.assoc = res
    rintro ⟨hcore, hacts⟩
    obtain ⟨a, acts⟩ := res
    refine ⟨_, acts, rfl, hcore.trans ?_, hacts⟩
    exact ⟨a.toEndpoint, { a.toLinkState with rcvTimeoutMs := a.announceS * 1000 }, rfl⟩
  · exact ⟨_, _, rfl, ⟨h.assoc.toEndpoint,
      { h.assoc.toLinkState with rcvTimeoutMs := args.timeoutS.toNat * 1000 }, rfl⟩, announces_nil⟩

inductive ServerOutcome (io : Io) (args : ServerArgs) (call : ServerCall) (rx : Rx) :
    ServerCall × List Act → Prop
  | ended (ret : Int) (hp : call.phase = .done ret) : ServerOutcome io args call rx (call, [])
  /-- goes on waiting, falls back to waiting for an INIT, or gives up -/
  | waits (a : IcspAssoc) (g : Globals) (phase : ServerPhase) (acts : List Act)
      (hp : ∀ ret, call.phase ≠ .done ret) (hcore : SameCore call.host.assoc a)
      (hph : phase = call.phase ∨ phase = .waitInit ∨ phase = .done (-1)) (hacts : Announces acts) :
      ServerOutcome io args call rx (⟨⟨a, g⟩, phase⟩, acts)
  /-- an INIT that `init_check` drops -/
  | dropped (buf : Bytes) (n : Nat) (h' : Host) (a : IcspAssoc) (acts : List Act)
      (hp : call.phase = .waitInit) (hrx : rx = .frame buf n)
      (hty : byteAt (framePayload buf) icspHeaderLen = chunkInit)
      (hout : InitOutcome c io ⟨recvd io call.host.assoc buf, call.host.glob⟩ buf (framePayload buf)
        (n - 46) args.peers (h', none))
      (hcore : SameCore h'.assoc a) (hacts : Announces acts) :
      ServerOutcome io args call rx (⟨⟨a, h'.glob⟩, .waitInit⟩, acts)
  | answered (buf : Bytes) (n : Nat) (h' : Host) (flags : UInt8) (acts : List Act) (sent : Bool)
      (hp : call.phase = .waitInit) (hrx : rx = .frame buf n)
      (hty : byteAt (framePayload buf) icspHeaderLen = chunkInit)
      (hout : InitOutcome c io ⟨recvd io call.host.assoc buf, call.host.glob⟩ buf (framePayload buf)
        (n - 46) args.peers (h', some flags))
      (hs : icspSendPkt io (Icsp.answered c io h'.assoc)
        (initAckChunk c (Icsp.answered c io h'.assoc) args.sk) = (acts, sent)) :
      ServerOutcome io args call rx
        (⟨⟨Icsp.answered c io h'.assoc, secretRefresh io h'.glob⟩,
            if sent then .waitCookie else .done (-1)⟩,
          installOf c h'.assoc io.ephRnd :: .sign (initAckBody (Icsp.answered c io h'.assoc)) :: acts)
  | completed (buf : Bytes) (n : Nat) (acts : List Act) (hp : call.phase = .waitCookie)
      (hrx : rx = .frame buf n) (hty : byteAt (framePayload buf) icspHeaderLen = chunkCookieEcho)
      (hv : echoValid c (recvd io call.host.assoc buf) (framePayload buf) = true)
      (hs : icspSendPkt io (recvd io call.host.assoc buf) cookieAck = (acts, true)) :
      ServerOutcome io args call rx
        (⟨⟨{ recvd io call.host.assoc buf with state := .established },
            secretRefresh io call.host.glob⟩, .done 0⟩, acts)
  /-- a valid COOKIE-ECHO whose answer does not leave -/
  | unsent (buf : Bytes) (n : Nat) (acts : List Act) (hp : call.phase = .waitCookie)
      (hrx : rx = .frame buf n) (hs : icspSendPkt io (recvd io call.host.assoc buf) cookieAck = (acts, false)) :
      ServerOutcome io args call rx
        (⟨⟨recvd io call.host.assoc buf, secretRefresh io call.host.glob⟩, .done (-1)⟩, acts)

/-- Back to waiting for an INIT with an association that is the old one at its core. -/
theorem ServerOutcome.listen {io : Io} {args : ServerArgs} {call : ServerCall} {rx : Rx}
    (hp : ∀ ret, call.phase ≠ .done ret) {h : Host} (hcore : SameCore call.host.assoc h.assoc)
    {acts : List Act} (hacts : Announces acts) :
    ServerOutcome c io args call rx
      ((serverListen c io args h).1, acts ++ (serverListen c io args h).2) := by
  obtain ⟨a, acts', hl, hcore', hacts'⟩ := serverListen_core c io args h
  rw [hl]
  exact .waits a h.glob .waitInit _ hp (hcore.trans hcore') (.inr (.inl rfl)) (hacts.append hacts')

theorem ServerOutcome.relisten {io : Io} {args : ServerArgs} {call : ServerCall} {rx : Rx}
    (hp : ∀ ret, call.phase ≠ .done ret) (h : Host) (hcore : SameCore call.host.assoc h.assoc) :
    ServerOutcome c io args call rx (serverListen c io args h) :=
  ServerOutcome.listen c hp hcore announces_nil

theorem serverStep_waitInit (io : Io) (args : ServerArgs) (call : ServerCall) (rx : Rx)
    (hp : call.phase = .waitInit) : ServerOutcome c io args call rx (serverStep c io args call rx) := by
  have hnd : ∀ ret, call.phase ≠ .done ret := by
    intro ret hd
    rw [hp] at hd
    cases hd
  rcases icspRecvFrame_cases io call.host.assoc rx with ⟨buf, n, rfl, -, -, hr⟩ | ⟨ret, hr, hret⟩
  · rw [serverStep]
    simp only [hp, hr]
    have hcore := sameCore_recvd io call.host.assoc buf
    by_cases hfor : byteAt (framePayload buf) icspHeaderLen ≠ chunkInit ∨
        get16 (framePayload buf) 2 ≠ args.port
    · rw [if_pos hfor]
      exact ServerOutcome.relisten c hnd { call.host with assoc := recvd io call.host.assoc buf } hcore
    · rw [if_neg hfor]
      rw [not_or, not_not, not_not] at hfor
      have hout := initCheck_outcome c io ⟨recvd io call.host.assoc buf, call.host.glob⟩ buf
        (framePayload buf) (n - 46) args.peers
      revert hout
      generalize initCheck c io ⟨recvd io call.host.assoc buf, call.host.glob⟩ buf
        (framePayload buf) (n - 46) args.peers = res
      intro hout
      obtain ⟨h', flags⟩ := res
      cases flags with
      | none =>
        obtain ⟨a, acts, hl, hcore', hacts⟩ := serverListen_core c io args h'
        simp only [hl]
        exact .dropped buf n h' a acts hp rfl hfor.1 hout hcore' hacts
      | some flags =>
        have hdst : ({ h'.assoc with dstAddr := frameSource buf } : IcspAssoc) = h'.assoc := by
          cases hout with
          | accepted g id hadm hid hsig hpeers => rfl
        simp only [hdst, initAckSend_eq]
        cases hs : icspSendPkt io (Icsp.answered c io h'.assoc)
            (initAckChunk c (Icsp.answered c io h'.assoc) args.sk) with
        | mk acts sent => exact .answered buf n h' flags acts sent hp rfl hfor.1 hout hs
  · have hlisten : ServerOutcome c io args call rx (serverListen c io args call.host) :=
      ServerOutcome.relisten c hnd call.host (SameCore.refl _)
    have hend : ServerOutcome c io args call rx (⟨call.host, .done (-1)⟩, []) :=
      .waits call.host.assoc call.host.glob _ [] hnd (SameCore.refl _) (.inr (.inr rfl)) announces_nil
    cases ret with
    | payload p n src => exact absurd rfl (hret p n src)
    | noise =>
      simp only [serverStep, hp, hr]
      exact hlisten
    | failed transient =>
      simp only [serverStep, hp, hr]
      cases transient with
      | true => exact hlisten
      | false => exact hend
    | timedOut =>
      simp only [serverStep, hp, hr]
      split
      · exact hlisten
      · exact hend

theorem serverStep_waitCookie (io : Io) (args : ServerArgs) (call : ServerCall) (rx : Rx)
    (hp : call.phase = .waitCookie) :
    ServerOutcome c io args call rx (serverStep c io args call rx) := by
  have hnd : ∀ ret, call.phase ≠ .done ret := by
    intro ret hd
    rw [hp] at hd
    cases hd
  rcases icspRecvFrame_cases io call.host.assoc rx with ⟨buf, n, rfl, -, -, hr⟩ | ⟨ret, hr, hret⟩
  · rw [serverStep]
    simp only [hp, hr]
    have hcore := sameCore_recvd io call.host.assoc buf
    by_cases hty : byteAt (framePayload buf) icspHeaderLen ≠ chunkCookieEcho
    · rw [if_pos hty]
      exact .waits _ _ _ [] hnd hcore (.inl hp.symm) announces_nil
    · rw [if_neg hty]
      rw [not_not] at hty
      have hck : cookieValid c io ⟨recvd io call.host.assoc buf, call.host.glob⟩
          (arr ((framePayload buf).drop (icspHeaderLen + icspChunkHdr)) 0 cookieLen) =
          (⟨recvd io call.host.assoc buf, secretRefresh io call.host.glob⟩,
            decide (arr (chunkData0 (framePayload buf)) 0 48 =
              cookieOf c (recvd io call.host.assoc buf))) := rfl
      rw [hck]
      cases hc : decide (arr (chunkData0 (framePayload buf)) 0 48 =
          cookieOf c (recvd io call.host.assoc buf)) with
      | false =>
        exact ServerOutcome.relisten c hnd
          ⟨recvd io call.host.assoc buf, secretRefresh io call.host.glob⟩ hcore
      | true =>
        have hsig : ed25519Verify c
            (slice ((framePayload buf).drop (icspHeaderLen + icspChunkHdr)) 0 cookieLen)
            (arr ((framePayload buf).drop (icspHeaderLen + icspChunkHdr)) cookieLen 64)
            (recvd io call.host.assoc buf).peerId =
            ed25519Verify c (slice (chunkData0 (framePayload buf)) 0 48)
              (arr (chunkData0 (framePayload buf)) 48 64) (recvd io call.host.assoc buf).peerId := rfl
        simp only [hsig]
        by_cases hv : ed25519Verify c (slice (chunkData0 (framePayload buf)) 0 48)
            (arr (chunkData0 (framePayload buf)) 48 64) (recvd io call.host.assoc buf).peerId = false
        · rw [if_pos hv]
          exact ServerOutcome.relisten c hnd
            ⟨recvd io call.host.assoc buf, secretRefresh io call.host.glob⟩ hcore
        · rw [if_neg hv]
          have hvalid : echoValid c (recvd io call.host.assoc buf) (framePayload buf) = true := by
            rw [echoValid, hc, Bool.true_and]
            exact Bool.not_eq_false _ ▸ hv
          cases hs : icspSendPkt io (recvd io call.host.assoc buf) cookieAck with
          | mk acts sent =>
            cases sent with
            | true => exact .completed buf n acts hp rfl hty hvalid hs
            | false => exact .unsent buf n acts hp rfl hs
  · have hend : ServerOutcome c io args call rx (⟨call.host, .done (-1)⟩, []) :=
      .waits call.host.assoc call.host.glob _ [] hnd (SameCore.refl _) (.inr (.inr rfl)) announces_nil
    have hstay : ServerOutcome c io args call rx (⟨call.host, .waitCookie⟩, []) :=
      .waits call.host.assoc call.host.glob _ [] hnd (SameCore.refl _) (.inl hp.symm) announces_nil
    cases ret with
    | payload p n src => exact absurd rfl (hret p n src)
    | noise =>
      simp only [serverStep, hp, hr]
      exact hstay
    | failed transient =>
      simp only [serverStep, hp, hr]
      cases transient with
      | true => exact hstay
      | false => exact hend
    | timedOut =>
      simp only [serverStep, hp, hr]
      split
      · obtain ⟨hcore, hacts⟩ := icspAnnounceSend_core c io call.host.assoc
        exact ServerOutcome.listen c hnd
          (h := { call.host with assoc := (icspAnnounceSend c io call.host.assoc).1 }) hcore hacts
      · exact hend

/-- The spec of a round of `icsp_server_accept`. -/
theorem serverStep_outcome (io : Io) (args : ServerArgs) (call : ServerCall) (rx : Rx) :
    ServerOutcome c io args call rx (serverStep c io args call rx) := by
  cases hp : call.phase with
  | waitInit => exact serverStep_waitInit c io args call rx hp
  | waitCookie => exact serverStep_waitCookie c io args call rx hp
  | done ret =>
    simp only [serverStep, hp]
    exact .ended ret hp

/-- What `icsp_server_accept` starts from: everything but the endpoint is reset. -/
def acceptAssoc (io : Io) (args : ServerArgs) (a : IcspAssoc) : IcspAssoc :=
  { assocReset io a with
    isInitiator := false
    srcPort := args.port
    dstPort := 0
    state := .closed
    streamsIn := 4
    streamsOut := 4
    idPub := arr args.sk.val 32 32
    sk := args.sk }

theorem serverStart_core (io : Io) (args : ServerArgs) (h : Host) :
    ∃ a acts, serverStart c io args h = (⟨⟨a, h.glob⟩, .waitInit⟩, acts) ∧
      SameCore (acceptAssoc io args h.assoc) a ∧ Announces acts :=
  serverListen_core c io args { h with assoc := acceptAssoc io args h.assoc }

/-- The client will send a further INIT: its wait ends without a frame, and its tries are not used up. -/
def asksAgain (call : ClientCall) (rx : Rx) : Bool :=
  match call.phase, icspRx call.assoc.tunnel rx with
  | .waitInitAck _, .frame _ _ => false
  | .waitInitAck tries, _ => tries + 1 < 5
  | _, _ => false

/-- The association once it has taken the INIT-ACK in `buf` and derived its keys. -/
def ackTaken (io : Io) (a : IcspAssoc) (buf : Bytes) : IcspAssoc :=
  derived c io (tookAck (recvd io a buf) (framePayload buf))

inductive ClientOutcome (io : Io) (args : ClientArgs) (call : ClientCall) (rx : Rx) :
    ClientCall × List Act → Prop
  | ended (ret : Int) (hp : call.phase = .done ret) : ClientOutcome io args call rx (call, [])
  /-- goes on waiting or gives up -/
  | waits (a : IcspAssoc) (phase : ClientPhase) (hp : ∀ ret, call.phase ≠ .done ret)
      (hcore : SameCore call.assoc a) (hph : phase = call.phase ∨ phase = .done (-1)) :
      ClientOutcome io args call rx (⟨a, phase⟩, [])
  /-- a new INIT -/
  | again (tries : Nat) (hp : call.phase = .waitInitAck tries) (hask : asksAgain call rx = true) :
      ClientOutcome io args call rx (clientInit c io args call.assoc (tries + 1))
  | badAck (tries : Nat) (buf : Bytes) (n : Nat) (hp : call.phase = .waitInitAck tries)
      (hrx : rx = .frame buf n) (hack : isInitAck args (framePayload buf) (n - 46) = true)
      (hver : ackVerifies c (framePayload buf) = false) :
      ClientOutcome io args call rx
        (⟨tookAck (recvd io call.assoc buf) (framePayload buf), .done (-1)⟩, [])
  | took (tries : Nat) (buf : Bytes) (n : Nat) (acts : List Act) (sent : Bool)
      (hp : call.phase = .waitInitAck tries) (hrx : rx = .frame buf n)
      (hack : isInitAck args (framePayload buf) (n - 46) = true)
      (hver : ackVerifies c (framePayload buf) = true)
      (hs : icspSendPkt io (ackTaken c io call.assoc buf)
        (cookieEcho c (chunkData0 (framePayload buf)) args.sk) = (acts, sent)) :
      ClientOutcome io args call rx
        (⟨ackTaken c io call.assoc buf,
            if sent then .waitCookieAck 0 (cookieEcho c (chunkData0 (framePayload buf)) args.sk)
            else .done (-1)⟩,
          installOf c (tookAck (recvd io call.assoc buf) (framePayload buf)) call.assoc.ephPriv ::
            .sign (ackCookie (framePayload buf)) :: acts)
  /-- the stored COOKIE-ECHO once more -/
  | echoes (tries : Nat) (ck : Bytes) (acts : List Act) (sent : Bool)
      (hp : call.phase = .waitCookieAck tries ck) (hs : icspSendPkt io call.assoc ck = (acts, sent)) :
      ClientOutcome io args call rx
        (⟨call.assoc, if sent then .waitCookieAck (tries + 1) ck else .done (-1)⟩, acts)
  | completed (tries : Nat) (ck buf : Bytes) (n : Nat) (hp : call.phase = .waitCookieAck tries ck)
      (hrx : rx = .frame buf n) (hty : byteAt (framePayload buf) icspHeaderLen = chunkCookieAck) :
      ClientOutcome io args call rx
        (⟨{ recvd io call.assoc buf with state := .established }, .done 0⟩, [])

theorem asksAgain_of_silent {io : Io} {call : ClientCall} {rx : Rx} {tries : Nat} {ret : RecvRet}
    (hp : call.phase = .waitInitAck tries) (htries : tries + 1 < 5) (hr : icspRecvFrame io call.assoc rx = (call.assoc, ret))
    (hret : ret = .timedOut ∨ ∃ transient, ret = .failed transient) : asksAgain call rx = true := by
  have hsilent : ∀ buf n, icspRx call.assoc.tunnel rx ≠ .frame buf n := by
    intro buf n hframe
    rw [icspRecvFrame, hframe] at hr
    dsimp only at hr
    repeat' split at hr
    all_goals
      obtain rfl := (Prod.mk.inj hr).2
      simp at hret
  rw [asksAgain, hp]
  cases hx : icspRx call.assoc.tunnel rx with
  | frame buf n => exact absurd hx (hsilent buf n)
  | failed transient => exact decide_eq_true htries
  | timedOut => exact decide_eq_true htries

theorem clientStep_waitInitAck (io : Io) (args : ClientArgs) (call : ClientCall) (rx : Rx)
    (tries : Nat) (hp : call.phase = .waitInitAck tries) :
    ClientOutcome c io args call rx (clientStep c io args call rx) := by
  have hnd : ∀ ret, call.phase ≠ .done ret := by
    intro ret hd
    rw [hp] at hd
    cases hd
  rcases icspRecvFrame_cases io call.assoc rx with ⟨buf, n, rfl, -, -, hr⟩ | ⟨ret, hr, hret⟩
  · rw [clientStep]
    simp only [hp, hr]
    by_cases hack : isInitAck args (framePayload buf) (n - 46) = false
    · rw [if_pos hack]
      exact .waits _ _ hnd (sameCore_recvd io call.assoc buf) (.inl hp.symm)
    · rw [if_neg hack]
      rw [Bool.not_eq_false] at hack
      have hver : initAckVerify c
          (takeInitAck (recvd io call.assoc buf)
            ((framePayload buf).drop (icspHeaderLen + icspChunkHdr)))
          ((framePayload buf).drop (icspHeaderLen + icspChunkHdr)) =
          ackVerifies c (framePayload buf) := rfl
      simp only [hver]
      cases hv : ackVerifies c (framePayload buf) with
      | false => exact .badAck tries buf n hp rfl hack hv
      | true =>
        cases hs : icspSendPkt io (ackTaken c io call.assoc buf)
            (cookieEcho c (chunkData0 (framePayload buf)) args.sk) with
        | mk acts sent =>
          have hout : ClientOutcome c io args call (.frame buf n) _ :=
            .took tries buf n acts sent hp rfl hack hv hs
          have hs₁ : (icspSendPkt io (ackTaken c io call.assoc buf)
            (cookieEcho c (chunkData0 (framePayload buf)) args.sk)).1 = acts := by rw [hs]
          have hs₂ : (icspSendPkt io (ackTaken c io call.assoc buf)
            (cookieEcho c (chunkData0 (framePayload buf)) args.sk)).2 = sent := by rw [hs]
          rw [← hs₁, ← hs₂] at hout
          exact hout
  · have hend : ClientOutcome c io args call rx (⟨call.assoc, .done (-1)⟩, []) :=
      .waits _ _ hnd (SameCore.refl _) (.inr rfl)
    have htry : (ret = .timedOut ∨ ∃ transient, ret = .failed transient) → ClientOutcome c io args call rx
        (if tries + 1 < 5 then clientInit c io args call.assoc (tries + 1)
          else (⟨call.assoc, .done (-1)⟩, [])) := by
      intro hsilent
      split
      · rename_i htries
        exact .again tries hp (asksAgain_of_silent hp htries hr hsilent)
      · exact hend
    cases ret with
    | payload p n src => exact absurd rfl (hret p n src)
    | noise =>
      simp only [clientStep, hp, hr]
      exact .waits _ _ hnd (SameCore.refl _) (.inl hp.symm)
    | failed transient =>
      simp only [clientStep, hp, hr]
      exact htry (.inr ⟨transient, rfl⟩)
    | timedOut =>
      simp only [clientStep, hp, hr]
      exact htry (.inl rfl)

theorem clientStep_waitCookieAck (io : Io) (args : ClientArgs) (call : ClientCall) (rx : Rx)
    (tries : Nat) (ck : Bytes) (hp : call.phase = .waitCookieAck tries ck) :
    ClientOutcome c io args call rx (clientStep c io args call rx) := by
  have hnd : ∀ ret, call.phase ≠ .done ret := by
    intro ret hd
    rw [hp] at hd
    cases hd
  rcases icspRecvFrame_cases io call.assoc rx with ⟨buf, n, rfl, -, -, hr⟩ | ⟨ret, hr, hret⟩
  · rw [clientStep]
    simp only [hp, hr]
    by_cases hty : byteAt (framePayload buf) icspHeaderLen ≠ chunkCookieAck
    · rw [if_pos hty]
      exact .waits _ _ hnd (sameCore_recvd io call.assoc buf) (.inl hp.symm)
    · rw [if_neg hty]
      exact .completed tries ck buf n hp rfl (not_not.mp hty)
  · have hend : ClientOutcome c io args call rx (⟨call.assoc, .done (-1)⟩, []) :=
      .waits _ _ hnd (SameCore.refl _) (.inr rfl)
    have htry : ClientOutcome c io args call rx
        (if tries + 1 < 5 then
          (⟨call.assoc, if (icspSendPkt io call.assoc ck).2 then .waitCookieAck (tries + 1) ck
            else .done (-1)⟩, (icspSendPkt io call.assoc ck).1)
          else (⟨call.assoc, .done (-1)⟩, [])) := by
      split
      · exact .echoes tries ck _ _ hp rfl
      · exact hend
    cases ret with
    | payload p n src => exact absurd rfl (hret p n src)
    | noise =>
      simp only [clientStep, hp, hr]
      exact .waits _ _ hnd (SameCore.refl _) (.inl hp.symm)
    | failed transient =>
      simp only [clientStep, hp, hr]
      exact htry
    | timedOut =>
      simp only [clientStep, hp, hr]
      exact htry

/-- The spec of a round of `icsp_client_handshake`. -/
theorem clientStep_outcome (io : Io) (args : ClientArgs) (call : ClientCall) (rx : Rx) :
    ClientOutcome c io args call rx (clientStep c io args call rx) := by
  cases hp : call.phase with
  | waitInitAck tries => exact clientStep_waitInitAck c io args call rx tries hp
  | waitCookieAck tries ck => exact clientStep_waitCookieAck c io args call rx tries ck hp
  | done ret =>
    simp only [clientStep, hp]
    exact .ended ret hp

end Icsp
