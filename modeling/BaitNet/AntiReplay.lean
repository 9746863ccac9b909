import BaitNet.Admission
import BaitNet.InitAtomic
import BaitNet.PeerIdentity

/-!
# INITs over the life of a server

A server calls `icsp_server_accept` again and again on one association object and, in
between, handles frames of the session that the call established. Within one call and
its session `last_init_ts` only grows; the next call clears it.
-/
namespace Icsp

open Wire Link Crypto Runs

/-- An INIT: the client's key, the timestamp and the chunk. -/
structure InitMsg where
  key : Arr 32
  ts : UInt64
  chunk : Bytes
  deriving DecidableEq

/-- The INIT chunk of a payload. -/
def initChunkOf (payload : Bytes) : Bytes :=
  slice payload icspHeaderLen (icspChunkHdr + initLen (byteAt payload (icspHeaderLen + 1)))

/-- What is read from a payload that `init_check` is shown. -/
abbrev InitReader := Io → Host → Bytes → Bytes → Nat → List (Arr 32) → Option InitMsg

section Readers

variable (c : TweetNaCl)

/-- The INIT that `init_check` accepts. -/
def initAccepted : InitReader := fun io h buf payload plen peers =>
  match initCheck c io h buf payload plen peers with
  | (_, none) => none
  | (h, some _) => some ⟨h.assoc.peerId, h.assoc.lastInitTs, initChunkOf payload⟩

/-- A valid INIT: nothing but the rate limit and the timestamp is against it. -/
def initOffered : InitReader := fun _ h buf payload plen peers =>
  if initWellFormed c buf payload plen && initVouched c h.assoc payload peers then
    (claimedIdentity c h.assoc payload).map fun id => ⟨id, get64 (chunkData0 payload) 37, initChunkOf payload⟩
  else none

end Readers

section Shown

variable (read : InitReader)

/-- The INIT of a round of `icsp_server_accept`. -/
def roundInit (io : Io) (args : ServerArgs) (call : ServerCall) (rx : Rx) : Option InitMsg :=
  match call.phase, icspRecvFrame io call.host.assoc rx with
  | .waitInit, (a, .payload payload plen _) =>
    if byteAt payload icspHeaderLen ≠ chunkInit ∨ get16 payload 2 ≠ args.port then none
    else
      let buf := match rx with
        | .frame buf _ => buf
        | _ => []
      read io { call.host with assoc := a } buf payload plen args.peers
  | _, _ => none

/-- The INIT of an `icsp_rekey_server_step`. -/
def rekeyInitIn (io : Io) (h : Host) (buf payload : Bytes) (plen : Nat) : Option InitMsg :=
  if h.assoc.state = .established ∧ byteAt payload icspHeaderLen = chunkInit then
    read io h buf payload plen []
  else none

def liveInit (h : Host) : LiveEv → Option InitMsg
  | .frame io buf n =>
    if frameAdmitted h.assoc buf n = true then
      rekeyInitIn read io { h with assoc := linked io h.assoc buf } buf (framePayload buf)
        (n - 14 - ipv69HeaderLen)
    else none
  | .rekeyServer io buf payload plen => rekeyInitIn read io h buf payload plen
  | _ => none

end Shown

/-- A server with the INITs it accepted and those it was offered, each before the association
was last reset and since. -/
structure Service where
  args : ServerArgs
  call : ServerCall
  before : List InitMsg
  since : List InitMsg
  offeredBefore : List InitMsg
  offeredSince : List InitMsg

inductive ServiceEv where
  | accept (io : Io) (args : ServerArgs)
  | round (io : Io) (rx : Rx)
  | live (ev : LiveEv)

def ServerCall.returned (call : ServerCall) : Bool :=
  match call.phase with
  | .done _ => true
  | _ => false

/-- The INIT of an event. -/
def serviceInit (read : InitReader) (s : Service) : ServiceEv → Option InitMsg
  | .accept _ _ => none
  | .round io rx => roundInit read io s.args s.call rx
  | .live ev => if s.call.returned then liveInit read s.call.host ev else none

variable (c : TweetNaCl)

/-- A call begins once the last one has returned, and only then are there frames for
`icsp_handle_frame`. -/
def serviceStep (s : Service) (ev : ServiceEv) : Service :=
  let s' := { s with
    since := s.since ++ (serviceInit (initAccepted c) s ev).toList
    offeredSince := s.offeredSince ++ (serviceInit (initOffered c) s ev).toList }
  match ev with
  | .accept io args =>
    if s.call.returned then
      ⟨args, (serverStart c io args s.call.host).1, s.before ++ s.since, [],
        s.offeredBefore ++ s.offeredSince, []⟩
    else s
  | .round io rx => { s' with call := (serverStep c io s.args s.call rx).1 }
  | .live ev => if s.call.returned then { s' with call := ⟨(liveCall c s.call.host ev).1, s.call.phase⟩ } else s

/-- A server that has not called `icsp_server_accept` yet. -/
def newService (h : Host) : Service := ⟨⟨0, .zero 64, [], 0⟩, ⟨h, .done 0⟩, [], [], [], []⟩

/-- Of two INITs the later is another chunk, and newer if it is from the same client. -/
def NewerThan (e e' : InitMsg) : Prop := (e.key = e'.key → e.ts < e'.ts) ∧ e.chunk ≠ e'.chunk

/-- No INIT was accepted twice, and those of a client in the order of their timestamps. -/
def NoReplay (s : Service) : Prop := (s.before ++ s.since).Pairwise NewerThan

/-- A valid INIT with a timestamp above the one that the association holds is no chunk that was
offered before the last reset, and its client's clock has moved on since. -/
def Renewed (s : Service) (ev : ServiceEv) : Prop :=
  ∀ e' ∈ serviceInit (initOffered c) s ev, s.call.host.assoc.lastInitTs < e'.ts →
    ∀ e ∈ s.offeredBefore, e.chunk ≠ e'.chunk ∧ (e.key = e'.key → e.ts < e'.ts)

instance (s : Service) (ev : ServiceEv) : Decidable (Renewed c s ev) :=
  inferInstanceAs (Decidable (∀ e' ∈ serviceInit (initOffered c) s ev, _ → ∀ e ∈ s.offeredBefore, _ ∧ _))

variable {c}

/-- The timestamp of an INIT stands in its chunk. -/
theorem initChunkOf_ts (payload : Bytes) :
    get64 (initChunkOf payload) 41 = get64 (chunkData0 payload) 37 := by
  have hlen : 41 + 8 ≤ icspChunkHdr + initLen (byteAt payload (icspHeaderLen + 1)) := by
    simp only [icspChunkHdr, initLen, initPreSig, mac1Len]
    omega
  have hdrop := get64_slice (payload.drop (icspHeaderLen + icspChunkHdr)) 0 45 37 (by omega)
  rw [initChunkOf, get64_slice _ _ _ _ hlen, chunkData0]
  simp only [get64_eq, get32_eq, byteAt_drop, icspHeaderLen, icspChunkHdr]

/-- What an accepted INIT does to `last_init_ts`. -/
structure TakesTs (a b : IcspAssoc) (e : InitMsg) : Prop where
  newer : a.lastInitTs < e.ts
  taken : b.lastInitTs = e.ts
  chunk : get64 e.chunk 41 = e.ts

theorem initAccepted_ts {io : Io} {h : Host} {buf payload : Bytes} {plen : Nat} {peers : List (Arr 32)}
    {e : InitMsg} (he : initAccepted c io h buf payload plen peers = some e) :
    TakesTs h.assoc (initCheck c io h buf payload plen peers).1.assoc e ∧
      ∃ flags, (initCheck c io h buf payload plen peers).2 = some flags := by
  have hout := initCheck_outcome c io h buf payload plen peers
  rw [initAccepted] at he
  revert hout he
  generalize initCheck c io h buf payload plen peers = res
  intro he hout
  cases hout with
  | refused => cases he
  | boxed => cases he
  | rejected => cases he
  | accepted g id hadm hid hsig hpeers =>
    cases he
    rw [initAdmitted, Bool.and_eq_true, decide_eq_true_eq] at hadm
    exact ⟨⟨hadm.2, rfl, initChunkOf_ts payload⟩, _, rfl⟩

theorem InitOutcome.ts_le {io : Io} {h h' : Host} {buf payload : Bytes} {plen : Nat}
    {peers : List (Arr 32)} {flags : Option UInt8}
    (hout : InitOutcome c io h buf payload plen peers (h', flags)) :
    h.assoc.lastInitTs ≤ h'.assoc.lastInitTs := by
  have hlt : initAdmitted c io h buf payload plen = true →
      h.assoc.lastInitTs ≤ get64 (chunkData0 payload) 37 := by
    intro hadm
    rw [initAdmitted, Bool.and_eq_true, decide_eq_true_eq] at hadm
    exact UInt64.le_of_lt hadm.2
  cases hout with
  | refused => exact UInt64.le_refl _
  | boxed _ hadm => exact hlt hadm
  | rejected _ _ hadm => exact hlt hadm
  | accepted _ _ hadm => exact hlt hadm

theorem SameCore.ts {a b : IcspAssoc} (h : SameCore a b) : b.lastInitTs = a.lastInitTs :=
  congrArg KeyState.lastInitTs h.keyState

theorem round_ts_le (io : Io) (args : ServerArgs) (call : ServerCall) (rx : Rx) :
    call.host.assoc.lastInitTs ≤ (serverStep c io args call rx).1.host.assoc.lastInitTs := by
  have hout := serverStep_outcome c io args call rx
  revert hout
  generalize serverStep c io args call rx = res
  intro hout
  have hrecvd : ∀ buf, (recvd io call.host.assoc buf).lastInitTs = call.host.assoc.lastInitTs :=
    fun buf => (sameCore_recvd io call.host.assoc buf).ts
  cases hout with
  | ended => exact UInt64.le_refl _
  | waits a g phase acts hp hcore => exact UInt64.le_of_eq hcore.ts.symm
  | dropped buf n h' a acts hp hrx hty hin hcore =>
    have hle := hin.ts_le
    dsimp only at hle
    rw [hrecvd, ← hcore.ts] at hle
    exact hle
  | answered buf n h' flags acts sent hp hrx hty hin hs =>
    have hle := hin.ts_le
    dsimp only at hle
    rw [hrecvd] at hle
    exact hle
  | completed buf n acts => exact UInt64.le_of_eq (hrecvd buf).symm
  | unsent buf n acts => exact UInt64.le_of_eq (hrecvd buf).symm

theorem roundInit_ts {io : Io} {args : ServerArgs} {call : ServerCall} {rx : Rx} {e : InitMsg}
    (he : roundInit (initAccepted c) io args call rx = some e) :
    TakesTs call.host.assoc (serverStep c io args call rx).1.host.assoc e := by
  rcases icspRecvFrame_cases io call.host.assoc rx with ⟨buf, n, rfl, -, -, hr⟩ | ⟨ret, hr, hret⟩
  · rw [roundInit, hr] at he
    cases hphase : call.phase with
    | waitCookie =>
      rw [hphase] at he
      cases he
    | done ret =>
      rw [hphase] at he
      cases he
    | waitInit =>
      rw [hphase] at he
      dsimp only at he
      rw [serverStep]
      simp only [hphase, hr]
      by_cases hfor : byteAt (framePayload buf) icspHeaderLen ≠ chunkInit ∨
          get16 (framePayload buf) 2 ≠ args.port
      · rw [if_pos hfor] at he
        cases he
      · rw [if_neg hfor] at he
        rw [if_neg hfor]
        obtain ⟨hts, flags, hflags⟩ := initAccepted_ts he
        cases hcheck : initCheck c io ⟨recvd io call.host.assoc buf, call.host.glob⟩ buf
            (framePayload buf) (n - 46) args.peers with
        | mk h' flags' =>
          rw [hcheck] at hts hflags
          dsimp only at hts hflags
          subst hflags
          have hnewer := hts.newer
          rw [(sameCore_recvd io call.host.assoc buf).ts] at hnewer
          exact ⟨hnewer, hts.taken, hts.chunk⟩
  · unfold roundInit at he
    rw [hr] at he
    cases hphase : call.phase with
    | waitCookie =>
      rw [hphase] at he
      cases he
    | done =>
      rw [hphase] at he
      cases he
    | waitInit =>
      rw [hphase] at he
      cases ret with
      | payload p n src => exact absurd rfl (hret p n src)
      | timedOut => cases he
      | failed => cases he
      | noise => cases he

theorem rekeyClient_ts {io : Io} {a b : IcspAssoc} {payload : Bytes} {acts : List Act} {r : Int}
    (hout : RekeyClientOutcome c io a payload (b, acts, r)) : b.lastInitTs = a.lastInitTs := by
  cases hout with
  | badAck => rfl
  | echoed => rfl
  | unsent => rfl
  | completed => rfl
  | other => rfl

theorem rekeyServer_ts_le {io : Io} {h h' : Host} {buf payload : Bytes} {plen : Nat} {acts : List Act}
    {r : Int} (hout : RekeyServerOutcome c io h buf payload plen (h', acts, r)) :
    h.assoc.lastInitTs ≤ h'.assoc.lastInitTs := by
  cases hout with
  | dropped hst hty h' hin => exact hin.ts_le
  | stranger hst hty h' flags hin => exact hin.ts_le
  | answered hst hty h₁ flags hin hid acts sent =>
    have hle := hin.ts_le
    cases sent with
    | true => exact hle
    | false => exact hle
  | badEcho => exact UInt64.le_refl _
  | completed => exact UInt64.le_refl _
  | unsent => exact UInt64.le_refl _
  | other => exact UInt64.le_refl _

theorem handleData_ts (io : Io) (a : IcspAssoc) (payload : Bytes) (plen : Nat) :
    (handleData c io a payload plen).1.lastInitTs = a.lastInitTs := by
  obtain ⟨⟨⟨d, hd⟩, -, -⟩, -⟩ := handleData_keeps c io a payload plen
  rw [hd]

theorem payload_ts_le (io : Io) (h : Host) (buf payload : Bytes) (plen : Nat) :
    h.assoc.lastInitTs ≤ (handlePayload c io h buf payload plen).1.assoc.lastInitTs := by
  have hout := handlePayload_outcome c io h buf payload plen
  revert hout
  generalize handlePayload c io h buf payload plen = res
  intro hout
  cases hout with
  | client hst a acts r hr => exact UInt64.le_of_eq (rekeyClient_ts hr).symm
  | clientData hst a acts hr =>
    exact UInt64.le_of_eq ((handleData_ts io a payload plen).trans (rekeyClient_ts hr)).symm
  | server hst h' acts r hr => exact rekeyServer_ts_le hr
  | serverData hst h' acts hr =>
    exact UInt64.le_trans (rekeyServer_ts_le hr) (UInt64.le_of_eq (handleData_ts io h'.assoc payload plen).symm)
  | data => exact UInt64.le_of_eq (handleData_ts io h.assoc payload plen).symm

theorem rekeyStart_ts (io : Io) (a : IcspAssoc) : (icspRekeyStart c io a).1.lastInitTs = a.lastInitTs := by
  rw [icspRekeyStart_eq]
  dsimp only
  split
  · rfl
  · rfl

theorem tick_ts (io : Io) (a : IcspAssoc) : (icspKeepaliveTick c io a).1.lastInitTs = a.lastInitTs := by
  have hbeat : (tickBeat io a).1.lastInitTs = a.lastInitTs := by
    rw [tickBeat]
    split
    · rfl
    · rfl
  have hann : ∀ b, (tickAnnounce c io b).1.lastInitTs = b.lastInitTs := by
    intro b
    rw [tickAnnounce]
    split
    · exact (icspAnnounceSend_core c io b).1.ts
    · rfl
  have hrekey : ∀ b, (tickRekey c io b).1.lastInitTs = b.lastInitTs := by
    intro b
    rw [tickRekey]
    split
    · exact rekeyStart_ts io b
    · rfl
  rw [icspKeepaliveTick]
  split
  · rfl
  · exact (hrekey _).trans ((hann _).trans hbeat)

theorem live_ts_le (h : Host) (ev : LiveEv) :
    h.assoc.lastInitTs ≤ (liveCall c h ev).1.assoc.lastInitTs := by
  cases ev with
  | frame io buf n =>
    rcases icspHandleFrame_cases c io h buf n with ⟨-, hf⟩ | ⟨-, hf⟩
    · rw [liveCall, hf]
      exact UInt64.le_refl _
    · rw [liveCall, hf]
      exact payload_ts_le io { h with assoc := linked io h.assoc buf } buf _ _
  | rekeyStart io => exact UInt64.le_of_eq (rekeyStart_ts io h.assoc).symm
  | rekeyClient io payload =>
    exact UInt64.le_of_eq (rekeyClient_ts (icspRekeyClientStep_outcome c io h.assoc payload)).symm
  | rekeyServer io buf payload plen =>
    exact rekeyServer_ts_le (icspRekeyServerStep_outcome c io h buf payload plen)
  | tick io => exact UInt64.le_of_eq (tick_ts io h.assoc).symm

theorem rekeyInitIn_ts {io : Io} {h : Host} {buf payload : Bytes} {plen : Nat} {e : InitMsg}
    (he : rekeyInitIn (initAccepted c) io h buf payload plen = some e) :
    h.assoc.state = .established ∧
      TakesTs h.assoc (icspRekeyServerStep c io h buf payload plen).1.assoc e := by
  rw [rekeyInitIn] at he
  by_cases hst : h.assoc.state = .established ∧ byteAt payload icspHeaderLen = chunkInit
  · rw [if_pos hst] at he
    obtain ⟨hts, flags, hflags⟩ := initAccepted_ts he
    constructor
    · exact hst.1
    · rw [icspRekeyServerStep, if_pos hst]
      cases hcheck : initCheck c io h buf payload plen [] with
      | mk h' flags' =>
        rw [hcheck] at hts hflags
        dsimp only at hts hflags
        subst hflags
        dsimp only
        split
        · exact hts
        · rw [initAckSend_eq]
          cases icspSendPkt io (answered c io h'.assoc) (initAckChunk c (answered c io h'.assoc) h'.assoc.sk) with
          | mk acts sent =>
            cases sent with
            | true => exact ⟨hts.newer, hts.taken, hts.chunk⟩
            | false => exact ⟨hts.newer, hts.taken, hts.chunk⟩
  · rw [if_neg hst] at he
    cases he

/-- The rest of a frame's way leaves the timestamp alone. -/
theorem handlePayload_ts (io : Io) (h : Host) (buf payload : Bytes) (plen : Nat)
    (hst : h.assoc.state = .established) :
    (handlePayload c io h buf payload plen).1.assoc.lastInitTs =
      (icspRekeyServerStep c io h buf payload plen).1.assoc.lastInitTs := by
  have hans : Answering h.assoc := .inl hst
  have hnot : ¬ Rekeying h.assoc := fun hr => hr.not_answering hans
  rw [handlePayload, if_neg hnot]
  dsimp only
  rw [if_neg (by decide), if_neg (by decide), handleServer, if_pos hans]
  generalize icspRekeyServerStep c io h buf payload plen = res
  dsimp only
  split
  · rfl
  · split
    · rfl
    · exact handleData_ts io res.1.assoc payload plen

theorem liveInit_ts {h : Host} {ev : LiveEv} {e : InitMsg} (he : liveInit (initAccepted c) h ev = some e) :
    TakesTs h.assoc (liveCall c h ev).1.assoc e := by
  cases ev with
  | frame io buf n =>
    rw [liveInit] at he
    rcases icspHandleFrame_cases c io h buf n with ⟨hadm, hf⟩ | ⟨hadm, hf⟩
    · rw [hadm] at he
      cases he
    · rw [if_pos hadm] at he
      obtain ⟨hst, hts⟩ := rekeyInitIn_ts he
      have hkept := handlePayload_ts (c := c) io { h with assoc := linked io h.assoc buf } buf
        (framePayload buf) (n - 14 - ipv69HeaderLen) hst
      rw [liveCall, hf]
      exact ⟨hts.newer, hkept.trans hts.taken, hts.chunk⟩
  | rekeyServer io buf payload plen => exact (rekeyInitIn_ts he).2
  | rekeyStart io => cases he
  | rekeyClient io payload => cases he
  | tick io => cases he

/-- Within a call and its session the timestamp is that of the newest INIT. -/
def TsCurrent (s : Service) : Prop :=
  ∀ e ∈ s.since, e.ts ≤ s.call.host.assoc.lastInitTs ∧ get64 e.chunk 41 = e.ts

/-- What was accepted had been offered. -/
structure Offered (s : Service) : Prop where
  before : s.before ⊆ s.offeredBefore
  since : s.since ⊆ s.offeredSince

/-- An accepted INIT is newer than those from before the last reset. -/
def NewSinceReset (c : TweetNaCl) (s : Service) (ev : ServiceEv) : Prop :=
  ∀ e' ∈ serviceInit (initAccepted c) s ev, ∀ e ∈ s.before, NewerThan e e'

theorem initAccepted_offered {io : Io} {h : Host} {buf payload : Bytes} {plen : Nat} {peers : List (Arr 32)}
    {e : InitMsg} (he : initAccepted c io h buf payload plen peers = some e) :
    initOffered c io h buf payload plen peers = some e := by
  have hiff := initCheck_accepts_iff c io h buf payload plen peers
  have hout := initCheck_outcome c io h buf payload plen peers
  rw [initAccepted] at he
  revert hout he hiff
  generalize initCheck c io h buf payload plen peers = res
  intro he hiff hout
  cases hout with
  | refused => cases he
  | boxed => cases he
  | rejected => cases he
  | accepted g id hadm hid hsig hpeers =>
    cases he
    have hvouched := (hiff.mp (Option.some_ne_none _)).2
    rw [initAdmitted, Bool.and_eq_true, Bool.and_eq_true] at hadm
    rw [initOffered, hadm.1.1, hvouched, Bool.true_and, if_pos rfl, hid]
    rfl

theorem rekeyInitIn_offered {io : Io} {h : Host} {buf payload : Bytes} {plen : Nat} {e : InitMsg}
    (he : rekeyInitIn (initAccepted c) io h buf payload plen = some e) :
    rekeyInitIn (initOffered c) io h buf payload plen = some e := by
  rw [rekeyInitIn] at he ⊢
  by_cases hst : h.assoc.state = .established ∧ byteAt payload icspHeaderLen = chunkInit
  · rw [if_pos hst] at he ⊢
    exact initAccepted_offered he
  · rw [if_neg hst] at he
    cases he

theorem serviceInit_offered {s : Service} {ev : ServiceEv} {e : InitMsg}
    (he : serviceInit (initAccepted c) s ev = some e) : serviceInit (initOffered c) s ev = some e := by
  cases ev with
  | accept io args => cases he
  | round io rx =>
    rw [serviceInit] at he ⊢
    unfold roundInit at he ⊢
    split at he
    · split at he
      · cases he
      · rename_i hfor
        rw [if_neg hfor]
        exact initAccepted_offered he
    · cases he
  | live ev =>
    rw [serviceInit] at he ⊢
    split at he
    · rename_i hret
      rw [if_pos hret]
      cases ev with
      | frame io buf n =>
        rw [liveInit] at he ⊢
        split at he
        · rename_i hadm
          rw [if_pos hadm]
          exact rekeyInitIn_offered he
        · cases he
      | rekeyServer io buf payload plen => exact rekeyInitIn_offered he
      | rekeyStart io => cases he
      | rekeyClient io payload => cases he
      | tick io => cases he
    · cases he

/-- What an event does to the server: another call and a reset, or an INIT more or none. -/
inductive ServiceOutcome (c : TweetNaCl) (s : Service) (ev : ServiceEv) : Service → Prop where
  | reset (args : ServerArgs) (call : ServerCall) (hnone : serviceInit (initAccepted c) s ev = none) :
      ServiceOutcome c s ev
        ⟨args, call, s.before ++ s.since, [], s.offeredBefore ++ s.offeredSince, []⟩
  | quiet (call : ServerCall) (more : List InitMsg) (hnone : serviceInit (initAccepted c) s ev = none)
      (hle : s.call.host.assoc.lastInitTs ≤ call.host.assoc.lastInitTs) :
      ServiceOutcome c s ev { s with call := call, offeredSince := s.offeredSince ++ more }
  | accepts (call : ServerCall) (e : InitMsg) (hsome : serviceInit (initAccepted c) s ev = some e)
      (hts : TakesTs s.call.host.assoc call.host.assoc e) :
      ServiceOutcome c s ev
        { s with call := call, since := s.since ++ [e], offeredSince := s.offeredSince ++ [e] }

theorem serviceStep_outcome (s : Service) (ev : ServiceEv) : ServiceOutcome c s ev (serviceStep c s ev) := by
  have hidle : serviceInit (initAccepted c) s ev = none → ServiceOutcome c s ev s := by
    intro hnone
    have hquiet := ServiceOutcome.quiet (c := c) s.call [] hnone (UInt64.le_refl _)
    rwa [List.append_nil] at hquiet
  cases ev with
  | accept io args =>
    rw [serviceStep]
    split
    · exact .reset args _ rfl
    · exact hidle rfl
  | round io rx =>
    rw [serviceStep]
    cases hinit : serviceInit (initAccepted c) s (.round io rx) with
    | none =>
      rw [Option.toList_none, List.append_nil]
      exact .quiet _ _ hinit (round_ts_le io s.args s.call rx)
    | some e =>
      rw [serviceInit_offered hinit]
      exact .accepts _ e hinit (roundInit_ts hinit)
  | live ev =>
    rw [serviceStep]
    split
    · rename_i hret
      cases hinit : serviceInit (initAccepted c) s (.live ev) with
      | none =>
        rw [Option.toList_none, List.append_nil]
        exact .quiet _ _ hinit (live_ts_le s.call.host ev)
      | some e =>
        have hlive : liveInit (initAccepted c) s.call.host ev = some e := by
          rw [serviceInit, if_pos hret] at hinit
          exact hinit
        rw [serviceInit_offered hinit]
        exact .accepts _ e hinit (liveInit_ts hlive)
    · rename_i hret
      exact hidle (if_neg hret)

theorem offered_step (s : Service) (ev : ServiceEv) (h : Offered s) : Offered (serviceStep c s ev) := by
  have hout := serviceStep_outcome (c := c) s ev
  revert hout
  generalize serviceStep c s ev = s'
  intro hout
  cases hout with
  | reset args call hnone =>
    exact ⟨List.append_subset.mpr ⟨List.subset_append_of_subset_left _ h.before,
      List.subset_append_of_subset_right _ h.since⟩, List.nil_subset _⟩
  | quiet call more hnone hle => exact ⟨h.before, List.subset_append_of_subset_left _ h.since⟩
  | accepts call e hsome hts =>
    exact ⟨h.before, List.append_subset.mpr ⟨List.subset_append_of_subset_left _ h.since,
      List.subset_append_right _ _⟩⟩

theorem tsCurrent_step (s : Service) (ev : ServiceEv) (h : TsCurrent s) : TsCurrent (serviceStep c s ev) := by
  have hout := serviceStep_outcome (c := c) s ev
  revert hout
  generalize serviceStep c s ev = s'
  intro hout
  cases hout with
  | reset args call hnone => exact fun e he => nomatch he
  | quiet call more hnone hle =>
    intro e he
    exact ⟨UInt64.le_trans (h e he).1 hle, (h e he).2⟩
  | accepts call e' hsome hts =>
    intro e he
    cases List.mem_append.mp he with
    | inl hold =>
      have hlt := UInt64.lt_of_le_of_lt (h e hold).1 hts.newer
      have htaken : call.host.assoc.lastInitTs = e'.ts := hts.taken
      rw [htaken]
      exact ⟨UInt64.le_of_lt hlt, (h e hold).2⟩
    | inr hnew =>
      obtain rfl := List.mem_singleton.mp hnew
      exact ⟨UInt64.le_of_eq hts.taken.symm, hts.chunk⟩

/-- Only the INITs from before the last reset have to be compared. -/
theorem noReplay_step (s : Service) (ev : ServiceEv) (h : TsCurrent s) (hn : NoReplay s) :
    NoReplay (serviceStep c s ev) ↔ NewSinceReset c s ev := by
  have hout := serviceStep_outcome (c := c) s ev
  rw [NewSinceReset]
  revert hout
  generalize serviceStep c s ev = s'
  intro hout
  cases hout with
  | reset args call hnone =>
    rw [hnone, NoReplay, List.append_nil]
    exact ⟨fun _ e' he' => (nomatch he'), fun _ => hn⟩
  | quiet call more hnone hle =>
    rw [hnone]
    exact ⟨fun _ e' he' => (nomatch he'), fun _ => hn⟩
  | accepts call e' hsome hts =>
    rw [hsome, NoReplay, ← List.append_assoc, List.pairwise_append]
    have hsince : ∀ e ∈ s.since, NewerThan e e' := by
      intro e he
      have hlt := UInt64.lt_of_le_of_lt (h e he).1 hts.newer
      constructor
      · exact fun _ => hlt
      · intro hchunk
        have hsame : e.ts = e'.ts := by
          rw [← (h e he).2, hchunk, hts.chunk]
        rw [hsame] at hlt
        exact UInt64.lt_irrefl _ hlt
    constructor
    · rintro ⟨-, -, hall⟩ x hx e he
      obtain rfl := Option.mem_some_iff.mp hx
      exact hall e (List.mem_append_left _ he) e' (List.mem_singleton_self e')
    · intro hnew
      refine ⟨hn, List.pairwise_singleton _ _, ?_⟩
      intro e he x hx
      obtain rfl := List.mem_singleton.mp hx
      cases List.mem_append.mp he with
      | inl hbefore => exact hnew x rfl e hbefore
      | inr hrecent => exact hsince e hrecent

theorem serviceInit_newer {s : Service} {ev : ServiceEv} {e : InitMsg}
    (he : serviceInit (initAccepted c) s ev = some e) : s.call.host.assoc.lastInitTs < e.ts := by
  have hout := serviceStep_outcome (c := c) s ev
  revert hout
  generalize serviceStep c s ev = s'
  intro hout
  cases hout with
  | reset args call hnone =>
    rw [hnone] at he
    cases he
  | quiet call more hnone hle =>
    rw [hnone] at he
    cases he
  | accepts call e' hsome hts =>
    rw [hsome] at he
    obtain rfl := Option.some.inj he
    exact hts.newer

theorem Renewed.newSinceReset {s : Service} {ev : ServiceEv} (h : Renewed c s ev) (hoffered : Offered s) :
    NewSinceReset c s ev := by
  intro e' he' e he
  have hnew := h e' (serviceInit_offered he') (serviceInit_newer he') e (hoffered.before he)
  exact ⟨hnew.2, hnew.1⟩

/-- In a run in which no valid INIT from before a reset comes again behind it, and each client's
clock moves on, no INIT is accepted twice and those of each client are accepted in the order of
their timestamps. -/
theorem init_not_replayed (c : TweetNaCl) (h : Host) (es : List ServiceEv)
    (hnew : Along (serviceStep c) (Renewed c) (newService h) es) :
    Throughout (serviceStep c) NoReplay (newService h) es := by
  refine throughout_of_inv (I := fun s => TsCurrent s ∧ Offered s ∧ NoReplay s) (fun s ev hinv hrenewed => ?_)
    (fun _ hinv => hinv.2.2) _ es ⟨fun e he => (nomatch he), ⟨List.nil_subset _, List.nil_subset _⟩, List.Pairwise.nil⟩
    hnew
  obtain ⟨hts, hoffered, hno⟩ := hinv
  exact ⟨tsCurrent_step s ev hts, offered_step s ev hoffered,
    (noReplay_step s ev hts hno).mpr (hrenewed.newSinceReset hoffered)⟩

/-- Two calls, of which the first comes to nothing, and an INIT of each second. -/
def toyService : List ServiceEv :=
  [.accept (.quiet 1) toyServer, .round (.quiet 1) (lastFrame (clientStart toy (.quiet 1) toyClient (toyAssoc 9)).2),
    .round (.quiet 1) .timedOut, .accept (.quiet 2) toyServer,
    .round (.quiet 2) (lastFrame (clientStart toy (.quiet 2) toyClient (toyAssoc 9)).2)]

theorem init_not_replayed_toy :
    (run (serviceStep toy) (newService ⟨toyAssoc 7, .zero⟩) toyService).since.length = 1 ∧
      Throughout (serviceStep toy) NoReplay (newService ⟨toyAssoc 7, .zero⟩) toyService :=
  ⟨by decide +kernel, init_not_replayed toy ⟨toyAssoc 7, .zero⟩ toyService (by decide +kernel)⟩

/-- Two successive calls, and the same INIT in both. -/
theorem init_replayed_after_reset :
    let init := lastFrame (clientStart toy (.quiet 1) toyClient (toyAssoc 9)).2
    let s := run (serviceStep toy) (newService ⟨toyAssoc 7, .zero⟩)
      [.accept (.quiet 1) toyServer, .round (.quiet 1) init, .round (.quiet 1) .timedOut,
        .accept (.quiet 2) toyServer, .round (.quiet 2) init]
    ∃ e, s.before = [e] ∧ s.since = [e] ∧ ¬ NoReplay s := by
  intro init s
  have hboth : s.before = s.since ∧ s.since.length = 1 := by decide +kernel
  obtain ⟨e, he⟩ := List.length_eq_one_iff.mp hboth.2
  refine ⟨e, hboth.1.trans he, he, ?_⟩
  intro hn
  rw [NoReplay, hboth.1, he] at hn
  have hnew : NewerThan e e := List.rel_of_pairwise_cons hn List.mem_cons_self
  exact hnew.2 rfl

end Icsp
