import BaitNet.Runs
import BaitNet.SessionSpec

/-!
# The identity behind a session

An established association handles frames, rekey timers and direct calls of the rekey
steps. `peer_id` is written from a message before that message is checked, so it stays
the authenticated peer exactly as long as no message that gets that far carries another
identity; then every key comes from an ephemeral that the peer signed.
-/
namespace Icsp

open Wire Link Crypto Runs

/-- A pair of data keys and what it was derived from. -/
structure Installed where
  ephPriv : Arr 32
  peerEph : Arr 32
  sendKey : Arr 32
  recvKey : Arr 32
  deriving DecidableEq

def installsOf (acts : List Act) : List Installed :=
  acts.filterMap fun
    | .install priv eph sk rk => some ⟨priv, eph, sk, rk⟩
    | _ => none

/-- A live association and the keys installed since it was established. -/
structure Live where
  host : Host
  installs : List Installed

inductive LiveEv where
  | frame (io : Io) (buf : Bytes) (n : Nat)
  | rekeyStart (io : Io)
  | rekeyClient (io : Io) (payload : Bytes)
  | rekeyServer (io : Io) (buf payload : Bytes) (plen : Nat)
  | tick (io : Io)

variable (c : TweetNaCl)

/-- The host after an event and the acts of the call. -/
def liveCall (h : Host) : LiveEv → Host × List Act
  | .frame io buf n => ((icspHandleFrame c io h buf n).1, (icspHandleFrame c io h buf n).2.1)
  | .rekeyStart io =>
    ({ h with assoc := (icspRekeyStart c io h.assoc).1 }, (icspRekeyStart c io h.assoc).2.1)
  | .rekeyClient io payload =>
    ({ h with assoc := (icspRekeyClientStep c io h.assoc payload).1 },
      (icspRekeyClientStep c io h.assoc payload).2.1)
  | .rekeyServer io buf payload plen =>
    ((icspRekeyServerStep c io h buf payload plen).1, (icspRekeyServerStep c io h buf payload plen).2.1)
  | .tick io =>
    ({ h with assoc := (icspKeepaliveTick c io h.assoc).1 }, (icspKeepaliveTick c io h.assoc).2.1)

def liveStep (st : Live) (ev : LiveEv) : Live :=
  ⟨(liveCall c st.host ev).1, st.installs ++ installsOf (liveCall c st.host ev).2⟩

/-- The ephemeral stands in an INIT or INIT-ACK whose signed part satisfies `signed`. -/
def Vouched (signed : Bytes → Prop) (eph : Arr 32) : Prop :=
  ∃ payload, arr (chunkData0 payload) 5 32 = eph ∧
    ((byteAt payload icspHeaderLen = chunkInit ∧ signed (initSigned payload)) ∨
      (byteAt payload icspHeaderLen = chunkInitAck ∧ signed (ackSigned payload)))

/-- The keys are those of our private key and an ephemeral that was vouched for. -/
def KeysVouched (signed : Bytes → Prop) (i : Installed) : Prop :=
  Vouched signed i.peerEph ∧
    ∃ role, (i.sendKey, i.recvKey) = sessionKeys c role (c.scalarmult i.ephPriv i.peerEph)

/-- `peer_id` is `P`, and all keys come from ephemerals that `P` signed. -/
structure PeerKept (P : Arr 32) (signed : Bytes → Prop) (st : Live) : Prop where
  peer : st.host.assoc.peerId = P
  keys : ∀ i ∈ st.installs, KeysVouched c signed i

/-- The identity that an INIT-ACK brings to `icsp_rekey_client_step`. -/
def ackIdentity (a : IcspAssoc) (payload : Bytes) : Option (Arr 32) :=
  if a.state = .rekeyWaitAck ∧ byteAt payload icspHeaderLen = chunkInitAck then
    some (arr (chunkData0 payload) 37 32)
  else none

/-- The identity that an INIT which passes the first checks brings to
`icsp_rekey_server_step`. -/
def initIdentityIn (io : Io) (h : Host) (buf payload : Bytes) (plen : Nat) : Option (Arr 32) :=
  if h.assoc.state = .established ∧ byteAt payload icspHeaderLen = chunkInit ∧
      initAdmitted c io h buf payload plen = true then
    claimedIdentity c h.assoc payload
  else none

/-- The identity that the message of an event brings. -/
def identityIn (h : Host) : LiveEv → Option (Arr 32)
  | .frame io buf n =>
    if frameAdmitted h.assoc buf n = true then
      (ackIdentity h.assoc (framePayload buf)).or
        (initIdentityIn c io h buf (framePayload buf) (n - 14 - ipv69HeaderLen))
    else none
  | .rekeyClient _ payload => ackIdentity h.assoc payload
  | .rekeyServer io buf payload plen => initIdentityIn c io h buf payload plen
  | .rekeyStart _ => none
  | .tick _ => none

/-- No identity but the peer's. -/
def SameIdentity (st : Live) (ev : LiveEv) : Prop :=
  ∀ id ∈ identityIn c st.host ev, id = st.host.assoc.peerId

instance (st : Live) (ev : LiveEv) : Decidable (SameIdentity c st ev) :=
  inferInstanceAs (Decidable (∀ id ∈ identityIn c st.host ev, id = _))

theorem installsOf_traffic {acts : List Act} (h : Traffic acts) : installsOf acts = [] := by
  rw [installsOf, List.filterMap_eq_nil_iff]
  intro act hact
  have ht := h act hact
  cases act with
  | install priv eph sk rk => exact nomatch ht
  | _ => rfl

theorem installsOf_append (acts acts' : List Act) :
    installsOf (acts ++ acts') = installsOf acts ++ installsOf acts' := List.filterMap_append

/-- Between its INIT-ACK and its COOKIE-ACK the initiator holds a vouched ephemeral. -/
def EphVouched (signed : Bytes → Prop) (a : IcspAssoc) : Prop :=
  a.state = .rekeyWaitCookieAck → Vouched signed a.peerEph

/-- The effect of one call: the identity is the one that came in, and if that is `P`,
the ephemeral and the keys are `P`'s. -/
structure Effect (P : Arr 32) (signed : Bytes → Prop) (a a' : IcspAssoc) (acts : List Act)
    (id : Option (Arr 32)) : Prop where
  peer : a'.peerId = id.getD a.peerId
  eph : a'.peerId = P → EphVouched signed a'
  keys : a'.peerId = P → ∀ i ∈ installsOf acts, KeysVouched c signed i

variable {c} {P : Arr 32} {signed : Bytes → Prop}

/-- A data step after a call changes nothing of its effect. -/
theorem Effect.data {a a₁ : IcspAssoc} {acts : List Act} {id : Option (Arr 32)}
    (h : Effect c P signed a a₁ acts id) (io : Io) (payload : Bytes) (plen : Nat) :
    Effect c P signed a (handleData c io a₁ payload plen).1
      (acts ++ (handleData c io a₁ payload plen).2.1) id := by
  obtain ⟨hk, ht⟩ := handleData_keeps c io a₁ payload plen
  obtain ⟨d, hd⟩ := hk.dataPlane
  rw [hd]
  refine ⟨h.peer, h.eph, ?_⟩
  rw [installsOf_append, installsOf_traffic ht, List.append_nil]
  exact h.keys

/-- Traffic before a call changes nothing of its effect. -/
theorem Effect.traffic {a a' : IcspAssoc} {acts acts' : List Act} {id : Option (Arr 32)}
    (h : Effect c P signed a a' acts id) (ht : Traffic acts') :
    Effect c P signed a a' (acts' ++ acts) id := by
  refine ⟨h.peer, h.eph, ?_⟩
  rw [installsOf_append, installsOf_traffic ht, List.nil_append]
  exact h.keys

/-- No message, no new identity, no keys. -/
theorem Effect.none {a a' : IcspAssoc} {acts : List Act} (hpeer : a'.peerId = a.peerId)
    (heph : EphVouched signed a') (hacts : installsOf acts = []) : Effect c P signed a a' acts none := by
  refine ⟨hpeer, fun _ => heph, ?_⟩
  rw [hacts]
  exact fun _ _ hi => nomatch hi

section Authentic

variable (hP : ∀ m sig, ed25519Verify c m sig P = true → signed m)
include hP

theorem rekeyClient_effect {io : Io} {a a' : IcspAssoc} {payload : Bytes} {acts : List Act} {r : Int}
    (he : EphVouched signed a) (hout : RekeyClientOutcome c io a payload (a', acts, r)) :
    Effect c P signed a a' acts (ackIdentity a payload) := by
  have hvouch : byteAt payload icspHeaderLen = chunkInitAck → ackVerifies c payload = true →
      arr (chunkData0 payload) 37 32 = P → Vouched signed (arr (chunkData0 payload) 5 32) := by
    intro hty hver hid
    rw [ackVerifies, hid] at hver
    exact ⟨payload, rfl, .inr ⟨hty, hP _ _ hver⟩⟩
  cases hout with
  | badAck hst hty hver =>
    rw [ackIdentity, if_pos ⟨hst, hty⟩]
    refine ⟨rfl, fun _ hst' => ?_, fun _ _ hi => nomatch hi⟩
    have hst'' : a.state = .rekeyWaitCookieAck := hst'
    rw [hst] at hst''
    cases hst''
  | echoed hst hty hver acts hs =>
    rw [ackIdentity, if_pos ⟨hst, hty⟩]
    refine ⟨rfl, fun hid _ => hvouch hty hver hid, fun _ i hi => ?_⟩
    have hnone : installsOf (.sign (ackCookie payload) :: acts) = installsOf acts := rfl
    rw [hnone, installsOf_traffic (Traffic.of_send hs)] at hi
    exact nomatch hi
  | unsent hst hty hver acts hs =>
    rw [ackIdentity, if_pos ⟨hst, hty⟩]
    refine ⟨rfl, fun _ hst' => ?_, fun _ i hi => ?_⟩
    · have hst'' : a.state = .rekeyWaitCookieAck := hst'
      rw [hst] at hst''
      cases hst''
    · have hnone : installsOf (.sign (ackCookie payload) :: acts) = installsOf acts := rfl
      rw [hnone, installsOf_traffic (Traffic.of_send hs)] at hi
      exact nomatch hi
  | completed hst hty =>
    have hno : ¬ (a.state = .rekeyWaitAck ∧ byteAt payload icspHeaderLen = chunkInitAck) := by
      rintro ⟨hst', -⟩
      rw [hst] at hst'
      cases hst'
    rw [ackIdentity, if_neg hno]
    refine ⟨rfl, fun _ hst' => ?_, fun _ i hi => ?_⟩
    · cases hst'
    · obtain rfl := List.mem_singleton.mp hi
      exact ⟨he hst, a.isInitiator, rfl⟩
  | other h₁ h₂ =>
    rw [ackIdentity, if_neg h₁]
    exact Effect.none rfl he rfl

theorem initCheck_effect {io : Io} {h h' : Host} {buf payload : Bytes} {plen : Nat}
    {flags : Option UInt8} (hst : h.assoc.state = .established)
    (hty : byteAt payload icspHeaderLen = chunkInit)
    (hout : InitOutcome c io h buf payload plen [] (h', flags)) :
    h'.assoc.state = .established ∧ Effect c P signed h.assoc h'.assoc [] (initIdentityIn c io h buf payload plen) ∧
      (flags.isSome = true → h'.assoc.peerId = P → Vouched signed h'.assoc.peerEph) := by
  have heph : ∀ a : IcspAssoc, a.state = .established → EphVouched signed a := by
    intro a ha hst'
    rw [ha] at hst'
    cases hst'
  cases hout with
  | refused g hadm =>
    have hno : ¬ (h.assoc.state = .established ∧ byteAt payload icspHeaderLen = chunkInit ∧
        initAdmitted c io h buf payload plen = true) := by
      rintro ⟨-, -, hadm'⟩
      rw [hadm] at hadm'
      cases hadm'
    rw [initIdentityIn, if_neg hno]
    exact ⟨hst, Effect.none rfl (heph _ hst) rfl, fun hs => nomatch hs⟩
  | boxed g hadm hid =>
    rw [initIdentityIn, if_pos ⟨hst, hty, hadm⟩, hid]
    refine ⟨hst, ⟨rfl, fun _ => heph _ hst, fun _ _ hi => nomatch hi⟩, fun hs => nomatch hs⟩
  | rejected g id hadm hid =>
    rw [initIdentityIn, if_pos ⟨hst, hty, hadm⟩, hid]
    refine ⟨hst, ⟨rfl, fun _ => heph _ hst, fun _ _ hi => nomatch hi⟩, fun hs => nomatch hs⟩
  | accepted g id hadm hid hsig hpeers =>
    rw [initIdentityIn, if_pos ⟨hst, hty, hadm⟩, hid]
    refine ⟨hst, ⟨rfl, fun _ => heph _ hst, fun _ _ hi => nomatch hi⟩, ?_⟩
    intro _ hidP
    have hidP' : id = P := hidP
    rw [initVerifies, hidP'] at hsig
    exact ⟨payload, rfl, .inl ⟨hty, hP _ _ hsig⟩⟩

theorem rekeyServer_effect {io : Io} {h h' : Host} {buf payload : Bytes} {plen : Nat}
    {acts : List Act} {r : Int} (he : EphVouched signed h.assoc)
    (hout : RekeyServerOutcome c io h buf payload plen (h', acts, r)) :
    Effect c P signed h.assoc h'.assoc acts (initIdentityIn c io h buf payload plen) := by
  have hnone : h.assoc.state = .rekeyWaitCookie → initIdentityIn c io h buf payload plen = none := by
    intro hst
    rw [initIdentityIn, if_neg]
    rintro ⟨hst', -⟩
    rw [hst] at hst'
    cases hst'
  cases hout with
  | dropped hst hty h' hin => exact (initCheck_effect hP hst hty hin).2.1
  | stranger hst hty h' flags hin hid => exact (initCheck_effect hP hst hty hin).2.1
  | answered hst hty h' flags hin hid acts sent hs =>
    obtain ⟨hst', heff, hvouch⟩ := initCheck_effect hP hst hty hin
    have hpeer : (if sent then { answered c io h'.assoc with state := .rekeyWaitCookie }
        else answered c io h'.assoc).peerId = h'.assoc.peerId := by
      split
      · rfl
      · rfl
    refine ⟨hpeer.trans heff.peer, ?_, ?_⟩
    · intro _ hst''
      have hne : (if sent then { answered c io h'.assoc with state := .rekeyWaitCookie }
          else answered c io h'.assoc).state ≠ .rekeyWaitCookieAck := by
        split
        · exact fun h => nomatch h
        · show h'.assoc.state ≠ _
          rw [hst']
          exact fun h => nomatch h
      exact absurd hst'' hne
    · intro hidP i hi
      rw [hpeer] at hidP
      have hcut : installsOf (installOf c h'.assoc io.ephRnd ::
          .sign (initAckBody (answered c io h'.assoc)) :: acts) =
          ⟨io.ephRnd, h'.assoc.peerEph,
            (sessionKeys c h'.assoc.isInitiator (c.scalarmult io.ephRnd h'.assoc.peerEph)).1,
            (sessionKeys c h'.assoc.isInitiator (c.scalarmult io.ephRnd h'.assoc.peerEph)).2⟩ ::
            installsOf acts := rfl
      rw [hcut, installsOf_traffic (Traffic.of_send hs)] at hi
      obtain rfl := List.mem_singleton.mp hi
      exact ⟨hvouch rfl hidP, h'.assoc.isInitiator, rfl⟩
  | badEcho hst hty hv =>
    rw [hnone hst]
    exact Effect.none rfl he rfl
  | completed hst hty hv acts hs =>
    rw [hnone hst]
    exact Effect.none rfl (fun hst' => nomatch hst') (installsOf_traffic (Traffic.of_send hs))
  | unsent hst hty hv acts hs =>
    rw [hnone hst]
    exact Effect.none rfl he (installsOf_traffic (Traffic.of_send hs))
  | other h₁ h₂ =>
    have hno : ¬ (h.assoc.state = .established ∧ byteAt payload icspHeaderLen = chunkInit ∧
        initAdmitted c io h buf payload plen = true) := fun ⟨hst, hty, _⟩ => h₁ ⟨hst, hty⟩
    rw [initIdentityIn, if_neg hno]
    exact Effect.none rfl he rfl

theorem handlePayload_effect {io : Io} {h : Host} {buf payload : Bytes} {plen : Nat}
    (he : EphVouched signed h.assoc) :
    Effect c P signed h.assoc (handlePayload c io h buf payload plen).1.assoc
      (handlePayload c io h buf payload plen).2.1
      ((ackIdentity h.assoc payload).or (initIdentityIn c io h buf payload plen)) := by
  have hclient : Rekeying h.assoc → initIdentityIn c io h buf payload plen = none := by
    intro hst
    rw [initIdentityIn, if_neg]
    rintro ⟨hst', -⟩
    exact hst.not_answering (.inl hst')
  have hserver : ¬ Rekeying h.assoc → ackIdentity h.assoc payload = none := by
    intro hst
    rw [ackIdentity, if_neg]
    rintro ⟨hst', -⟩
    exact hst (.inl hst')
  have hout := handlePayload_outcome c io h buf payload plen
  revert hout
  generalize handlePayload c io h buf payload plen = res
  intro hout
  cases hout with
  | client hst a acts r hr hne =>
    rw [hclient hst, Option.or_none]
    exact rekeyClient_effect hP he hr
  | clientData hst a acts hr =>
    rw [hclient hst, Option.or_none]
    exact (rekeyClient_effect hP he hr).data io payload plen
  | server hst h' acts r hr hne =>
    rw [hserver (fun hr => hr.not_answering hst), Option.none_or]
    exact rekeyServer_effect hP he hr
  | serverData hst h' acts hr =>
    rw [hserver (fun hr => hr.not_answering hst), Option.none_or]
    exact (rekeyServer_effect hP he hr).data io payload plen
  | data h₁ h₂ =>
    have hinit : initIdentityIn c io h buf payload plen = none := by
      rw [initIdentityIn, if_neg]
      rintro ⟨hst', -⟩
      exact h₂ (.inl hst')
    rw [hserver h₁, hinit, Option.or_none]
    have hquiet : Effect c P signed h.assoc h.assoc [] none := Effect.none rfl he rfl
    exact hquiet.data io payload plen

theorem handleFrame_effect {io : Io} {h : Host} {buf : Bytes} {n : Nat}
    (he : EphVouched signed h.assoc) :
    Effect c P signed h.assoc (icspHandleFrame c io h buf n).1.assoc
      (icspHandleFrame c io h buf n).2.1 (identityIn c h (.frame io buf n)) := by
  rcases icspHandleFrame_cases c io h buf n with ⟨hadm, hf⟩ | ⟨hadm, hf⟩
  · rw [hf, identityIn, if_neg (by rw [hadm]; exact Bool.noConfusion)]
    exact Effect.none rfl he rfl
  · have hlinked : initIdentityIn c io { h with assoc := linked io h.assoc buf } buf
        (framePayload buf) (n - 14 - ipv69HeaderLen) =
        initIdentityIn c io h buf (framePayload buf) (n - 14 - ipv69HeaderLen) := by
      rfl
    have hpay : Effect c P signed (linked io h.assoc buf)
        (handlePayload c io { h with assoc := linked io h.assoc buf } buf (framePayload buf)
          (n - 14 - ipv69HeaderLen)).1.assoc
        (handlePayload c io { h with assoc := linked io h.assoc buf } buf (framePayload buf)
          (n - 14 - ipv69HeaderLen)).2.1
        ((ackIdentity h.assoc (framePayload buf)).or
          (initIdentityIn c io h buf (framePayload buf) (n - 14 - ipv69HeaderLen))) := by
      rw [← hlinked]
      exact handlePayload_effect hP (h := { h with assoc := linked io h.assoc buf }) he
    rw [hf, identityIn, if_pos hadm]
    have heff : Effect c P signed h.assoc _ _ _ := ⟨hpay.peer, hpay.eph, hpay.keys⟩
    exact heff.traffic (beatOf_traffic io _ _ _)

omit hP in
/-- Steps that read no message. -/
structure Unheard (signed : Bytes → Prop) (a a' : IcspAssoc) (acts : List Act) : Prop where
  peer : a'.peerId = a.peerId
  eph : EphVouched signed a → EphVouched signed a'
  installs : installsOf acts = []

omit hP in
theorem Unheard.refl (a : IcspAssoc) : Unheard signed a a [] := ⟨rfl, id, rfl⟩

omit hP in
theorem Unheard.trans {a a₁ a₂ : IcspAssoc} {acts acts' : List Act} (h : Unheard signed a a₁ acts)
    (h' : Unheard signed a₁ a₂ acts') : Unheard signed a a₂ (acts ++ acts') := by
  refine ⟨h'.peer.trans h.peer, fun he => h'.eph (h.eph he), ?_⟩
  rw [installsOf_append, h.installs, h'.installs, List.append_nil]

omit hP in
theorem rekeyStart_unheard (io : Io) (a : IcspAssoc) :
    Unheard signed a (icspRekeyStart c io a).1 (icspRekeyStart c io a).2.1 := by
  rw [icspRekeyStart_eq]
  have hacts : installsOf (.sign (initBody c io (rekeyed c io a) none) ::
      (icspSendPkt io (rekeyed c io a) (rekeyInit c io a)).1) = [] :=
    (rfl : _ = installsOf (icspSendPkt io (rekeyed c io a) (rekeyInit c io a)).1).trans
      (installsOf_traffic (icspSendPkt_traffic io _ _))
  refine ⟨?_, ?_, hacts⟩
  · split
    · rfl
    · rfl
  · intro he
    split
    · exact fun hst => nomatch hst
    · exact he

omit hP in
theorem tickBeat_unheard (io : Io) (a : IcspAssoc) :
    Unheard signed a (tickBeat io a).1 (tickBeat io a).2 := by
  rw [tickBeat]
  split
  · exact ⟨rfl, id, installsOf_traffic (icspSendPkt_traffic io a _)⟩
  · exact Unheard.refl a

omit hP in
theorem tickAnnounce_unheard (io : Io) (a : IcspAssoc) :
    Unheard signed a (tickAnnounce c io a).1 (tickAnnounce c io a).2 := by
  rw [tickAnnounce]
  split
  · rw [icspAnnounceSend]
    split
    · exact ⟨rfl, id, rfl⟩
    · exact ⟨rfl, id, rfl⟩
  · exact Unheard.refl a

omit hP in
theorem tick_unheard (io : Io) (a : IcspAssoc) :
    Unheard signed a (icspKeepaliveTick c io a).1 (icspKeepaliveTick c io a).2.1 := by
  rw [icspKeepaliveTick]
  split
  · exact Unheard.refl a
  · have hrekey : Unheard signed (tickAnnounce c io (tickBeat io a).1).1
        (tickRekey c io (tickAnnounce c io (tickBeat io a).1).1).1
        (tickRekey c io (tickAnnounce c io (tickBeat io a).1).1).2 := by
      rw [tickRekey]
      split
      · exact rekeyStart_unheard io _
      · exact Unheard.refl _
    exact ((tickBeat_unheard io a).trans (tickAnnounce_unheard io _)).trans hrekey

omit hP in
theorem Unheard.effect {a a' : IcspAssoc} {acts : List Act} (h : Unheard signed a a' acts)
    (he : EphVouched signed a) : Effect c P signed a a' acts none :=
  Effect.none h.peer (h.eph he) h.installs

theorem liveCall_effect {h : Host} (he : EphVouched signed h.assoc) (ev : LiveEv) :
    Effect c P signed h.assoc (liveCall c h ev).1.assoc (liveCall c h ev).2 (identityIn c h ev) := by
  cases ev with
  | frame io buf n => exact handleFrame_effect hP he
  | rekeyStart io => exact (rekeyStart_unheard io h.assoc).effect he
  | rekeyClient io payload =>
    exact rekeyClient_effect hP he (icspRekeyClientStep_outcome c io h.assoc payload)
  | rekeyServer io buf payload plen =>
    exact rekeyServer_effect hP he (icspRekeyServerStep_outcome c io h buf payload plen)
  | tick io => exact (tick_unheard io h.assoc).effect he

/-- A step keeps the peer exactly when it is told no other identity. -/
theorem liveStep_iff {st : Live} (he : EphVouched signed st.host.assoc)
    (hk : PeerKept c P signed st) (ev : LiveEv) :
    PeerKept c P signed (liveStep c st ev) ↔ SameIdentity c st ev := by
  have heff := liveCall_effect hP he ev
  have hpeer := heff.peer
  constructor
  · intro h id hid
    have hid' : identityIn c st.host ev = some id := hid
    rw [hid', Option.getD_some] at hpeer
    exact hpeer.symm.trans (h.peer.trans hk.peer.symm)
  · intro hsame
    have hP' : (liveCall c st.host ev).1.assoc.peerId = P := by
      rw [hpeer]
      cases hid : identityIn c st.host ev with
      | none => exact hk.peer
      | some id => exact (hsame id hid).trans hk.peer
    refine ⟨hP', ?_⟩
    intro i hi
    cases List.mem_append.mp hi with
    | inl hold => exact hk.keys i hold
    | inr hnew => exact heff.keys hP' i hnew

end Authentic

/-- The peer stays the authenticated one, in every state of every run, exactly when no
message that reaches the identity carries another one. -/
theorem peer_kept_iff (c : TweetNaCl) (P : Arr 32) (signed : Bytes → Prop)
    (hP : ∀ m sig, ed25519Verify c m sig P = true → signed m) (h : Host)
    (hpeer : h.assoc.peerId = P) (hst : h.assoc.state = .established) (es : List LiveEv) :
    Throughout (liveStep c) (PeerKept c P signed) ⟨h, []⟩ es ↔
      Along (liveStep c) (SameIdentity c) ⟨h, []⟩ es := by
  refine throughout_iff_along (I := fun st => EphVouched signed st.host.assoc) ?_ ?_ _ es ?_ ?_
  · intro st ev he hk hk'
    exact (liveCall_effect hP he ev).eph hk'.peer
  · intro st ev he hk
    exact liveStep_iff hP he hk ev
  · intro hst'
    rw [hst] at hst'
    cases hst'
  · exact ⟨hpeer, fun _ hi => nomatch hi⟩

/-- The frame with which the holder of `x` answers an INIT. -/
def toyInitAck (x : UInt8) : Bytes :=
  let b : IcspAssoc := { IcspAssoc.zero with sk := toyKey x, idPub := toyId x }
  ((txFrames (initAckSend toy (.quiet 0) ⟨b, .zero⟩ b.sk).2.1).head?).getD []

/-- An established association with peer 7. -/
def toyLive : Host :=
  ⟨{ IcspAssoc.zero with
      state := .established, peerId := toyId 7, isInitiator := true, hasKey := true,
      srcMac := ⟨[2, 1, 1, 1, 1, 1], rfl⟩ }, .zero⟩

/-- A rekey that peer 7 answers. -/
theorem peer_kept_rekey :
    let signed := fun m => ∃ sig, ed25519Verify toy m sig (toyId 7) = true
    Throughout (liveStep toy) (PeerKept toy (toyId 7) signed) ⟨toyLive, []⟩
      [.rekeyStart (.quiet 0), .frame (.quiet 0) (toyInitAck 7) (toyInitAck 7).length] := by
  intro signed
  refine (peer_kept_iff toy (toyId 7) signed (fun m sig h => ⟨sig, h⟩) toyLive rfl rfl _).mpr ?_
  decide +kernel

/-- Another identity answers the same rekey with its own valid INIT-ACK: it is the peer
from then on, and the COOKIE-ACK installs keys shared with it. -/
theorem peer_replaced :
    let st := run (liveStep toy) ⟨toyLive, []⟩
      [.rekeyStart (.quiet 0), .frame (.quiet 0) (toyInitAck 9) (toyInitAck 9).length,
        .rekeyClient (.quiet 0) (List.replicate icspHeaderLen 0 ++ cookieAck)]
    st.host.assoc.peerId = toyId 9 ∧ st.host.assoc.state = .established ∧ st.installs.length = 1 ∧
      ∀ signed, ¬ PeerKept toy (toyId 7) signed st := by
  intro st
  have hid : st.host.assoc.peerId = toyId 9 := by decide +kernel
  refine ⟨hid, by decide +kernel, by decide +kernel, fun signed h => ?_⟩
  have hne : toyId 9 ≠ toyId 7 := by decide
  exact hne (hid.symm.trans h.peer)

end Icsp
