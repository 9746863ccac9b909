import BaitNet.CallSpec
import BaitNet.PeerIdentity
import BaitNet.Resend

/-!
# What an association seals

The calls that seal are `icsp_data_send`, once for a message it numbers, and
`icsp_data_retransmit`, once for each slot that is due. Every other call leaves the
sending half of the association as it was, installs another key or resets it.
-/
namespace Icsp

open Wire Link Crypto

/-- One use of `ed25519_secretbox` under the association's `send_key`. -/
structure Sealing where
  key : Arr 32
  nonce : Arr 24
  clear : Bytes
  deriving DecidableEq

def sealings (acts : List Act) : List Sealing :=
  acts.filterMap fun
    | .seal key nonce clear => some ⟨key, nonce, clear⟩
    | _ => none

/-- The same nonce under the same key, but not the same plaintext. -/
def Clash (x y : Sealing) : Prop := x.key = y.key ∧ x.nonce = y.nonce ∧ x.clear ≠ y.clear

instance (x y : Sealing) : Decidable (Clash x y) := inferInstanceAs (Decidable (_ ∧ _ ∧ _))

/-- No nonce is used for two plaintexts under one key. -/
def NoncesUnique (sealed : List Sealing) : Prop := ∀ x ∈ sealed, ∀ y ∈ sealed, ¬ Clash x y

instance (sealed : List Sealing) : Decidable (NoncesUnique sealed) :=
  inferInstanceAs (Decidable (∀ x ∈ sealed, ∀ y ∈ sealed, ¬ Clash x y))

/-- The sending keys that a call puts in place. -/
def installedKeys (acts : List Act) : List (Arr 32) := (installsOf acts).map (·.sendKey)

theorem Clash.symm {x y : Sealing} (h : Clash x y) : Clash y x := ⟨h.1.symm, h.2.1.symm, h.2.2.symm⟩

theorem noncesUnique_append {sealed new : List Sealing} (h : NoncesUnique sealed) :
    NoncesUnique (sealed ++ new) ↔ NoncesUnique new ∧ ∀ x ∈ sealed, ∀ y ∈ new, ¬ Clash x y := by
  constructor
  · intro hall
    refine ⟨fun x hx y hy => ?_, fun x hx y hy => ?_⟩
    · exact hall x (List.mem_append_right _ hx) y (List.mem_append_right _ hy)
    · exact hall x (List.mem_append_left _ hx) y (List.mem_append_right _ hy)
  · rintro ⟨hnew, hcross⟩ x hx y hy
    rcases List.mem_append.mp hx with hx | hx
    · rcases List.mem_append.mp hy with hy | hy
      · exact h x hx y hy
      · exact hcross x hx y hy
    · rcases List.mem_append.mp hy with hy | hy
      · exact fun hclash => hcross y hy x hx hclash.symm
      · exact hnew x hx y hy

variable (c : TweetNaCl)

@[simp] theorem sealings_nil : sealings [] = [] := rfl

@[simp] theorem sealings_sign (m : Bytes) (acts : List Act) : sealings (.sign m :: acts) = sealings acts := rfl

@[simp] theorem sealings_install (a : IcspAssoc) (priv : Arr 32) (acts : List Act) :
    sealings (installOf c a priv :: acts) = sealings acts := rfl

theorem sealings_append (acts acts' : List Act) : sealings (acts ++ acts') = sealings acts ++ sealings acts' :=
  List.filterMap_append ..

@[simp] theorem installedKeys_nil : installedKeys [] = [] := rfl

@[simp] theorem installedKeys_sign (m : Bytes) (acts : List Act) :
    installedKeys (.sign m :: acts) = installedKeys acts := rfl

theorem installedKeys_append (acts acts' : List Act) :
    installedKeys (acts ++ acts') = installedKeys acts ++ installedKeys acts' := by
  rw [installedKeys, installsOf_append, List.map_append]
  rfl

/-- Acts that neither seal nor install. -/
def Quiet (acts : List Act) : Prop := sealings acts = [] ∧ installedKeys acts = []

theorem quiet_nil : Quiet [] := ⟨rfl, rfl⟩

theorem Quiet.sign {acts : List Act} (h : Quiet acts) (m : Bytes) : Quiet (.sign m :: acts) := h

theorem Quiet.append {acts acts' : List Act} (h : Quiet acts) (h' : Quiet acts') : Quiet (acts ++ acts') := by
  refine ⟨?_, ?_⟩
  · rw [sealings_append, h.1, h'.1, List.append_nil]
  · rw [installedKeys_append, h.2, h'.2, List.append_nil]

theorem Traffic.quiet {acts : List Act} (h : Traffic acts) : Quiet acts := by
  refine ⟨?_, ?_⟩
  · rw [sealings, List.filterMap_eq_nil_iff]
    intro act hact
    match act, h act hact with
    | .tx _ _, _ => rfl
    | .deliver _ _, _ => rfl
    | .announce _, _ => rfl
  · rw [installedKeys, installsOf_traffic h, List.map_nil]

theorem quiet_send {io : Io} {a : IcspAssoc} {chunk : Bytes} {acts : List Act} {sent : Bool}
    (h : icspSendPkt io a chunk = (acts, sent)) : Quiet acts :=
  (Traffic.of_send h).quiet

theorem Announces.quiet {acts : List Act} (h : Announces acts) : Quiet acts := by
  refine ⟨?_, ?_⟩
  · rw [sealings, List.filterMap_eq_nil_iff]
    intro act hact
    rcases h act hact with ⟨m, rfl, -⟩ | ⟨frame, rfl⟩
    · rfl
    · rfl
  · rw [installedKeys, List.map_eq_nil_iff, installsOf, List.filterMap_eq_nil_iff]
    intro act hact
    rcases h act hact with ⟨m, rfl, -⟩ | ⟨frame, rfl⟩
    · rfl
    · rfl

/-- The counter and the queue are as before, but for acknowledgements. -/
structure SameQueue (a b : IcspAssoc) : Prop where
  nextTsn : b.nextTsn = a.nextTsn
  sendq : ∃ cums, b.sendq = a.sendq.map (ackBy cums)

theorem SameQueue.of_eq {a b : IcspAssoc} (htsn : b.nextTsn = a.nextTsn) (hq : b.sendq = a.sendq) :
    SameQueue a b := by
  refine ⟨htsn, [], ?_⟩
  rw [hq, funext ackBy_nil, List.map_id']

theorem SameQueue.trans {a b d : IcspAssoc} (h₁ : SameQueue a b) (h₂ : SameQueue b d) : SameQueue a d := by
  obtain ⟨cums₁, hq₁⟩ := h₁.sendq
  obtain ⟨cums₂, hq₂⟩ := h₂.sendq
  refine ⟨h₂.nextTsn.trans h₁.nextTsn, cums₁ ++ cums₂, ?_⟩
  rw [hq₂, hq₁, List.map_map]
  exact List.map_congr_left fun e _ => ackBy_append cums₁ cums₂ e

theorem SameQueue.nil {a b : IcspAssoc} (h : SameQueue a b) (ha : a.sendq = []) : b.sendq = [] := by
  obtain ⟨cums, hq⟩ := h.sendq
  rw [hq, ha, List.map_nil]

/-- An event that seals nothing: the key is the one before, a new one, or none; the
queue is the one before or empty, and under the key before it is empty only if the TSN may be
`drawn` anew. -/
structure Turn (drawn : Prop) (a b : IcspAssoc) (acts : List Act) : Prop where
  keys : (b.sendKey = a.sendKey ∧ b.hasKey = a.hasKey ∧ installedKeys acts = []) ∨
    (b.sendKey ∈ installedKeys acts ∧ b.hasKey = true) ∨ (b.hasKey = false ∧ b.sendq = [])
  queue : SameQueue a b ∨ b.sendq = []
  stays : ¬ drawn → installedKeys acts = [] → b.hasKey = true → SameQueue a b
  seals : sealings acts = []

variable {drawn : Prop}

theorem Turn.quiet {a b : IcspAssoc} {acts : List Act} (hkey : b.sendKey = a.sendKey)
    (hhas : b.hasKey = a.hasKey) (htsn : b.nextTsn = a.nextTsn) (hq : b.sendq = a.sendq) (h : Quiet acts) :
    Turn drawn a b acts :=
  ⟨.inl ⟨hkey, hhas, h.2⟩, .inl (.of_eq htsn hq), fun _ _ _ => .of_eq htsn hq, h.1⟩

theorem Turn.core {a b : IcspAssoc} {acts : List Act} (hcore : SameCore a b) (h : Quiet acts) :
    Turn drawn a b acts := by
  obtain ⟨e, l, rfl⟩ := hcore
  exact .quiet rfl rfl rfl rfl h

/-- A new key, with the queue left or emptied. -/
theorem Turn.install {a b : IcspAssoc} {acts : List Act} (hkey : b.sendKey ∈ installedKeys acts)
    (hhas : b.hasKey = true) (hqueue : SameQueue a b ∨ b.sendq = []) (hseals : sealings acts = []) :
    Turn drawn a b acts := by
  refine ⟨.inr (.inl ⟨hkey, hhas⟩), hqueue, fun _ hnone _ => ?_, hseals⟩
  rw [hnone] at hkey
  cases hkey

/-- A new association has no key. -/
theorem Turn.reset {a b : IcspAssoc} {acts : List Act} (hhas : b.hasKey = false) (hqueue : b.sendq = [])
    (hseals : sealings acts = []) : Turn drawn a b acts := by
  refine ⟨.inr (.inr ⟨hhas, hqueue⟩), .inr hqueue, fun _ _ hon => ?_, hseals⟩
  rw [hhas] at hon
  cases hon

theorem Turn.trans {a b d : IcspAssoc} {acts acts' : List Act} (h : Turn drawn a b acts)
    (h' : Turn drawn b d acts') : Turn drawn a d (acts ++ acts') := by
  refine ⟨?_, ?_, ?_, by rw [sealings_append, h.seals, h'.seals, List.append_nil]⟩
  · rw [installedKeys_append]
    rcases h'.keys with ⟨hkey', hhas', hnone'⟩ | hnew' | hoff'
    · rw [hkey', hhas', hnone', List.append_nil]
      refine h.keys.imp_right fun hrest => hrest.imp_right fun hoff => ⟨hoff.1, ?_⟩
      exact h'.queue.elim (fun hq => hq.nil hoff.2) id
    · exact .inr (.inl ⟨List.mem_append_right _ hnew'.1, hnew'.2⟩)
    · exact .inr (.inr hoff')
  · rcases h'.queue with hq' | hq'
    · exact h.queue.imp (fun hq => hq.trans hq') hq'.nil
    · exact .inr hq'
  · intro hno hnone hon
    rw [installedKeys_append, List.append_eq_nil_iff] at hnone
    have hbon : b.hasKey = true := by
      rcases h'.keys with ⟨-, hhas', -⟩ | hnew' | hoff'
      · exact hhas'.symm.trans hon
      · rw [hnone.2] at hnew'
        cases hnew'.1
      · rw [hoff'.1] at hon
        cases hon
    exact (h.stays hno hnone.1 hbon).trans (h'.stays hno hnone.2 hon)

theorem handleData_turn (io : Io) (a : IcspAssoc) (payload : Bytes) (plen : Nat) :
    Turn drawn a (handleData c io a payload plen).1 (handleData c io a payload plen).2.1 := by
  obtain ⟨⟨⟨d, hd⟩, htsn, hq⟩, htraffic⟩ := handleData_keeps c io a payload plen
  refine ⟨.inl ⟨?_, ?_, htraffic.quiet.2⟩, .inl ⟨htsn, hq⟩, fun _ _ _ => ⟨htsn, hq⟩, htraffic.quiet.1⟩
  · rw [hd]
  · rw [hd]

theorem rekeyStart_turn (io : Io) (a : IcspAssoc) :
    Turn drawn a (icspRekeyStart c io a).1 (icspRekeyStart c io a).2.1 := by
  rw [icspRekeyStart_eq]
  have hquiet := (icspSendPkt_traffic io (rekeyed c io a) (rekeyInit c io a)).quiet.sign
    (initBody c io (rekeyed c io a) none)
  split
  · exact .quiet rfl rfl rfl rfl hquiet
  · exact .quiet rfl rfl rfl rfl hquiet

theorem rekeyClient_turn {io : Io} {a a' : IcspAssoc} {payload : Bytes} {acts : List Act} {r : Int}
    (hout : RekeyClientOutcome c io a payload (a', acts, r)) : Turn drawn a a' acts := by
  cases hout with
  | badAck hst hty hver => exact .quiet rfl rfl rfl rfl quiet_nil
  | echoed hst hty hver acts hs => exact .quiet rfl rfl rfl rfl ((quiet_send hs).sign _)
  | unsent hst hty hver acts hs => exact .quiet rfl rfl rfl rfl ((quiet_send hs).sign _)
  | completed hst hty => exact .install List.mem_cons_self rfl (.inr rfl) rfl
  | other h₁ h₂ => exact .quiet rfl rfl rfl rfl quiet_nil

theorem initOutcome_turn {io : Io} {h h' : Host} {buf payload : Bytes} {plen : Nat}
    {peers : List (Arr 32)} {flags : Option UInt8}
    (hout : InitOutcome c io h buf payload plen peers (h', flags)) : Turn drawn h.assoc h'.assoc [] := by
  cases hout with
  | refused g hadm => exact .quiet rfl rfl rfl rfl quiet_nil
  | boxed g hadm hid => exact .quiet rfl rfl rfl rfl quiet_nil
  | rejected g id hadm hid => exact .quiet rfl rfl rfl rfl quiet_nil
  | accepted g id hadm hid hsig hpeers => exact .quiet rfl rfl rfl rfl quiet_nil

/-- An INIT-ACK installs its keys whether or not it leaves. -/
theorem answered_turn {io : Io} {a : IcspAssoc} {sk : Arr 64} {acts : List Act} {sent : Bool}
    (hs : icspSendPkt io (answered c io a) (initAckChunk c (answered c io a) sk) = (acts, sent)) :
    Turn drawn a (answered c io a) (installOf c a io.ephRnd :: .sign (initAckBody (answered c io a)) :: acts) :=
  .install List.mem_cons_self rfl (.inl (.of_eq rfl rfl)) (quiet_send hs).1

/-- The COOKIE-ECHO ends a rekey: the TSN is drawn anew under the key of the INIT. -/
def echoCompletes (io : Io) (a : IcspAssoc) (payload : Bytes) : Bool :=
  decide (a.state = .rekeyWaitCookie) && byteAt payload icspHeaderLen == chunkCookieEcho && echoValid c a payload &&
    (icspSendPkt io a cookieAck).2

theorem rekeyServer_turn {io : Io} {h h' : Host} {buf payload : Bytes} {plen : Nat} {acts : List Act}
    {r : Int} (hdrawn : echoCompletes c io h.assoc payload = true → drawn)
    (hout : RekeyServerOutcome c io h buf payload plen (h', acts, r)) : Turn drawn h.assoc h'.assoc acts := by
  cases hout with
  | dropped hst hty h' hin => exact initOutcome_turn c hin
  | stranger hst hty h' flags hin hid => exact initOutcome_turn c hin
  | answered hst hty h' flags hin hid acts sent hs =>
    have hinit : Turn drawn h.assoc h'.assoc [] := initOutcome_turn c hin
    have hturn := hinit.trans (answered_turn c hs)
    cases sent with
    | true =>
      exact ⟨hturn.keys, hturn.queue.imp (fun hq => ⟨hq.nextTsn, hq.sendq⟩) id,
        fun hno hnone hon => ⟨(hturn.stays hno hnone hon).nextTsn, (hturn.stays hno hnone hon).sendq⟩, hturn.seals⟩
    | false => exact hturn
  | badEcho hst hty hv => exact .quiet rfl rfl rfl rfl quiet_nil
  | completed hst hty hv acts hs =>
    have hdone : echoCompletes c io h.assoc payload = true := by
      rw [echoCompletes, hst, hty, hv, hs]
      rfl
    exact ⟨.inl ⟨rfl, rfl, (quiet_send hs).2⟩, .inr rfl, fun hno _ _ => absurd (hdrawn hdone) hno, (quiet_send hs).1⟩
  | unsent hst hty hv acts hs => exact .quiet rfl rfl rfl rfl (quiet_send hs)
  | other h₁ h₂ => exact .quiet rfl rfl rfl rfl quiet_nil

theorem handlePayload_turn (io : Io) (h : Host) (buf payload : Bytes) (plen : Nat)
    (hdrawn : echoCompletes c io h.assoc payload = true → drawn) :
    Turn drawn h.assoc (handlePayload c io h buf payload plen).1.assoc
      (handlePayload c io h buf payload plen).2.1 := by
  have hout := handlePayload_outcome c io h buf payload plen
  revert hout
  generalize handlePayload c io h buf payload plen = res
  intro hout
  cases hout with
  | client hst a acts r hr hne => exact rekeyClient_turn c hr
  | clientData hst a acts hr => exact (rekeyClient_turn c hr).trans (handleData_turn c io a payload plen)
  | server hst h' acts r hr hne => exact rekeyServer_turn c hdrawn hr
  | serverData hst h' acts hr =>
    exact (rekeyServer_turn c hdrawn hr).trans (handleData_turn c io h'.assoc payload plen)
  | data h₁ h₂ => exact handleData_turn c io h.assoc payload plen

/-- The event draws the TSN anew and leaves the key. -/
def redraws (h : Host) : LiveEv → Bool
  | .frame io buf n => frameAdmitted h.assoc buf n && echoCompletes c io (linked io h.assoc buf) (framePayload buf)
  | .rekeyServer io _ payload _ => echoCompletes c io h.assoc payload
  | .rekeyStart _ | .rekeyClient _ _ | .tick _ => false

theorem handleFrame_turn (io : Io) (h : Host) (buf : Bytes) (n : Nat)
    (hdrawn : redraws c h (.frame io buf n) = true → drawn) :
    Turn drawn h.assoc (icspHandleFrame c io h buf n).1.assoc (icspHandleFrame c io h buf n).2.1 := by
  rcases icspHandleFrame_cases c io h buf n with ⟨hadm, hf⟩ | ⟨hadm, hf⟩
  · rw [hf]
    exact .quiet rfl rfl rfl rfl quiet_nil
  · rw [hf]
    have hlink : Turn drawn h.assoc (linked io h.assoc buf)
        (beatOf io (linked io h.assoc buf) (framePayload buf) (n - 14 - ipv69HeaderLen)) :=
      .quiet rfl rfl rfl rfl (beatOf_traffic io _ _ _).quiet
    refine hlink.trans (handlePayload_turn c io { h with assoc := linked io h.assoc buf } buf _ _ fun hdone => ?_)
    exact hdrawn (Bool.and_eq_true_iff.mpr ⟨hadm, hdone⟩)

theorem announceSend_turn (io : Io) (a : IcspAssoc) :
    Turn drawn a (icspAnnounceSend c io a).1 (icspAnnounceSend c io a).2 := by
  obtain ⟨hcore, hacts⟩ := icspAnnounceSend_core c io a
  exact .core hcore hacts.quiet

theorem tick_turn (io : Io) (a : IcspAssoc) :
    Turn drawn a (icspKeepaliveTick c io a).1 (icspKeepaliveTick c io a).2.1 := by
  have hstay : ∀ a : IcspAssoc, Turn drawn a a [] := fun a => .quiet rfl rfl rfl rfl quiet_nil
  have hbeat : Turn drawn a (tickBeat io a).1 (tickBeat io a).2 := by
    rw [tickBeat]
    split
    · exact .quiet rfl rfl rfl rfl (icspSendPkt_traffic io a _).quiet
    · exact hstay a
  have hann : ∀ a, Turn drawn a (tickAnnounce c io a).1 (tickAnnounce c io a).2 := by
    intro a
    rw [tickAnnounce]
    split
    · exact announceSend_turn c io a
    · exact hstay a
  have hrekey : ∀ a, Turn drawn a (tickRekey c io a).1 (tickRekey c io a).2 := by
    intro a
    rw [tickRekey]
    split
    · exact rekeyStart_turn c io a
    · exact hstay a
  rw [icspKeepaliveTick]
  split
  · exact hstay a
  · exact (hbeat.trans (hann _)).trans (hrekey _)

theorem liveCall_turn (h : Host) (ev : LiveEv) :
    Turn (redraws c h ev = true) h.assoc (liveCall c h ev).1.assoc (liveCall c h ev).2 := by
  cases ev with
  | frame io buf n => exact handleFrame_turn c io h buf n id
  | rekeyStart io => exact rekeyStart_turn c io h.assoc
  | rekeyClient io payload => exact rekeyClient_turn c (icspRekeyClientStep_outcome c io h.assoc payload)
  | rekeyServer io buf payload plen =>
    exact rekeyServer_turn c id (icspRekeyServerStep_outcome c io h buf payload plen)
  | tick io => exact tick_turn c io h.assoc

theorem clientInit_quiet (io : Io) (args : ClientArgs) (a : IcspAssoc) (tries : Nat) :
    Quiet (clientInit c io args a tries).2 :=
  ((icspSendPkt_traffic io _ _).quiet).sign _

/-- A new INIT draws a new ephemeral. -/
theorem clientInit_turn (io : Io) (args : ClientArgs) (a : IcspAssoc) (tries : Nat) :
    Turn drawn a (clientInit c io args a tries).1.assoc (clientInit c io args a tries).2 :=
  .quiet rfl rfl rfl rfl (clientInit_quiet c io args a tries)

theorem clientStart_turn (io : Io) (args : ClientArgs) (a : IcspAssoc) :
    Turn drawn a (clientStart c io args a).1.assoc (clientStart c io args a).2 :=
  .reset rfl rfl (clientInit_quiet c io args _ 0).1

theorem serverStart_turn (io : Io) (args : ServerArgs) (h : Host) :
    Turn drawn h.assoc (serverStart c io args h).1.host.assoc (serverStart c io args h).2 := by
  obtain ⟨a, acts, hstart, ⟨e, l, rfl⟩, hacts⟩ := serverStart_core c io args h
  rw [hstart]
  exact .reset rfl rfl hacts.quiet.1

theorem clientStep_turn (io : Io) (args : ClientArgs) (call : ClientCall) (rx : Rx) :
    Turn drawn call.assoc (clientStep c io args call rx).1.assoc (clientStep c io args call rx).2 := by
  have hout := clientStep_outcome c io args call rx
  revert hout
  generalize clientStep c io args call rx = res
  intro hout
  cases hout with
  | ended ret hp => exact .quiet rfl rfl rfl rfl quiet_nil
  | waits a phase hp hcore hph => exact .core hcore quiet_nil
  | again tries hp hask => exact clientInit_turn c io args call.assoc (tries + 1)
  | badAck tries buf n hp hrx hack hver => exact .quiet rfl rfl rfl rfl quiet_nil
  | took tries buf n acts sent hp hrx hack hver hs =>
    exact .install List.mem_cons_self rfl (.inl (.of_eq rfl rfl)) (quiet_send hs).1
  | echoes tries ck acts sent hp hs => exact .quiet rfl rfl rfl rfl (quiet_send hs)
  | completed tries ck buf n hp hrx hty => exact .quiet rfl rfl rfl rfl quiet_nil

theorem serverStep_turn (io : Io) (args : ServerArgs) (call : ServerCall) (rx : Rx) :
    Turn drawn call.host.assoc (serverStep c io args call rx).1.host.assoc (serverStep c io args call rx).2 := by
  have hout := serverStep_outcome c io args call rx
  revert hout
  generalize serverStep c io args call rx = res
  intro hout
  have hrecvd : ∀ buf, Turn drawn call.host.assoc (recvd io call.host.assoc buf) [] :=
    fun buf => .quiet rfl rfl rfl rfl quiet_nil
  cases hout with
  | ended ret hp => exact .quiet rfl rfl rfl rfl quiet_nil
  | waits a g phase acts hp hcore hph hacts => exact .core hcore hacts.quiet
  | dropped buf n h' a acts hp hrx hty hin hcore hacts =>
    exact ((hrecvd buf).trans (initOutcome_turn c hin)).trans (.core hcore hacts.quiet)
  | answered buf n h' flags acts sent hp hrx hty hin hs =>
    exact ((hrecvd buf).trans (initOutcome_turn c hin)).trans (answered_turn c hs)
  | completed buf n acts hp hrx hty hv hs => exact .quiet rfl rfl rfl rfl (quiet_send hs)
  | unsent buf n acts hp hrx hs => exact .quiet rfl rfl rfl rfl (quiet_send hs)

/-- The call numbers the message and seals it. -/
def Numbers (a : IcspAssoc) (stream : UInt16) (data : Bytes) : Prop :=
  a.hasKey = true ∧ (getStream a stream).2.isSome = true ∧ data.length ≤ icspMaxPayload

instance (a : IcspAssoc) (stream : UInt16) (data : Bytes) : Decidable (Numbers a stream data) :=
  inferInstanceAs (Decidable (_ ∧ _ ∧ _))

/-- What sealing a message under the association's key amounts to. -/
def sealingOf (a : IcspAssoc) (m : DataMsg) : Sealing := ⟨a.sendKey, dataNonce c a.assocId m.tsn, m.clear⟩

/-- The slot is sent again. -/
def Due (io : Io) (timeoutS : Int) (q : SendEntry) : Prop :=
  ¬ (q.acked ∨ (io.now : Int) - q.sentAt < timeoutS)

instance (io : Io) (timeoutS : Int) (q : SendEntry) : Decidable (Due io timeoutS q) :=
  inferInstanceAs (Decidable (¬ _))

theorem sealings_sealSend (io : Io) (a : IcspAssoc) (m : DataMsg) :
    sealings (sealSend c io a m.tsn m.streamId m.seq m.msg).1 = [sealingOf c a m] ∧
      installedKeys (sealSend c io a m.tsn m.streamId m.seq m.msg).1 = [] := by
  rcases sealSend_cases c io a m with ⟨h, -, -⟩ | h
  · rw [h]
    exact ⟨rfl, rfl⟩
  · rw [h]
    exact ⟨rfl, rfl⟩

/-- A retransmission round seals the slots that are due, in their order. -/
theorem sealings_retransmit (io : Io) (a : IcspAssoc) (timeoutS : Int) (q : List SendEntry) :
    sealings (retransmitLoop c io a timeoutS q).2.1 =
        (q.filter (Due io timeoutS)).map (fun e => sealingOf c a (entryMsg e)) ∧
      installedKeys (retransmitLoop c io a timeoutS q).2.1 = [] := by
  induction q with
  | nil => exact ⟨rfl, rfl⟩
  | cons e q ih =>
    obtain ⟨hseal, hinst⟩ := ih
    rw [retransmitLoop]
    by_cases hskip : e.acked ∨ (io.now : Int) - e.sentAt < timeoutS
    · have hdue : ¬ Due io timeoutS e := fun h => h hskip
      rw [List.filter_cons, if_neg (by rwa [decide_eq_true_iff])]
      simp only [if_pos hskip]
      exact ⟨hseal, hinst⟩
    · have hdue : Due io timeoutS e := hskip
      rw [List.filter_cons, if_pos (decide_eq_true hdue), List.map_cons]
      obtain ⟨hone, hone'⟩ := sealings_sealSend c io a (entryMsg e)
      have hboth : sealings ((sealSend c io a e.tsn e.streamId e.seq (slice e.data 0 e.len.toNat)).1 ++
            (retransmitLoop c io a timeoutS q).2.1) =
          sealingOf c a (entryMsg e) ::
            (q.filter (Due io timeoutS)).map (fun e => sealingOf c a (entryMsg e)) := by
        rw [sealings_append, hseal]
        exact congrArg (· ++ _) hone
      have hboth' : installedKeys ((sealSend c io a e.tsn e.streamId e.seq (slice e.data 0 e.len.toNat)).1 ++
            (retransmitLoop c io a timeoutS q).2.1) = [] := by
        rw [installedKeys_append, hinst, List.append_nil]
        exact hone'
      simp only [if_neg hskip]
      split
      · exact ⟨hboth, hboth'⟩
      · exact ⟨hboth, hboth'⟩

/-- The message that a send numbers. -/
def nextMsg (a : IcspAssoc) (stream : UInt16) (data : Bytes) : DataMsg :=
  ⟨a.nextTsn, stream, sendSeq a stream, data⟩

theorem icspDataSend_numbers (io : Io) (a : IcspAssoc) (stream : UInt16) (data : Bytes) :
    (¬ Numbers a stream data ∧
      ∃ ss, icspDataSend c io a stream data = ({ a with streams := ss }, [], -1)) ∨
    (Numbers a stream data ∧ ∃ ss ret, icspDataSend c io a stream data =
      (afterSend io a (nextMsg a stream data) ss,
        (sealSend c io a a.nextTsn stream (sendSeq a stream) data).1, ret)) := by
  rcases icspDataSend_cases c io a stream data with ⟨ss, h, -, -⟩ | ⟨hk, hslot, hlen, ss, h, -, -⟩
  · refine .inl ⟨?_, ss, h⟩
    rintro ⟨hk, hslot, hlen⟩
    have hacts : (icspDataSend c io a stream data).2.1 ≠ [] := by
      cases hg : getStream a stream with
      | mk a₁ slot =>
        cases slot with
        | none =>
          rw [hg] at hslot
          cases hslot
        | some s =>
          simp only [icspDataSend, hk, not_true_eq_false, if_false, hg, if_neg (not_lt.mpr hlen)]
          exact List.cons_ne_nil _ _
    rw [h] at hacts
    exact hacts rfl
  · exact .inr ⟨⟨hk, hslot, hlen⟩, ss, _, h⟩

end Icsp
