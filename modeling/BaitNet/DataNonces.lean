import BaitNet.Sealings

/-!
# Nonces of the data path

The nonce of a message is made of the association id and the TSN. The id and the keys
change in the middle of a rekey, the TSN is drawn anew at its end, and a retransmission
seals under the TSN of the message once more.
-/
namespace Icsp

open Wire Link Crypto Runs

/-- The blocking call that the association is in. -/
inductive Calling where
  | none
  | client (args : ClientArgs) (phase : ClientPhase)
  | server (args : ServerArgs) (phase : ServerPhase)

def Calling.returned : Calling → Bool
  | .none | .client _ (.done _) | .server _ (.done _) => true
  | _ => false

/-- A message that took a TSN, and the key and the association id it was sealed under. -/
structure Numbered where
  key : Arr 32
  assocId : UInt32
  m : DataMsg

/-- An association, all that it has sealed, and the messages it has sent: `numbered` of them
under the present keys. With `used`, something was sealed under the present keys. -/
structure Sealer where
  host : Host
  calling : Calling
  sealed : List Sealing
  sent : List Numbered
  numbered : Nat
  used : Bool

inductive SealEv where
  | send (io : Io) (stream : UInt16) (data : Bytes)
  | retransmit (io : Io) (timeoutS : Int)
  | live (ev : LiveEv)
  | connect (io : Io) (args : ClientArgs)
  | accept (io : Io) (args : ServerArgs)
  | round (io : Io) (rx : Rx)

variable (c : TweetNaCl)

/-- Between two blocking calls: the host, the call and the acts after an event. -/
def idleCall (h : Host) (calling : Calling) : SealEv → Host × Calling × List Act
  | .send io stream data =>
    let (a, acts, _) := icspDataSend c io h.assoc stream data
    ({ h with assoc := a }, calling, acts)
  | .retransmit io timeoutS =>
    let (a, acts, _) := icspDataRetransmit c io h.assoc timeoutS
    ({ h with assoc := a }, calling, acts)
  | .live ev => ((liveCall c h ev).1, calling, (liveCall c h ev).2)
  | .connect io args =>
    let (call, acts) := clientStart c io args h.assoc
    ({ h with assoc := call.assoc }, .client args call.phase, acts)
  | .accept io args =>
    let (call, acts) := serverStart c io args h
    (call.host, .server args call.phase, acts)
  | .round _ _ => (h, calling, [])

/-- Within a blocking call there are its rounds only. -/
def sealerCall (h : Host) (calling : Calling) (ev : SealEv) : Host × Calling × List Act :=
  if calling.returned then idleCall c h calling ev
  else
    match ev, calling with
    | .round io rx, .client args phase =>
      let (call, acts) := clientStep c io args ⟨h.assoc, phase⟩ rx
      ({ h with assoc := call.assoc }, .client args call.phase, acts)
    | .round io rx, .server args phase =>
      let (call, acts) := serverStep c io args ⟨h, phase⟩ rx
      (call.host, .server args call.phase, acts)
    | _, _ => (h, calling, [])

/-- The message that an event numbers. -/
def newlySent (s : Sealer) : SealEv → List Numbered
  | .send _ stream data =>
    if s.calling.returned = true ∧ Numbers s.host.assoc stream data then
      [⟨s.host.assoc.sendKey, s.host.assoc.assocId, nextMsg s.host.assoc stream data⟩]
    else []
  | _ => []

def sealStep (s : Sealer) (ev : SealEv) : Sealer :=
  let (host, calling, acts) := sealerCall c s.host s.calling ev
  { host, calling
    sealed := s.sealed ++ sealings acts
    sent := s.sent ++ newlySent s ev
    numbered := if installedKeys acts = [] then s.numbered + (newlySent s ev).length else 0
    used := decide (installedKeys acts = []) && (s.used || !(sealings acts).isEmpty) }

/-- The TSN that comes next is one that a slot still holds. -/
def CameRound (a : IcspAssoc) : Prop := ∃ q ∈ a.sendq, q.tsn = a.nextTsn

instance (a : IcspAssoc) : Decidable (CameRound a) := inferInstanceAs (Decidable (∃ q ∈ _, _))

/-- The counter has not come round to a slot, and is not drawn anew under a key that something
was sealed under. -/
def TsnsApart (s : Sealer) (ev : SealEv) : Prop :=
  s.calling.returned = true →
    match ev with
    | .send _ stream data => Numbers s.host.assoc stream data → ¬ CameRound s.host.assoc
    | .live ev => redraws c s.host ev = true → s.used = false
    | _ => True

instance (s : Sealer) : (ev : SealEv) → Decidable (TsnsApart c s ev)
  | .send _ stream data => inferInstanceAs (Decidable (_ → Numbers s.host.assoc stream data → ¬ _))
  | .live ev => inferInstanceAs (Decidable (_ → redraws c s.host ev = true → _))
  | .retransmit _ _ | .connect _ _ | .accept _ _ | .round _ _ => .isTrue fun _ => trivial

/-- A slot that is due was sent with zeros only, or under another key or association id. -/
def ResentAlike (s : Sealer) (ev : SealEv) : Prop :=
  s.calling.returned = true →
    match ev with
    | .retransmit io timeoutS =>
      ∀ q ∈ s.host.assoc.sendq, Due io timeoutS q → ∀ e ∈ s.sent, e.m.tsn = q.tsn →
        e.key = s.host.assoc.sendKey → e.assocId = s.host.assoc.assocId → ∀ x ∈ e.m.msg, x = 0
    | _ => True

instance (s : Sealer) : (ev : SealEv) → Decidable (ResentAlike s ev)
  | .retransmit io timeoutS =>
    inferInstanceAs (Decidable (_ → ∀ q ∈ s.host.assoc.sendq, Due io timeoutS q → ∀ e ∈ s.sent, _))
  | .send _ _ _ | .live _ | .connect _ _ | .accept _ _ | .round _ _ => .isTrue fun _ => trivial

/-- Another handshake gives another key. -/
def FreshKeys (s : Sealer) (ev : SealEv) : Prop :=
  ∀ key ∈ installedKeys (sealerCall c s.host s.calling ev).2.2, ∀ x ∈ s.sealed, x.key ≠ key

instance (s : Sealer) (ev : SealEv) : Decidable (FreshKeys c s ev) :=
  inferInstanceAs (Decidable (∀ key ∈ installedKeys _, ∀ x ∈ s.sealed, x.key ≠ key))

/-- What is assumed of a step: fresh keys, and fewer than `2^32` messages under the old. -/
def KeyEpoch (s : Sealer) (ev : SealEv) : Prop := FreshKeys c s ev ∧ s.numbered < 2 ^ 32

instance (s : Sealer) (ev : SealEv) : Decidable (KeyEpoch c s ev) := inferInstanceAs (Decidable (_ ∧ _))

theorem sealStep_eq (s : Sealer) (ev : SealEv) :
    sealStep c s ev =
      { host := (sealerCall c s.host s.calling ev).1
        calling := (sealerCall c s.host s.calling ev).2.1
        sealed := s.sealed ++ sealings (sealerCall c s.host s.calling ev).2.2
        sent := s.sent ++ newlySent s ev
        numbered := if installedKeys (sealerCall c s.host s.calling ev).2.2 = [] then
          s.numbered + (newlySent s ev).length else 0
        used := decide (installedKeys (sealerCall c s.host s.calling ev).2.2 = []) &&
          (s.used || !(sealings (sealerCall c s.host s.calling ev).2.2).isEmpty) } := rfl

/-- The nonce determines the association id and the TSN. -/
def NonceInjective : Prop :=
  ∀ id tsn id' tsn', dataNonce c id tsn = dataNonce c id' tsn' → id = id' ∧ tsn = tsn'

inductive SealOutcome (s : Sealer) (ev : SealEv) : IcspAssoc → List Act → Prop
  /-- nothing is sealed -/
  | turned (b : IcspAssoc) (acts : List Act) (drawn : Prop) (hturn : Turn drawn s.host.assoc b acts)
      (hnew : newlySent s ev = []) (hdrawn : TsnsApart c s ev → drawn → s.used = false)
      (halike : ResentAlike s ev) : SealOutcome s ev b acts
  | sent (io : Io) (stream : UInt16) (data : Bytes) (ss : List IcspStream) (acts : List Act)
      (hev : ev = .send io stream data) (hret : s.calling.returned = true)
      (hnum : Numbers s.host.assoc stream data)
      (hseal : sealings acts = [sealingOf c s.host.assoc (nextMsg s.host.assoc stream data)])
      (hnone : installedKeys acts = []) :
      SealOutcome s ev (afterSend io s.host.assoc (nextMsg s.host.assoc stream data) ss) acts
  | resent (io : Io) (timeoutS : Int) (acts : List Act) (hev : ev = .retransmit io timeoutS)
      (hret : s.calling.returned = true)
      (hseal : sealings acts = (s.host.assoc.sendq.filter (Due io timeoutS)).map
        (fun e => sealingOf c s.host.assoc (entryMsg e)))
      (hnone : installedKeys acts = []) :
      SealOutcome s ev
        { s.host.assoc with sendq := s.host.assoc.sendq.map (resentEntry c io s.host.assoc timeoutS) } acts

variable {c} in
/-- A send that is refused, or an event that a call blocks, leaves key, counter and queue alone. -/
theorem SealOutcome.idle {s : Sealer} {ev : SealEv} {b : IcspAssoc} (hnew : newlySent s ev = [])
    (halike : ResentAlike s ev) (hkey : b.sendKey = s.host.assoc.sendKey) (hhas : b.hasKey = s.host.assoc.hasKey)
    (htsn : b.nextTsn = s.host.assoc.nextTsn) (hq : b.sendq = s.host.assoc.sendq) : SealOutcome c s ev b [] :=
  .turned b [] False (.quiet hkey hhas htsn hq quiet_nil) hnew (fun _ hno => hno.elim) halike

theorem sealerCall_returned {s : Sealer} (hret : s.calling.returned = true) (ev : SealEv) :
    sealerCall c s.host s.calling ev = idleCall c s.host s.calling ev := by
  rw [sealerCall.eq_def]
  exact if_pos hret

theorem sealerCall_send (s : Sealer) (io : Io) (stream : UInt16) (data : Bytes)
    (hret : s.calling.returned = true) :
    SealOutcome c s (.send io stream data) (idleCall c s.host s.calling (.send io stream data)).1.assoc
      (idleCall c s.host s.calling (.send io stream data)).2.2 := by
  have hcall : idleCall c s.host s.calling (.send io stream data) =
      ({ s.host with assoc := (icspDataSend c io s.host.assoc stream data).1 }, s.calling,
        (icspDataSend c io s.host.assoc stream data).2.1) := rfl
  rw [hcall]
  rcases icspDataSend_numbers c io s.host.assoc stream data with ⟨hnum, ss, h⟩ | ⟨hnum, ss, ret, h⟩
  · rw [h]
    exact .idle (if_neg fun hboth => hnum hboth.2) (fun _ => trivial) rfl rfl rfl rfl
  · rw [h]
    obtain ⟨hseal, hnone⟩ := sealings_sealSend c io s.host.assoc (nextMsg s.host.assoc stream data)
    exact .sent io stream data ss _ rfl hret hnum hseal hnone

theorem sealerCall_retransmit (s : Sealer) (io : Io) (timeoutS : Int) (hret : s.calling.returned = true) :
    SealOutcome c s (.retransmit io timeoutS) (idleCall c s.host s.calling (.retransmit io timeoutS)).1.assoc
      (idleCall c s.host s.calling (.retransmit io timeoutS)).2.2 := by
  obtain ⟨hq, -⟩ := retransmitLoop_spec c io s.host.assoc timeoutS s.host.assoc.sendq
  obtain ⟨hseal, hnone⟩ := sealings_retransmit c io s.host.assoc timeoutS s.host.assoc.sendq
  have hcall : (idleCall c s.host s.calling (.retransmit io timeoutS)).1.assoc =
      { s.host.assoc with sendq := s.host.assoc.sendq.map (resentEntry c io s.host.assoc timeoutS) } := by
    rw [← hq]
    rfl
  rw [hcall]
  exact .resent io timeoutS _ rfl hret hseal hnone

/-- The spec of an event. -/
theorem sealerCall_outcome (s : Sealer) (ev : SealEv) :
    SealOutcome c s ev (sealerCall c s.host s.calling ev).1.assoc (sealerCall c s.host s.calling ev).2.2 := by
  cases hret : s.calling.returned with
  | true =>
    rw [sealerCall_returned c hret]
    cases ev with
    | send io stream data => exact sealerCall_send c s io stream data hret
    | retransmit io timeoutS => exact sealerCall_retransmit c s io timeoutS hret
    | live ev =>
      exact .turned _ _ _ (liveCall_turn c s.host ev) rfl (fun hapart hdrawn => hapart hret hdrawn) fun _ => trivial
    | connect io args =>
      exact .turned _ _ False (clientStart_turn c io args s.host.assoc) rfl (fun _ hno => hno.elim) fun _ => trivial
    | accept io args =>
      exact .turned _ _ False (serverStart_turn c io args s.host) rfl (fun _ hno => hno.elim) fun _ => trivial
    | round io rx => exact .idle rfl (fun _ => trivial) rfl rfl rfl rfl
  | false =>
    have hblocked : s.calling.returned ≠ true := by
      rw [hret]
      exact Bool.false_ne_true
    have halike : ∀ ev, ResentAlike s ev := fun ev hret' => absurd hret' hblocked
    have hnew : ∀ ev, newlySent s ev = [] := by
      intro ev
      cases ev with
      | send io stream data => exact if_neg fun hboth => hblocked hboth.1
      | _ => rfl
    rw [sealerCall.eq_def, if_neg hblocked]
    split
    · rename_i io rx args phase hc
      exact .turned _ _ False (clientStep_turn c io args ⟨s.host.assoc, phase⟩ rx) (hnew _)
        (fun _ hno => hno.elim) (halike _)
    · rename_i io rx args phase hc
      exact .turned _ _ False (serverStep_turn c io args ⟨s.host, phase⟩ rx) (hnew _)
        (fun _ hno => hno.elim) (halike _)
    · exact .idle (hnew _) (halike _) rfl rfl rfl rfl

/-- The message of a slot whose bytes were never written. -/
def blankMsg (q : SendEntry) : DataMsg := ⟨q.tsn, q.streamId, q.seq, List.replicate q.len.toNat 0⟩

/-- The slots hold zeros and have different TSNs, which the free slots do not get. -/
structure QueueInv (a : IcspAssoc) : Prop where
  blank : ∀ q ∈ a.sendq, entryMsg q = blankMsg q
  distinct : (a.sendq.map (·.tsn)).Nodup
  fresh : FreshTsns a

theorem QueueInv.nil {a : IcspAssoc} (h : a.sendq = []) : QueueInv a where
  blank := by
    rw [h]
    exact fun _ hq => nomatch hq
  distinct := by
    rw [h]
    exact List.nodup_nil
  fresh := by
    rw [FreshTsns, h]
    exact fun _ hq => nomatch hq

/-- Flags and times of the slots may change. -/
theorem QueueInv.touch {a b : IcspAssoc} (h : QueueInv a) {f : SendEntry → SendEntry}
    (hf : ∀ q, ∃ k t, f q = { q with acked := k, sentAt := t }) (htsn : b.nextTsn = a.nextTsn)
    (hq : b.sendq = a.sendq.map f) : QueueInv b where
  blank := by
    intro q hmem
    rw [hq] at hmem
    obtain ⟨q₀, hq₀, rfl⟩ := List.mem_map.mp hmem
    obtain ⟨k, t, hk⟩ := hf q₀
    rw [hk]
    exact h.blank q₀ hq₀
  distinct := by
    have hsame : ((·.tsn) ∘ f : SendEntry → UInt32) = (·.tsn) := by
      funext q
      obtain ⟨k, t, hk⟩ := hf q
      rw [Function.comp_apply, hk]
    rw [hq, List.map_map, hsame]
    exact h.distinct
  fresh := h.fresh.touch hf htsn hq

theorem QueueInv.turn {drawn : Prop} {a b : IcspAssoc} {acts : List Act} (h : QueueInv a)
    (hturn : Turn drawn a b acts) : QueueInv b := by
  rcases hturn.queue with hq | hq
  · obtain ⟨cums, hcums⟩ := hq.sendq
    exact h.touch (fun q => ⟨_, q.sentAt, rfl⟩) hq.nextTsn hcums
  · exact .nil hq

theorem blank_sendEntry (io : Io) (m : DataMsg) (h : m.msg.length ≤ icspMaxPayload) :
    entryMsg (sendEntry io m) = blankMsg (sendEntry io m) := by
  rw [entryMsg, blankMsg, sendEntry_data io m h, sendEntry_len io m h]

theorem QueueInv.push {a : IcspAssoc} (h : QueueInv a) (io : Io) (m : DataMsg) (ss : List IcspStream)
    (hm : m.tsn = a.nextTsn) (hlen : m.msg.length ≤ icspMaxPayload) : QueueInv (afterSend io a m ss) := by
  have hfresh : FreshTsns (afterSend io a m ss) := h.fresh.push io m ss hm
  by_cases hroom : a.sendq.length < icspSendq
  · have hq : (afterSend io a m ss).sendq = a.sendq ++ [sendEntry io m] := if_pos hroom
    refine ⟨?_, ?_, hfresh⟩
    · intro q hmem
      rw [hq] at hmem
      rcases List.mem_append.mp hmem with hmem | hmem
      · exact h.blank q hmem
      · obtain rfl := List.mem_singleton.mp hmem
        exact blank_sendEntry io m hlen
    · rw [hq, List.map_append, List.map_singleton, List.nodup_append]
      refine ⟨h.distinct, List.nodup_singleton _, ?_⟩
      intro tsn htsn tsn' htsn'
      obtain ⟨q, hmem, rfl⟩ := List.mem_map.mp htsn
      obtain rfl := List.mem_singleton.mp htsn'
      exact fun heq => h.fresh.next hroom q hmem (heq.trans hm)
  · have hq : (afterSend io a m ss).sendq = a.sendq := if_neg hroom
    refine ⟨?_, ?_, hfresh⟩
    · rw [hq]
      exact h.blank
    · rw [hq]
      exact h.distinct

/-- The message with its bytes left unwritten. -/
def DataMsg.blank (m : DataMsg) : DataMsg := { m with msg := List.replicate m.msg.length 0 }

/-- What sending the message sealed. -/
def Numbered.sealing (e : Numbered) : Sealing := ⟨e.key, dataNonce c e.assocId e.m.tsn, e.m.clear⟩

/-- What sending a slot again seals. -/
def slotSealing (key : Arr 32) (id : UInt32) (q : SendEntry) : Sealing :=
  ⟨key, dataNonce c id q.tsn, (blankMsg q).clear⟩

/-- The messages under the present key took the TSNs from one number on, the slots with their
TSNs are theirs, and all that was sealed under the key are these messages and the slots. -/
structure KeyInv (s : Sealer) : Prop where
  idle : s.used = false → ∀ x ∈ s.sealed, x.key ≠ s.host.assoc.sendKey
  counted : ∃ first n, n ≤ s.numbered ∧ s.host.assoc.nextTsn = first + .ofNat n ∧
    ∀ e ∈ s.sent, e.key = s.host.assoc.sendKey → ∃ i < n, e.m.tsn = first + .ofNat i
  slots : ∀ e ∈ s.sent, e.key = s.host.assoc.sendKey → ∀ q ∈ s.host.assoc.sendq, q.tsn = e.m.tsn →
    blankMsg q = e.m.blank
  sources : ∀ x ∈ s.sealed, x.key = s.host.assoc.sendKey → (∃ e ∈ s.sent, e.sealing c = x) ∨
    ∃ q ∈ s.host.assoc.sendq, ∃ id, slotSealing c s.host.assoc.sendKey id q = x

structure SealInv (s : Sealer) : Prop where
  queue : QueueInv s.host.assoc
  off : s.host.assoc.hasKey = false → s.host.assoc.sendq = []
  logged : ∀ e ∈ s.sent, e.sealing c ∈ s.sealed
  keyed : s.host.assoc.hasKey = true → KeyInv c s

variable {c}

theorem DataMsg.blank_eq {m : DataMsg} (h : ∀ x ∈ m.msg, x = 0) : m.blank = m := by
  rw [DataMsg.blank, ← List.eq_replicate_of_mem h]

theorem zero_of_blank_clear {m : DataMsg} (h : m.blank.clear = m.clear) : ∀ x ∈ m.msg, x = 0 := by
  have hmsg : List.replicate m.msg.length 0 = m.msg := List.append_cancel_left h
  intro x hx
  rw [← hmsg] at hx
  exact List.eq_of_mem_replicate hx

/-- Under a key that nothing was sealed with the count starts again. -/
theorem KeyInv.start {s : Sealer} (hlogged : ∀ e ∈ s.sent, e.sealing c ∈ s.sealed)
    (h : ∀ x ∈ s.sealed, x.key ≠ s.host.assoc.sendKey) : KeyInv c s where
  idle := fun _ => h
  counted := ⟨s.host.assoc.nextTsn, 0, Nat.zero_le _, (UInt32.add_zero _).symm,
    fun e he hkey => absurd hkey (h _ (hlogged e he))⟩
  slots := fun e he hkey => absurd hkey (h _ (hlogged e he))
  sources := fun x hx hkey => absurd hkey (h x hx)

/-- Flags and times of the slots may change, and slots may be sent again. -/
theorem KeyInv.touch {s s' : Sealer} (h : KeyInv c s) {f : SendEntry → SendEntry}
    (hf : ∀ q, ∃ k t, f q = { q with acked := k, sentAt := t })
    (hkey : s'.host.assoc.sendKey = s.host.assoc.sendKey) (htsn : s'.host.assoc.nextTsn = s.host.assoc.nextTsn)
    (hq : s'.host.assoc.sendq = s.host.assoc.sendq.map f) (hsent : s'.sent = s.sent)
    (hnum : s'.numbered = s.numbered) (again : List Sealing) (hsealed : s'.sealed = s.sealed ++ again)
    (hagain : ∀ x ∈ again, ∃ q ∈ s.host.assoc.sendq, ∃ id, slotSealing c s.host.assoc.sendKey id q = x)
    (hused : s'.used = false → s.used = false ∧ again = []) : KeyInv c s' where
  idle := by
    intro hno
    obtain ⟨hold, hnone⟩ := hused hno
    rw [hsealed, hnone, List.append_nil, hkey]
    exact h.idle hold
  counted := by
    rw [hsent, hkey, htsn, hnum]
    exact h.counted
  slots := by
    intro e he hekey q hmem hqt
    rw [hsent] at he
    rw [hkey] at hekey
    rw [hq] at hmem
    obtain ⟨q₀, hq₀, rfl⟩ := List.mem_map.mp hmem
    obtain ⟨k, t, hk⟩ := hf q₀
    rw [hk] at hqt ⊢
    exact h.slots e he hekey q₀ hq₀ hqt
  sources := by
    have hslot : ∀ x, (∃ q ∈ s.host.assoc.sendq, ∃ id, slotSealing c s.host.assoc.sendKey id q = x) →
        ∃ q ∈ s'.host.assoc.sendq, ∃ id, slotSealing c s.host.assoc.sendKey id q = x := by
      rintro x ⟨q, hmem, id, rfl⟩
      obtain ⟨k, t, hk⟩ := hf q
      refine ⟨f q, hq ▸ List.mem_map_of_mem hmem, id, ?_⟩
      rw [hk]
      rfl
    intro x hx hxkey
    rw [hsealed] at hx
    rw [hkey] at hxkey ⊢
    rw [hsent]
    cases List.mem_append.mp hx with
    | inl hold => exact (h.sources x hold hxkey).imp_right (hslot x)
    | inr hnew => exact .inr (hslot x (hagain x hnew))

/-- Two TSNs of one count are different. -/
theorem offset_ne {first : UInt32} {i n : Nat} (hi : i < n) (hn : n < 2 ^ 32) :
    first + .ofNat i ≠ first + .ofNat n := by
  intro h
  have hz := congrArg UInt32.toNat ((UInt32.add_right_inj first).mp h)
  rw [UInt32.toNat_ofNat', UInt32.toNat_ofNat'] at hz
  omega

/-- No message under the present key has the TSN that comes next. -/
theorem KeyInv.next {s : Sealer} (h : KeyInv c s) (hcount : s.numbered < 2 ^ 32) :
    ∀ e ∈ s.sent, e.key = s.host.assoc.sendKey → e.m.tsn ≠ s.host.assoc.nextTsn := by
  intro e he hkey
  obtain ⟨first, n, hn, hnext, hsent⟩ := h.counted
  obtain ⟨i, hi, htsn⟩ := hsent e he hkey
  rw [htsn, hnext]
  exact offset_ne hi (by omega)

theorem mem_afterSend {io : Io} {a : IcspAssoc} {m : DataMsg} {ss : List IcspStream} {q : SendEntry}
    (h : q ∈ (afterSend io a m ss).sendq) : q ∈ a.sendq ∨ q = sendEntry io m := by
  change q ∈ if a.sendq.length < icspSendq then a.sendq ++ [sendEntry io m] else a.sendq at h
  split at h
  · exact (List.mem_append.mp h).imp_right List.mem_singleton.mp
  · exact .inl h

theorem mem_afterSend_of_mem {a : IcspAssoc} {q : SendEntry} (h : q ∈ a.sendq) (io : Io) (m : DataMsg)
    (ss : List IcspStream) : q ∈ (afterSend io a m ss).sendq := by
  change q ∈ if a.sendq.length < icspSendq then a.sendq ++ [sendEntry io m] else a.sendq
  split
  · exact List.mem_append_left _ h
  · exact h

/-- A message gets the next TSN, which neither a slot nor a message under this key has. -/
theorem KeyInv.send {s s' : Sealer} (h : KeyInv c s) (hcount : s.numbered < 2 ^ 32)
    (hround : ¬ CameRound s.host.assoc) {io : Io} {m : DataMsg} {ss : List IcspStream}
    (hm : m.tsn = s.host.assoc.nextTsn) (hlen : m.msg.length ≤ icspMaxPayload)
    (hassoc : s'.host.assoc = afterSend io s.host.assoc m ss)
    (hsent : s'.sent = s.sent ++ [⟨s.host.assoc.sendKey, s.host.assoc.assocId, m⟩])
    (hsealed : s'.sealed = s.sealed ++ [sealingOf c s.host.assoc m])
    (hnum : s'.numbered = s.numbered + 1) (hused : s'.used = true) : KeyInv c s' where
  idle := by
    intro hno
    rw [hused] at hno
    cases hno
  counted := by
    obtain ⟨first, n, hn, hnext, htsns⟩ := h.counted
    refine ⟨first, n + 1, by omega, ?_, ?_⟩
    · rw [hassoc]
      change s.host.assoc.nextTsn + 1 = _
      rw [hnext, UInt32.ofNat_add, UInt32.add_assoc]
      rfl
    · rw [hassoc, hsent]
      intro e he hkey
      cases List.mem_append.mp he with
      | inl hold =>
        obtain ⟨i, hi, htsn⟩ := htsns e hold hkey
        exact ⟨i, by omega, htsn⟩
      | inr hnew =>
        obtain rfl := List.mem_singleton.mp hnew
        exact ⟨n, Nat.lt_succ_self n, hm.trans hnext⟩
  slots := by
    rw [hassoc, hsent]
    intro e he hkey q hmem hqt
    cases mem_afterSend hmem with
    | inl hslot =>
      cases List.mem_append.mp he with
      | inl hold => exact h.slots e hold hkey q hslot hqt
      | inr hnew =>
        obtain rfl := List.mem_singleton.mp hnew
        exact absurd ⟨q, hslot, hqt.trans hm⟩ hround
    | inr hslot =>
      subst hslot
      cases List.mem_append.mp he with
      | inl hold => exact absurd (hqt.symm.trans hm) (h.next hcount e hold hkey)
      | inr hnew =>
        obtain rfl := List.mem_singleton.mp hnew
        rw [blankMsg, sendEntry_len io m hlen]
        rfl
  sources := by
    rw [hassoc, hsent, hsealed]
    intro x hx hkey
    cases List.mem_append.mp hx with
    | inl hold =>
      cases h.sources x hold hkey with
      | inl hmsg =>
        obtain ⟨e, he, hex⟩ := hmsg
        exact .inl ⟨e, List.mem_append_left _ he, hex⟩
      | inr hslot =>
        obtain ⟨q, hmem, hqx⟩ := hslot
        exact .inr ⟨q, mem_afterSend_of_mem hmem io m ss, hqx⟩
    | inr hnew =>
      obtain rfl := List.mem_singleton.mp hnew
      exact .inl ⟨_, List.mem_append_right _ (List.mem_singleton_self _), rfl⟩

/-- An event that seals nothing keeps the invariant, or starts another count. -/
theorem SealInv.turn {s s' : Sealer} (h : SealInv c s) {drawn : Prop} {acts : List Act}
    (hturn : Turn drawn s.host.assoc s'.host.assoc acts) (hdrawn : drawn → s.used = false)
    (hfresh : ∀ key ∈ installedKeys acts, ∀ x ∈ s.sealed, x.key ≠ key) (hsealed : s'.sealed = s.sealed)
    (hsent : s'.sent = s.sent) (hnum : installedKeys acts = [] → s'.numbered = s.numbered)
    (hused : installedKeys acts = [] → s'.used = s.used) : SealInv c s' := by
  have hlogged : ∀ e ∈ s'.sent, e.sealing c ∈ s'.sealed := by
    rw [hsent, hsealed]
    exact h.logged
  have hstart : (∀ x ∈ s.sealed, x.key ≠ s'.host.assoc.sendKey) → KeyInv c s' :=
    fun hnone => .start hlogged (hsealed ▸ hnone)
  have hoff : s'.host.assoc.hasKey = false → s'.host.assoc.sendq = [] := by
    intro hno
    rcases hturn.keys with ⟨-, hhas', -⟩ | hnew | hoff
    · exact hturn.queue.elim (fun hq => hq.nil (h.off (hhas'.symm.trans hno))) id
    · rw [hnew.2] at hno
      cases hno
    · exact hoff.2
  refine ⟨h.queue.turn hturn, hoff, hlogged, fun hhas => ?_⟩
  rcases hturn.keys with ⟨hkey, hhas', hnone⟩ | hnew | hoff
  · have hinv := h.keyed (hhas'.symm.trans hhas)
    by_cases hdraw : drawn
    · refine hstart fun x hx => ?_
      rw [hkey]
      exact hinv.idle (hdrawn hdraw) x hx
    · obtain ⟨htsn, cums, hq⟩ := hturn.stays hdraw hnone hhas
      refine hinv.touch (fun q => ⟨_, q.sentAt, rfl⟩) hkey htsn hq hsent (hnum hnone) []
        (by rw [hsealed, List.append_nil]) (fun _ hx => nomatch hx) ?_
      rw [hused hnone]
      exact fun hno => ⟨hno, rfl⟩
  · exact hstart fun x hx => hfresh _ hnew.1 x hx
  · rw [hoff.1] at hhas
    cases hhas

/-- Every event keeps the invariant. -/
theorem SealInv.step {s : Sealer} (h : SealInv c s) (ev : SealEv) (hep : KeyEpoch c s ev)
    (hapart : TsnsApart c s ev) : SealInv c (sealStep c s ev) := by
  obtain ⟨hfresh, hcount⟩ := hep
  have hout := sealerCall_outcome c s ev
  rw [sealStep_eq]
  rw [FreshKeys] at hfresh
  revert hout hfresh
  generalize (sealerCall c s.host s.calling ev).1 = host
  generalize (sealerCall c s.host s.calling ev).2.2 = acts
  obtain ⟨b, glob⟩ := host
  intro hfresh hout
  cases hout with
  | turned b acts drawn hturn hnew hdrawn halike =>
    rw [hnew, hturn.seals]
    refine h.turn hturn (hdrawn hapart) hfresh (List.append_nil _) (List.append_nil _) (fun hnone => ?_) fun hnone => ?_
    · exact if_pos hnone
    · simp [hnone]
  | sent io stream data ss acts hev hret hnum hseal hnone =>
    subst hev
    have hround := hapart hret hnum
    have hnew : newlySent s (.send io stream data) =
        [⟨s.host.assoc.sendKey, s.host.assoc.assocId, nextMsg s.host.assoc stream data⟩] := if_pos ⟨hret, hnum⟩
    rw [hnew, hseal, hnone]
    refine ⟨h.queue.push io (nextMsg s.host.assoc stream data) ss rfl hnum.2.2, fun hno => ?_, fun e he => ?_,
      fun hhas => ?_⟩
    · exact absurd (hno.symm.trans hnum.1) Bool.false_ne_true
    · cases List.mem_append.mp he with
      | inl hold => exact List.mem_append_left _ (h.logged e hold)
      | inr hmem =>
        obtain rfl := List.mem_singleton.mp hmem
        exact List.mem_append_right _ (List.mem_singleton_self _)
    · exact (h.keyed hhas).send hcount hround rfl hnum.2.2 rfl rfl rfl rfl (by simp)
  | resent io timeoutS acts hev hret hseal hnone =>
    subst hev
    have hf : ∀ q, ∃ k t, resentEntry c io s.host.assoc timeoutS q = { q with acked := k, sentAt := t } := by
      intro q
      obtain ⟨t, ht⟩ := resentEntry_eq c io s.host.assoc timeoutS q
      exact ⟨q.acked, t, ht⟩
    rw [hseal, hnone]
    refine ⟨h.queue.touch hf rfl rfl, fun hno => ?_, fun e he => ?_, fun hhas => ?_⟩
    · exact (congrArg (List.map _) (h.off hno)).trans List.map_nil
    · change e ∈ s.sent ++ [] at he
      rw [List.append_nil] at he
      exact List.mem_append_left _ (h.logged e he)
    · refine (h.keyed hhas).touch hf rfl rfl rfl (List.append_nil _) rfl _ rfl ?_ ?_
      · intro x hx
        obtain ⟨q, hq, rfl⟩ := List.mem_map.mp hx
        have hmem := (List.mem_filter.mp hq).1
        refine ⟨q, hmem, s.host.assoc.assocId, ?_⟩
        rw [slotSealing, ← h.queue.blank q hmem]
        rfl
      · intro hno
        simpa using hno

theorem sealStep_sealed (s : Sealer) (ev : SealEv) :
    (sealStep c s ev).sealed = s.sealed ++ sealings (sealerCall c s.host s.calling ev).2.2 := rfl

section

variable (hinj : NonceInjective c)

include hinj

/-- Nothing that was sealed has the nonce of the next message. -/
theorem SealInv.sent_unique {s : Sealer} (h : SealInv c s) (hunique : NoncesUnique s.sealed)
    (hhas : s.host.assoc.hasKey = true) (hcount : s.numbered < 2 ^ 32) (hround : ¬ CameRound s.host.assoc)
    (m : DataMsg) (hm : m.tsn = s.host.assoc.nextTsn) :
    NoncesUnique (s.sealed ++ [sealingOf c s.host.assoc m]) := by
  have hinv := h.keyed hhas
  rw [noncesUnique_append hunique]
  constructor
  · intro x hx y hy hclash
    obtain rfl := List.mem_singleton.mp hx
    obtain rfl := List.mem_singleton.mp hy
    exact hclash.2.2 rfl
  · intro x hx y hy hclash
    obtain rfl := List.mem_singleton.mp hy
    cases hinv.sources x hx hclash.1 with
    | inl hmsg =>
      obtain ⟨e, he, rfl⟩ := hmsg
      have htsn : e.m.tsn = m.tsn := (hinj _ _ _ _ hclash.2.1).2
      exact hinv.next hcount e he hclash.1 (htsn.trans hm)
    | inr hslot =>
      obtain ⟨q, hmem, id, rfl⟩ := hslot
      have htsn : q.tsn = m.tsn := (hinj _ _ _ _ hclash.2.1).2
      exact hround ⟨q, hmem, htsn.trans hm⟩

/-- A round of retransmissions keeps the nonces unique exactly when the slots repeat what was
sent. -/
theorem SealInv.resent_iff {s : Sealer} (h : SealInv c s) (hunique : NoncesUnique s.sealed) (io : Io)
    (timeoutS : Int) :
    NoncesUnique (s.sealed ++ (s.host.assoc.sendq.filter (Due io timeoutS)).map
        (fun q => sealingOf c s.host.assoc (entryMsg q))) ↔
      ∀ q ∈ s.host.assoc.sendq, Due io timeoutS q → ∀ e ∈ s.sent, e.m.tsn = q.tsn →
        e.key = s.host.assoc.sendKey → e.assocId = s.host.assoc.assocId → ∀ x ∈ e.m.msg, x = 0 := by
  have hkeyed : ∀ q ∈ s.host.assoc.sendq, KeyInv c s := by
    intro q hmem
    refine h.keyed (Bool.not_eq_false _ ▸ fun hno => ?_)
    rw [h.off hno] at hmem
    cases hmem
  rw [noncesUnique_append hunique]
  constructor
  · rintro ⟨-, hcross⟩ q hmem hdue e he htsn hkey hid
    have hno := hcross _ (h.logged e he) _
      (List.mem_map_of_mem (List.mem_filter.mpr ⟨hmem, decide_eq_true hdue⟩))
    rw [h.queue.blank q hmem, (hkeyed q hmem).slots e he hkey q hmem htsn.symm] at hno
    refine zero_of_blank_clear (not_ne_iff.mp fun hne => hno ⟨hkey, ?_, hne.symm⟩)
    rw [Numbered.sealing, hid]
    rfl
  · intro hzero
    constructor
    · -- slots that are sent again in one round have different TSNs
      intro x hx y hy hclash
      obtain ⟨q, hq, rfl⟩ := List.mem_map.mp hx
      obtain ⟨q', hq', rfl⟩ := List.mem_map.mp hy
      have htsn : q.tsn = q'.tsn := (hinj _ _ _ _ hclash.2.1).2
      obtain rfl := List.inj_on_of_nodup_map h.queue.distinct (List.mem_filter.mp hq).1
        (List.mem_filter.mp hq').1 htsn
      exact hclash.2.2 rfl
    · intro x hx y hy hclash
      obtain ⟨q, hq, rfl⟩ := List.mem_map.mp hy
      obtain ⟨hmem, hdue⟩ := List.mem_filter.mp hq
      have hinv := hkeyed q hmem
      rw [h.queue.blank q hmem] at hclash
      cases hinv.sources x hx hclash.1 with
      | inl hmsg =>
        obtain ⟨e, he, rfl⟩ := hmsg
        obtain ⟨hid, htsn⟩ := hinj _ _ _ _ hclash.2.1
        have hmsgs := hzero q hmem (of_decide_eq_true hdue) e he htsn hclash.1 hid
        have hsame : e.m.clear = (blankMsg q).clear := by
          rw [hinv.slots e he hclash.1 q hmem htsn.symm, DataMsg.blank_eq hmsgs]
        exact hclash.2.2 hsame
      | inr hslot =>
        obtain ⟨q', hmem', id, rfl⟩ := hslot
        have htsn : q'.tsn = q.tsn := (hinj _ _ _ _ hclash.2.1).2
        obtain rfl := List.inj_on_of_nodup_map h.queue.distinct hmem' hmem htsn
        exact hclash.2.2 rfl

/-- A step that keeps the TSNs apart keeps the nonces unique exactly when what it sends again
is what was sent. -/
theorem SealInv.step_iff {s : Sealer} (h : SealInv c s) (hunique : NoncesUnique s.sealed) (ev : SealEv)
    (hep : KeyEpoch c s ev) (hapart : TsnsApart c s ev) :
    NoncesUnique (sealStep c s ev).sealed ↔ ResentAlike s ev := by
  have hout := sealerCall_outcome c s ev
  rw [sealStep_sealed]
  revert hout
  generalize (sealerCall c s.host s.calling ev).1.assoc = b
  generalize (sealerCall c s.host s.calling ev).2.2 = acts
  intro hout
  cases hout with
  | turned b acts drawn hturn hnew hdrawn halike =>
    rw [hturn.seals, List.append_nil]
    exact ⟨fun _ => halike, fun _ => hunique⟩
  | sent io stream data ss acts hev hret hnum hseal hnone =>
    subst hev
    rw [hseal]
    exact ⟨fun _ _ => trivial,
      fun _ => h.sent_unique hinj hunique hnum.1 hep.2 (hapart hret hnum) _ rfl⟩
  | resent io timeoutS acts hev hret hseal hnone =>
    subst hev
    rw [hseal, h.resent_iff hinj hunique io timeoutS]
    exact ⟨fun hall _ => hall, fun halike => halike hret⟩

end

/-- An association that has sealed nothing yet. -/
def Sealer.start (h : Host) : Sealer := ⟨h, .none, [], [], 0, false⟩

/-- Over every run that keeps the TSNs apart no nonce comes twice exactly when what is sent
again under a key is what was sent under it, that is, zeros. -/
theorem data_nonces_unique_iff (c : TweetNaCl) (hinj : NonceInjective c) (h : Host) (hq : h.assoc.sendq = [])
    (es : List SealEv) (hep : Along (sealStep c) (KeyEpoch c) (.start h) es)
    (hapart : Along (sealStep c) (TsnsApart c) (.start h) es) :
    Throughout (sealStep c) (fun s => NoncesUnique s.sealed) (.start h) es ↔
      Along (sealStep c) ResentAlike (.start h) es := by
  refine throughout_iff_along_given (I := SealInv c)
    (fun s ev hI _ hgiven _ => hI.step ev hgiven.1 hgiven.2)
    (fun s ev hI hunique hgiven => hI.step_iff hinj hunique ev hgiven.1 hgiven.2) _ es ?_ ?_ (along_and hep hapart)
  · exact ⟨.nil hq, fun _ => hq, fun _ he => (nomatch he),
      fun _ => .start (fun _ he => (nomatch he)) fun _ hx => (nomatch hx)⟩
  · exact fun _ hx => nomatch hx

theorem toy_nonces : NonceInjective toy := by
  have hid : ∀ id tsn, get32 (dataNonce toy id tsn).val 4 = id := fun id tsn => get32_put32 id []
  have htsn : ∀ id tsn, get32 (dataNonce toy id tsn).val 8 = tsn := fun id tsn => get32_put32 tsn []
  intro id tsn id' tsn' h
  refine ⟨?_, ?_⟩
  · rw [← hid id tsn, h, hid]
  · rw [← htsn id tsn, h, htsn]

/-- Station 7, which answers station 9. -/
def toyServed : IcspAssoc := { toyAssoc 7 with srcPort := 80 }

/-- Station 9 connects to station 7, sends one byte and retransmits it two seconds later. -/
def toyResend (x : UInt8) : List SealEv :=
  [.connect (.quiet 0) toyClient,
    .round (.quiet 0) (lastFrame (initAckSend toy (.quiet 0) ⟨toyServed, .zero⟩ toyServed.sk).2.1),
    .round (.quiet 0) (lastFrame (icspSendPkt (.quiet 0) toyServed cookieAck).1),
    .send (.quiet 0) 1 [x], .retransmit (.quiet 2) 1]

/-- The byte is a zero, as the slot's. -/
theorem data_nonces_unique_zero :
    Throughout (sealStep toy) (fun s => NoncesUnique s.sealed) (.start ⟨toyAssoc 9, .zero⟩) (toyResend 0) :=
  (data_nonces_unique_iff toy toy_nonces ⟨toyAssoc 9, .zero⟩ rfl (toyResend 0) (by decide +kernel)
    (by decide +kernel)).mpr (by decide +kernel)

/-- Another byte: the retransmission seals a zero under its nonce. -/
theorem nonce_reused : NonceInjective toy ∧
    Along (sealStep toy) (KeyEpoch toy) (.start ⟨toyAssoc 9, .zero⟩) (toyResend 1) ∧
    ¬ NoncesUnique (run (sealStep toy) (.start ⟨toyAssoc 9, .zero⟩) (toyResend 1)).sealed :=
  ⟨toy_nonces, by decide +kernel, by decide +kernel⟩

/-- Station 7, established with station 9. -/
def toyResponder : IcspAssoc := { toyServed with state := .established, peerId := toyId 9, hasKey := true }

/-- Station 9, which asks it for new keys. -/
def toyRekeying : IcspAssoc := (icspRekeyStart toy (.quiet 1) { toyAssoc 9 with dstAddr := 7, dstPort := 80 }).1

/-- The COOKIE-ECHO with which station 9 would answer. -/
def toyEcho : Bytes :=
  let cookie := (cookieOf toy { toyResponder with peerEph := toyRekeying.ephPub }).val
  icspChunkPut chunkCookieEcho (cookieLen + 64) ++ (cookie ++ (ed25519Sign toy cookie toyRekeying.sk).val)

/-- The responder gets a frame of station 9. -/
def toyHeard (chunk : Bytes) : SealEv :=
  .live (.frame (.quiet 2) (assocFrame toyRekeying chunk) (assocFrame toyRekeying chunk).length)

/-- A message between INIT and COOKIE-ECHO: the TSN drawn then is the one it took, and the
next message seals under its nonce. -/
example : ¬ NoncesUnique (run (sealStep toy) (.start ⟨toyResponder, .zero⟩)
    [toyHeard (rekeyInit toy (.quiet 1) toyRekeying), .send (.quiet 2) 1 [1], toyHeard toyEcho,
      .send (.quiet 2) 1 [2]]).sealed := by
  decide +kernel

end Icsp
