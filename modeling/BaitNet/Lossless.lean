import BaitNet.Reorder

/-!
# One frame, and many, over a network that loses nothing

The size limits of the two ends: a packet carries 1336 message bytes, the opener's
buffer takes 1016 of them. And the TSNs: they start anywhere and count modulo `2^32`,
but the replay window compares them as numbers.
-/
namespace Icsp

open Wire Link Crypto Runs

/-- The slots in use belong to different streams, all among `ids`. -/
structure SlotsOf (ids : Finset UInt16) (ss : List IcspStream) : Prop where
  nodup : (ss.map (·.id)).Nodup
  mem : ∀ s ∈ ss, s.id ∈ ids

theorem slotsOf_nil (ids : Finset UInt16) : SlotsOf ids [] := ⟨List.nodup_nil, fun _ hs => nomatch hs⟩

theorem updStream_ids (id : UInt16) (f : IcspStream → IcspStream) (hf : ∀ s, (f s).id = s.id)
    (ss : List IcspStream) : (updStream id f ss).map (·.id) = ss.map (·.id) := by
  induction ss with
  | nil => rfl
  | cons s ss ih =>
    rw [updStream]
    split
    · rw [List.map_cons, List.map_cons, hf]
    · rw [List.map_cons, List.map_cons, ih]

theorem SlotsOf.upd {ids : Finset UInt16} {ss : List IcspStream} (h : SlotsOf ids ss) (id : UInt16)
    (f : IcspStream → IcspStream) (hf : ∀ s, (f s).id = s.id) : SlotsOf ids (updStream id f ss) := by
  have hids := updStream_ids id f hf ss
  constructor
  · rw [hids]
    exact h.nodup
  · intro s hs
    have hmem : s.id ∈ (updStream id f ss).map (·.id) := List.mem_map_of_mem hs
    rw [hids] at hmem
    obtain ⟨t, ht, hid⟩ := List.mem_map.mp hmem
    rw [← hid]
    exact h.mem t ht

theorem findStream_none {a : IcspAssoc} {id : UInt16} (h : findStream a id = none) :
    id ∉ a.streams.map (·.id) := by
  intro hmem
  obtain ⟨s, hs, hid⟩ := List.mem_map.mp hmem
  have hno := List.find?_eq_none.mp h s hs
  exact hno (decide_eq_true hid)

theorem SlotsOf.get {ids : Finset UInt16} {a : IcspAssoc} (h : SlotsOf ids a.streams) {id : UInt16}
    (hid : id ∈ ids) : SlotsOf ids (getStream a id).1.streams := by
  rw [getStream]
  split
  · exact h
  · rename_i hnone
    split
    · exact h
    · constructor
      · rw [List.map_append, List.nodup_append]
        refine ⟨h.nodup, List.nodup_singleton _, ?_⟩
        rintro x hx y hy rfl
        rw [List.mem_singleton.mp hy] at hx
        exact findStream_none hnone hx
      · intro s hs
        cases List.mem_append.mp hs with
        | inl hold => exact h.mem s hold
        | inr hnew =>
          rw [List.mem_singleton.mp hnew]
          exact hid

/-- As long as there are no more streams than slots, each finds one. -/
theorem SlotsOf.slot {ids : Finset UInt16} {a : IcspAssoc} (h : SlotsOf ids a.streams)
    (hcard : ids.card ≤ icspMaxStreams) {id : UInt16} (hid : id ∈ ids) :
    (getStream a id).2.isSome = true := by
  rw [getStream]
  cases hfind : findStream a id with
  | some s => rfl
  | none =>
    have hnd : (id :: a.streams.map (·.id)).Nodup := List.nodup_cons.mpr ⟨findStream_none hfind, h.nodup⟩
    have hsub : (id :: a.streams.map (·.id)).toFinset ⊆ ids := by
      intro x hx
      rw [List.mem_toFinset, List.mem_cons] at hx
      cases hx with
      | inl heq => exact heq ▸ hid
      | inr hmem =>
        obtain ⟨s, hs, hsx⟩ := List.mem_map.mp hmem
        exact hsx ▸ h.mem s hs
    have hle := Finset.card_le_card hsub
    rw [List.toFinset_card_of_nodup hnd, List.length_cons, List.length_map] at hle
    rw [if_neg (by omega)]
    rfl

theorem acceptData_slots {ids : Finset UInt16} {a : IcspAssoc} (h : SlotsOf ids a.streams) (ch : Chunk)
    (hid : get16 ch.cd 4 ∈ ids) (clear : Bytes) (r : DataRet) :
    SlotsOf ids (acceptData a ch clear r).1.streams := by
  have hget := h.get hid
  rw [acceptData]
  dsimp only
  split
  · exact h
  · cases hg : getStream a (get16 ch.cd 4) with
    | mk a' o =>
      rw [hg] at hget
      cases o with
      | none => exact hget
      | some s =>
        dsimp only
        split
        · exact hget.upd _ _ fun _ => rfl
        · exact hget

variable (c : TweetNaCl)

theorem handleChunk_slots {ids : Finset UInt16} {a : IcspAssoc} (h : SlotsOf ids a.streams) (ch : Chunk)
    (hid : get16 ch.cd 4 ∈ ids) (r : DataRet) : SlotsOf ids (handleChunk c a ch r).1.streams := by
  by_cases hd : ch.type = chunkData ∧ a.hasKey
  · rw [handleChunk_data c a ch r hd]
    cases replayWindow a.rwTsn a.rwMask (get32 ch.cd 0) with
    | none => exact h
    | some w =>
      cases openData c a ch with
      | none => exact h
      | some clear =>
        exact acceptData_slots (a := { a with rwTsn := w.1, rwMask := w.2 }) h ch hid clear r
  · obtain ⟨q, hq, -⟩ := handleChunk_other c a ch r hd
    rw [hq]
    exact h

theorem handleCall_rx_slots {ids : Finset UInt16} {b : IcspAssoc} (h : SlotsOf ids b.streams)
    (m : DataMsg) (a : IcspAssoc) (stale : Bytes) (outlen : Nat) (hm : m.msg.length ≤ maxSendable)
    (hid : m.streamId ∈ ids) : SlotsOf ids (handleCall c b (m.rx c a stale outlen)).1.streams := by
  rw [handleCall_rx m stale outlen hm]
  refine handleChunk_slots c h _ ?_ _
  rw [rxChunk_stream]
  exact hid

theorem icspDataSend_slots (io : Io) {ids : Finset UInt16} {a : IcspAssoc} (h : SlotsOf ids a.streams)
    {sid : UInt16} (hid : sid ∈ ids) (data : Bytes) :
    SlotsOf ids (icspDataSend c io a sid data).1.streams := by
  have hget := h.get hid
  rw [icspDataSend]
  split
  · exact h
  · cases hg : getStream a sid with
    | mk a' o =>
      rw [hg] at hget
      cases o with
      | none => exact hget
      | some s =>
        dsimp only
        split
        · exact hget
        · exact hget.upd _ _ fun _ => rfl

/-- A send with keys, a slot and a message that fits reaches a network that takes it. -/
theorem icspDataSend_goes (io : Io) (a : IcspAssoc) (sid : UInt16) (data : Bytes)
    (hk : a.hasKey = true) (hslot : (getStream a sid).2.isSome = true)
    (hfit : data.length ≤ maxSendable)
    (hnet : io.netOk (dataFrame c a ⟨a.nextTsn, sid, sendSeq a sid, data⟩) = true) :
    ∃ ss q, (icspDataSend c io a sid data).1 =
        { a with nextTsn := a.nextTsn + 1, sendq := q, streams := ss } ∧
      (icspDataSend c io a sid data).2.2 = tsnInt a.nextTsn ∧
      sentFrames c io a sid data = [dataFrame c a ⟨a.nextTsn, sid, sendSeq a sid, data⟩] ∧
      ∀ j, sendSeq { a with streams := ss } j = if j = sid then sendSeq a j + 1 else sendSeq a j := by
  have hseals : (icspDataSend c io a sid data).2.1 ≠ [] := by
    cases hg : getStream a sid with
    | mk a' o =>
      rw [hg] at hslot
      cases o with
      | none => cases hslot
      | some s =>
        have hlen : ¬ icspMaxPayload < data.length := by
          simp only [icspMaxPayload, maxSendable] at hfit ⊢
          omega
        simp only [icspDataSend, hk, not_true_eq_false, if_false, hg, if_neg hlen]
        exact List.cons_ne_nil _ _
  have hunsent : (sealSend c io a a.nextTsn sid (sendSeq a sid) data).2 = false →
      io.netOk (dataFrame c a ⟨a.nextTsn, sid, sendSeq a sid, data⟩) = false := by
    intro hs
    rcases icspSendPkt_cases io a
        (DataMsg.chunk c ⟨a.nextTsn, sid, sendSeq a sid, data⟩ a.assocId a.sendKey)
      with ⟨hpkt, -, -⟩ | ⟨-, hno⟩
    · have hs' := congrArg Prod.snd hpkt
      exact Bool.noConfusion (hs'.symm.trans hs)
    · refine hno ?_
      rw [DataMsg.chunk_length]
      simp only [maxSendable] at hfit
      change 12 + (52 + data.length) ≤ 1400
      omega
  rcases icspDataSend_cases c io a sid data with ⟨ss, hsend, -, -⟩ | ⟨-, -, -, ss, hsend, -, hseq⟩
  · rw [hsend] at hseals
    exact absurd rfl hseals
  · rcases sealSend_cases c io a ⟨a.nextTsn, sid, sendSeq a sid, data⟩ with ⟨hs, -, -⟩ | hs
    · refine ⟨ss, _, by rw [hsend], ?_, ?_, hseq⟩
      · rw [hsend, hs]
        simp only [if_true]
      · rw [sentFrames, hsend, hs]
        rfl
    · have hlost := hunsent (congrArg Prod.snd hs)
      rw [hlost] at hnet
      cases hnet

/-- The call handed on this message, whole; a result of 0 means that there was none. -/
def HandsOn (r : DataRet) (sid : UInt16) (data : Bytes) : Prop :=
  0 < r.ret ∧ r = ⟨data.length, data, data.length, sid⟩

instance (r : DataRet) (sid : UInt16) (data : Bytes) : Decidable (HandsOn r sid data) :=
  inferInstanceAs (Decidable (_ ∧ _))

/-- A size at which the two ends agree. -/
def SizeOk (data : Bytes) : Prop := 1 ≤ data.length ∧ data.length ≤ maxOpenable

instance (data : Bytes) : Decidable (SizeOk data) := inferInstanceAs (Decidable (_ ∧ _))

variable {c}

section Expected

variable {a b : IcspAssoc} (m : DataMsg) (stale : Bytes) (outlen : Nat)
variable (hk : b.hasKey = true) (hid : b.assocId = a.assocId) (hkey : b.recvKey = a.sendKey)
variable (hm : m.msg.length ≤ maxSendable)
include hk hid hkey hm

/-- A TSN that was seen, or another size, hands nothing on. -/
theorem handleCall_nothing (h : TsnSeen b m.tsn ∨ ¬ SizeOk m.msg) :
    ¬ 0 < (handleCall c b (m.rx c a stale outlen)).2.ret := by
  have hout := handleCall_outcome c m stale outlen hk hid hkey hm
  revert hout
  generalize handleCall c b (m.rx c a stale outlen) = res
  intro hout
  cases hout with
  | seen hs' => exact Int.lt_irrefl 0
  | lost w hw hlong => exact Int.lt_irrefl 0
  | delivered w ss hw hfit hseq' hrecv hsend =>
    have hnew : ¬ TsnSeen b m.tsn := (replayWindow_some hw).1
    have hsize := h.resolve_left hnew
    have hempty : m.msg.length = 0 := by
      by_contra hpos
      exact hsize ⟨by omega, hfit⟩
    rw [hempty, Nat.min_zero]
    exact Int.lt_irrefl 0
  | noSlot w hw hfit hno => exact Int.lt_irrefl 0
  | buffered w ss hw hfit hne hrecv hsend => exact Int.lt_irrefl 0

variable (hseq : m.seq = recvSeq b m.streamId)
variable (hslot : (getStream b m.streamId).2.isSome = true) (hcap : m.msg.length ≤ outlen)
include hseq hslot hcap

/-- The expected message is handed on if its TSN is new and its size is one that opens. -/
theorem handleCall_handsOn (hs : ¬ TsnSeen b m.tsn) (hsize : SizeOk m.msg) :
    ∃ w ss, replayWindow b.rwTsn b.rwMask m.tsn = some w ∧
      handleCall c b (m.rx c a stale outlen) =
        ({ b with rwTsn := w.1, rwMask := w.2, streams := ss, cumTsn := cumAfter b m.tsn },
          ⟨m.msg.length, m.msg, m.msg.length, m.streamId⟩) ∧
      ∀ j, recvSeq { b with streams := ss } j =
        if j = m.streamId then recvSeq b j + 1 else recvSeq b j := by
  have hout := handleCall_outcome c m stale outlen hk hid hkey hm
  revert hout
  generalize handleCall c b (m.rx c a stale outlen) = res
  intro hout
  cases hout with
  | seen hs' => exact absurd hs' hs
  | lost w hw hlong => exact absurd hsize.2 (by omega)
  | delivered w ss hw hfit hseq' hrecv hsend =>
    rw [Nat.min_eq_right hcap, List.take_length]
    exact ⟨w, ss, hw, rfl, hrecv⟩
  | noSlot w hw hfit hno =>
    rw [hno] at hslot
    cases hslot
  | buffered w ss hw hfit hne hrecv hsend => exact absurd hseq hne

end Expected

/-- A window that has accepted nothing refuses nothing. -/
theorem not_tsnSeen_fresh {b : IcspAssoc} (htsn : b.rwTsn = 0) (hmask : b.rwMask = 0) (tsn : UInt32) :
    ¬ TsnSeen b tsn := by
  rw [TsnSeen, htsn, hmask, Window.Seen]
  simp only [UInt32.toNat_zero, Nat.zero_testBit]
  rintro ⟨hle, hbit⟩
  exact absurd (hbit (by omega)) (by simp)

/-- What the network took opens at the peer exactly when it is not empty and its
plaintext fits the 1024 bytes of the opener. -/
theorem sent_handed_on_iff (c : TweetNaCl) (io : Io) (a b : IcspAssoc) (sid : UInt16)
    (data stale : Bytes) (outlen : Nat) (frame : Bytes) (hk : b.hasKey = true)
    (hid : b.assocId = a.assocId) (hkey : b.recvKey = a.sendKey) (htsn : b.rwTsn = 0)
    (hmask : b.rwMask = 0) (hseq : sendSeq a sid = recvSeq b sid)
    (hslot : (getStream b sid).2.isSome = true) (hcap : data.length ≤ outlen)
    (hsent : frame ∈ sentFrames c io a sid data) :
    HandsOn (handleCall c b (rxFrame frame stale outlen)).2 sid data ↔ SizeOk data := by
  have hfrom : frame = dataFrame c a ⟨a.nextTsn, sid, sendSeq a sid, data⟩ ∧
      data.length ≤ maxSendable := by
    rcases icspDataSend_cases c io a sid data with ⟨ss, hsend, -, -⟩ | ⟨-, -, -, ss, hsend, -, -⟩
    · rw [sentFrames, hsend] at hsent
      exact nomatch hsent
    · rw [sentFrames, hsend] at hsent
      rcases sealSend_cases c io a ⟨a.nextTsn, sid, sendSeq a sid, data⟩ with ⟨hs, hfit, -⟩ | hs
      · rw [hs] at hsent
        exact ⟨List.mem_singleton.mp hsent, hfit⟩
      · rw [hs] at hsent
        exact nomatch hsent
  obtain ⟨rfl, hm⟩ := hfrom
  constructor
  · intro hon
    by_contra hsize
    exact handleCall_nothing ⟨a.nextTsn, sid, sendSeq a sid, data⟩ stale outlen hk hid hkey hm
      (.inr hsize) hon.1
  · intro hsize
    obtain ⟨w, ss, -, hcall, -⟩ :=
      handleCall_handsOn ⟨a.nextTsn, sid, sendSeq a sid, data⟩ stale outlen hk hid hkey hm
        hseq hslot hcap (not_tsnSeen_fresh htsn hmask _) hsize
    have hres : (handleCall c b (rxFrame (dataFrame c a ⟨a.nextTsn, sid, sendSeq a sid, data⟩) stale
        outlen)).2 = ⟨data.length, data, data.length, sid⟩ := congrArg Prod.snd hcall
    rw [hres]
    exact ⟨Int.natCast_pos.mpr hsize.1, rfl⟩

/-- Both limits. -/
theorem sent_handed_on_at_limits :
    (∀ frame ∈ sentFrames toy (.quiet 0) reorderSrc 5 [1],
        HandsOn (handleCall toy reorderDst (rxFrame frame [] 1400)).2 5 [1]) ∧
      ∀ frame ∈ sentFrames toy (.quiet 0) reorderSrc 5 (List.replicate 1016 1),
        HandsOn (handleCall toy reorderDst (rxFrame frame [] 1400)).2 5 (List.replicate 1016 1) := by
  constructor
  · intro frame hsent
    exact (sent_handed_on_iff toy (.quiet 0) reorderSrc reorderDst 5 [1] [] 1400 frame rfl rfl rfl rfl
      rfl rfl rfl (by decide) hsent).mpr (by decide)
  · intro frame hsent
    exact (sent_handed_on_iff toy (.quiet 0) reorderSrc reorderDst 5 (List.replicate 1016 1) [] 1400
      frame rfl rfl rfl rfl rfl rfl rfl (by rw [List.length_replicate]; decide) hsent).mpr
        ⟨by rw [List.length_replicate]; decide, by rw [List.length_replicate]; decide⟩

/-- A message of 1017 to 1336 bytes gets its TSN and leaves, and no receiver opens it. -/
theorem long_sent_not_opened (io : Io) (a b : IcspAssoc) (sid : UInt16) (data : Bytes)
    (hka : a.hasKey = true) (hk : b.hasKey = true) (hid : b.assocId = a.assocId)
    (hkey : b.recvKey = a.sendKey) (hslot : (getStream a sid).2.isSome = true)
    (hnet : ∀ frame, io.netOk frame = true) (hlong : maxOpenable < data.length)
    (hfit : data.length ≤ maxSendable) :
    (icspDataSend c io a sid data).2.2 = tsnInt a.nextTsn ∧
      ∃ frame, sentFrames c io a sid data = [frame] ∧
        ∀ stale outlen, ¬ HandsOn (handleCall c b (rxFrame frame stale outlen)).2 sid data := by
  obtain ⟨ss, q, -, hret, hsent, -⟩ := icspDataSend_goes c io a sid data hka hslot hfit (hnet _)
  refine ⟨hret, _, hsent, fun stale outlen hon => ?_⟩
  refine handleCall_nothing ⟨a.nextTsn, sid, sendSeq a sid, data⟩ stale outlen hk hid hkey hfit
    (.inr fun hsize => ?_) hon.1
  exact absurd hsize.2 (Nat.not_le.mpr hlong)

theorem sent_1017_not_opened :
    (icspDataSend toy (.quiet 0) reorderSrc 5 (List.replicate 1017 1)).2.2 = 40 ∧
      ∃ frame, sentFrames toy (.quiet 0) reorderSrc 5 (List.replicate 1017 1) = [frame] ∧
        ∀ stale outlen, ¬ HandsOn (handleCall toy reorderDst (rxFrame frame stale outlen)).2 5
          (List.replicate 1017 1) :=
  long_sent_not_opened (.quiet 0) reorderSrc reorderDst 5 (List.replicate 1017 1) rfl rfl rfl rfl rfl
    (fun _ => rfl) (by rw [List.length_replicate]; decide) (by rw [List.length_replicate]; decide)

/-- One message and the circumstances of its two calls. -/
structure Parcel where
  io : Io
  stream : UInt16
  data : Bytes
  stale : Bytes
  outlen : Nat

/-- The receive calls, in order, when the parcels are sent one after the other and the
network loses, adds and reorders nothing. -/
def fifoCalls (c : TweetNaCl) : IcspAssoc → List Parcel → List RxCall
  | _, [] => []
  | a, o :: os =>
    (sentFrames c o.io a o.stream o.data).map (rxFrame · o.stale o.outlen) ++
      fifoCalls c (icspDataSend c o.io a o.stream o.data).1 os

theorem sentFrames_length_le (io : Io) (a : IcspAssoc) (sid : UInt16) (data : Bytes) :
    (sentFrames c io a sid data).length ≤ 1 := by
  rw [sentFrames]
  rcases icspDataSend_cases c io a sid data with ⟨ss, hsend, -, -⟩ | ⟨-, -, -, ss, hsend, -, -⟩
  · rw [hsend]
    exact Nat.zero_le 1
  · rw [hsend]
    rcases sealSend_cases c io a ⟨a.nextTsn, sid, sendSeq a sid, data⟩ with ⟨hs, -, -⟩ | hs
    · rw [hs]
      exact le_rfl
    · rw [hs]
      exact Nat.zero_le 1

theorem fifoCalls_length_le (a : IcspAssoc) (os : List Parcel) :
    (fifoCalls c a os).length ≤ os.length := by
  induction os generalizing a with
  | nil => exact le_rfl
  | cons o os ih =>
    have h1 := sentFrames_length_le (c := c) o.io a o.stream o.data
    have h2 := ih (icspDataSend c o.io a o.stream o.data).1
    rw [fifoCalls, List.length_append, List.length_map, List.length_cons]
    omega

/-- Sender and receiver after the messages so far were all handed on; the next one has
the TSN `k`, before it is reduced. -/
structure InStep (ids : Finset UInt16) (a : IcspAssoc) (y : Peer) (k : Nat) : Prop where
  hasKey : a.hasKey = true ∧ y.assoc.hasKey = true
  assocId : y.assoc.assocId = a.assocId
  key : y.assoc.recvKey = a.sendKey
  sendSlots : SlotsOf ids a.streams
  recvSlots : SlotsOf ids y.assoc.streams
  seq : ∀ s, sendSeq a s = recvSeq y.assoc s
  tsn : a.nextTsn = .ofNat k
  window : (y.assoc.rwTsn = 0 ∧ y.assoc.rwMask = 0 ∧ k < 2 ^ 32) ∨ y.assoc.rwTsn.toNat + 1 = k

/-- The window takes the next TSN unless it wrapped. -/
theorem InStep.seen_iff {ids : Finset UInt16} {a : IcspAssoc} {y : Peer} {k : Nat}
    (h : InStep ids a y k) : TsnSeen y.assoc a.nextTsn ↔ 2 ^ 32 ≤ k := by
  rcases h.window with ⟨htsn, hmask, hk⟩ | htop
  · constructor
    · intro hs
      exact absurd hs (not_tsnSeen_fresh htsn hmask _)
    · intro hge
      omega
  · have htoplt := y.assoc.rwTsn.toNat_lt
    rw [TsnSeen, Window.Seen, h.tsn, UInt32.toNat_ofNat']
    by_cases hwrap : k < 2 ^ 32
    · rw [Nat.mod_eq_of_lt hwrap]
      constructor
      · rintro ⟨hle, -⟩
        omega
      · intro hge
        omega
    · have hzero : k % 2 ^ 32 = 0 := by omega
      rw [hzero]
      constructor
      · exact fun _ => by omega
      · exact fun _ => ⟨Nat.zero_le _, fun hnear => by omega⟩

/-- The parcel is one that the claimed network carries. -/
structure Carried (ids : Finset UInt16) (o : Parcel) : Prop where
  stream : o.stream ∈ ids
  fits : o.data.length ≤ maxSendable
  room : o.data.length ≤ o.outlen
  net : ∀ frame, o.io.netOk frame = true

/-- One parcel: it is the next call, and is handed on if its TSN did not wrap and its
size is one that opens. -/
theorem InStep.step {ids : Finset UInt16} (hcard : ids.card ≤ icspMaxStreams) {a : IcspAssoc} {y : Peer}
    {k : Nat} (h : InStep ids a y k) {o : Parcel} (ho : Carried ids o) :
    ∃ p, sentFrames c o.io a o.stream o.data = [p] ∧
      (k < 2 ^ 32 ∧ SizeOk o.data →
        (y.recv c (rxFrame p o.stale o.outlen)).got = y.got ++ [(o.stream, o.data)] ∧
        InStep ids (icspDataSend c o.io a o.stream o.data).1
          (y.recv c (rxFrame p o.stale o.outlen)) (k + 1)) ∧
      (¬ (k < 2 ^ 32 ∧ SizeOk o.data) → (y.recv c (rxFrame p o.stale o.outlen)).got = y.got) := by
  have hslot := h.sendSlots.slot hcard ho.stream
  have hslot' := h.recvSlots.slot hcard ho.stream
  obtain ⟨ss, q, hsend, -, hsent, hseq⟩ :=
    icspDataSend_goes c o.io a o.stream o.data h.hasKey.1 hslot ho.fits (ho.net _)
  refine ⟨_, hsent, fun hok => ?_, fun hbad => ?_⟩
  · have hnew : ¬ TsnSeen y.assoc a.nextTsn := fun hs => by
      have := h.seen_iff.mp hs
      omega
    obtain ⟨w, ss', hw, hcall, hrecv⟩ := handleCall_handsOn (c := c)
      ⟨a.nextTsn, o.stream, sendSeq a o.stream, o.data⟩ o.stale o.outlen h.hasKey.2 h.assocId h.key
      ho.fits (h.seq o.stream) hslot' ho.room hnew hok.2
    have hslots : SlotsOf ids ss' := by
      have hcall' := handleCall_rx_slots c h.recvSlots
        ⟨a.nextTsn, o.stream, sendSeq a o.stream, o.data⟩ a o.stale o.outlen ho.fits ho.stream
      rw [hcall] at hcall'
      exact hcall'
    have hgot := Peer.recv_message hcall (Int.natCast_pos.mpr hok.2.1)
    rw [DataMsg.rx] at hgot
    rw [hgot, hsend]
    refine ⟨rfl, ?_⟩
    constructor
    · exact h.hasKey
    · exact h.assocId
    · exact h.key
    · have hsend' := icspDataSend_slots c o.io h.sendSlots ho.stream o.data
      rw [hsend] at hsend'
      exact hsend'
    · exact hslots
    · intro s
      have h1 : sendSeq { a with nextTsn := a.nextTsn + 1, sendq := q, streams := ss } s =
          if s = o.stream then sendSeq a s + 1 else sendSeq a s := hseq s
      have h2 : recvSeq { y.assoc with
            rwTsn := w.1, rwMask := w.2, streams := ss', cumTsn := cumAfter y.assoc a.nextTsn } s =
          if s = o.stream then recvSeq y.assoc s + 1 else recvSeq y.assoc s := hrecv s
      rw [h1, h2, h.seq s]
    · change a.nextTsn + 1 = .ofNat (k + 1)
      rw [h.tsn, UInt32.ofNat_add]
      rfl
    · refine .inr ?_
      have htop := replayWindow_top hw
      change w.1.toNat + 1 = k + 1
      rw [htop, h.tsn, UInt32.toNat_ofNat', Nat.mod_eq_of_lt hok.1]
      rcases h.window with ⟨hzero, -, -⟩ | hlast
      · rw [hzero]
        simp
      · omega
  · have hlost : TsnSeen y.assoc a.nextTsn ∨ ¬ SizeOk o.data := by
      rw [h.seen_iff]
      by_cases hk : k < 2 ^ 32
      · exact .inr fun hsize => hbad ⟨hk, hsize⟩
      · exact .inl (Nat.le_of_not_lt hk)
    have hnone := handleCall_nothing (c := c) ⟨a.nextTsn, o.stream, sendSeq a o.stream, o.data⟩ o.stale
      o.outlen h.hasKey.2 h.assocId h.key ho.fits hlost
    have hgot := Peer.recv_nothing (c := c) (y := y) rfl (Int.not_lt.mp hnone)
    rw [DataMsg.rx] at hgot
    rw [hgot]

/-- From any point on: everything is handed on exactly when every size is one that opens
and no TSN wraps. -/
theorem InStep.fifo_iff {ids : Finset UInt16} (hcard : ids.card ≤ icspMaxStreams) (os : List Parcel)
    {a : IcspAssoc} {y : Peer} {k : Nat} (h : InStep ids a y k) (ho : ∀ o ∈ os, Carried ids o) :
    (recvAll c y (fifoCalls c a os)).got = y.got ++ os.map (fun o => (o.stream, o.data)) ↔
      (∀ o ∈ os, SizeOk o.data) ∧ k + os.length ≤ 2 ^ 32 := by
  induction os generalizing a y k with
  | nil =>
    have hk : k ≤ 2 ^ 32 := by
      rcases h.window with ⟨-, -, hlt⟩ | hlast
      · omega
      · have := y.assoc.rwTsn.toNat_lt
        omega
    rw [fifoCalls, List.map_nil, List.append_nil, List.length_nil]
    exact ⟨fun _ => ⟨fun _ hmem => (nomatch hmem), hk⟩, fun _ => rfl⟩
  | cons o os ih =>
    obtain ⟨p, hsent, hgood, hbad⟩ := h.step (c := c) hcard (ho o List.mem_cons_self)
    have hcalls : recvAll c y (fifoCalls c a (o :: os)) =
        recvAll c (y.recv c (rxFrame p o.stale o.outlen))
          (fifoCalls c (icspDataSend c o.io a o.stream o.data).1 os) := by
      rw [fifoCalls, hsent]
      rfl
    rw [hcalls, List.map_cons, List.length_cons, List.forall_mem_cons]
    by_cases hok : k < 2 ^ 32 ∧ SizeOk o.data
    · obtain ⟨hgot, hnext⟩ := hgood hok
      have hrest := ih hnext fun o' ho' => ho o' (List.mem_cons_of_mem o ho')
      rw [hgot, List.append_assoc, List.singleton_append] at hrest
      rw [hrest]
      constructor
      · rintro ⟨hall, hle⟩
        exact ⟨⟨hok.2, hall⟩, by omega⟩
      · rintro ⟨⟨-, hall⟩, hle⟩
        exact ⟨hall, by omega⟩
    · constructor
      · intro heq
        -- one message is missing already, and each later call hands on one at most
        have hlen := congrArg List.length heq
        have h1 := recvAll_got_le (c := c) (fifoCalls c (icspDataSend c o.io a o.stream o.data).1 os)
          (y.recv c (rxFrame p o.stale o.outlen))
        have h2 := fifoCalls_length_le (c := c) (icspDataSend c o.io a o.stream o.data).1 os
        rw [hbad hok] at h1
        rw [List.length_append, List.length_cons, List.length_map] at hlen
        omega
      · rintro ⟨⟨hsize, -⟩, hle⟩
        exact absurd ⟨by omega, hsize⟩ hok

/-- Sent one after the other to a fresh peer, whatever the first TSN: the list arrives
exactly when every size is one that opens and the TSNs do not wrap. -/
theorem fifo_delivered_iff (c : TweetNaCl) (a b : IcspAssoc) (h : Mirrored a b) (os : List Parcel)
    (hstreams : (os.map (·.stream)).toFinset.card ≤ icspMaxStreams)
    (hfits : ∀ o ∈ os, o.data.length ≤ maxSendable) (hroom : ∀ o ∈ os, o.data.length ≤ o.outlen)
    (hnet : ∀ o ∈ os, ∀ frame, o.io.netOk frame = true) :
    (recvAll c ⟨b, [], []⟩ (fifoCalls c a os)).got = os.map (fun o => (o.stream, o.data)) ↔
      (∀ o ∈ os, SizeOk o.data) ∧ a.nextTsn.toNat + os.length ≤ 2 ^ 32 := by
  have hsa : a.streams = [] := congrArg DataPlane.streams h.freshLeft
  have hsb : b.streams = [] := congrArg DataPlane.streams h.freshRight
  have hstart : InStep (os.map (·.stream)).toFinset a ⟨b, [], []⟩ a.nextTsn.toNat := by
    constructor
    · exact h.hasKey
    · exact h.assocId.symm
    · exact h.forth.symm
    · rw [hsa]
      exact slotsOf_nil _
    · change SlotsOf _ b.streams
      rw [hsb]
      exact slotsOf_nil _
    · intro s
      rw [sendSeq, recvSeq, findStream, findStream, hsa]
      change _ = ((b.streams.find? _).map _).getD 0
      rw [hsb]
      rfl
    · exact UInt32.ofNat_toNat.symm
    · exact .inl ⟨congrArg DataPlane.rwTsn h.freshRight, congrArg DataPlane.rwMask h.freshRight,
        a.nextTsn.toNat_lt⟩
  refine hstart.fifo_iff hstreams os fun o ho => ?_
  constructor
  · exact List.mem_toFinset.mpr (List.mem_map_of_mem ho)
  · exact hfits o ho
  · exact hroom o ho
  · exact hnet o ho

/-- A message on each of two streams. -/
theorem fifo_delivered_two :
    let os : List Parcel := [⟨.quiet 0, 5, [1], [], 1400⟩, ⟨.quiet 1, 6, [2, 3], [], 1400⟩]
    (recvAll toy ⟨reorderDst, [], []⟩ (fifoCalls toy reorderSrc os)).got = [(5, [1]), (6, [2, 3])] := by
  intro os
  refine (fifo_delivered_iff toy reorderSrc reorderDst ?_ os (by decide) (by decide) (by decide)
    fun o ho frame => ?_).mpr (by decide)
  · exact ⟨⟨rfl, rfl⟩, rfl, rfl, rfl, rfl, rfl⟩
  · rcases List.mem_pair.mp ho with rfl | rfl
    · rfl
    · rfl

/-- The last TSN and the one after it: the second message is refused as a replay. -/
theorem fifo_lost_at_wrap :
    let a := { reorderSrc with nextTsn := 0xFFFFFFFF }
    let os : List Parcel := [⟨.quiet 0, 5, [1], [], 1400⟩, ⟨.quiet 1, 5, [2], [], 1400⟩]
    (fifoCalls toy a os).length = 2 ∧
      (recvAll toy ⟨reorderDst, [], []⟩ (fifoCalls toy a os)).got = [(5, [1])] ∧
      (recvAll toy ⟨reorderDst, [], []⟩ (fifoCalls toy a os)).got ≠
        os.map (fun o => (o.stream, o.data)) := by
  decide +kernel

end Icsp
