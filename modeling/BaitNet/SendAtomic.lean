import BaitNet.Receive

/-!
# When a failed send leaves nothing behind

`icsp_data_send` takes a stream slot before it looks at the length, and numbers and queues
the message before the packet is built. What fails later has used all of that up. The TSN
shares the range of the error code: the one below 2^32 reads as -1.
-/
namespace Icsp

open Wire Link Crypto

variable (c : TweetNaCl)

inductive SendOutcome (io : Io) (a : IcspAssoc) (sid : UInt16) (data : Bytes) :
    IcspAssoc × List Act × Int → Prop
  | noKey (hk : a.hasKey = false) : SendOutcome io a sid data (a, [], -1)
  | noSlot (hs : (getStream a sid).2 = none) : SendOutcome io a sid data (a, [], -1)
  | tooLong (hk : a.hasKey = true) (hs : (getStream a sid).2 ≠ none) (hlen : icspMaxPayload < data.length) :
      SendOutcome io a sid data ((getStream a sid).1, [], -1)
  | numbered (a' : IcspAssoc) (hk : a.hasKey = true) (hs : (getStream a sid).2 ≠ none)
      (hlen : data.length ≤ icspMaxPayload) (htsn : a'.nextTsn = a.nextTsn + 1) :
      SendOutcome io a sid data (a', (sealSend c io a a.nextTsn sid (sendSeq a sid) data).1,
        if (sealSend c io a a.nextTsn sid (sendSeq a sid) data).2 then tsnInt a.nextTsn else -1)

theorem icspDataSend_outcome (io : Io) (a : IcspAssoc) (sid : UInt16) (data : Bytes) :
    SendOutcome c io a sid data (icspDataSend c io a sid data) := by
  cases hk : a.hasKey with
  | false =>
    simp only [icspDataSend, hk, Bool.false_eq_true, not_false_eq_true, if_true]
    exact .noKey hk
  | true =>
    cases hg : getStream a sid with
    | mk a₁ slot =>
      obtain ⟨⟨ss, rfl⟩, -, -, hnone, hslot⟩ := getStream_spec hg
      cases slot with
      | none =>
        simp only [icspDataSend, hk, not_true_eq_false, if_false, hg]
        rw [hnone rfl]
        exact .noSlot (by rw [hg])
      | some s =>
        obtain ⟨-, -, hseq, -⟩ := hslot s rfl
        have hs : (getStream a sid).2 ≠ none := by
          rw [hg]
          exact Option.some_ne_none s
        by_cases hlen : icspMaxPayload < data.length
        · simp only [icspDataSend, hk, not_true_eq_false, if_false, hg, if_pos hlen]
          have hout : SendOutcome c io a sid data ((getStream a sid).1, [], -1) := .tooLong hk hs hlen
          rwa [hg] at hout
        · simp only [icspDataSend, hk, not_true_eq_false, if_false, hg, if_neg hlen, hseq]
          exact .numbered _ hk hs (Nat.le_of_not_lt hlen) rfl

/-- -1 says that nothing was handed to the network; it leaves the numbers, the slots and the queue
alone, and any other result is the TSN in the packet. -/
structure SendAtomic (io : Io) (a : IcspAssoc) (sid : UInt16) (data : Bytes) (r : IcspAssoc × List Act × Int) :
    Prop where
  refused : r.2.2 = -1 ↔ txFrames r.2.1 = []
  unchanged : r.2.2 = -1 → r.1.nextTsn = a.nextTsn ∧ (∀ j, sendSeq r.1 j = sendSeq a j) ∧
    r.1.streams.length = a.streams.length ∧ r.1.sendq = a.sendq
  tsn : r.2.2 ≠ -1 → ∀ frame ∈ txFrames r.2.1,
    get32 (framePayload frame) (icspHeaderLen + icspChunkHdr) = UInt32.ofInt r.2.2

/-- The packet of the message fits and the network takes it. -/
def Departs (io : Io) (a : IcspAssoc) (sid : UInt16) (data : Bytes) : Prop :=
  data.length ≤ maxSendable ∧ io.netOk (dataFrame c a ⟨a.nextTsn, sid, sendSeq a sid, data⟩) = true

/-- The send is refused before it takes a slot, or goes through to the network with a TSN that does not
read as -1. -/
def SendsCleanly (io : Io) (a : IcspAssoc) (sid : UInt16) (data : Bytes) : Prop :=
  a.hasKey = false ∨ (getStream a sid).2 = none ∨
    (icspMaxPayload < data.length ∧ (findStream a sid).isSome = true) ∨
      (Departs c io a sid data ∧ a.nextTsn ≠ 0xFFFFFFFF)

theorem tsnInt_eq_neg_one_iff (tsn : UInt32) : tsnInt tsn = -1 ↔ tsn = 0xFFFFFFFF := by
  have hlt := tsn.toNat_lt
  have hmax : tsn = 0xFFFFFFFF ↔ tsn.toNat = 2 ^ 32 - 1 := by
    rw [← UInt32.toNat_inj]
    rfl
  rw [hmax, tsnInt]
  split
  · omega
  · omega

theorem ofInt_tsnInt (tsn : UInt32) : UInt32.ofInt (tsnInt tsn) = tsn := by
  have hlt := tsn.toNat_lt
  have hmod : (tsnInt tsn % 2 ^ 32).toNat = tsn.toNat := by
    rw [tsnInt]
    split
    · omega
    · omega
  rw [UInt32.ofInt, hmod, UInt32.ofNat_toNat]

/-- The TSN stands behind the chunk header. -/
theorem dataFrame_tsn (a : IcspAssoc) (m : DataMsg) :
    get32 (framePayload (dataFrame c a m)) (icspHeaderLen + icspChunkHdr) = m.tsn := by
  have hpay := framePayload_assocFrame a (m.chunk c a.assocId a.sendKey) []
  rw [List.append_nil, List.append_nil] at hpay
  rw [dataFrame, hpay, assocPkt, icspPkt, get32_append_right _ _ _ (by simp [icspHeaderLen])]
  exact m.chunk_tsn c a.assocId a.sendKey

theorem sealSend_sent_iff (io : Io) (a : IcspAssoc) (sid : UInt16) (data : Bytes) :
    (sealSend c io a a.nextTsn sid (sendSeq a sid) data).2 = true ↔ Departs c io a sid data := by
  have hlen := DataMsg.chunk_length c ⟨a.nextTsn, sid, sendSeq a sid, data⟩ a.assocId a.sendKey
  have hunf : (sealSend c io a a.nextTsn sid (sendSeq a sid) data).2 =
      (icspSendPkt io a (DataMsg.chunk c ⟨a.nextTsn, sid, sendSeq a sid, data⟩ a.assocId a.sendKey)).2 := rfl
  rw [hunf, Departs, dataFrame]
  rcases icspSendPkt_cases io a (DataMsg.chunk c ⟨a.nextTsn, sid, sendSeq a sid, data⟩ a.assocId a.sendKey)
    with ⟨h, hfit, hnet⟩ | ⟨h, hno⟩
  · rw [h]
    refine ⟨fun _ => ⟨?_, hnet⟩, fun _ => rfl⟩
    simp only [maxSendable]
    simp only at hlen
    omega
  · rw [h]
    refine ⟨fun hf => absurd hf Bool.false_ne_true, ?_⟩
    rintro ⟨hfit, hnet⟩
    rw [hno ?_] at hnet
    · exact hnet
    · simp only [maxSendable] at hfit
      simp only at hlen
      omega

theorem txFrames_sealSend {io : Io} {a : IcspAssoc} {sid : UInt16} {data : Bytes}
    (h : (sealSend c io a a.nextTsn sid (sendSeq a sid) data).2 = true) :
    txFrames (sealSend c io a a.nextTsn sid (sendSeq a sid) data).1 =
      [dataFrame c a ⟨a.nextTsn, sid, sendSeq a sid, data⟩] := by
  rcases sealSend_cases c io a ⟨a.nextTsn, sid, sendSeq a sid, data⟩ with ⟨hs, -, -⟩ | hs
  · simp only at hs
    rw [hs]
    rfl
  · simp only at hs
    rw [hs] at h
    cases h

/-- Taking a new slot shows in the number of slots. -/
theorem getStream_length (a : IcspAssoc) (sid : UInt16) :
    (getStream a sid).1.streams.length = a.streams.length ↔
      (findStream a sid).isSome = true ∨ (getStream a sid).2 = none := by
  rw [getStream]
  cases findStream a sid with
  | some s => simp
  | none =>
    simp only [Option.isSome_none, Bool.false_eq_true, false_or]
    split
    · simp
    · simp

/-- A send is atomic exactly when it is refused before it takes a slot or goes out under a TSN other
than the last. -/
theorem send_atomic_iff (io : Io) (a : IcspAssoc) (sid : UInt16) (data : Bytes) :
    SendAtomic io a sid data (icspDataSend c io a sid data) ↔ SendsCleanly c io a sid data := by
  have hout := icspDataSend_outcome c io a sid data
  revert hout
  generalize icspDataSend c io a sid data = r
  intro hout
  have hquiet : SendAtomic io a sid data (a, [], -1) :=
    ⟨⟨fun _ => rfl, fun _ => rfl⟩, fun _ => ⟨rfl, fun _ => rfl, rfl, rfl⟩, fun h => absurd rfl h⟩
  cases hout with
  | noKey hk => exact ⟨fun _ => .inl hk, fun _ => hquiet⟩
  | noSlot hs => exact ⟨fun _ => .inr (.inl hs), fun _ => hquiet⟩
  | tooLong hk hs hlen =>
    obtain ⟨⟨ss, hss⟩, -, hsend, -, -⟩ := getStream_spec (Prod.mk.eta (p := getStream a sid)).symm
    constructor
    · intro h
      obtain ⟨-, -, hcount, -⟩ := h.unchanged rfl
      rcases (getStream_length a sid).mp hcount with hknown | hnone
      · exact .inr (.inr (.inl ⟨hlen, hknown⟩))
      · exact absurd hnone hs
    · rintro (hno | hnone | ⟨-, hknown⟩ | ⟨⟨hfit, -⟩, -⟩)
      · rw [hk] at hno
        cases hno
      · exact absurd hnone hs
      · refine ⟨⟨fun _ => rfl, fun _ => rfl⟩, fun _ => ⟨?_, hsend, ?_, ?_⟩, fun h => absurd rfl h⟩
        · rw [hss]
        · exact (getStream_length a sid).mpr (.inl hknown)
        · rw [hss]
      · simp only [icspMaxPayload, maxSendable] at hlen hfit
        omega
  | numbered a' hk hs hlen htsn =>
    have hiff : SendsCleanly c io a sid data ↔ Departs c io a sid data ∧ a.nextTsn ≠ 0xFFFFFFFF := by
      refine ⟨?_, fun h => .inr (.inr (.inr h))⟩
      rintro (hno | hnone | ⟨hlong, -⟩ | h)
      · rw [hk] at hno
        cases hno
      · exact absurd hnone hs
      · exact absurd hlong (Nat.not_lt.mpr hlen)
      · exact h
    have hsent := sealSend_sent_iff c io a sid data
    rw [hiff, ← hsent]
    by_cases hs : (sealSend c io a a.nextTsn sid (sendSeq a sid) data).2 = true
    · have htx := txFrames_sealSend c hs
      simp only [hs, if_true, true_and]
      constructor
      · rintro ⟨hret, -, -⟩ hmax
        have hnil := hret.mp ((tsnInt_eq_neg_one_iff _).mpr hmax)
        simp only [htx] at hnil
        cases hnil
      · intro hmax
        have hret : tsnInt a.nextTsn ≠ -1 := fun h => hmax ((tsnInt_eq_neg_one_iff _).mp h)
        refine ⟨⟨fun h => absurd h hret, fun h => ?_⟩, fun h => absurd h hret, fun _ frame hmem => ?_⟩
        · simp only [htx] at h
          cases h
        · simp only [htx] at hmem
          obtain rfl := List.mem_singleton.mp hmem
          rw [dataFrame_tsn, ofInt_tsnInt]
    · rw [Bool.not_eq_true] at hs
      simp only [hs, Bool.false_eq_true, if_false, false_and, iff_false]
      intro h
      have hsame := (h.unchanged rfl).1
      rw [htsn] at hsame
      have hnat := congrArg UInt32.toNat hsame
      rw [UInt32.toNat_add] at hnat
      have hlt := a.nextTsn.toNat_lt
      have hone : (1 : UInt32).toNat = 1 := rfl
      omega

/-- A message one byte too long for a packet: nothing leaves, yet a TSN, a sequence number, a slot and a
queue entry are gone. And under the last TSN a message that left reads as failed. -/
theorem send_not_atomic :
    let a := { IcspAssoc.zero with hasKey := true }
    let long := icspDataSend toy (.quiet 1) a 1 (List.replicate 1337 0)
    let last := icspDataSend toy (.quiet 1) { a with nextTsn := 0xFFFFFFFF } 1 [5]
    (long.2.2, txFrames long.2.1, long.1.nextTsn, sendSeq long.1 1, long.1.sendq.length) = (-1, [], 1, 1, 1) ∧
      ¬ SendAtomic (.quiet 1) a 1 (List.replicate 1337 0) long ∧
      (last.2.2, (txFrames last.2.1).length) = (-1, 1) := by
  intro a long last
  have hlong : (long.2.2, txFrames long.2.1, long.1.nextTsn, sendSeq long.1 1, long.1.sendq.length) =
      (-1, [], 1, 1, 1) := by decide +kernel
  refine ⟨hlong, ?_, by decide +kernel⟩
  intro h
  have hsame := (h.unchanged (by decide +kernel)).1
  exact absurd hsame (by decide +kernel)

end Icsp
