import BaitNet.Genuine
import BaitNet.Runs

/-!
# Retransmission

Sends, received payloads and retransmission rounds on one association between two
key installations. The send queue is supposed to hold every unacknowledged
message; it has sixteen slots that never empty, and the slot's message bytes are
never written. A run is faithful as long as each message that goes out finds a
free slot and consists of zeros.
-/
namespace Icsp

open Wire Crypto Runs

/-- A message for which `icsp_data_send` returned a TSN, the chunk it emitted, and
whether a SACK received since then covers it. -/
structure Sent where
  m : DataMsg
  chunk : Bytes
  covered : Bool

/-- `resent` holds the chunks of the last step if that was a retransmission. -/
structure Sender where
  assoc : IcspAssoc
  sent : List Sent
  resent : List Bytes

inductive SendEv where
  | send (io : Io) (stream : UInt16) (data : Bytes)
  | handle (p : RxCall)
  | retransmit (io : Io) (timeoutS : Int)

variable (c : TweetNaCl)

def sendStep (st : Sender) : SendEv → Sender
  | .send io stream data =>
    let (a, acts, ret) := icspDataSend c io st.assoc stream data
    { assoc := a
      sent := if ret = -1 then st.sent else
        st.sent ++ [⟨⟨st.assoc.nextTsn, stream, sendSeq st.assoc stream, data⟩,
          (txChunks acts).headD [], false⟩]
      resent := [] }
  | .handle p =>
    { assoc := (handleCall c st.assoc p).1
      sent := st.sent.map fun e =>
        { e with covered := e.covered || (sackCums (chunks p.payload p.plen)).any (e.m.tsn ≤ ·) }
      resent := [] }
  | .retransmit io timeoutS =>
    let (a, acts, _) := icspDataRetransmit c io st.assoc timeoutS
    { st with assoc := a, resent := txChunks acts }

/-- A slot that holds message `m`, bytes included, and is not acknowledged. -/
structure Holds (q : SendEntry) (m : DataMsg) : Prop where
  tsn : q.tsn = m.tsn
  streamId : q.streamId = m.streamId
  seq : q.seq = m.seq
  len : q.len.toNat = m.msg.length
  data : slice q.data 0 q.len.toNat = m.msg

/-- What retransmission promises in one state. -/
structure Fidelity (st : Sender) : Prop where
  held : ∀ e ∈ st.sent, e.covered = false → ∃ q ∈ st.assoc.sendq, Holds q e.m ∧ q.acked = false
  exactly : ∀ ch ∈ st.resent, ∀ e ∈ st.sent, get32 ch 4 = e.m.tsn → ch = e.chunk

/-- The message would go out: keys are installed, the stream has a slot, the packet
fits and the network takes the frame. -/
def GoesOut (io : Io) (a : IcspAssoc) (stream : UInt16) (data : Bytes) : Prop :=
  a.hasKey = true ∧ (getStream a stream).2.isSome = true ∧ data.length ≤ maxSendable ∧
    io.netOk (dataFrame c a ⟨a.nextTsn, stream, sendSeq a stream, data⟩) = true

/-- Whatever goes out finds a free slot and consists of zeros. -/
def SendOk (st : Sender) : SendEv → Prop
  | .send io stream data =>
    GoesOut c io st.assoc stream data → st.assoc.sendq.length < icspSendq ∧ ∀ x ∈ data, x = 0
  | .handle _ => True
  | .retransmit _ _ => True

/-- No slot in use has one of the TSNs that the free slots will get. -/
def FreshTsns (a : IcspAssoc) : Prop :=
  ∀ q ∈ a.sendq, ∀ i, a.sendq.length + i < icspSendq → q.tsn ≠ a.nextTsn + .ofNat i

theorem slice_replicate {n m : Nat} (x : UInt8) (h : m ≤ n) :
    slice (List.replicate n x) 0 m = List.replicate m x := by
  have hs := slice_zero_append (List.replicate n x) [] m (by rw [List.length_replicate]; exact h)
  rw [List.append_nil] at hs
  rw [hs, List.take_replicate, Nat.min_eq_left h]

theorem sendEntry_len (io : Io) (m : DataMsg) (h : m.msg.length ≤ icspMaxPayload) :
    (sendEntry io m).len.toNat = m.msg.length := by
  show (UInt16.ofNat m.msg.length).toNat = m.msg.length
  rw [UInt16.toNat_ofNat']
  simp only [icspMaxPayload] at h
  omega

/-- A slot gets the length of its message and none of the bytes. -/
theorem sendEntry_data (io : Io) (m : DataMsg) (h : m.msg.length ≤ icspMaxPayload) :
    slice (sendEntry io m).data 0 (sendEntry io m).len.toNat = List.replicate m.msg.length 0 := by
  rw [sendEntry_len io m h]
  exact slice_replicate 0 h

/-- The association once a message has taken its number. -/
def afterSend (io : Io) (a : IcspAssoc) (m : DataMsg) (ss : List IcspStream) : IcspAssoc :=
  { a with
    nextTsn := a.nextTsn + 1
    sendq := if a.sendq.length < icspSendq then a.sendq ++ [sendEntry io m] else a.sendq
    streams := ss }

/-- The next free slot's TSN is no slot's. -/
theorem FreshTsns.next {a : IcspAssoc} (h : FreshTsns a) (hroom : a.sendq.length < icspSendq) :
    ∀ q ∈ a.sendq, q.tsn ≠ a.nextTsn := by
  intro q hq
  have hf := h q hq 0 hroom
  rwa [← UInt32.add_zero a.nextTsn]

theorem FreshTsns.push {a : IcspAssoc} (h : FreshTsns a) (io : Io) (m : DataMsg) (ss : List IcspStream)
    (hm : m.tsn = a.nextTsn) : FreshTsns (afterSend io a m ss) := by
  by_cases hroom : a.sendq.length < icspSendq
  · have hq : (afterSend io a m ss).sendq = a.sendq ++ [sendEntry io m] := if_pos hroom
    rw [FreshTsns, hq]
    intro q hmem i hi
    simp only [List.length_append, List.length_singleton] at hi
    have hshift : a.nextTsn + 1 + .ofNat i = a.nextTsn + .ofNat (1 + i) := by
      rw [UInt32.ofNat_add, UInt32.add_assoc]
      rfl
    show q.tsn ≠ a.nextTsn + 1 + .ofNat i
    rw [hshift]
    rcases List.mem_append.mp hmem with hmem | hmem
    · exact h q hmem (1 + i) (by omega)
    · obtain rfl := List.mem_singleton.mp hmem
      intro heq
      have htsn : (sendEntry io m).tsn = a.nextTsn := hm
      have hz := congrArg UInt32.toNat (htsn.symm.trans heq)
      have hlt := a.nextTsn.toNat_lt
      simp only [icspSendq] at hi
      rw [UInt32.toNat_add, UInt32.toNat_ofNat'] at hz
      omega
  · have hq : (afterSend io a m ss).sendq = a.sendq := if_neg hroom
    rw [FreshTsns, hq]
    exact fun q _ i hi => absurd hi (by omega)

/-- Flags and times of the slots may change. -/
theorem FreshTsns.touch {a b : IcspAssoc} (h : FreshTsns a) {f : SendEntry → SendEntry}
    (hf : ∀ q, ∃ k t, f q = { q with acked := k, sentAt := t }) (htsn : b.nextTsn = a.nextTsn)
    (hq : b.sendq = a.sendq.map f) : FreshTsns b := by
  intro q hmem i hi
  rw [hq, List.length_map] at hi
  rw [hq] at hmem
  obtain ⟨q₀, hq₀, rfl⟩ := List.mem_map.mp hmem
  obtain ⟨k, t, hk⟩ := hf q₀
  rw [hk, htsn]
  exact h q₀ hq₀ i hi

/-- Every message sent has its slot, and no other slot has its TSN. -/
structure ResendInv (a : IcspAssoc) (st : Sender) : Prop where
  assocId : st.assoc.assocId = a.assocId
  sendKey : st.assoc.sendKey = a.sendKey
  fresh : FreshTsns st.assoc
  slot : ∀ e ∈ st.sent, ∃ q ∈ st.assoc.sendq, q.tsn = e.m.tsn ∧ (e.covered = false → q.acked = false)
  only : ∀ e ∈ st.sent, ∀ q ∈ st.assoc.sendq, q.tsn = e.m.tsn → Holds q e.m
  chunk : ∀ e ∈ st.sent, e.chunk = e.m.chunk c a.assocId a.sendKey
  exactly : ∀ ch ∈ st.resent, ∀ e ∈ st.sent, get32 ch 4 = e.m.tsn → ch = e.chunk

variable {c} {a : IcspAssoc} {st : Sender}

theorem ResendInv.fidelity (h : ResendInv c a st) : Fidelity st where
  held := by
    intro e he hc
    obtain ⟨q, hq, htsn, hack⟩ := h.slot e he
    exact ⟨q, hq, h.only e he q hq htsn, hack hc⟩
  exactly := h.exactly

/-- Steps that change no more than flags and times of the slots. -/
theorem ResendInv.touch (h : ResendInv c a st) {b : IcspAssoc} (f : SendEntry → SendEntry)
    (hid : b.assocId = st.assoc.assocId) (hkey : b.sendKey = st.assoc.sendKey)
    (htsn : b.nextTsn = st.assoc.nextTsn) (hq : b.sendq = st.assoc.sendq.map f)
    (hf : ∀ q, ∃ k t, f q = { q with acked := k, sentAt := t }) (g : Sent → Sent)
    (hg : ∀ e, (g e).m = e.m ∧ (g e).chunk = e.chunk)
    (hack : ∀ e q, q.tsn = e.m.tsn → (g e).covered = false →
      (e.covered = false → q.acked = false) → (f q).acked = false) :
    ResendInv c a ⟨b, st.sent.map g, []⟩ where
  assocId := hid.trans h.assocId
  sendKey := hkey.trans h.sendKey
  fresh := h.fresh.touch hf htsn hq
  slot := by
    intro e he
    obtain ⟨e₀, he₀, rfl⟩ := List.mem_map.mp he
    obtain ⟨q, hmem, hqt, hqa⟩ := h.slot e₀ he₀
    obtain ⟨k, t, hk⟩ := hf q
    refine ⟨f q, by rw [hq]; exact List.mem_map_of_mem hmem, ?_, ?_⟩
    · rw [(hg e₀).1, hk]
      exact hqt
    · exact fun hc => hack e₀ q hqt hc hqa
  only := by
    intro e he q hmem hqt
    obtain ⟨e₀, he₀, rfl⟩ := List.mem_map.mp he
    rw [hq] at hmem
    obtain ⟨q₀, hq₀, rfl⟩ := List.mem_map.mp hmem
    obtain ⟨k, t, hk⟩ := hf q₀
    rw [hk] at hqt ⊢
    rw [(hg e₀).1] at hqt ⊢
    have hold := h.only e₀ he₀ q₀ hq₀ hqt
    exact ⟨hold.tsn, hold.streamId, hold.seq, hold.len, hold.data⟩
  chunk := by
    intro e he
    obtain ⟨e₀, he₀, rfl⟩ := List.mem_map.mp he
    rw [(hg e₀).1, (hg e₀).2]
    exact h.chunk e₀ he₀
  exactly := fun _ hch => nomatch hch

theorem ResendInv.handle (h : ResendInv c a st) (p : RxCall) :
    ResendInv c a (sendStep c st (.handle p)) := by
  obtain ⟨cums, hsub, hq⟩ := handleCall_acks c st.assoc p
  obtain ⟨⟨d, hd⟩, hnext, -⟩ := handleCall_keeps c st.assoc p
  refine h.touch (ackBy cums) ?_ ?_ hnext hq ?_ _ ?_ ?_
  · rw [hd]
  · rw [hd]
  · exact fun q => ⟨_, q.sentAt, rfl⟩
  · exact fun e => ⟨rfl, rfl⟩
  · intro e q hqt hcov hack
    simp only [Bool.or_eq_false_iff, List.any_eq_false] at hcov
    have hnone : cums.any (fun cum => decide (q.tsn ≤ cum)) = false := by
      rw [List.any_eq_false]
      intro cum hcum
      rw [hqt]
      exact hcov.2 cum (hsub cum hcum)
    show (q.acked || cums.any (fun cum => decide (q.tsn ≤ cum))) = false
    rw [hack hcov.1, hnone, Bool.or_false]

theorem mem_txChunks {acts : List Act} {ch : Bytes} (h : ch ∈ txChunks acts) :
    ∃ frame, .tx ch frame ∈ acts := by
  obtain ⟨act, hact, he⟩ := List.mem_filterMap.mp h
  cases act with
  | tx chunk frame =>
    obtain rfl := Option.some.inj he
    exact ⟨frame, hact⟩
  | _ => cases he

/-- The only chunk that sealing a message emits is the chunk of that message. -/
theorem sealSend_tx (c : TweetNaCl) {io : Io} {b : IcspAssoc} {m : DataMsg} {ch frame : Bytes}
    (h : .tx ch frame ∈ (sealSend c io b m.tsn m.streamId m.seq m.msg).1) :
    ch = m.chunk c b.assocId b.sendKey := by
  rcases sealSend_cases c io b m with ⟨hs, -, -⟩ | hs
  · rw [hs] at h
    simp only [List.mem_cons, reduceCtorEq, false_or, List.not_mem_nil, or_false, Act.tx.injEq] at h
    exact h.1
  · rw [hs] at h
    simp at h

theorem ResendInv.retransmit (h : ResendInv c a st) (io : Io) (timeoutS : Int) :
    ResendInv c a (sendStep c st (.retransmit io timeoutS)) := by
  obtain ⟨hq, hacts⟩ := retransmitLoop_spec c io st.assoc timeoutS st.assoc.sendq
  have htouch := h.touch (b := (icspDataRetransmit c io st.assoc timeoutS).1)
    (resentEntry c io st.assoc timeoutS) rfl rfl rfl hq
    (fun q => by
      obtain ⟨t, ht⟩ := resentEntry_eq c io st.assoc timeoutS q
      exact ⟨q.acked, t, ht⟩)
    id (fun e => ⟨rfl, rfl⟩)
    (fun e q _ hcov hack => by
      obtain ⟨t, ht⟩ := resentEntry_eq c io st.assoc timeoutS q
      rw [ht]
      exact hack hcov)
  rw [List.map_id] at htouch
  refine { htouch with exactly := ?_ }
  intro ch hch e he htsn
  obtain ⟨frame, hact⟩ := mem_txChunks hch
  obtain ⟨q, hmem, -, -, hact⟩ := hacts _ hact
  have hch := sealSend_tx c (m := entryMsg q) hact
  rw [hch, DataMsg.chunk_tsn] at htsn
  have hold := h.only e he q hmem htsn
  have hm : entryMsg q = e.m := by
    rw [entryMsg, hold.tsn, hold.streamId, hold.seq, hold.data]
  rw [hch, hm, h.chunk e he, h.assocId, h.sendKey]

/-- A new slot, filled or not counted because the queue is full. -/
theorem ResendInv.push (h : ResendInv c a st) (io : Io) (m : DataMsg) (ss : List IcspStream)
    (hm : m.tsn = st.assoc.nextTsn) : ResendInv c a ⟨afterSend io st.assoc m ss, st.sent, []⟩ := by
  have hfresh := h.fresh.push io m ss hm
  by_cases hroom : st.assoc.sendq.length < icspSendq
  · have hq : (afterSend io st.assoc m ss).sendq = st.assoc.sendq ++ [sendEntry io m] := if_pos hroom
    refine
      { assocId := h.assocId
        sendKey := h.sendKey
        fresh := hfresh
        slot := ?_
        only := ?_
        chunk := h.chunk
        exactly := fun _ hch => nomatch hch }
    · intro e he
      obtain ⟨q, hmem, hqt⟩ := h.slot e he
      rw [hq]
      exact ⟨q, List.mem_append_left _ hmem, hqt⟩
    · intro e he q hmem hqt
      rw [hq] at hmem
      rcases List.mem_append.mp hmem with hmem | hmem
      · exact h.only e he q hmem hqt
      · obtain rfl := List.mem_singleton.mp hmem
        obtain ⟨q', hmem', hqt', -⟩ := h.slot e he
        exact absurd (hqt'.trans (hqt.symm.trans hm)) (h.fresh.next hroom q' hmem')
  · have hq : (afterSend io st.assoc m ss).sendq = st.assoc.sendq := if_neg hroom
    refine
      { assocId := h.assocId
        sendKey := h.sendKey
        fresh := hfresh
        slot := ?_
        only := ?_
        chunk := h.chunk
        exactly := fun _ hch => nomatch hch }
    · rw [hq]
      exact h.slot
    · rw [hq]
      exact h.only

/-- The record of a message whose slot was just filled with its own bytes. -/
theorem ResendInv.record (h : ResendInv c a st) (io : Io) (m : DataMsg) (ss : List IcspStream)
    (hm : m.tsn = st.assoc.nextTsn) (hroom : st.assoc.sendq.length < icspSendq)
    (hlen : m.msg.length ≤ icspMaxPayload) (hzero : ∀ x ∈ m.msg, x = 0) :
    ResendInv c a
      ⟨afterSend io st.assoc m ss, st.sent ++ [⟨m, m.chunk c a.assocId a.sendKey, false⟩], []⟩ := by
  have hpush := h.push io m ss hm
  have hsendq : (afterSend io st.assoc m ss).sendq = st.assoc.sendq ++ [sendEntry io m] := if_pos hroom
  have hholds : Holds (sendEntry io m) m := by
    refine ⟨rfl, rfl, rfl, sendEntry_len io m hlen, ?_⟩
    rw [sendEntry_data io m hlen]
    exact (List.eq_replicate_of_mem hzero).symm
  refine { hpush with slot := ?_, only := ?_, chunk := ?_, exactly := fun _ hch => nomatch hch }
  · intro e he
    rcases List.mem_append.mp he with he | he
    · exact hpush.slot e he
    · obtain rfl := List.mem_singleton.mp he
      rw [hsendq]
      exact ⟨sendEntry io m, List.mem_append_right _ (List.mem_singleton_self _), rfl, fun _ => rfl⟩
  · intro e he q hq hqt
    rcases List.mem_append.mp he with he | he
    · exact hpush.only e he q hq hqt
    · obtain rfl := List.mem_singleton.mp he
      rw [hsendq] at hq
      rcases List.mem_append.mp hq with hq | hq
      · exact absurd (hqt.trans hm) (h.fresh.next hroom q hq)
      · obtain rfl := List.mem_singleton.mp hq
        exact hholds
  · intro e he
    rcases List.mem_append.mp he with he | he
    · exact h.chunk e he
    · obtain rfl := List.mem_singleton.mp he
      rfl

theorem ResendInv.send (h : ResendInv c a st) (io : Io) (stream : UInt16) (data : Bytes)
    (hok : SendOk c st (.send io stream data)) : ResendInv c a (sendStep c st (.send io stream data)) := by
  rcases icspDataSend_cases c io st.assoc stream data with ⟨ss, hsend, -, -⟩ |
      ⟨hk, hslot, hlen, ss, hsend, -, -⟩
  · have htouch := h.touch (b := { st.assoc with streams := ss }) id rfl rfl rfl
      (List.map_id _).symm (fun q => ⟨q.acked, q.sentAt, rfl⟩) id (fun e => ⟨rfl, rfl⟩)
      (fun e q _ hcov hack => hack hcov)
    rw [List.map_id] at htouch
    simp only [sendStep, hsend, if_true]
    exact htouch
  · rcases sealSend_cases c io st.assoc ⟨st.assoc.nextTsn, stream, sendSeq st.assoc stream, data⟩
      with ⟨hs, hfit, hnet⟩ | hs
    · obtain ⟨hroom, hzero⟩ := hok ⟨hk, hslot, hfit, hnet⟩
      by_cases hret : tsnInt st.assoc.nextTsn = -1
      · simp only [sendStep, hsend, hs, if_true, if_pos hret]
        exact h.push io ⟨st.assoc.nextTsn, stream, sendSeq st.assoc stream, data⟩ ss rfl
      · simp only [sendStep, hsend, hs, if_true, if_neg hret]
        have hrec := h.record io ⟨st.assoc.nextTsn, stream, sendSeq st.assoc stream, data⟩ ss rfl hroom
          hlen hzero
        rw [← h.assocId, ← h.sendKey] at hrec
        exact hrec
    · simp only [sendStep, hsend, hs, Bool.false_eq_true, if_false, if_true]
      exact h.push io ⟨st.assoc.nextTsn, stream, sendSeq st.assoc stream, data⟩ ss rfl

theorem resendInv_init (c : TweetNaCl) (h : FreshTsns a) : ResendInv c a ⟨a, [], []⟩ where
  assocId := rfl
  sendKey := rfl
  fresh := h
  slot := fun _ he => nomatch he
  only := fun _ he => nomatch he
  chunk := fun _ he => nomatch he
  exactly := fun _ hch => nomatch hch

theorem resendInv_step (h : ResendInv c a st) (ev : SendEv) (hok : SendOk c st ev) :
    ResendInv c a (sendStep c st ev) := by
  cases ev with
  | send io stream data => exact h.send io stream data hok
  | handle p => exact h.handle p
  | retransmit io timeoutS => exact h.retransmit io timeoutS

/-- As long as only zeros go out, and no more of them than the queue has slots,
every unacknowledged message is held and every retransmission repeats its chunk. -/
theorem retransmission_faithful (c : TweetNaCl) (a : IcspAssoc) (h : FreshTsns a) (es : List SendEv)
    (hok : Along (sendStep c) (SendOk c) ⟨a, [], []⟩ es) : Fidelity (run (sendStep c) ⟨a, [], []⟩ es) := by
  have hrun := inv_run (I := ResendInv c a) (fun _ ev hi hev => resendInv_step hi ev hev) _ es
    (resendInv_init c h) hok
  exact hrun.fidelity

/-- A message of three zeros, retransmitted and then acknowledged. -/
theorem retransmission_faithful_zeros :
    let a := { IcspAssoc.zero with hasKey := true, nextTsn := 5 }
    let es : List SendEv := [.send (.quiet 0) 1 [0, 0, 0], .retransmit (.quiet 9) 3,
      .handle ⟨List.replicate 12 0 ++ icspChunkPut chunkSack 4 ++ put32 5, 20, 1400, 0⟩]
    Fidelity (run (sendStep toy) ⟨a, [], []⟩ es) := by
  intro a es
  refine retransmission_faithful toy a (fun q hq => nomatch hq) es ⟨fun _ => ⟨?_, ?_⟩, trivial, trivial, trivial⟩
  · decide +kernel
  · decide +kernel

/-- Three other bytes: the retransmission seals zeros under the same TSN, and the
peer accepts them in place of the message. -/
theorem retransmission_sends_zeros :
    let a := { IcspAssoc.zero with hasKey := true, nextTsn := 5 }
    let st := run (sendStep toy) ⟨a, [], []⟩ [.send (.quiet 0) 1 [1, 2, 3], .retransmit (.quiet 9) 3]
    let frames := txFrames (icspDataRetransmit toy (.quiet 9)
      (icspDataSend toy (.quiet 0) a 1 [1, 2, 3]).1 3).2.1
    frames.map (fun f => (handleCall toy { IcspAssoc.zero with hasKey := true } (rxFrame f [] 1400)).2.out) =
      [[0, 0, 0]] ∧ ¬ Fidelity st := by
  intro a st frames
  refine ⟨by decide +kernel, fun h => ?_⟩
  have hmem : ∃ ch ∈ st.resent, ∃ e ∈ st.sent, get32 ch 4 = e.m.tsn ∧ ch ≠ e.chunk := by
    decide +kernel
  obtain ⟨ch, hch, e, he, htsn, hne⟩ := hmem
  exact hne (h.exactly ch hch e he htsn)

end Icsp
