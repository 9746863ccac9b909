import BaitNet.Ordered
import BaitNet.Resend

/-!
# Acknowledgements

One sender, one receiver, DATA and SACK frames that the network loses, repeats and
reorders. `cum_tsn` is the highest TSN the receiver took, whether or not the ones
below it arrived, and it moves even when the message is dropped; so a SACK tells the
truth only as long as DATA is taken in TSN order without a gap and nothing is lost
on the way into the queues.
-/
namespace Icsp

open Wire Crypto Runs

/-- `wire` and `sacks` are all the frames ever sent, so that any of them can arrive at
any time; `sent` are the messages for which `icsp_data_send` returned a TSN and
`delivered` what the receiver's caller got, with the TSN of the frame. -/
structure AckNet where
  snd : IcspAssoc
  rcv : IcspAssoc
  sent : List DataMsg
  wire : List (DataMsg × Bytes)
  sacks : List (UInt32 × Bytes)
  delivered : List (UInt32 × UInt16 × Bytes)

/-- `data` and `ack` name the frame that arrives by its place in `wire` or `sacks`. -/
inductive AckEv where
  | send (io : Io) (stream : UInt16) (data : Bytes)
  | retransmit (io : Io) (timeoutS : Int)
  | data (k : Nat) (stale : Bytes) (outlen : Nat)
  | sack (io : Io)
  | ack (k : Nat) (stale : Bytes)

variable (c : TweetNaCl)

def ackStep (st : AckNet) : AckEv → AckNet
  | .send io stream data =>
    let (a, acts, ret) := icspDataSend c io st.snd stream data
    { st with
      snd := a
      sent := if ret = -1 then st.sent else
        st.sent ++ [⟨st.snd.nextTsn, stream, sendSeq st.snd stream, data⟩]
      wire := st.wire ++ sealedFrames acts }
  | .retransmit io timeoutS =>
    let (a, acts, _) := icspDataRetransmit c io st.snd timeoutS
    { st with snd := a, wire := st.wire ++ sealedFrames acts }
  | .data k stale outlen =>
    match st.wire[k]? with
    | none => st
    | some (m, frame) =>
      let (b, r) := handleCall c st.rcv (rxFrame frame stale outlen)
      { st with
        rcv := b
        delivered := if 0 < r.ret then st.delivered ++ [(m.tsn, r.outStream, r.out)] else st.delivered }
  | .sack io =>
    { st with
      sacks := st.sacks ++ (txFrames (icspSackSend io st.rcv).1).map (fun f => (st.rcv.cumTsn, f)) }
  | .ack k stale =>
    match st.sacks[k]? with
    | none => st
    | some (_, frame) => { st with snd := (handleCall c st.snd (rxFrame frame stale icspMaxPayload)).1 }

/-- The receiver's caller has the message, or `rcvq` does. -/
def Received (st : AckNet) (m : DataMsg) : Prop :=
  (m.tsn, m.streamId, m.msg) ∈ st.delivered ∨
    ∃ q ∈ st.rcv.rcvq, q.tsn = m.tsn ∧ q.streamId = m.streamId ∧ q.seq = m.seq ∧ q.data = m.msg

instance (st : AckNet) (m : DataMsg) : Decidable (Received st m) :=
  inferInstanceAs (Decidable (_ ∨ _))

/-- What an acknowledgement promises. -/
structure AckSound (st : AckNet) : Prop where
  allAcked : icspAllAcked st.snd = true → ∀ m ∈ st.sent, Received st m
  sacks : ∀ s ∈ st.sacks, ∀ m ∈ st.sent, m.tsn ≤ s.1 → Received st m

/-- The send consumes a TSN. -/
def Seals (a : IcspAssoc) (stream : UInt16) (data : Bytes) : Prop :=
  a.hasKey = true ∧ (getStream a stream).2.isSome = true ∧ data.length ≤ icspMaxPayload

/-- The receiver takes message `m` whole, as it was sent, and when `cum_tsn` has come to
everything before it. -/
structure TakenInOrder (st : AckNet) (m : DataMsg) (outlen : Nat) : Prop where
  original : ∀ m' ∈ st.sent, m'.tsn = m.tsn → m' = m
  noGap : ∀ m' ∈ st.sent, m'.tsn < m.tsn → m'.tsn ≤ st.rcv.cumTsn
  nonempty : m.msg ≠ []
  room : m.msg.length ≤ outlen
  slot : (getStream st.rcv m.streamId).2.isSome = true
  queue : m.seq = recvSeq st.rcv m.streamId ∨ st.rcv.rcvq.length < icspRcvq

/-- TSNs do not wrap and what goes out finds a slot; a DATA frame that the receiver
accepts is taken in order. -/
def AckOk (st : AckNet) : AckEv → Prop
  | .send io stream data =>
    (Seals st.snd stream data → st.snd.nextTsn ≠ 0) ∧
      (GoesOut c io st.snd stream data → st.snd.sendq.length < icspSendq)
  | .data k _ outlen => ∀ x ∈ st.wire[k]?, ¬ TsnSeen st.rcv x.1.tsn →
      x.1.msg.length ≤ maxOpenable → TakenInOrder st x.1 outlen
  | _ => True

instance (st : AckNet) (m : DataMsg) (outlen : Nat) : Decidable (TakenInOrder st m outlen) :=
  decidable_of_iff
    ((∀ m' ∈ st.sent, m'.tsn = m.tsn → m' = m) ∧
      (∀ m' ∈ st.sent, m'.tsn < m.tsn → m'.tsn ≤ st.rcv.cumTsn) ∧ m.msg ≠ [] ∧
      m.msg.length ≤ outlen ∧ (getStream st.rcv m.streamId).2.isSome = true ∧
      (m.seq = recvSeq st.rcv m.streamId ∨ st.rcv.rcvq.length < icspRcvq))
    ⟨fun ⟨ho, hg, hn, hr, hs, hq⟩ => ⟨ho, hg, hn, hr, hs, hq⟩,
      fun h => ⟨h.original, h.noGap, h.nonempty, h.room, h.slot, h.queue⟩⟩

instance (a : IcspAssoc) (stream : UInt16) (data : Bytes) : Decidable (Seals a stream data) :=
  inferInstanceAs (Decidable (_ ∧ _ ∧ _))

instance (io : Io) (a : IcspAssoc) (stream : UInt16) (data : Bytes) :
    Decidable (GoesOut c io a stream data) :=
  inferInstanceAs (Decidable (_ ∧ _ ∧ _ ∧ _))

instance (st : AckNet) : ∀ ev, Decidable (AckOk c st ev)
  | .send _ _ _ => inferInstanceAs (Decidable (_ ∧ _))
  | .retransmit _ _ => .isTrue trivial
  | .data k _ outlen => inferInstanceAs (Decidable (∀ x ∈ st.wire[k]?, _ → _ → TakenInOrder st x.1 outlen))
  | .sack _ => .isTrue trivial
  | .ack _ _ => .isTrue trivial

def AckNet.init (a b : IcspAssoc) : AckNet := ⟨a, b, [], [], [], []⟩

/-- `t` was assigned already. -/
def Below (a : IcspAssoc) (t : UInt32) : Prop := a.nextTsn ≠ 0 → t < a.nextTsn

structure AckInv (c : TweetNaCl) (st : AckNet) : Prop where
  hasKey : st.rcv.hasKey = true
  assocId : st.rcv.assocId = st.snd.assocId
  key : st.rcv.recvKey = st.snd.sendKey
  wire : ∀ x ∈ st.wire, x.1.msg.length ≤ maxSendable ∧ Below st.snd x.1.tsn ∧
    ∃ a : IcspAssoc, a.assocId = st.snd.assocId ∧ a.sendKey = st.snd.sendKey ∧ x.2 = dataFrame c a x.1
  queue : ∀ q ∈ st.snd.sendq, Below st.snd q.tsn
  cum : Below st.snd st.rcv.cumTsn
  sent : ∀ m ∈ st.sent, Below st.snd m.tsn ∧ ∃ q ∈ st.snd.sendq, q.tsn = m.tsn
  covered : ∀ m ∈ st.sent, m.tsn ≤ st.rcv.cumTsn → Received st m
  sacks : ∀ s ∈ st.sacks, s.1 ≤ st.rcv.cumTsn ∧
    ∃ b : IcspAssoc, s.2 = assocFrame b (icspChunkPut chunkSack 4 ++ put32 s.1)
  acked : ∀ q ∈ st.snd.sendq, q.acked = true → q.tsn ≤ st.rcv.cumTsn

variable {c} {st : AckNet}

theorem AckInv.sound (h : AckInv c st) : AckSound st where
  allAcked := by
    intro hall m hm
    obtain ⟨-, q, hq, htsn⟩ := h.sent m hm
    have hack := h.acked q hq (List.all_eq_true.mp hall q hq)
    exact h.covered m hm (htsn ▸ hack)
  sacks := by
    intro s hs m hm hle
    exact h.covered m hm (UInt32.le_trans hle (h.sacks s hs).1)

/-- Assigning the next TSN keeps the assigned ones below. -/
theorem below_succ {a b : IcspAssoc} (hb : b.nextTsn = a.nextTsn + 1) (hne : a.nextTsn ≠ 0)
    {t : UInt32} (ht : Below a t) : Below b t ∧ Below b a.nextTsn := by
  have hnat : a.nextTsn + 1 ≠ 0 → a.nextTsn.toNat + 1 < 2 ^ 32 := by
    intro h
    by_contra hlt
    have hmax := a.nextTsn.toNat_lt
    refine h (UInt32.toNat.inj ?_)
    rw [UInt32.toNat_add, UInt32.toNat_one, UInt32.toNat_zero]
    omega
  have hadd : a.nextTsn + 1 ≠ 0 → (a.nextTsn + 1).toNat = a.nextTsn.toNat + 1 := by
    intro h
    rw [UInt32.toNat_add, UInt32.toNat_one, Nat.mod_eq_of_lt (hnat h)]
  constructor
  · intro h
    rw [hb] at h ⊢
    have := UInt32.lt_iff_toNat_lt.mp (ht hne)
    rw [UInt32.lt_iff_toNat_lt, hadd h]
    omega
  · intro h
    rw [hb] at h ⊢
    rw [UInt32.lt_iff_toNat_lt, hadd h]
    omega

/-- Steps of the sender that assign no TSN: slots change flags and times, frames of
slots go out again. -/
theorem AckInv.sender (h : AckInv c st) {a : IcspAssoc} (f : SendEntry → SendEntry)
    (w : List (DataMsg × Bytes)) (hid : a.assocId = st.snd.assocId)
    (hkey : a.sendKey = st.snd.sendKey) (htsn : a.nextTsn = st.snd.nextTsn)
    (hq : a.sendq = st.snd.sendq.map f) (hf : ∀ q, (f q).tsn = q.tsn)
    (hack : ∀ q ∈ st.snd.sendq, (f q).acked = true → q.acked = true ∨ q.tsn ≤ st.rcv.cumTsn)
    (hw : ∀ x ∈ w, x.1.msg.length ≤ maxSendable ∧ Below st.snd x.1.tsn ∧
      x.2 = dataFrame c st.snd x.1) :
    AckInv c { st with snd := a, wire := st.wire ++ w } := by
  have hbelow : ∀ t, Below st.snd t → Below a t := by
    intro t ht
    rw [Below, htsn]
    exact ht
  refine
    { hasKey := h.hasKey
      assocId := h.assocId.trans hid.symm
      key := h.key.trans hkey.symm
      wire := ?_
      queue := ?_
      cum := hbelow _ h.cum
      sent := ?_
      covered := h.covered
      sacks := h.sacks
      acked := ?_ }
  · intro x hx
    rcases List.mem_append.mp hx with hx | hx
    · obtain ⟨hlen, hb, a', hid', hkey', hf'⟩ := h.wire x hx
      exact ⟨hlen, hbelow _ hb, a', hid'.trans hid.symm, hkey'.trans hkey.symm, hf'⟩
    · obtain ⟨hlen, hb, hf'⟩ := hw x hx
      exact ⟨hlen, hbelow _ hb, st.snd, hid.symm, hkey.symm, hf'⟩
  · intro q hmem
    rw [hq] at hmem
    obtain ⟨q₀, hq₀, rfl⟩ := List.mem_map.mp hmem
    rw [hf]
    exact hbelow _ (h.queue q₀ hq₀)
  · intro m hm
    obtain ⟨hb, q, hmem, hqt⟩ := h.sent m hm
    refine ⟨hbelow _ hb, f q, ?_, (hf q).trans hqt⟩
    show f q ∈ a.sendq
    rw [hq]
    exact List.mem_map_of_mem hmem
  · intro q hmem hqa
    have hmem' : q ∈ st.snd.sendq.map f := by rwa [← hq]
    obtain ⟨q₀, hq₀, rfl⟩ := List.mem_map.mp hmem'
    rw [hf]
    rcases hack q₀ hq₀ hqa with hold | hnew
    · exact h.acked q₀ hq₀ hold
    · exact hnew

theorem AckInv.retransmit (h : AckInv c st) (io : Io) (timeoutS : Int) :
    AckInv c (ackStep c st (.retransmit io timeoutS)) := by
  obtain ⟨hq, -⟩ := retransmitLoop_spec c io st.snd timeoutS st.snd.sendq
  refine h.sender (a := (icspDataRetransmit c io st.snd timeoutS).1)
    (resentEntry c io st.snd timeoutS) _ rfl rfl rfl hq ?_ ?_ ?_
  · intro q
    obtain ⟨t, ht⟩ := resentEntry_eq c io st.snd timeoutS q
    rw [ht]
  · intro q _ hqa
    obtain ⟨t, ht⟩ := resentEntry_eq c io st.snd timeoutS q
    rw [ht] at hqa
    exact .inl hqa
  · intro x hx
    obtain ⟨e, he, -, rfl, hlen⟩ := sealedFrames_retransmit c io st.snd timeoutS st.snd.sendq x hx
    exact ⟨hlen, h.queue e he, rfl⟩

/-- A SACK frame is one chunk with its cumulative TSN. -/
theorem sackCums_frame (b : IcspAssoc) (cum : UInt32) (stale : Bytes) (outlen : Nat) :
    let p := rxFrame (assocFrame b (icspChunkPut chunkSack 4 ++ put32 cum)) stale outlen
    sackCums (chunks p.payload p.plen) = [cum] := by
  intro p
  have hch := chunks_assocFrame b chunkSack (put32 cum) stale outlen (by simp)
  rw [put32_length] at hch
  rw [hch]
  simp only [sackCums, List.filter_singleton, decide_true, cond_true, List.map_singleton]
  rw [get32_put32]

theorem AckInv.ack (h : AckInv c st) (k : Nat) (stale : Bytes) :
    AckInv c (ackStep c st (.ack k stale)) := by
  cases hk : st.sacks[k]? with
  | none =>
    simp only [ackStep, hk]
    exact h
  | some s =>
    obtain ⟨cum, frame⟩ := s
    obtain ⟨hle, b, hf⟩ := h.sacks _ (List.mem_of_getElem? hk)
    have hcums := sackCums_frame b cum stale icspMaxPayload
    have hf' : frame = assocFrame b (icspChunkPut chunkSack 4 ++ put32 cum) := hf
    rw [← hf'] at hcums
    obtain ⟨cums, hsub, hq⟩ := handleCall_acks c st.snd (rxFrame frame stale icspMaxPayload)
    obtain ⟨⟨d, hd⟩, hnext, -⟩ := handleCall_keeps c st.snd (rxFrame frame stale icspMaxPayload)
    rw [hcums] at hsub
    have hs := h.sender (ackBy cums) [] (by rw [hd]) (by rw [hd]) hnext hq (fun _ => rfl) ?_
      (fun _ hx => nomatch hx)
    · rw [List.append_nil] at hs
      simp only [ackStep, hk]
      exact hs
    · intro q _ hqa
      rw [ackBy, Bool.or_eq_true, List.any_eq_true] at hqa
      rcases hqa with hold | ⟨cum', hmem, hcum⟩
      · exact .inl hold
      · obtain rfl := List.mem_singleton.mp (hsub cum' hmem)
        exact .inr (UInt32.le_trans (of_decide_eq_true hcum) hle)

/-- A send that numbers its message, whether or not the frame leaves. -/
theorem AckInv.numbered (h : AckInv c st) (io : Io) (m : DataMsg) (ss : List IcspStream)
    (hm : m.tsn = st.snd.nextTsn) (hne : st.snd.nextTsn ≠ 0) (l : List DataMsg)
    (w : List (DataMsg × Bytes))
    (hl : ∀ x ∈ l, x = m ∧ st.snd.sendq.length < icspSendq)
    (hw : ∀ x ∈ w, x.1 = m ∧ m.msg.length ≤ maxSendable ∧ x.2 = dataFrame c st.snd m) :
    AckInv c { st with
      snd := { st.snd with
        nextTsn := st.snd.nextTsn + 1
        sendq := if st.snd.sendq.length < icspSendq then st.snd.sendq ++ [sendEntry io m] else st.snd.sendq
        streams := ss }
      sent := st.sent ++ l
      wire := st.wire ++ w } := by
  have hsucc : ∀ t, Below st.snd t → Below { st.snd with nextTsn := st.snd.nextTsn + 1 } t :=
    fun t ht => (below_succ rfl hne ht).1
  have hown : Below { st.snd with nextTsn := st.snd.nextTsn + 1 } m.tsn := by
    rw [hm]
    exact (below_succ rfl hne h.cum).2
  have hnew : st.rcv.cumTsn < m.tsn := by
    rw [hm]
    exact h.cum hne
  refine
    { hasKey := h.hasKey
      assocId := h.assocId
      key := h.key
      wire := ?_
      queue := ?_
      cum := hsucc _ h.cum
      sent := ?_
      covered := ?_
      sacks := h.sacks
      acked := ?_ }
  · intro x hx
    rcases List.mem_append.mp hx with hx | hx
    · obtain ⟨hlen, hb, hf⟩ := h.wire x hx
      exact ⟨hlen, hsucc _ hb, hf⟩
    · obtain ⟨hxm, hlen, hf⟩ := hw x hx
      rw [hxm]
      exact ⟨hlen, hown, st.snd, rfl, rfl, hf⟩
  · intro q hq
    show Below { st.snd with nextTsn := st.snd.nextTsn + 1 } q.tsn
    by_cases hroom : st.snd.sendq.length < icspSendq
    · simp only [if_pos hroom] at hq
      rcases List.mem_append.mp hq with hq | hq
      · exact hsucc _ (h.queue q hq)
      · obtain rfl := List.mem_singleton.mp hq
        exact hown
    · simp only [if_neg hroom] at hq
      exact hsucc _ (h.queue q hq)
  · intro m' hm'
    rcases List.mem_append.mp hm' with hmem | hmem
    · obtain ⟨hb, q, hq, hqt⟩ := h.sent m' hmem
      refine ⟨hsucc _ hb, q, ?_, hqt⟩
      split
      · exact List.mem_append_left _ hq
      · exact hq
    · obtain ⟨rfl, hroom⟩ := hl m' hmem
      refine ⟨hown, sendEntry io m', ?_, rfl⟩
      simp only [if_pos hroom]
      exact List.mem_append_right _ (List.mem_singleton_self _)
  · intro m' hm' hle
    rcases List.mem_append.mp hm' with hmem | hmem
    · exact h.covered m' hmem hle
    · obtain ⟨rfl, -⟩ := hl m' hmem
      exact absurd hle (UInt32.not_le.mpr hnew)
  · intro q hq hqa
    by_cases hroom : st.snd.sendq.length < icspSendq
    · simp only [if_pos hroom] at hq
      rcases List.mem_append.mp hq with hq | hq
      · exact h.acked q hq hqa
      · obtain rfl := List.mem_singleton.mp hq
        exact nomatch hqa
    · simp only [if_neg hroom] at hq
      exact h.acked q hq hqa

theorem AckInv.send (h : AckInv c st) (io : Io) (stream : UInt16) (data : Bytes)
    (hok : AckOk c st (.send io stream data)) : AckInv c (ackStep c st (.send io stream data)) := by
  obtain ⟨hwrap, hroom⟩ := hok
  rcases icspDataSend_cases c io st.snd stream data with ⟨ss, hsend, -, -⟩ |
      ⟨hk, hslot, hlen, ss, hsend, -, -⟩
  · have hs := h.sender (a := { st.snd with streams := ss }) id [] rfl rfl rfl (List.map_id _).symm
      (fun _ => rfl) (fun _ _ hqa => .inl hqa) (fun _ hx => nomatch hx)
    simp only [ackStep, hsend, if_true]
    exact hs
  · have hne := hwrap ⟨hk, hslot, hlen⟩
    rcases sealSend_cases c io st.snd ⟨st.snd.nextTsn, stream, sendSeq st.snd stream, data⟩
      with ⟨hs, hfit, hnet⟩ | hs
    · have hnum := fun l hl => h.numbered io ⟨st.snd.nextTsn, stream, sendSeq st.snd stream, data⟩ ss
        rfl hne l [(⟨st.snd.nextTsn, stream, sendSeq st.snd stream, data⟩,
            dataFrame c st.snd ⟨st.snd.nextTsn, stream, sendSeq st.snd stream, data⟩)] hl
        (fun x hx => by
          obtain rfl := List.mem_singleton.mp hx
          exact ⟨rfl, hfit, rfl⟩)
      by_cases hret : tsnInt st.snd.nextTsn = -1
      · have hnone := hnum [] (fun _ hx => nomatch hx)
        rw [List.append_nil] at hnone
        simp only [ackStep, hsend, hs, sealedFrames_sent, if_true, if_pos hret]
        exact hnone
      · simp only [ackStep, hsend, hs, sealedFrames_sent, if_true, if_neg hret]
        refine hnum _ ?_
        intro x hx
        exact ⟨List.mem_singleton.mp hx, hroom ⟨hk, hslot, hfit, hnet⟩⟩
    · have hnum := h.numbered io ⟨st.snd.nextTsn, stream, sendSeq st.snd stream, data⟩ ss rfl hne []
        [] (fun _ hx => nomatch hx) (fun _ hx => nomatch hx)
      rw [List.append_nil, List.append_nil] at hnum
      simp only [ackStep, hsend, hs, Bool.false_eq_true, if_false, if_true, sealedFrames,
        List.append_nil]
      exact hnum

/-- The window, the streams and `rcvq` matter only for what they let through. -/
theorem AckInv.receiver (h : AckInv c st) {b : IcspAssoc} {d : List (UInt32 × UInt16 × Bytes)}
    (hks : b.toKeyState = st.rcv.toKeyState) (hid : b.assocId = st.rcv.assocId)
    (hle : st.rcv.cumTsn ≤ b.cumTsn) (hcum : Below st.snd b.cumTsn)
    (hcov : ∀ m ∈ st.sent, m.tsn ≤ b.cumTsn → Received { st with rcv := b, delivered := d } m) :
    AckInv c { st with rcv := b, delivered := d } where
  hasKey := by
    rw [← h.hasKey]
    exact congrArg KeyState.hasKey hks
  assocId := hid.trans h.assocId
  key := by
    rw [← h.key]
    exact congrArg KeyState.recvKey hks
  wire := h.wire
  queue := h.queue
  cum := hcum
  sent := h.sent
  covered := hcov
  sacks := fun s hs => ⟨UInt32.le_trans (h.sacks s hs).1 hle, (h.sacks s hs).2⟩
  acked := fun q hq hqa => UInt32.le_trans (h.acked q hq hqa) hle

/-- A message taken in order moves `cum_tsn` no further than what was received. -/
theorem AckInv.taken (h : AckInv c st) {m : DataMsg} {outlen : Nat} (ht : TakenInOrder st m outlen)
    (hm : Below st.snd m.tsn) {b : IcspAssoc} {d : List (UInt32 × UInt16 × Bytes)}
    (hks : b.toKeyState = st.rcv.toKeyState) (hid : b.assocId = st.rcv.assocId)
    (hcum : b.cumTsn = cumAfter st.rcv m.tsn)
    (hkeep : ∀ m', Received st m' → Received { st with rcv := b, delivered := d } m')
    (hnew : Received { st with rcv := b, delivered := d } m) :
    AckInv c { st with rcv := b, delivered := d } := by
  refine h.receiver hks hid ?_ ?_ ?_
  · rw [hcum, cumAfter]
    split
    · rename_i hlt
      exact UInt32.le_of_lt hlt
    · exact UInt32.le_refl _
  · rw [hcum, cumAfter]
    split
    · exact hm
    · exact h.cum
  · intro m' hm' hle
    by_cases hold : m'.tsn ≤ st.rcv.cumTsn
    · exact hkeep m' (h.covered m' hm' hold)
    · rw [hcum, cumAfter] at hle
      split at hle
      · rcases UInt32.lt_or_eq_of_le hle with hlt | heq
        · exact absurd (ht.noGap m' hm' hlt) hold
        · rw [ht.original m' hm' heq]
          exact hnew
      · exact absurd hle hold

theorem AckInv.data (h : AckInv c st) (k : Nat) (stale : Bytes) (outlen : Nat)
    (hok : AckOk c st (.data k stale outlen)) : AckInv c (ackStep c st (.data k stale outlen)) := by
  cases hk : st.wire[k]? with
  | none =>
    simp only [ackStep, hk]
    exact h
  | some x =>
    obtain ⟨m, frame⟩ := x
    obtain ⟨hlen, hbelow, a, hid, hkey, hf⟩ := h.wire _ (List.mem_of_getElem? hk)
    have hf' : frame = dataFrame c a m := hf
    have hout := handleCall_outcome c m stale outlen h.hasKey (h.assocId.trans hid.symm)
      (h.key.trans hkey.symm) hlen
    rw [DataMsg.rx, ← hf'] at hout
    simp only [ackStep, hk]
    generalize handleCall c st.rcv (rxFrame frame stale outlen) = res at hout
    cases hout with
    | seen hs => exact h
    | lost w hw hlong =>
      exact h.receiver (b := { st.rcv with rwTsn := w.1, rwMask := w.2 }) (d := st.delivered) rfl rfl
        (UInt32.le_refl _) h.cum h.covered
    | delivered w ss hw hfit hseq hrecv hsend =>
      have ht : TakenInOrder st m outlen := hok (m, frame) hk (replayWindow_some hw).1 hfit
      have hmin : min outlen m.msg.length = m.msg.length := Nat.min_eq_right ht.room
      have hpos : 0 < ((m.msg.length : Nat) : Int) :=
        Int.natCast_pos.mpr (List.length_pos_iff.mpr ht.nonempty)
      simp only [hmin, List.take_length, if_pos hpos]
      refine h.taken ht hbelow ?_ ?_ ?_ ?_ ?_
      · rfl
      · rfl
      · rfl
      · rintro m' (hd | hq)
        · exact .inl (List.mem_append_left _ hd)
        · exact .inr hq
      · exact .inl (List.mem_append_right _ (List.mem_singleton_self _))
    | noSlot w hw hfit hslot =>
      have ht : TakenInOrder st m outlen := hok (m, frame) hk (replayWindow_some hw).1 hfit
      exact absurd ht.slot (by rw [hslot]; exact Bool.false_ne_true)
    | buffered w ss hw hfit hseq hrecv hsend =>
      have ht : TakenInOrder st m outlen := hok (m, frame) hk (replayWindow_some hw).1 hfit
      have hroom : st.rcv.rcvq.length < icspRcvq := ht.queue.resolve_left hseq
      simp only [if_pos hroom, DataRet.nothing, Int.lt_irrefl, if_false]
      refine h.taken ht hbelow ?_ ?_ ?_ ?_ ?_
      · rfl
      · rfl
      · rfl
      · rintro m' (hd | ⟨q, hq, hqm⟩)
        · exact .inl hd
        · exact .inr ⟨q, List.mem_append_left _ hq, hqm⟩
      · exact .inr ⟨_, List.mem_append_right _ (List.mem_singleton_self _), rfl, rfl, rfl, rfl⟩

theorem AckInv.sack (h : AckInv c st) (io : Io) : AckInv c (ackStep c st (.sack io)) := by
  rcases icspSendPkt_cases io st.rcv (icspChunkPut chunkSack 4 ++ put32 st.rcv.cumTsn) with
    ⟨hs, -, -⟩ | ⟨hs, -⟩
  · refine { h with sacks := ?_ }
    intro s hmem
    simp only [ackStep, icspSackSend, hs, txFrames, List.filterMap_cons, List.filterMap_nil,
      List.map_cons, List.map_nil, List.mem_append, List.mem_singleton] at hmem
    rcases hmem with hmem | rfl
    · exact h.sacks s hmem
    · exact ⟨UInt32.le_refl _, st.rcv, rfl⟩
  · simp only [ackStep, icspSackSend, hs, txFrames, List.filterMap_nil, List.map_nil, List.append_nil]
    exact h

theorem ackInv_init {a b : IcspAssoc} (h : Mirrored a b) : AckInv c (AckNet.init a b) := by
  have ha : a.sendq = [] := congrArg DataPlane.sendq h.freshLeft
  have hb : b.cumTsn = 0 := congrArg DataPlane.cumTsn h.freshRight
  exact
    { hasKey := h.hasKey.2
      assocId := h.assocId.symm
      key := h.forth.symm
      wire := fun _ hx => nomatch hx
      queue := fun q hq => by
        have hq' : q ∈ a.sendq := hq
        rw [ha] at hq'
        exact nomatch hq'
      cum := fun hne => by
        show b.cumTsn < a.nextTsn
        rw [hb]
        exact UInt32.pos_iff_ne_zero.mpr hne
      sent := fun _ hm => nomatch hm
      covered := fun _ hm => nomatch hm
      sacks := fun _ hs => nomatch hs
      acked := fun q hq => by
        have hq' : q ∈ a.sendq := hq
        rw [ha] at hq'
        exact nomatch hq' }

theorem ackInv_step (h : AckInv c st) (ev : AckEv) (hok : AckOk c st ev) :
    AckInv c (ackStep c st ev) := by
  cases ev with
  | send io stream data => exact h.send io stream data hok
  | retransmit io timeoutS => exact h.retransmit io timeoutS
  | data k stale outlen => exact h.data k stale outlen hok
  | sack io => exact h.sack io
  | ack k stale => exact h.ack k stale

/-- As long as the receiver takes DATA in order, with nothing missing before it and
nothing dropped, an acknowledged message was received. -/
theorem acknowledged_received (c : TweetNaCl) (a b : IcspAssoc) (h : Mirrored a b) (es : List AckEv)
    (hok : Along (ackStep c) (AckOk c) (AckNet.init a b) es) :
    AckSound (run (ackStep c) (AckNet.init a b) es) := by
  have hrun := inv_run (I := AckInv c) (fun _ ev hi hev => ackInv_step hi ev hev) _ es
    (ackInv_init h) hok
  exact hrun.sound

/-- Two messages that arrive in order and are acknowledged by one SACK. -/
theorem acknowledged_received_in_order :
    let a := { IcspAssoc.zero with hasKey := true, nextTsn := 1 }
    let b := { IcspAssoc.zero with hasKey := true }
    let st := run (ackStep toy) (AckNet.init a b)
      [.send (.quiet 0) 3 [7], .send (.quiet 0) 3 [8], .data 0 [] 1400, .data 1 [] 1400,
        .sack (.quiet 0), .ack 0 []]
    st.sent.length = 2 ∧ icspAllAcked st.snd = true ∧ AckSound st := by
  intro a b st
  refine ⟨by decide +kernel, by decide +kernel, acknowledged_received toy a b ?_ _ ?_⟩
  · exact ⟨⟨rfl, rfl⟩, rfl, rfl, rfl, rfl, rfl⟩
  · decide +kernel

/-- The same two messages, the first one lost: its TSN is acknowledged with the second. -/
theorem acknowledged_lost :
    let a := { IcspAssoc.zero with hasKey := true, nextTsn := 1 }
    let b := { IcspAssoc.zero with hasKey := true }
    let st := run (ackStep toy) (AckNet.init a b)
      [.send (.quiet 0) 3 [7], .send (.quiet 0) 3 [8], .data 1 [] 1400, .sack (.quiet 0), .ack 0 []]
    icspAllAcked st.snd = true ∧ st.delivered = [] ∧ st.rcv.rcvq.map (·.tsn) = [2] ∧ ¬ AckSound st := by
  intro a b st
  have hacked : icspAllAcked st.snd = true := by decide +kernel
  refine ⟨hacked, by decide +kernel, by decide +kernel, fun h => ?_⟩
  have hlost : ∃ m ∈ st.sent, ¬ Received st m := by decide +kernel
  obtain ⟨m, hm, hno⟩ := hlost
  exact hno (h.allAcked hacked m hm)

end Icsp
