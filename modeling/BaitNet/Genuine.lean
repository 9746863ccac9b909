import BaitNet.DataSpec

/-!
# Genuine DATA frames

From `icsp_data_send` to the peer's `icsp_data_handle`: a send consumes a TSN and
a stream sequence number and puts at most one frame on the wire; that frame is a
single DATA chunk whose box opens at a receiver with the mirrored key.
-/
namespace Icsp

open Wire Link Crypto

/-- One message as the sender numbers it. -/
structure DataMsg where
  tsn : UInt32
  streamId : UInt16
  seq : UInt16
  msg : Bytes
  deriving DecidableEq

def DataMsg.clear (m : DataMsg) : Bytes := dataClear m.tsn m.streamId m.seq m.msg

@[simp] theorem dataHeader_length (tsn : UInt32) (sid seq : UInt16) :
    (dataHeader tsn sid seq).length = 8 := rfl

@[simp] theorem DataMsg.clear_length (m : DataMsg) : m.clear.length = 8 + m.msg.length := by
  simp [DataMsg.clear, dataClear]

theorem dataHeader_tsn (tsn : UInt32) (sid seq : UInt16) (b : Bytes) :
    get32 (dataHeader tsn sid seq ++ b) 0 = tsn := by
  simp only [dataHeader, List.append_assoc, get32_put32]

theorem dataHeader_stream (tsn : UInt32) (sid seq : UInt16) (b : Bytes) :
    get16 (dataHeader tsn sid seq ++ b) 4 = sid := by
  simp only [dataHeader, List.append_assoc]
  rw [get16_append_right _ _ _ (by simp)]
  simpa using get16_put16 sid _

theorem dataHeader_seq (tsn : UInt32) (sid seq : UInt16) (b : Bytes) :
    get16 (dataHeader tsn sid seq ++ b) 6 = seq := by
  simp only [dataHeader, List.append_assoc]
  iterate 2 rw [get16_append_right _ _ _ (by simp)]
  simpa using get16_put16 seq _

/-- The largest message whose packet fits `ICSP_MAX_PAYLOAD`. -/
def maxSendable : Nat := 1336

/-- The largest message whose plaintext fits the opener's 1024-byte buffer. -/
def maxOpenable : Nat := 1016

section

variable (c : TweetNaCl)

def DataMsg.box (m : DataMsg) (assocId : UInt32) (key : Arr 32) : Bytes :=
  ed25519Secretbox c m.clear (dataNonce c assocId m.tsn) key

def DataMsg.chunk (m : DataMsg) (assocId : UInt32) (key : Arr 32) : Bytes :=
  dataChunk m.tsn m.streamId m.seq m.msg.length (m.box c assocId key)

theorem DataMsg.chunk_tsn (m : DataMsg) (assocId : UInt32) (key : Arr 32) :
    get32 (m.chunk c assocId key) 4 = m.tsn := by
  rw [DataMsg.chunk, dataChunk, get32_append_right _ _ _ (by simp), icspChunkPut_length, Nat.sub_self,
    dataHeader_tsn]

/-- The frame in which association `a` sends a chunk that fits. -/
def assocFrame (a : IcspAssoc) (chunk : Bytes) : Bytes :=
  buildFrame (if a.hasPeerMac then a.peerMac else bcastMac) a.srcMac a.srcAddr a.dstAddr
    ipv69NextStream 64 0 0 (icspPkt a (icspCrc32c (icspPkt a 0 chunk)).toUInt16 chunk)

/-- The frame that carries message `m` of association `a`. -/
def dataFrame (a : IcspAssoc) (m : DataMsg) : Bytes := assocFrame a (m.chunk c a.assocId a.sendKey)

/-- A packet leaves in `assocFrame`, or not at all. -/
theorem icspSendPkt_cases (io : Io) (a : IcspAssoc) (chunk : Bytes) :
    (icspSendPkt io a chunk = ([.tx chunk (assocFrame a chunk)], true) ∧
      12 + chunk.length ≤ 1400 ∧ io.netOk (assocFrame a chunk) = true) ∨
    (icspSendPkt io a chunk = ([], false) ∧
      (12 + chunk.length ≤ 1400 → io.netOk (assocFrame a chunk) = false)) := by
  by_cases hfit : 1400 < 12 + chunk.length
  · refine .inr ⟨?_, fun h => absurd h (by omega)⟩
    have hb : icspBuildPkt a chunk icspMaxPayload = none := if_pos hfit
    simp only [icspSendPkt, hb]
  · have hb : icspBuildPkt a chunk icspMaxPayload =
        some (icspPkt a (icspCrc32c (icspPkt a 0 chunk)).toUInt16 chunk) := if_neg hfit
    by_cases hnet : io.netOk (assocFrame a chunk) = true
    · refine .inl ⟨?_, by omega, hnet⟩
      simp only [icspSendPkt, hb]
      exact if_pos hnet
    · refine .inr ⟨?_, fun _ => Bool.eq_false_iff.mpr hnet⟩
      simp only [icspSendPkt, hb]
      exact if_neg hnet

theorem DataMsg.chunk_length (m : DataMsg) (assocId : UInt32) (key : Arr 32) :
    (m.chunk c assocId key).length = 52 + m.msg.length := by
  simp only [DataMsg.chunk, dataChunk, DataMsg.box, List.length_append, icspChunkPut_length,
    dataHeader_length, ed25519Secretbox_length, DataMsg.clear_length]
  omega

/-- Sealing always happens; the frame leaves if the network takes it. -/
theorem sealSend_cases (io : Io) (a : IcspAssoc) (m : DataMsg) :
    (sealSend c io a m.tsn m.streamId m.seq m.msg =
        ([.seal a.sendKey (dataNonce c a.assocId m.tsn) m.clear,
          .tx (m.chunk c a.assocId a.sendKey) (dataFrame c a m)], true) ∧
      m.msg.length ≤ maxSendable ∧ io.netOk (dataFrame c a m) = true) ∨
    sealSend c io a m.tsn m.streamId m.seq m.msg =
      ([.seal a.sendKey (dataNonce c a.assocId m.tsn) m.clear], false) := by
  have hlen := m.chunk_length c a.assocId a.sendKey
  have hunf : sealSend c io a m.tsn m.streamId m.seq m.msg =
      (.seal a.sendKey (dataNonce c a.assocId m.tsn) m.clear ::
        (icspSendPkt io a (m.chunk c a.assocId a.sendKey)).1,
        (icspSendPkt io a (m.chunk c a.assocId a.sendKey)).2) := rfl
  rw [hunf]
  rcases icspSendPkt_cases io a (m.chunk c a.assocId a.sendKey) with ⟨h, hfit, hnet⟩ | ⟨h, -⟩
  · refine .inl ⟨?_, by simp only [maxSendable]; omega, hnet⟩
    rw [h, dataFrame]
  · refine .inr ?_
    rw [h]

/-- The queue slot a send fills: the message bytes are the ones thing missing. -/
def sendEntry (io : Io) (m : DataMsg) : SendEntry :=
  ⟨m.tsn, m.streamId, m.seq, List.replicate icspMaxPayload 0, .ofNat m.msg.length, false, io.now⟩

/-- The message a queue slot stands for when it is sent again. -/
def entryMsg (e : SendEntry) : DataMsg := ⟨e.tsn, e.streamId, e.seq, slice e.data 0 e.len.toNat⟩

/-- A slot after a retransmission round. -/
def resentEntry (io : Io) (a : IcspAssoc) (timeoutS : Int) (e : SendEntry) : SendEntry :=
  if e.acked ∨ (io.now : Int) - e.sentAt < timeoutS then e
  else if (sealSend c io a e.tsn e.streamId e.seq (entryMsg e).msg).2 then
    { e with sentAt := io.now }
  else e

theorem resentEntry_eq (io : Io) (a : IcspAssoc) (timeoutS : Int) (e : SendEntry) :
    ∃ t, resentEntry c io a timeoutS e = { e with sentAt := t } := by
  rw [resentEntry]
  split
  · exact ⟨e.sentAt, rfl⟩
  · split
    · exact ⟨io.now, rfl⟩
    · exact ⟨e.sentAt, rfl⟩

/-- A retransmission round goes over the slots one by one: it changes their times
at most, and seals only what is due. -/
theorem retransmitLoop_spec (io : Io) (a : IcspAssoc) (timeoutS : Int) (q : List SendEntry) :
    (retransmitLoop c io a timeoutS q).1 = q.map (resentEntry c io a timeoutS) ∧
      ∀ act ∈ (retransmitLoop c io a timeoutS q).2.1, ∃ e ∈ q, e.acked = false ∧
        timeoutS ≤ (io.now : Int) - e.sentAt ∧
        act ∈ (sealSend c io a e.tsn e.streamId e.seq (entryMsg e).msg).1 := by
  induction q with
  | nil => exact ⟨rfl, fun _ h => nomatch h⟩
  | cons e q ih =>
    obtain ⟨hq, hacts⟩ := ih
    have hmono : ∀ act ∈ (retransmitLoop c io a timeoutS q).2.1, ∃ e' ∈ e :: q, e'.acked = false ∧
        timeoutS ≤ (io.now : Int) - e'.sentAt ∧
        act ∈ (sealSend c io a e'.tsn e'.streamId e'.seq (entryMsg e').msg).1 := by
      intro act hact
      obtain ⟨e', he', h⟩ := hacts act hact
      exact ⟨e', List.mem_cons_of_mem _ he', h⟩
    rw [List.map_cons, resentEntry, retransmitLoop]
    by_cases hskip : e.acked ∨ (io.now : Int) - e.sentAt < timeoutS
    · simp only [if_pos hskip]
      exact ⟨by rw [hq], hmono⟩
    · simp only [if_neg hskip]
      rw [not_or, Bool.not_eq_true, Int.not_lt] at hskip
      have hall : ∀ act ∈ (sealSend c io a e.tsn e.streamId e.seq (entryMsg e).msg).1 ++
          (retransmitLoop c io a timeoutS q).2.1, ∃ e' ∈ e :: q, e'.acked = false ∧
          timeoutS ≤ (io.now : Int) - e'.sentAt ∧
          act ∈ (sealSend c io a e'.tsn e'.streamId e'.seq (entryMsg e').msg).1 := by
        intro act hact
        rcases List.mem_append.mp hact with hact | hact
        · exact ⟨e, List.mem_cons_self, hskip.1, hskip.2, hact⟩
        · exact hmono act hact
      have hmsg : (sealSend c io a e.tsn e.streamId e.seq (slice e.data 0 e.len.toNat)) =
          sealSend c io a e.tsn e.streamId e.seq (entryMsg e).msg := rfl
      rw [hmsg]
      by_cases hsent : (sealSend c io a e.tsn e.streamId e.seq (entryMsg e).msg).2 = true
      · simp only [if_pos hsent]
        exact ⟨by rw [hq], hall⟩
      · simp only [if_neg hsent]
        exact ⟨by rw [hq], hall⟩

/-- The message inside a plaintext. -/
def ofClear (clear : Bytes) : DataMsg := ⟨get32 clear 0, get16 clear 4, get16 clear 6, clear.drop 8⟩

@[simp] theorem ofClear_clear (m : DataMsg) : ofClear m.clear = m := by
  obtain ⟨tsn, sid, seq, msg⟩ := m
  simp only [ofClear, DataMsg.clear, dataClear, dataHeader_tsn, dataHeader_stream, dataHeader_seq]
  rw [List.drop_left' (dataHeader_length tsn sid seq)]

/-- Each DATA frame among the acts of a call, with the message sealed for it. -/
def sealedFrames : List Act → List (DataMsg × Bytes)
  | .seal _ _ clear :: .tx _ frame :: acts => (ofClear clear, frame) :: sealedFrames acts
  | _ :: acts => sealedFrames acts
  | [] => []

theorem sealedFrames_sent (key : Arr 32) (nonce : Arr 24) (m : DataMsg) (chunk frame : Bytes) :
    sealedFrames [.seal key nonce m.clear, .tx chunk frame] = [(m, frame)] := by
  rw [sealedFrames, ofClear_clear]
  rfl

/-- No frame without a message: the list does not start with a transmission. -/
def NoTxFirst (acts : List Act) : Prop := ∀ chunk frame rest, acts ≠ .tx chunk frame :: rest

theorem sealedFrames_unsent {key : Arr 32} {nonce : Arr 24} {clear : Bytes} {acts : List Act}
    (h : NoTxFirst acts) : sealedFrames (.seal key nonce clear :: acts) = sealedFrames acts := by
  cases acts with
  | nil => rfl
  | cons act rest =>
    cases act with
    | tx chunk frame => exact absurd rfl (h chunk frame rest)
    | _ => rfl

/-- Sealing a message adds its frame, or nothing. -/
theorem sealedFrames_sealSend (io : Io) (a : IcspAssoc) (m : DataMsg) {acts : List Act}
    (h : NoTxFirst acts) :
    sealedFrames ((sealSend c io a m.tsn m.streamId m.seq m.msg).1 ++ acts) =
        (m, dataFrame c a m) :: sealedFrames acts ∧ m.msg.length ≤ maxSendable ∨
      sealedFrames ((sealSend c io a m.tsn m.streamId m.seq m.msg).1 ++ acts) = sealedFrames acts := by
  rcases sealSend_cases c io a m with ⟨hs, hlen, -⟩ | hs
  · refine .inl ⟨?_, hlen⟩
    rw [hs]
    show (ofClear m.clear, dataFrame c a m) :: sealedFrames acts = _
    rw [ofClear_clear]
  · refine .inr ?_
    rw [hs]
    exact sealedFrames_unsent h

theorem noTxFirst_sealSend (io : Io) (a : IcspAssoc) (m : DataMsg) (acts : List Act) :
    NoTxFirst ((sealSend c io a m.tsn m.streamId m.seq m.msg).1 ++ acts) := by
  intro chunk frame rest heq
  rcases sealSend_cases c io a m with ⟨hs, -, -⟩ | hs
  · rw [hs] at heq
    simp at heq
  · rw [hs] at heq
    simp at heq

theorem retransmitLoop_cons (io : Io) (a : IcspAssoc) (timeoutS : Int) (e : SendEntry)
    (q : List SendEntry) :
    (retransmitLoop c io a timeoutS (e :: q)).2.1 = (retransmitLoop c io a timeoutS q).2.1 ∨
      (e.acked = false ∧ (retransmitLoop c io a timeoutS (e :: q)).2.1 =
        (sealSend c io a (entryMsg e).tsn (entryMsg e).streamId (entryMsg e).seq (entryMsg e).msg).1 ++
          (retransmitLoop c io a timeoutS q).2.1) := by
  rw [retransmitLoop]
  by_cases hskip : e.acked ∨ (io.now : Int) - e.sentAt < timeoutS
  · refine .inl ?_
    simp only [if_pos hskip]
  · refine .inr ?_
    have hack := hskip
    rw [not_or, Bool.not_eq_true] at hack
    refine ⟨hack.1, ?_⟩
    simp only [if_neg hskip]
    split
    · rfl
    · rfl

theorem noTxFirst_retransmitLoop (io : Io) (a : IcspAssoc) (timeoutS : Int) (q : List SendEntry) :
    NoTxFirst (retransmitLoop c io a timeoutS q).2.1 := by
  induction q with
  | nil => exact fun _ _ _ h => nomatch h
  | cons e q ih =>
    rcases retransmitLoop_cons c io a timeoutS e q with h | ⟨-, h⟩
    · rw [h]
      exact ih
    · rw [h]
      exact noTxFirst_sealSend c io a (entryMsg e) _

/-- What a retransmission round puts on the wire. -/
theorem sealedFrames_retransmit (io : Io) (a : IcspAssoc) (timeoutS : Int) (q : List SendEntry) :
    ∀ x ∈ sealedFrames (retransmitLoop c io a timeoutS q).2.1, ∃ e ∈ q, e.acked = false ∧
      x = (entryMsg e, dataFrame c a (entryMsg e)) ∧ (entryMsg e).msg.length ≤ maxSendable := by
  induction q with
  | nil => exact fun _ h => nomatch h
  | cons e q ih =>
    have hrest : ∀ x ∈ sealedFrames (retransmitLoop c io a timeoutS q).2.1, ∃ e' ∈ e :: q,
        e'.acked = false ∧ x = (entryMsg e', dataFrame c a (entryMsg e')) ∧
          (entryMsg e').msg.length ≤ maxSendable := by
      intro x hx
      obtain ⟨e', he', h⟩ := ih x hx
      exact ⟨e', List.mem_cons_of_mem _ he', h⟩
    intro x hx
    rcases retransmitLoop_cons c io a timeoutS e q with h | ⟨hack, h⟩
    · rw [h] at hx
      exact hrest x hx
    · rw [h] at hx
      rcases sealedFrames_sealSend c io a (entryMsg e) (noTxFirst_retransmitLoop c io a timeoutS q)
        with ⟨hs, hlen⟩ | hs
      · rw [hs] at hx
        rcases List.mem_cons.mp hx with rfl | hx
        · exact ⟨e, List.mem_cons_self, hack, rfl, hlen⟩
        · exact hrest x hx
      · rw [hs] at hx
        exact hrest x hx

/-- The two things a send can do: refuse, which takes a stream slot at most, or
number the message and seal it. -/
theorem icspDataSend_cases (io : Io) (a : IcspAssoc) (sid : UInt16) (data : Bytes) :
    (∃ ss, icspDataSend c io a sid data = ({ a with streams := ss }, [], -1) ∧
      (∀ j, recvSeq { a with streams := ss } j = recvSeq a j) ∧
      ∀ j, sendSeq { a with streams := ss } j = sendSeq a j) ∨
    (a.hasKey = true ∧ (getStream a sid).2.isSome = true ∧ data.length ≤ icspMaxPayload ∧
      ∃ ss, icspDataSend c io a sid data =
          ({ a with
              nextTsn := a.nextTsn + 1
              sendq := if a.sendq.length < icspSendq then
                a.sendq ++ [sendEntry io ⟨a.nextTsn, sid, sendSeq a sid, data⟩] else a.sendq
              streams := ss },
            (sealSend c io a a.nextTsn sid (sendSeq a sid) data).1,
            if (sealSend c io a a.nextTsn sid (sendSeq a sid) data).2 then tsnInt a.nextTsn else -1) ∧
        (∀ j, recvSeq { a with streams := ss } j = recvSeq a j) ∧
        ∀ j, sendSeq { a with streams := ss } j = if j = sid then sendSeq a j + 1 else sendSeq a j) := by
  by_cases hk : a.hasKey = true
  · cases hg : getStream a sid with
    | mk a1 o =>
      obtain ⟨⟨ss, rfl⟩, hrecv, hsend, hnone, hslot⟩ := getStream_spec hg
      cases o with
      | none =>
        refine .inl ⟨ss, ?_, hrecv, hsend⟩
        simp only [icspDataSend, hk, not_true_eq_false, if_false, hg]
      | some s =>
        obtain ⟨-, -, hseq, hfind⟩ := hslot s rfl
        by_cases hlen : icspMaxPayload < data.length
        · refine .inl ⟨ss, ?_, hrecv, hsend⟩
          simp only [icspDataSend, hk, not_true_eq_false, if_false, hg, if_pos hlen]
        · refine .inr ⟨hk, rfl, by omega, updStream sid (fun s => { s with nextSendSeq := s.nextSendSeq + 1 }) ss,
            ?_, ?_, ?_⟩
          · simp only [icspDataSend, hk, not_true_eq_false, if_false, hg, if_neg hlen, hseq]
            rfl
          · intro j
            have hf := findStream_updStream { a with streams := ss } sid j
              (fun s => { s with nextSendSeq := s.nextSendSeq + 1 }) (fun _ => rfl)
            rw [← hrecv j]
            simp only [recvSeq, hf]
            split
            · rename_i hj
              subst hj
              simp [hfind]
            · rfl
          · intro j
            have hf := findStream_updStream { a with streams := ss } sid j
              (fun s => { s with nextSendSeq := s.nextSendSeq + 1 }) (fun _ => rfl)
            rw [← hsend j]
            simp only [sendSeq, hf]
            split
            · rename_i hj
              subst hj
              simp [hfind]
            · rfl
  · refine .inl ⟨a.streams, ?_, fun _ => rfl, fun _ => rfl⟩
    rw [icspDataSend, if_pos hk]

/-- The chunk as the receiver's loop sees it. -/
def DataMsg.rxChunk (m : DataMsg) (assocId : UInt32) (key : Arr 32) (stale : Bytes) : Chunk :=
  ⟨chunkData, 48 + m.msg.length,
    dataHeader m.tsn m.streamId m.seq ++ (m.box c assocId key ++ stale)⟩

theorem chunkPut_len (type : UInt8) (n : Nat) (b : Bytes) (h : n < 2 ^ 16) :
    (byteAt (icspChunkPut type n ++ b) 2).toNat * 256 + (byteAt (icspChunkPut type n ++ b) 3).toNat =
      n := by
  simp only [icspChunkPut, List.cons_append, byteAt, List.getD_cons_succ, List.getD_cons_zero,
    UInt8.toNat_ofNat']
  omega

/-- A packet with a single chunk is walked as that chunk. -/
theorem chunks_single (hdr body rest : Bytes) (type : UInt8) (hh : hdr.length = icspHeaderLen)
    (hb : body.length < 2 ^ 16) :
    chunks (hdr ++ (icspChunkPut type body.length ++ body) ++ rest) (16 + body.length) =
      [⟨type, body.length, body ++ rest⟩] := by
  have hfuel : 16 + body.length - icspHeaderLen = body.length + 3 + 1 := by
    simp only [icspHeaderLen]
    omega
  have hdrop : (hdr ++ (icspChunkPut type body.length ++ body) ++ rest).drop icspHeaderLen =
      icspChunkPut type body.length ++ (body ++ rest) := by
    rw [List.append_assoc, List.drop_left' hh, List.append_assoc]
  have hlen := chunkPut_len type body.length (body ++ rest) hb
  have hbody : (icspChunkPut type body.length ++ (body ++ rest)).drop icspChunkHdr = body ++ rest :=
    List.drop_left' rfl
  rw [chunks, hfuel, hdrop, chunkWalk]
  simp only [hlen, hbody]
  rw [if_neg (by simp only [icspChunkHdr]; omega), if_neg (by simp only [icspChunkHdr]; omega)]
  have hleft : body.length + 3 + 1 - (icspChunkHdr + body.length) = 0 := by
    simp only [icspChunkHdr]
    omega
  rw [hleft]
  cases hb : body.length + 3 with
  | zero => rfl
  | succ n => rfl

/-- A packet of association `a` around one chunk, as the receiver walks it. -/
theorem chunks_assocFrame (a : IcspAssoc) (type : UInt8) (body stale : Bytes) (outlen : Nat)
    (hb : body.length < 2 ^ 16) :
    chunks (rxFrame (assocFrame a (icspChunkPut type body.length ++ body)) stale outlen).payload
        (rxFrame (assocFrame a (icspChunkPut type body.length ++ body)) stale outlen).plen =
      [⟨type, body.length, body ++ stale⟩] := by
  have hplen : (assocFrame a (icspChunkPut type body.length ++ body)).length - frameHeaderLen =
      16 + body.length := by
    rw [assocFrame, buildFrame_length, icspPkt_length, List.length_append, icspChunkPut_length,
      frameHeaderLen, ipv69HeaderLen]
    omega
  simp only [rxFrame, hplen]
  rw [assocFrame, framePayload_build, icspPkt]
  exact chunks_single _ body stale type (by simp [icspHeaderLen]) hb

/-- The receive call of a genuine frame. -/
def DataMsg.rx (m : DataMsg) (a : IcspAssoc) (stale : Bytes) (outlen : Nat) : RxCall :=
  rxFrame (dataFrame c a m) stale outlen

theorem chunks_rx (m : DataMsg) (a : IcspAssoc) (stale : Bytes) (outlen : Nat)
    (hm : m.msg.length ≤ maxSendable) :
    chunks (m.rx c a stale outlen).payload (m.rx c a stale outlen).plen =
      [m.rxChunk c a.assocId a.sendKey stale] := by
  have hbox := ed25519Secretbox_length c m.clear (dataNonce c a.assocId m.tsn) a.sendKey
  rw [DataMsg.clear_length] at hbox
  have hlen : (dataHeader m.tsn m.streamId m.seq ++ m.box c a.assocId a.sendKey).length =
      4 + 2 + 2 + 32 + 8 + m.msg.length := by
    rw [List.length_append, dataHeader_length, DataMsg.box, hbox]
    omega
  have h := chunks_assocFrame a chunkData (dataHeader m.tsn m.streamId m.seq ++
    m.box c a.assocId a.sendKey) stale outlen (by rw [hlen]; simp only [maxSendable] at hm; omega)
  rw [hlen, List.append_assoc] at h
  rw [DataMsg.rx, dataFrame, DataMsg.chunk, dataChunk, h, DataMsg.rxChunk]

section RxChunk

variable (m : DataMsg) (assocId : UInt32) (key : Arr 32) (stale : Bytes)

@[simp] theorem rxChunk_tsn : get32 (m.rxChunk c assocId key stale).cd 0 = m.tsn :=
  dataHeader_tsn _ _ _ _

@[simp] theorem rxChunk_stream : get16 (m.rxChunk c assocId key stale).cd 4 = m.streamId :=
  dataHeader_stream _ _ _ _

@[simp] theorem rxChunk_seq : get16 (m.rxChunk c assocId key stale).cd 6 = m.seq :=
  dataHeader_seq _ _ _ _

@[simp] theorem rxChunk_boxLen : boxLen (m.rxChunk c assocId key stale) = 40 + m.msg.length := by
  have hlen : (m.rxChunk c assocId key stale).clen = 48 + m.msg.length := rfl
  rw [boxLen, hlen, sizeSub_of_le (by omega)]
  omega

@[simp] theorem rxChunk_msgLen : msgLen (m.rxChunk c assocId key stale) = m.msg.length := by
  rw [msgLen, rxChunk_boxLen, sizeSub_of_le (by omega)]
  omega

theorem rxChunk_headerMatches : HeaderMatches (m.rxChunk c assocId key stale) m.clear := by
  rw [HeaderMatches, rxChunk_tsn, rxChunk_stream, rxChunk_seq]
  exact ⟨dataHeader_tsn _ _ _ _, dataHeader_stream _ _ _ _, dataHeader_seq _ _ _ _⟩

theorem clear_slice (n : Nat) (hn : n ≤ m.msg.length) : slice m.clear 8 n = m.msg.take n := by
  rw [DataMsg.clear, dataClear, slice_append_right _ _ _ _ (by simp), dataHeader_length, Nat.sub_self]
  have h := slice_zero_append m.msg [] n hn
  rwa [List.append_nil] at h

/-- The box opens under the mirrored key, if its plaintext fits. -/
theorem openData_rxChunk (b : IcspAssoc) (hid : b.assocId = assocId) (hkey : b.recvKey = key)
    (hm : m.msg.length ≤ maxSendable) :
    openData c b (m.rxChunk c assocId key stale) =
      if m.msg.length ≤ maxOpenable then some m.clear else none := by
  subst hid hkey
  have hdrop : (m.rxChunk c b.assocId b.recvKey stale).cd.drop 8 =
      ed25519Secretbox c m.clear (dataNonce c b.assocId m.tsn) b.recvKey ++ stale :=
    List.drop_left' (dataHeader_length _ _ _)
  simp only [openData, rxChunk_boxLen, rxChunk_tsn, hdrop]
  simp only [maxSendable] at hm
  rw [if_neg (by simp only [icspMaxPayload]; omega)]
  have hn : 40 + m.msg.length - 32 = m.clear.length := by
    rw [DataMsg.clear_length]
    omega
  rw [hn]
  by_cases hfit : m.msg.length ≤ maxOpenable
  · rw [if_pos hfit]
    refine open_ed25519Secretbox c _ _ _ _ ?_
    rw [DataMsg.clear_length]
    simp only [maxOpenable] at hfit
    omega
  · rw [if_neg hfit, ed25519SecretboxOpen, if_pos]
    rw [DataMsg.clear_length]
    simp only [maxOpenable] at hfit
    omega

end RxChunk

section Receive

variable {c} {a b : IcspAssoc} (m : DataMsg) (stale : Bytes) (outlen : Nat)

/-- `DataRet` when nothing was delivered. -/
def DataRet.nothing (outlen : Nat) : DataRet := ⟨0, [], outlen, 0⟩

theorem handleCall_rx (hm : m.msg.length ≤ maxSendable) :
    handleCall c b (m.rx c a stale outlen) =
      ((handleChunk c b (m.rxChunk c a.assocId a.sendKey stale) (.nothing outlen)).1,
        (handleChunk c b (m.rxChunk c a.assocId a.sendKey stale) (.nothing outlen)).2.getD
          (.nothing outlen)) := by
  have hplen : ¬ (m.rx c a stale outlen).plen < icspHeaderLen := by
    simp only [DataMsg.rx, rxFrame, dataFrame, assocFrame, buildFrame_length, icspPkt_length,
      frameHeaderLen, ipv69HeaderLen, icspHeaderLen]
    omega
  rw [handleCall, icspDataHandle, if_neg hplen, chunks_rx c m a stale outlen hm]
  exact handleChunks_single c (.nothing outlen) (m.rxChunk c a.assocId a.sendKey stale) b

variable (hk : b.hasKey = true) (hid : b.assocId = a.assocId) (hkey : b.recvKey = a.sendKey)
variable (hm : m.msg.length ≤ maxSendable)
include hk hm

/-- A TSN the window refuses leaves no trace. -/
theorem handleCall_rx_seen (hs : TsnSeen b m.tsn) :
    handleCall c b (m.rx c a stale outlen) = (b, .nothing outlen) := by
  have hs' : TsnSeen b (get32 (m.rxChunk c a.assocId a.sendKey stale).cd 0) := by rwa [rxChunk_tsn]
  rw [handleCall_rx m stale outlen hm, handleChunk_seen c b _ _ ⟨rfl, hk⟩ hs', Option.getD_none]

include hid hkey

/-- A fresh TSN is recorded first; a message too long for the opener is then lost,
any other is accepted. -/
theorem handleCall_rx_fresh (hs : ¬ TsnSeen b m.tsn) :
    ∃ rwTsn rwMask, replayWindow b.rwTsn b.rwMask m.tsn = some (rwTsn, rwMask) ∧
      (maxOpenable < m.msg.length →
        handleCall c b (m.rx c a stale outlen) = ({ b with rwTsn, rwMask }, .nothing outlen)) ∧
      (m.msg.length ≤ maxOpenable →
        handleCall c b (m.rx c a stale outlen) =
          ((acceptData { b with rwTsn, rwMask } (m.rxChunk c a.assocId a.sendKey stale) m.clear
              (.nothing outlen)).1,
            (acceptData { b with rwTsn, rwMask } (m.rxChunk c a.assocId a.sendKey stale) m.clear
              (.nothing outlen)).2.getD (.nothing outlen))) := by
  cases hw : replayWindow b.rwTsn b.rwMask m.tsn with
  | none => exact absurd ((replayWindow_none_iff b _).mp hw) hs
  | some w =>
    have hw' : replayWindow b.rwTsn b.rwMask (get32 (m.rxChunk c a.assocId a.sendKey stale).cd 0) =
        some w := by rw [rxChunk_tsn, hw]
    have hopen := openData_rxChunk c m _ _ stale b hid hkey hm
    obtain ⟨hlost, hacc⟩ := handleChunk_fresh c b (m.rxChunk c a.assocId a.sendKey stale)
      (.nothing outlen) ⟨rfl, hk⟩ w hw'
    refine ⟨w.1, w.2, rfl, fun hlong => ?_, fun hfit => ?_⟩
    · rw [if_neg (by omega)] at hopen
      rw [handleCall_rx m stale outlen hm, hlost hopen, Option.getD_none]
    · rw [if_pos hfit] at hopen
      rw [handleCall_rx m stale outlen hm, hacc _ hopen]

end Receive

/-- What becomes of an authentic message: delivered in order, dropped for want of a
stream slot, or buffered. -/
theorem acceptData_rx (b : IcspAssoc) (m : DataMsg) (assocId : UInt32) (key : Arr 32) (stale : Bytes)
    (r : DataRet) :
    (m.seq = recvSeq b m.streamId ∧
      ∃ ss, acceptData b (m.rxChunk c assocId key stale) m.clear r =
          ({ b with streams := ss, cumTsn := cumAfter b m.tsn },
            some ⟨(min r.outlen m.msg.length : Nat), m.msg.take (min r.outlen m.msg.length),
              min r.outlen m.msg.length, m.streamId⟩) ∧
        (∀ j, recvSeq { b with streams := ss } j =
          if j = m.streamId then recvSeq b j + 1 else recvSeq b j) ∧
        ∀ j, sendSeq { b with streams := ss } j = sendSeq b j) ∨
    (getStream b m.streamId = (b, none) ∧
      acceptData b (m.rxChunk c assocId key stale) m.clear r =
        ({ b with cumTsn := cumAfter b m.tsn }, none)) ∨
    (m.seq ≠ recvSeq b m.streamId ∧
      ∃ ss, acceptData b (m.rxChunk c assocId key stale) m.clear r =
          ({ b with
              streams := ss
              cumTsn := cumAfter b m.tsn
              rcvq := if b.rcvq.length < icspRcvq then
                b.rcvq ++ [⟨m.tsn, m.streamId, m.seq,
                  slice m.clear 8 (UInt16.ofNat m.msg.length).toNat, .ofNat m.msg.length, true⟩]
              else b.rcvq }, none) ∧
        (∀ j, recvSeq { b with streams := ss } j = recvSeq b j) ∧
        ∀ j, sendSeq { b with streams := ss } j = sendSeq b j) := by
  have h := acceptData_cases b (m.rxChunk c assocId key stale) m.clear r
  simp only [rxChunk_headerMatches, rxChunk_tsn, rxChunk_stream, rxChunk_seq, rxChunk_msgLen,
    not_true_eq_false, false_and, true_and, false_or] at h
  have hmin : min r.outlen m.msg.length ≤ m.msg.length := Nat.min_le_right _ _
  rw [clear_slice m _ hmin] at h
  exact h

/-- Everything that can happen to a genuine frame of message `m` at `b`. -/
inductive RxOutcome (b : IcspAssoc) (m : DataMsg) (outlen : Nat) : IcspAssoc × DataRet → Prop
  /-- the window has seen the TSN, or is past it -/
  | seen (hs : TsnSeen b m.tsn) : RxOutcome b m outlen (b, .nothing outlen)
  /-- the plaintext does not fit the opener's buffer -/
  | lost (w : UInt32 × UInt32) (hw : replayWindow b.rwTsn b.rwMask m.tsn = some w)
      (hlong : maxOpenable < m.msg.length) :
      RxOutcome b m outlen ({ b with rwTsn := w.1, rwMask := w.2 }, .nothing outlen)
  /-- the expected message of its stream -/
  | delivered (w : UInt32 × UInt32) (ss : List IcspStream)
      (hw : replayWindow b.rwTsn b.rwMask m.tsn = some w) (hfit : m.msg.length ≤ maxOpenable)
      (hseq : m.seq = recvSeq b m.streamId)
      (hrecv : ∀ j, recvSeq { b with streams := ss } j =
        if j = m.streamId then recvSeq b j + 1 else recvSeq b j)
      (hsend : ∀ j, sendSeq { b with streams := ss } j = sendSeq b j) :
      RxOutcome b m outlen
        ({ b with rwTsn := w.1, rwMask := w.2, streams := ss, cumTsn := cumAfter b m.tsn },
          ⟨(min outlen m.msg.length : Nat), m.msg.take (min outlen m.msg.length),
            min outlen m.msg.length, m.streamId⟩)
  /-- no slot for the stream -/
  | noSlot (w : UInt32 × UInt32) (hw : replayWindow b.rwTsn b.rwMask m.tsn = some w)
      (hfit : m.msg.length ≤ maxOpenable) (hslot : (getStream b m.streamId).2 = none) :
      RxOutcome b m outlen
        ({ b with rwTsn := w.1, rwMask := w.2, cumTsn := cumAfter b m.tsn }, .nothing outlen)
  /-- not the expected message: into `rcvq` if there is room -/
  | buffered (w : UInt32 × UInt32) (ss : List IcspStream)
      (hw : replayWindow b.rwTsn b.rwMask m.tsn = some w) (hfit : m.msg.length ≤ maxOpenable)
      (hseq : m.seq ≠ recvSeq b m.streamId)
      (hrecv : ∀ j, recvSeq { b with streams := ss } j = recvSeq b j)
      (hsend : ∀ j, sendSeq { b with streams := ss } j = sendSeq b j) :
      RxOutcome b m outlen
        ({ b with
            rwTsn := w.1, rwMask := w.2, streams := ss, cumTsn := cumAfter b m.tsn
            rcvq := if b.rcvq.length < icspRcvq then
              b.rcvq ++ [⟨m.tsn, m.streamId, m.seq, m.msg, .ofNat m.msg.length, true⟩] else b.rcvq },
          .nothing outlen)

/-- The spec of `icsp_data_handle` on genuine frames. -/
theorem handleCall_outcome {a b : IcspAssoc} (m : DataMsg) (stale : Bytes) (outlen : Nat)
    (hk : b.hasKey = true) (hid : b.assocId = a.assocId) (hkey : b.recvKey = a.sendKey)
    (hm : m.msg.length ≤ maxSendable) :
    RxOutcome b m outlen (handleCall c b (m.rx c a stale outlen)) := by
  by_cases hs : TsnSeen b m.tsn
  · rw [handleCall_rx_seen m stale outlen hk hm hs]
    exact .seen hs
  obtain ⟨t, k, hw, hlost, hacc⟩ := handleCall_rx_fresh m stale outlen hk hid hkey hm hs
  by_cases hlong : maxOpenable < m.msg.length
  · rw [hlost hlong]
    exact .lost (t, k) hw hlong
  have hfit : m.msg.length ≤ maxOpenable := by omega
  rw [hacc hfit]
  rcases acceptData_rx c { b with rwTsn := t, rwMask := k } m a.assocId a.sendKey stale
      (.nothing outlen) with ⟨hseq, ss, h, hrecv, hsend⟩ | ⟨hslot, h⟩ | ⟨hseq, ss, h, hrecv, hsend⟩
  · rw [h]
    exact .delivered (t, k) ss hw hfit hseq hrecv hsend
  · rw [h]
    have hnone : (getStream b m.streamId).2 = none := by
      have hsame : (getStream { b with rwTsn := t, rwMask := k } m.streamId).2 =
          (getStream b m.streamId).2 := by
        simp only [getStream, findStream]
        split
        · rfl
        · split
          · rfl
          · rfl
      rw [← hsame, hslot]
    exact .noSlot (t, k) hw hfit hnone
  · rw [h]
    have hlen : (UInt16.ofNat m.msg.length).toNat = m.msg.length := by
      rw [UInt16.toNat_ofNat']
      simp only [maxOpenable] at hfit
      omega
    rw [hlen, clear_slice m _ le_rfl, List.take_length]
    exact .buffered (t, k) ss hw hfit hseq hrecv hsend

end

end Icsp
