import BaitNet.Established
import BaitNet.ExchangePy

/-!
# The Python implementation in the data phase

`data_send`, `stream_reset` and `poll` of an established association, as one end of a
network.
-/
namespace Interop

open Wire Link Crypto

/-- The messages among the events of `poll`. -/
def dataEvents (events : List Py.Event) : List (Nat × Bytes) :=
  events.filterMap fun
    | .data sid data => some (sid, data)
    | _ => none

/-- An association, with what the outside supplies to each of its calls. -/
def pyEnd (nb : Py.PyBox) (e : Circumstances) : End where
  State := Nat × Py.Assoc
  call s x :=
    match x with
    | .data sid msg =>
      let r := Py.dataSend nb.toPyNaCl (e.py s.1) s.2 sid.toNat msg
      ((s.1 + 1, r.1), r.2.1)
    | .reset sid mode => ((s.1 + 1, s.2), (Py.streamReset s.2 sid.toNat mode).toOption.toList)
  receive s frame :=
    let r := Py.poll nb (e.py s.1) s.2 frame
    ((s.1 + 1, r.1), r.2.1, dataEvents (r.2.2.toOption.getD []))
  sendSeq s sid := (Py.stream s.2.streams sid.toNat).2.sendSeq
  recvSeq s sid := (Py.stream s.2.streams sid.toNat).2.recvSeq
  hasRoom _ _ := true
  isClear s sid := (Py.stream s.2.streams sid.toNat).2.recvSeq = 0

/-- PyNaCl opens what it has sealed. -/
structure SameBoxes (nb : Py.PyBox) (c : TweetNaCl) : Prop extends SamePrimitives nb.toPyNaCl c where
  decrypt : ∀ k n m, nb.decrypt k n (nb.encrypt k n m) = some m

/-- An established association of end `i` with these counters. -/
structure PyReads (s : Session) (i : Bool) (q : Py.Assoc) (v : Counters) : Prop where
  mac : q.mac = (s.mac i).val
  srcAddr : q.srcAddr = (s.addr i).toNat
  dstAddr : q.dstAddr < 2 ^ 40
  peerMac : ∀ m, q.peerMac = some m → m.length = 6
  srcPort : q.srcPort < 2 ^ 16
  dstPort : q.dstPort < 2 ^ 16
  assocId : q.assocId = s.assocId.toNat
  sendKey : q.sendKey = (s.key i).val
  recvKey : q.recvKey = (s.key (!i)).val
  nextTsn : q.nextTsn = v.next % 2 ^ 32
  sendSeq : ∀ sid : UInt16, (Py.stream q.streams sid.toNat).2.sendSeq = (v.sendSeq sid).toNat
  recvSeq : ∀ sid : UInt16, (Py.stream q.streams sid.toNat).2.recvSeq = (v.recvSeq sid).toNat
  rcvbuf : q.rcvbuf = []
  cumTsn : q.cumTsn < 2 ^ 32
  window : q.rwTsn = 0 ∧ q.rwMask = 0 ∨ q.rwTsn < v.low

theorem stream_entry (streams : List (Nat × Py.Stream)) (j : Nat) :
    (Py.stream streams j).2 = (streams.lookup j).getD ⟨0, 0⟩ := by
  rw [Py.stream]
  cases streams.lookup j with
  | none => rfl
  | some x => rfl

/-- Making an entry for a stream changes no number. -/
theorem stream_stream (streams : List (Nat × Py.Stream)) (sid j : Nat) :
    (Py.stream (Py.stream streams sid).1 j).2 = (Py.stream streams j).2 := by
  rw [stream_entry, stream_entry, Py.stream]
  cases hsid : streams.lookup sid with
  | some x => rfl
  | none =>
    dsimp only
    rw [List.lookup_append]
    cases hj : streams.lookup j with
    | some x => rfl
    | none =>
      rw [Option.none_or, List.lookup_cons]
      split
      · rfl
      · rfl

theorem lookup_map_at {α : Type*} (l : List (Nat × α)) (sid j : Nat) (f : α → α) :
    (l.map fun e => if e.1 = sid then (e.1, f e.2) else e).lookup j =
      (l.lookup j).map fun x => if j = sid then f x else x := by
  induction l with
  | nil => rfl
  | cons e l ih =>
    obtain ⟨k, x⟩ := e
    by_cases hk : k = sid
    · by_cases hj : j = k
      · simp [hk, hj]
      · have hb : (j == k) = false := beq_false_of_ne hj
        simp [hk, List.lookup_cons, hk ▸ hb, ih]
    · by_cases hj : j = k
      · simp [hk, hj]
      · have hb : (j == k) = false := beq_false_of_ne hj
        simp [hk, List.lookup_cons, hb, ih]

/-- A change to one stream leaves the others. -/
theorem stream_map (streams : List (Nat × Py.Stream)) (sid j : Nat) (f : Py.Stream → Py.Stream) :
    (Py.stream ((Py.stream streams sid).1.map fun e => if e.1 = sid then (e.1, f e.2) else e) j).2 =
      if j = sid then f (Py.stream streams j).2 else (Py.stream streams j).2 := by
  have hkept := stream_stream streams sid j
  rw [stream_entry] at hkept
  rw [stream_entry, lookup_map_at]
  by_cases hj : j = sid
  · subst hj
    have hsome : ∃ x, (Py.stream streams j).1.lookup j = some x := by
      rw [Py.stream]
      cases h : streams.lookup j with
      | some x => exact ⟨x, h⟩
      | none => exact ⟨⟨0, 0⟩, by simp [List.lookup_append, h]⟩
    obtain ⟨x, hx⟩ := hsome
    rw [hx] at hkept ⊢
    simp only [if_true, Option.map_some, Option.getD_some] at hkept ⊢
    rw [hkept]
  · simp only [if_neg hj, Option.map_id']
    exact hkept

theorem stream_bumpSeq (streams : List (Nat × Py.Stream)) (sid j : Nat) :
    (Py.stream (Py.bumpSeq sid (Py.stream streams sid).1) j).2 =
      (let x := (Py.stream streams j).2
      if j = sid then { x with sendSeq := (x.sendSeq + 1) &&& 0xFFFF } else x) :=
  stream_map streams sid j fun x => { x with sendSeq := (x.sendSeq + 1) &&& 0xFFFF }

theorem stream_setRecv (streams : List (Nat × Py.Stream)) (sid j seq : Nat) :
    (Py.stream (Py.setRecv sid seq (Py.stream streams sid).1) j).2 =
      (let x := (Py.stream streams j).2
      if j = sid then { x with recvSeq := seq } else x) :=
  stream_map streams sid j fun x => { x with recvSeq := seq }

variable {nb : Py.PyBox} {c : TweetNaCl} {s : Session} {i : Bool} {q : Py.Assoc} {v : Counters}

theorem PyReads.sendChunk (h : PyReads s i q v) (m : Msg) (hlen : (m.chunk c s i).length ≤ 1388) :
    ∃ frame, Py.sendChunk q (m.chunk c s i) = .ok frame ∧ Frames c s i m frame := by
  have hmac : q.mac.length = 6 := h.mac ▸ (s.mac i).length
  have hport : ∀ {p : Nat}, p < 2 ^ 16 → p = (UInt16.ofNat p).toNat := fun hp => by
    rw [UInt16.toNat_ofNat', Nat.mod_eq_of_lt hp]
  obtain ⟨frame, hsend, hcar⟩ := sendChunk_ok (q := q)
    ⟨hmac, h.peerMac, h.srcAddr ▸ s.addr_lt i, h.dstAddr⟩ (hport h.srcPort) (hport h.dstPort) h.assocId hlen
  have hm : (⟨q.mac, hmac⟩ : Arr 6) = s.mac i := Subtype.ext h.mac
  rw [hm, h.srcAddr, UInt64.ofNat_toNat] at hcar
  exact ⟨frame, hsend, _, _, _, hcar⟩

theorem PyReads.sendKey_ne (h : PyReads s i q v) : q.sendKey ≠ [] := by
  intro hnil
  have hlen := (s.key i).length
  rw [← h.sendKey, hnil] at hlen
  cases hlen

/-- `stream_reset` sends its chunk. -/
theorem streamReset_frames (h : PyReads s i q v) (sid : UInt16) (mode : UInt8) :
    ∃ frame, Py.streamReset q sid.toNat mode = .ok frame ∧ Frames c s i (.reset sid mode) frame := by
  obtain ⟨frame, hsend, hframe⟩ := h.sendChunk (c := c) (.reset sid mode) (Nat.le_of_ble_eq_true rfl)
  refine ⟨frame, ?_, hframe⟩
  have hput : Py.chunkPut Py.chunkStreamReset (put16 sid ++ [mode]) = .ok (resetChunk sid mode) :=
    chunkPut_eq _ (Nat.le_of_ble_eq_true rfl)
  simp only [Py.streamReset, toBytes_u16, Py.ok_bind, hput]
  exact hsend

theorem sendSack_frames (h : PyReads s i q v) :
    ∃ frame cum, Py.sendSack q = .ok frame ∧ Frames c s i (.sack cum) frame := by
  have hcum : q.cumTsn = (UInt32.ofNat q.cumTsn).toNat := by
    rw [UInt32.toNat_ofNat', Nat.mod_eq_of_lt h.cumTsn]
  obtain ⟨frame, hsend, hframe⟩ := h.sendChunk (c := c) (.sack (.ofNat q.cumTsn)) (Nat.le_of_ble_eq_true rfl)
  refine ⟨frame, _, ?_, hframe⟩
  have hbytes : Py.toBytes q.cumTsn 4 = .ok (put32 (.ofNat q.cumTsn)) := by
    rw [← toBytes_u32, ← hcum]
  have hput : Py.chunkPut Py.chunkSack (put32 (.ofNat q.cumTsn)) = .ok (sackChunk (.ofNat q.cumTsn)) :=
    chunkPut_eq _ (Nat.le_of_ble_eq_true rfl)
  simp only [Py.sendSack, hbytes, Py.ok_bind, hput]
  exact hsend

theorem bump_toNat (f : UInt16 → UInt16) (sid j : UInt16) :
    (bump f sid j).toNat = if j.toNat = sid.toNat then ((f j).toNat + 1) &&& 0xFFFF else (f j).toNat := by
  have hmask : ((f j).toNat + 1) &&& 0xFFFF = ((f j).toNat + 1) % 2 ^ 16 := Nat.and_two_pow_sub_one_eq_mod _ 16
  rw [bump, hmask]
  by_cases hj : j = sid
  · rw [if_pos hj, if_pos (congrArg _ hj), UInt16.toNat_add]
    rfl
  · rw [if_neg hj, if_neg fun h => hj (UInt16.toNat_inj.mp h)]

theorem nextTsn_succ (n : Nat) : (n % 2 ^ 32 + 1) &&& 0xFFFFFFFF = (n + 1) % 2 ^ 32 := by
  have hmask : (n % 2 ^ 32 + 1) &&& 0xFFFFFFFF = (n % 2 ^ 32 + 1) % 2 ^ 32 := Nat.and_two_pow_sub_one_eq_mod _ 32
  rw [hmask, Nat.mod_add_mod]

/-- A message that leaves has taken its numbers; one that is too long takes at most a TSN. -/
theorem dataSend_reads (same : SamePrimitives nb.toPyNaCl c) (h : PyReads s i q v) (io : Py.Io) (sid : UInt16)
    (msg : Bytes) :
    (∃ frame, (Py.dataSend nb.toPyNaCl io q sid.toNat msg).2.1 = [frame] ∧
      Frames c s i (.data (v.msg sid msg)) frame ∧ msg.length ≤ Icsp.maxSendable ∧
      PyReads s i (Py.dataSend nb.toPyNaCl io q sid.toNat msg).1 (v.sent sid)) ∨
    ((Py.dataSend nb.toPyNaCl io q sid.toNat msg).2.1 = [] ∧ ¬ msg.length ≤ Icsp.maxSendable ∧
      ∃ k, k ≤ v.next + 1 ∧ v.next ≤ k ∧
        PyReads s i (Py.dataSend nb.toPyNaCl io q sid.toNat msg).1 { v with next := k }) := by
  have htsn : (UInt32.ofNat v.next).toNat = q.nextTsn := by
    rw [UInt32.toNat_ofNat', h.nextTsn]
  have hseq : (v.sendSeq sid).toNat = (Py.stream q.streams sid.toNat).2.sendSeq := (h.sendSeq sid).symm
  have hfits : msg.length ≤ Icsp.maxSendable ↔ msg.length ≤ 1336 := Iff.rfl
  rw [Py.dataSend, if_neg h.sendKey_ne]
  by_cases hbig : Py.icspMaxPayload - 56 < msg.length
  · have hlong : 1344 < msg.length := hbig
    rw [if_pos hbig]
    exact .inr ⟨rfl, by omega, v.next, Nat.le_succ _, le_rfl, h⟩
  · have hlen : ¬ 1344 < msg.length := hbig
    rw [if_neg hbig]
    have hkept : PyReads s i { q with
        streams := (Py.stream q.streams sid.toNat).1, nextTsn := (q.nextTsn + 1) &&& 0xFFFFFFFF }
        { v with next := v.next + 1 } := { h with
      nextTsn := by
        simp only [h.nextTsn]
        exact nextTsn_succ v.next
      sendSeq := fun j => by simp only [stream_stream, h.sendSeq]
      recvSeq := fun j => by simp only [stream_stream, h.recvSeq] }
    have hchunk := dataChunk_eq same (q := { q with
        streams := (Py.stream q.streams sid.toNat).1, nextTsn := (q.nextTsn + 1) &&& 0xFFFFFFFF })
      h.assocId h.sendKey (v.msg sid msg) (by simp only [Counters.msg]; omega)
    have hclen : ((Msg.data (v.msg sid msg)).chunk c s i).length = 52 + msg.length := by
      rw [Msg.chunk, Icsp.DataMsg.chunk_length, Counters.msg]
    simp only [Counters.msg, htsn, hseq] at hchunk
    simp only [hchunk]
    by_cases hfit : msg.length ≤ Icsp.maxSendable
    · obtain ⟨frame, hsend, hframe⟩ := hkept.sendChunk (c := c) (.data (v.msg sid msg)) (by omega)
      have hsend' : Py.sendChunk { q with
          streams := (Py.stream q.streams sid.toNat).1, nextTsn := (q.nextTsn + 1) &&& 0xFFFFFFFF }
          (Icsp.DataMsg.chunk c ⟨.ofNat v.next, sid, v.sendSeq sid, msg⟩ s.assocId (s.key i)) = .ok frame := hsend
      rw [hsend']
      refine .inl ⟨frame, rfl, hframe, hfit, { hkept with sendSeq := fun j => ?_, recvSeq := fun j => ?_ }⟩
      · simp only [stream_bumpSeq, Counters.sent, bump_toNat, ← h.sendSeq]
        split
        · rfl
        · rfl
      · simp only [stream_bumpSeq, Counters.sent, ← h.recvSeq]
        split
        · rfl
        · rfl
    · have hfail : Py.sendChunk { q with
          streams := (Py.stream q.streams sid.toNat).1, nextTsn := (q.nextTsn + 1) &&& 0xFFFFFFFF }
          (Icsp.DataMsg.chunk c ⟨.ofNat v.next, sid, v.sendSeq sid, msg⟩ s.assocId (s.key i)) = _ :=
        sendChunk_error (by
          have hclen' := hclen
          simp only [Msg.chunk, Counters.msg] at hclen'
          omega)
      rw [hfail]
      exact .inr ⟨rfl, hfit, v.next + 1, le_rfl, Nat.le_succ _, hkept⟩

/-- A box of the C wrapper, opened with any key. -/
theorem openBlob_secretbox (same : SameBoxes nb c) (key key' : Arr 32) (nonce : Arr 24) {m : Bytes} (h : m.length ≤ 2048) :
    Py.openBlob nb key'.val nonce.val (ed25519Secretbox c m nonce key) =
      match nb.decrypt key' nonce (nb.encrypt key nonce m) with
      | some m' => .ok m'
      | none => .error (.valueError "secretbox: authentication failed") := by
  have hbox := c.secretbox_length m nonce key
  rw [same.encrypt, List.length_append, List.length_replicate] at hbox
  have htake : (List.replicate 16 0 ++ nb.encrypt key nonce m).take 16 = List.replicate 16 0 :=
    List.take_left' List.length_replicate
  have hdrop : (List.replicate 16 0 ++ nb.encrypt key nonce m).drop 16 = nb.encrypt key nonce m :=
    List.drop_left' List.length_replicate
  have hblob : ¬ ((List.replicate 16 0 ++ nb.encrypt key nonce m).length ≤ 16 ∨
      (List.replicate 16 0 ++ nb.encrypt key nonce m).take 16 ≠ List.replicate 16 0) := by
    rw [htake, List.length_append, List.length_replicate]
    rintro (hshort | hne)
    · omega
    · exact hne rfl
  rw [ed25519Secretbox, if_neg (by omega), same.encrypt]
  simp only [Py.openBlob, sized_arr, Py.ok_bind, if_neg hblob, hdrop]
  cases nb.decrypt key' nonce (nb.encrypt key nonce m) with
  | none => rfl
  | some m' => rfl

theorem openBlob_eq (same : SameBoxes nb c) (key : Arr 32) (nonce : Arr 24) {m : Bytes} (h : m.length ≤ 2048) :
    Py.openBlob nb key.val nonce.val (ed25519Secretbox c m nonce key) = .ok m := by
  rw [openBlob_secretbox same key key nonce h, same.decrypt]

/-- The numbers in front of a message, as Python reads them. -/
theorem dataHeader_numbers (m : Icsp.DataMsg) (b : Bytes) :
    Py.fromBytes ((Icsp.dataHeader m.tsn m.streamId m.seq ++ b).take 4) = m.tsn.toNat ∧
      Py.fromBytes (Py.cut (Icsp.dataHeader m.tsn m.streamId m.seq ++ b) 4 6) = m.streamId.toNat ∧
      Py.fromBytes (Py.cut (Icsp.dataHeader m.tsn m.streamId m.seq ++ b) 6 8) = m.seq.toNat ∧
      (Icsp.dataHeader m.tsn m.streamId m.seq ++ b).drop 8 = b := by
  have hlen : 8 ≤ (Icsp.dataHeader m.tsn m.streamId m.seq ++ b).length := by
    rw [List.length_append, Icsp.dataHeader_length]
    omega
  have htsn := fromBytes_u32 (b := Icsp.dataHeader m.tsn m.streamId m.seq ++ b) (i := 0) (by omega)
  have hsid := fromBytes_u16 (b := Icsp.dataHeader m.tsn m.streamId m.seq ++ b) (i := 4) (by omega)
  have hseq := fromBytes_u16 (b := Icsp.dataHeader m.tsn m.streamId m.seq ++ b) (i := 6) (by omega)
  rw [Icsp.dataHeader_tsn, Py.cut, List.drop_zero] at htsn
  rw [Icsp.dataHeader_stream] at hsid
  rw [Icsp.dataHeader_seq] at hseq
  exact ⟨htsn, hsid, hseq, List.drop_left' (Icsp.dataHeader_length _ _ _)⟩

/-- In step, the TSN of a message is new and becomes the top of the window. -/
theorem PyReads.replayWindow (h : PyReads s i q v) {tsn : Nat} (hlow : v.low ≤ tsn) :
    ∃ mask, Py.replayWindow q.rwTsn q.rwMask tsn = some (tsn, mask) := by
  rw [Py.replayWindow]
  by_cases hlt : q.rwTsn < tsn
  · rw [if_pos hlt]
    exact ⟨_, rfl⟩
  · obtain ⟨hzero, hmask⟩ : q.rwTsn = 0 ∧ q.rwMask = 0 := h.window.resolve_right (by omega)
    have htsn : tsn = 0 := by omega
    rw [hzero, hmask, htsn]
    exact ⟨_, rfl⟩

/-- With nothing buffered, the message with the expected number is handed on alone. -/
theorem acceptData_inOrder (q : Py.Assoc) (tsn sid seq : Nat) (data : Bytes) (hempty : q.rcvbuf = [])
    (hseq : (Py.stream q.streams sid).2.recvSeq = seq) :
    Py.acceptData q tsn sid seq data =
      ({ q with
          streams := Py.setRecv sid ((seq + 1) &&& 0xFFFF) (Py.stream q.streams sid).1
          cumTsn := max q.cumTsn tsn }, some (sid, data)) := by
  unfold Py.acceptData
  simp only [hseq, hempty, ne_eq, not_true_eq_false, if_false, List.lookup_nil, Option.getD_none, List.length_nil,
    Py.popNext, List.map_nil, List.flatten_nil, List.append_nil]

/-- A genuine message that the window admits goes on to `acceptData`. -/
theorem handleData_open (same : SameBoxes nb c) (hid : q.assocId = s.assocId.toNat)
    (hkey : q.recvKey = (s.key (!i)).val) (m : Icsp.DataMsg) (hfit : m.msg.length ≤ Icsp.maxSendable) {p : Nat × Nat}
    (hwindow : Py.replayWindow q.rwTsn q.rwMask m.tsn.toNat = some p) :
    Py.handleData nb q (Icsp.dataHeader m.tsn m.streamId m.seq ++ m.box c s.assocId (s.key (!i))) =
      ((Py.acceptData { q with rwTsn := p.1, rwMask := p.2 } m.tsn.toNat m.streamId.toNat m.seq.toNat m.msg).1,
        .ok (Py.acceptData { q with rwTsn := p.1, rwMask := p.2 } m.tsn.toNat m.streamId.toNat m.seq.toNat m.msg).2) := by
  obtain ⟨htsn, hsid, hseq, hbody⟩ := dataHeader_numbers m (m.box c s.assocId (s.key (!i)))
  obtain ⟨ctsn, csid, cseq, cbody⟩ := dataHeader_numbers m m.msg
  have hfit' : m.msg.length ≤ 1336 := hfit
  have hbox : ¬ (m.box c s.assocId (s.key (!i))).length < 32 := by
    rw [Icsp.DataMsg.box, ed25519Secretbox_length]
    omega
  have hclear : m.clear = Icsp.dataHeader m.tsn m.streamId m.seq ++ m.msg := rfl
  have hopen : (Py.dataNonce nb.toPyNaCl q.assocId m.tsn.toNat >>= fun nonce =>
      Py.openBlob nb q.recvKey nonce (m.box c s.assocId (s.key (!i)))) = .ok m.clear := by
    rw [hid, hkey, dataNonce_eq same.toSamePrimitives, Py.ok_bind]
    exact openBlob_eq same _ _ (by rw [m.clear_length]; omega)
  simp only [Py.handleData, htsn, hsid, hseq, hbody, if_neg hbox, hwindow, hopen, hclear, ctsn, csid, cseq,
    cbody, ne_eq, not_true_eq_false, or_self, if_false]

/-- A message that arrives in order. -/
theorem handleData_reads (same : SameBoxes nb c) (h : PyReads s i q v) (m : Icsp.DataMsg)
    (hseq : m.seq = v.recvSeq m.streamId) (hlow : v.low ≤ m.tsn.toNat) (hfit : m.msg.length ≤ Icsp.maxSendable) :
    ∃ q', Py.handleData nb q (Icsp.dataHeader m.tsn m.streamId m.seq ++ m.box c s.assocId (s.key (!i))) =
        (q', .ok (some (m.streamId.toNat, m.msg))) ∧ PyReads s i q' (v.received m) := by
  obtain ⟨mask, hwindow⟩ := h.replayWindow hlow
  have hexpected : (Py.stream q.streams m.streamId.toNat).2.recvSeq = m.seq.toNat := by
    rw [h.recvSeq, hseq]
  refine ⟨{ q with
    rwTsn := m.tsn.toNat, rwMask := mask,
    streams := Py.setRecv m.streamId.toNat ((m.seq.toNat + 1) &&& 0xFFFF) (Py.stream q.streams m.streamId.toNat).1
    cumTsn := max q.cumTsn m.tsn.toNat }, ?_, ?_⟩
  · rw [handleData_open same h.assocId h.recvKey m hfit hwindow,
      acceptData_inOrder { q with rwTsn := m.tsn.toNat, rwMask := mask } _ _ _ _ h.rcvbuf hexpected]
  · refine { h with
      sendSeq := fun j => ?_
      recvSeq := fun j => ?_
      cumTsn := Nat.max_lt.mpr ⟨h.cumTsn, m.tsn.toNat_lt⟩
      window := .inr (Nat.lt_succ_self _) }
    · simp only [stream_setRecv, Counters.received, ← h.sendSeq]
      split
      · rfl
      · rfl
    · simp only [stream_setRecv, Counters.received, bump_toNat, ← h.recvSeq]
      split
      · rename_i hj
        have hj' : j = m.streamId := UInt16.toNat_inj.mp hj
        rw [hseq, hj', ← h.recvSeq]
      · rfl

/-- A payload of one chunk. -/
theorem chunkBodies_single (type : UInt8) {body : Bytes} (fuel : Nat) (h : body.length < 2 ^ 16) :
    Py.chunkBodies (fuel + 2) (Icsp.icspChunkPut type body.length ++ body) = [(type, body)] := by
  have hput : (Icsp.icspChunkPut type body.length).length = 4 := rfl
  have hlen : (Icsp.icspChunkPut type body.length ++ body).length = 4 + body.length := by
    rw [List.length_append, hput]
  have hclen : Py.fromBytes (Py.cut (Icsp.icspChunkPut type body.length ++ body) 2 4) = body.length := by
    have hword := Icsp.chunkPut_len type body.length body h
    rw [fromBytes_u16 (i := 2) (by omega), get16_eq]
    dsimp only [Nat.reduceAdd]
    rw [hword, UInt16.toNat_ofNat', Nat.mod_eq_of_lt h]
  have hbody : Py.cut (Icsp.icspChunkPut type body.length ++ body) 4 (4 + body.length) = body := by
    have hcut := cut_append (p := Icsp.icspChunkPut type body.length) (b := body) (r := []) hput rfl
    rwa [List.append_nil] at hcut
  have hrest : (Icsp.icspChunkPut type body.length ++ body).drop (4 + body.length) = [] :=
    List.drop_eq_nil_of_le (Nat.le_of_eq hlen)
  have hlong : ¬ (Icsp.icspChunkPut type body.length ++ body).length < 4 := by omega
  simp only [Py.chunkBodies, Py.icspChunkHdr, if_neg hlong, hclen, hbody, hrest, lt_irrefl, if_false, List.length_nil,
    Nat.zero_lt_succ, if_true]
  rfl

theorem PyReads.heard (h : PyReads s i q v) (io : Py.Io) : PyReads s i (pyHeard io q (s.mac (!i)) (s.addr (!i))) v :=
  { h with
    dstAddr := s.addr_lt (!i)
    peerMac := by
      intro m hm
      simp only [pyHeard] at hm
      split at hm
      · rw [← Option.some.inj hm]
        exact (s.mac (!i)).length
      · exact h.peerMac m hm }

/-- A frame of the other end: its chunk is handled, and DATA is answered. -/
theorem poll_frames (hq : q.mac = (s.mac i).val) (io : Py.Io) {m : Msg} {frame : Bytes} (hframe : Frames c s (!i) m frame)
    {type : UInt8} {body : Bytes} (hchunk : m.chunk c s (!i) = Icsp.icspChunkPut type body.length ++ body)
    (hbody : body.length ≤ 1384) {q' : Py.Assoc} {events : List Py.Event}
    (hhandle : Py.handleChunk nb io (pyHeard io q (s.mac (!i)) (s.addr (!i))) type body = (q', [], .ok events))
    (hkey : q'.sendKey ≠ []) :
    (type ≠ Py.chunkData → Py.poll nb io q frame = (q', [], .ok events)) ∧
      (type = Py.chunkData → ∀ sack, Py.sendSack q' = .ok sack → Py.poll nb io q frame = (q', [sack], .ok events)) := by
  obtain ⟨dst, sp, dp, hcar⟩ := hframe
  have hput : (Icsp.icspChunkPut type body.length).length = 4 := rfl
  have hlen : (m.chunk c s (!i)).length = 4 + body.length := by rw [hchunk, List.length_append, hput]
  have hmac : (s.mac (!i)).val ≠ q.mac := by
    rw [hq]
    exact fun heq => s.mac_not i (Subtype.ext heq)
  have hrecv := recvPayload_carries io q hcar (s.addr_lt (!i)) (by omega) (by omega) (.inl hmac)
  have hdrop : (packet sp dp s.assocId (m.chunk c s (!i))).drop 12 = m.chunk c s (!i) := by
    have h12 := Icsp.assocPkt_drop { Icsp.IcspAssoc.zero with srcPort := sp, dstPort := dp, assocId := s.assocId }
      (m.chunk c s (!i)) []
    rwa [List.append_nil, List.append_nil] at h12
  have hbodies : Py.chunkBodies (packet sp dp s.assocId (m.chunk c s (!i))).length
      ((packet sp dp s.assocId (m.chunk c s (!i))).drop 12) = [(type, body)] := by
    rw [hdrop, packet_length, hlen, hchunk]
    have hfuel : 12 + (4 + body.length) = (14 + body.length) + 2 := by omega
    rw [hfuel]
    exact chunkBodies_single type _ (by omega)
  have hchunks : Py.handleChunks nb io [(type, body)] (pyHeard io q (s.mac (!i)) (s.addr (!i))) =
      (q', [], .ok events) := by
    simp only [Py.handleChunks, hhandle, Except.map, List.append_nil]
  constructor
  · intro htype
    simp only [Py.poll, hrecv, Py.handle, hbodies, hchunks, List.any_cons, List.any_nil, decide_eq_false htype,
      Bool.or_self, Bool.false_eq_true, false_and, if_false]
  · intro htype sack hsack
    simp only [Py.poll, hrecv, Py.handle, hbodies, hchunks, List.any_cons, List.any_nil, decide_eq_true htype,
      Bool.or_false, ne_eq, hkey, not_false_eq_true, and_self, if_true, hsack, List.nil_append]

/-- A reset that finds its counter clear changes no number. -/
theorem setRecv_clear (h : PyReads s i q v) (sid : UInt16) (hclear : (Py.stream q.streams sid.toNat).2.recvSeq = 0) :
    PyReads s i { q with streams := Py.setRecv sid.toNat 0 (Py.stream q.streams sid.toNat).1 } v := by
  refine { h with sendSeq := fun j => ?_, recvSeq := fun j => ?_ }
  · simp only [stream_setRecv, ← h.sendSeq]
    split
    · rfl
    · rfl
  · simp only [stream_setRecv, ← h.recvSeq]
    split
    · rename_i hj
      rw [hj, hclear]
    · rfl

theorem handleChunk_reset (nb : Py.PyBox) (io : Py.Io) (q : Py.Assoc) (sid : UInt16) (mode : UInt8) :
    Py.handleChunk nb io q Py.chunkStreamReset (put16 sid ++ [mode]) =
      ({ q with streams := Py.setRecv sid.toNat 0 (Py.stream q.streams sid.toNat).1 }, [],
        .ok [.streamReset sid.toNat]) := by
  have hlen : (put16 sid ++ [mode]).length = 3 := rfl
  have hsid : Py.fromBytes (Py.cut (put16 sid ++ [mode]) 0 2) = sid.toNat := by
    rw [fromBytes_u16 (i := 0) (by omega), get16_put16]
  rw [Py.handleChunk, if_neg (by decide), if_neg (fun hs => absurd hs.1 (by decide)), if_neg (by decide),
    if_neg (by decide), if_pos ⟨rfl, hlen.ge⟩, hsid]

/-- A SACK only marks what is queued. -/
theorem handleChunk_sack (nb : Py.PyBox) (io : Py.Io) (q : Py.Assoc) (cum : UInt32) :
    ∃ sendq cum', Py.handleChunk nb io q Py.chunkSack (put32 cum) =
      ({ q with sendq := sendq }, [], .ok [.sack cum']) := by
  have hlen : (put32 cum).length = 4 := rfl
  rw [Py.handleChunk, if_neg (by decide), if_pos ⟨rfl, hlen.ge⟩]
  exact ⟨_, _, rfl⟩

/-- What the Python end does, in terms of counters. -/
theorem pyEnd_role (same : SameBoxes nb c) (e : Circumstances) (s : Session) (i : Bool) :
    Role c (pyEnd nb e) s i (fun _ => True) (fun _ => True) fun st v => PyReads s i st.2 v where
  counters st v h sid := ⟨h.sendSeq sid, h.recvSeq sid⟩
  data st v sid msg h _ _ := by
    rcases dataSend_reads same.toSamePrimitives h (e.py st.1) sid msg with hsent | ⟨hout, hlong, hst⟩
    · exact .inl hsent
    · exact .inr ⟨hout, fun hgo => hlong hgo.1, hst⟩
  reset st v sid mode h := by
    obtain ⟨frame, hsend, hframe⟩ := streamReset_frames (c := c) h sid mode
    refine ⟨frame, ?_, hframe, h⟩
    simp only [pyEnd, hsend]
    rfl
  recvData st v m frame h hframe hseq hlow hfit _ _ := by
    have hfit' : m.msg.length ≤ 1336 := hfit
    have hheard := h.heard (e.py st.1)
    obtain ⟨q', hdata, hreads⟩ := handleData_reads same hheard m hseq hlow hfit
    obtain ⟨sack, cum, hsack, hsacked⟩ := sendSack_frames (c := c) hreads
    have hbody : (Icsp.dataHeader m.tsn m.streamId m.seq ++ m.box c s.assocId (s.key (!i))).length =
        48 + m.msg.length := by
      rw [List.length_append, Icsp.dataHeader_length, Icsp.DataMsg.box, ed25519Secretbox_length, m.clear_length]
      omega
    have hchunk : (Msg.data m).chunk c s (!i) =
        Icsp.icspChunkPut Py.chunkData (Icsp.dataHeader m.tsn m.streamId m.seq ++ m.box c s.assocId (s.key (!i))).length ++
          (Icsp.dataHeader m.tsn m.streamId m.seq ++ m.box c s.assocId (s.key (!i))) := by
      rw [hbody]
      rfl
    have hpoll := (poll_frames h.mac (e.py st.1) hframe hchunk (by omega)
      (by rw [Py.handleChunk, if_pos rfl, hdata]) hreads.sendKey_ne).2 rfl sack hsack
    simp only [pyEnd, hpoll]
    exact ⟨hreads, ⟨[cum], .cons hsacked .nil⟩, fun _ => rfl⟩
  recvReset st v sid mode frame h hframe hclear := by
    have hheard := h.heard (e.py st.1)
    have hreads := setRecv_clear hheard sid (of_decide_eq_true hclear)
    have hpoll := (poll_frames h.mac (e.py st.1) hframe rfl (Nat.le_of_ble_eq_true rfl)
      (handleChunk_reset nb (e.py st.1) _ sid mode) hreads.sendKey_ne).1 (by decide)
    simp only [pyEnd, hpoll]
    exact ⟨hreads, trivial⟩
  recvSack st v cum frame h hframe := by
    have hheard := h.heard (e.py st.1)
    obtain ⟨sendq, cum', hhandle⟩ :=
      handleChunk_sack nb (e.py st.1) (pyHeard (e.py st.1) st.2 (s.mac (!i)) (s.addr (!i))) cum
    have hreads : PyReads s i { pyHeard (e.py st.1) st.2 (s.mac (!i)) (s.addr (!i)) with sendq := sendq } v :=
      { hheard with }
    have hpoll := (poll_frames h.mac (e.py st.1) hframe rfl (Nat.le_of_ble_eq_true rfl) hhandle hreads.sendKey_ne).1
      (by decide)
    simp only [pyEnd, hpoll]
    exact ⟨hreads, trivial⟩

end Interop
