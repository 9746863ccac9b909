import BaitNet.Data

/-!
# What the data path can do

One lemma per operation of `icsp_data.c`: streams are read through their
expected sequence numbers, the replay window refines the abstract one, a chunk
has one of a handful of outcomes, and a packet made by the sender is a single
DATA chunk that opens at the peer.
-/
namespace Icsp

open Wire Link Crypto

/-- `next_recv_seq` of stream `id`; a stream without a slot would start at 0. -/
def recvSeq (a : IcspAssoc) (id : UInt16) : UInt16 := ((findStream a id).map (·.nextRecvSeq)).getD 0

/-- `next_send_seq` of stream `id`; a stream without a slot would start at 0. -/
def sendSeq (a : IcspAssoc) (id : UInt16) : UInt16 := ((findStream a id).map (·.nextSendSeq)).getD 0

theorem find_updStream (id j : UInt16) (f : IcspStream → IcspStream) (hf : ∀ s, (f s).id = s.id)
    (ss : List IcspStream) :
    (updStream id f ss).find? (fun s => s.id = j) =
      if j = id then (ss.find? (fun s => s.id = id)).map f else ss.find? (fun s => s.id = j) := by
  induction ss with
  | nil => simp [updStream]
  | cons s ss ih =>
    by_cases hs : s.id = id
    · by_cases hj : j = id
      · subst hj; simp [updStream, hs, hf]
      · have hne : ¬ id = j := fun h => hj h.symm
        simp [updStream, hs, hf, hj, hne]
    · by_cases hj : j = id
      · subst hj; simpa [updStream, hs] using ih
      · simp only [updStream, if_neg hs, List.find?_cons, ih, if_neg hj]

/-- Taking a slot for a stream changes no sequence number of any stream. -/
theorem getStream_spec {a a' : IcspAssoc} {id : UInt16} {o : Option IcspStream}
    (h : getStream a id = (a', o)) :
    (∃ ss, a' = { a with streams := ss }) ∧
      (∀ j, recvSeq a' j = recvSeq a j) ∧ (∀ j, sendSeq a' j = sendSeq a j) ∧
      (o = none → a' = a) ∧ ∀ s, o = some s → s.id = id ∧ s.nextRecvSeq = recvSeq a id ∧ s.nextSendSeq = sendSeq a id ∧
        findStream a' id = some s := by
  unfold getStream at h
  split at h
  · rename_i s hs
    obtain ⟨rfl, rfl⟩ := Prod.mk.inj h
    refine ⟨⟨_, rfl⟩, fun _ => rfl, fun _ => rfl, fun ho => (nomatch ho), ?_⟩
    rintro t ht
    obtain rfl := Option.some.inj ht
    refine ⟨?_, by simp [recvSeq, hs], by simp [sendSeq, hs], hs⟩
    simpa using List.find?_some hs
  · rename_i hs
    split at h
    · obtain ⟨rfl, rfl⟩ := Prod.mk.inj h
      exact ⟨⟨_, rfl⟩, fun _ => rfl, fun _ => rfl, fun _ => rfl, fun _ ht => nomatch ht⟩
    · obtain ⟨rfl, rfl⟩ := Prod.mk.inj h
      have happ : ∀ j, findStream { a with streams := a.streams ++ [⟨id, 0, 0⟩] } j =
          (findStream a j).or (if id = j then some ⟨id, 0, 0⟩ else none) := by
        intro j
        simp only [findStream, List.find?_append, List.find?_singleton, decide_eq_true_eq]
      refine ⟨⟨_, rfl⟩, ?_, ?_, fun ho => (nomatch ho), ?_⟩
      · intro j
        simp only [recvSeq, happ]
        cases findStream a j <;> by_cases hj : id = j <;> simp [hj]
      · intro j
        simp only [sendSeq, happ]
        cases findStream a j <;> by_cases hj : id = j <;> simp [hj]
      · rintro t ht
        obtain rfl := Option.some.inj ht
        exact ⟨rfl, by simp [recvSeq, hs], by simp [sendSeq, hs], by simp [happ, hs]⟩

theorem findStream_updStream (a : IcspAssoc) (id j : UInt16) (f : IcspStream → IcspStream)
    (hf : ∀ s, (f s).id = s.id) :
    findStream { a with streams := updStream id f a.streams } j =
      if j = id then (findStream a id).map f else findStream a j :=
  find_updStream id j f hf a.streams

theorem tsn_sub_toNat {s t : UInt32} (h : s.toNat ≤ t.toNat) : (t - s).toNat = t.toNat - s.toNat :=
  UInt32.toNat_sub_of_le _ _ (UInt32.le_iff_toNat_le.mpr h)

/-- A window update as a pair of natural numbers. -/
def windowNat (p : UInt32 × UInt32) : Nat × Nat := (p.1.toNat, p.2.toNat)

theorem replayWindow_above (rwTsn rwMask tsn : UInt32) (h : rwTsn < tsn) :
    (replayWindow rwTsn rwMask tsn).map windowNat =
      Window.offer 32 rwTsn.toNat rwMask.toNat tsn.toNat := by
  have hlt : rwTsn.toNat < tsn.toNat := UInt32.lt_iff_toNat_lt.mp h
  have hsub := tsn_sub_toNat (Nat.le_of_lt hlt)
  have hiff : tsn - rwTsn < 32 ↔ tsn.toNat - rwTsn.toNat < 32 := by
    rw [UInt32.lt_iff_toNat_lt, hsub]
    rfl
  simp only [replayWindow, Window.offer, if_pos h, if_pos hlt, hiff]
  split
  · rename_i hs
    simp only [Option.map_some, windowNat, UInt32.toNat_or, UInt32.toNat_shiftLeft, hsub,
      Nat.mod_eq_of_lt hs, UInt32.toNat_one]
    rw [Nat.or_mod_two_pow, Nat.mod_eq_of_lt (show 1 < 2 ^ 32 by decide)]
  · simp only [Option.map_some, windowNat, UInt32.toNat_one]

theorem replayWindow_within (rwTsn rwMask tsn : UInt32) (h : ¬ rwTsn < tsn) :
    (replayWindow rwTsn rwMask tsn).map windowNat =
      Window.offer 32 rwTsn.toNat rwMask.toNat tsn.toNat := by
  have hle : tsn.toNat ≤ rwTsn.toNat := Nat.le_of_not_lt fun hn => h (UInt32.lt_iff_toNat_lt.mpr hn)
  have hsub := tsn_sub_toNat hle
  have hiff : 32 ≤ rwTsn - tsn ↔ 32 ≤ rwTsn.toNat - tsn.toNat := by
    rw [UInt32.le_iff_toNat_le, hsub]
    rfl
  simp only [replayWindow, Window.offer, if_neg h, if_neg (Nat.not_lt.mpr hle), hiff]
  by_cases hf : 32 ≤ rwTsn.toNat - tsn.toNat
  · rw [if_pos hf, if_pos hf, Option.map_none]
  · have hmod : (rwTsn.toNat - tsn.toNat) % 32 = rwTsn.toNat - tsn.toNat := Nat.mod_eq_of_lt (by omega)
    have hbit : (rwMask >>> (rwTsn - tsn) &&& 1 = 1) ↔
        rwMask.toNat.testBit (rwTsn.toNat - tsn.toNat) = true := by
      rw [← UInt32.toNat_inj, UInt32.toNat_and, UInt32.toNat_shiftRight, hsub, hmod, Nat.testBit,
        Nat.and_comm]
      simp
    have hpow : 2 ^ (rwTsn.toNat - tsn.toNat) < 2 ^ 32 := Nat.pow_lt_pow_right (by decide) (by omega)
    simp only [if_neg hf, hbit]
    split
    · rfl
    · simp only [Option.map_some, windowNat, UInt32.toNat_or, UInt32.toNat_shiftLeft, hsub, hmod,
        UInt32.toNat_one, Nat.one_shiftLeft, Nat.mod_eq_of_lt hpow]

/-- The C window on 32-bit words is the abstract window of width 32. -/
theorem replayWindow_offer (rwTsn rwMask tsn : UInt32) :
    (replayWindow rwTsn rwMask tsn).map windowNat =
      Window.offer 32 rwTsn.toNat rwMask.toNat tsn.toNat := by
  by_cases h : rwTsn < tsn
  · exact replayWindow_above rwTsn rwMask tsn h
  · exact replayWindow_within rwTsn rwMask tsn h

/-- The window drops `tsn`. -/
def TsnSeen (a : IcspAssoc) (tsn : UInt32) : Prop :=
  Window.Seen 32 a.rwTsn.toNat a.rwMask.toNat tsn.toNat

instance (a : IcspAssoc) (tsn : UInt32) : Decidable (TsnSeen a tsn) :=
  inferInstanceAs (Decidable (Window.Seen _ _ _ _))

theorem replayWindow_none_iff (a : IcspAssoc) (tsn : UInt32) :
    replayWindow a.rwTsn a.rwMask tsn = none ↔ TsnSeen a tsn := by
  rw [TsnSeen, ← Window.offer_eq_none_iff, ← replayWindow_offer, Option.map_eq_none_iff]

/-- An accepted TSN and everything dropped so far is dropped from now on. -/
theorem replayWindow_some {a : IcspAssoc} {tsn rwTsn rwMask : UInt32}
    (h : replayWindow a.rwTsn a.rwMask tsn = some (rwTsn, rwMask)) :
    ¬ TsnSeen a tsn ∧ TsnSeen { a with rwTsn, rwMask } tsn ∧
      ∀ u, TsnSeen a u → TsnSeen { a with rwTsn, rwMask } u := by
  have ho : Window.offer 32 a.rwTsn.toNat a.rwMask.toNat tsn.toNat =
      some (rwTsn.toNat, rwMask.toNat) := by
    rw [← replayWindow_offer, h, Option.map_some, windowNat]
  have hseen := Window.seen_offer (Nat.zero_lt_succ 31) ho
  refine ⟨?_, (hseen _).mpr (.inl rfl), fun u hu => (hseen _).mpr (.inr (.inl hu))⟩
  rw [← replayWindow_none_iff, h]
  simp

/-- The highest TSN never goes back. -/
theorem replayWindow_top {a : IcspAssoc} {tsn : UInt32} {w : UInt32 × UInt32}
    (h : replayWindow a.rwTsn a.rwMask tsn = some w) :
    w.1.toNat = max a.rwTsn.toNat tsn.toNat := by
  have ho : Window.offer 32 a.rwTsn.toNat a.rwMask.toNat tsn.toNat = some (w.1.toNat, w.2.toNat) := by
    rw [← replayWindow_offer, h, Option.map_some, windowNat]
  exact Window.offer_top ho

section

variable (c : TweetNaCl)

theorem openData_congr {a b : IcspAssoc} (ch : Chunk) (hid : a.assocId = b.assocId)
    (hkey : a.recvKey = b.recvKey) : openData c a ch = openData c b ch := by
  simp only [openData, hid, hkey]

/-- A DATA chunk: the window first, then the AEAD, then the plaintext. -/
theorem handleChunk_data (a : IcspAssoc) (ch : Chunk) (r : DataRet)
    (hd : ch.type = chunkData ∧ a.hasKey) :
    handleChunk c a ch r = match replayWindow a.rwTsn a.rwMask (get32 ch.cd 0) with
      | none => (a, none)
      | some (rwTsn, rwMask) =>
        match openData c a ch with
        | none => ({ a with rwTsn, rwMask }, none)
        | some clear => acceptData { a with rwTsn, rwMask } ch clear r := by
  rw [handleChunk, if_pos hd]
  cases replayWindow a.rwTsn a.rwMask (get32 ch.cd 0) with
  | none => rfl
  | some w =>
    obtain ⟨rwTsn, rwMask⟩ := w
    have hopen : openData c { a with rwTsn, rwMask } ch = openData c a ch :=
      openData_congr c ch rfl rfl
    cases hbox : openData c a ch with
    | none => simp only [hopen.trans hbox]
    | some clear => simp only [hopen.trans hbox]

/-- Any other chunk touches `sendq` at most. -/
theorem handleChunk_other (a : IcspAssoc) (ch : Chunk) (r : DataRet)
    (hd : ¬ (ch.type = chunkData ∧ a.hasKey)) :
    ∃ q, handleChunk c a ch r = ({ a with sendq := q }, none) ∧
      (q = a.sendq ∨ (ch.type = chunkSack ∧ q = a.sendq.map
        (fun e => if e.tsn ≤ get32 ch.cd 0 then { e with acked := true } else e))) := by
  rw [handleChunk, if_neg hd]
  split
  · rename_i hs
    exact ⟨_, rfl, .inr ⟨hs, rfl⟩⟩
  · exact ⟨a.sendq, rfl, .inl rfl⟩

theorem handleChunks_single (r : DataRet) (ch : Chunk) (a : IcspAssoc) :
    handleChunks c r [ch] a = ((handleChunk c a ch r).1, (handleChunk c a ch r).2.getD r) := by
  simp only [handleChunks]
  obtain ⟨a', o⟩ := handleChunk c a ch r
  cases o with
  | none => rfl
  | some r' => rfl

/-- A DATA chunk whose TSN the window refuses. -/
theorem handleChunk_seen (a : IcspAssoc) (ch : Chunk) (r : DataRet)
    (hd : ch.type = chunkData ∧ a.hasKey) (hs : TsnSeen a (get32 ch.cd 0)) :
    handleChunk c a ch r = (a, none) := by
  rw [handleChunk_data c a ch r hd, (replayWindow_none_iff a _).mpr hs]

/-- A DATA chunk whose TSN is new, by the outcome of the AEAD. -/
theorem handleChunk_fresh (a : IcspAssoc) (ch : Chunk) (r : DataRet)
    (hd : ch.type = chunkData ∧ a.hasKey) (w : UInt32 × UInt32)
    (hw : replayWindow a.rwTsn a.rwMask (get32 ch.cd 0) = some w) :
    (openData c a ch = none → handleChunk c a ch r = ({ a with rwTsn := w.1, rwMask := w.2 }, none)) ∧
    ∀ clear, openData c a ch = some clear →
      handleChunk c a ch r = acceptData { a with rwTsn := w.1, rwMask := w.2 } ch clear r := by
  rw [handleChunk_data c a ch r hd, hw]
  constructor
  · intro ho
    rw [ho]
  · intro clear ho
    rw [ho]

end

/-- The sealed header equals the one in the clear. -/
def HeaderMatches (ch : Chunk) (clear : Bytes) : Prop :=
  get32 clear 0 = get32 ch.cd 0 ∧ get16 clear 4 = get16 ch.cd 4 ∧ get16 clear 6 = get16 ch.cd 6

/-- The outcomes of an authentic chunk: a header that was tampered with, in-order
delivery, a stream beyond the table, or a message out of order. -/
theorem acceptData_cases (a : IcspAssoc) (ch : Chunk) (clear : Bytes) (r : DataRet) :
    (¬ HeaderMatches ch clear ∧ acceptData a ch clear r = (a, some { r with ret := -1 })) ∨
    (HeaderMatches ch clear ∧ get16 ch.cd 6 = recvSeq a (get16 ch.cd 4) ∧
      ∃ ss, acceptData a ch clear r =
          ({ a with streams := ss, cumTsn := cumAfter a (get32 ch.cd 0) },
            some ⟨(min r.outlen (msgLen ch) : Nat), slice clear 8 (min r.outlen (msgLen ch)),
              min r.outlen (msgLen ch), get16 ch.cd 4⟩) ∧
        (∀ j, recvSeq { a with streams := ss } j =
          if j = get16 ch.cd 4 then recvSeq a j + 1 else recvSeq a j) ∧
        ∀ j, sendSeq { a with streams := ss } j = sendSeq a j) ∨
    (HeaderMatches ch clear ∧ getStream a (get16 ch.cd 4) = (a, none) ∧
      acceptData a ch clear r = ({ a with cumTsn := cumAfter a (get32 ch.cd 0) }, none)) ∨
    (HeaderMatches ch clear ∧ get16 ch.cd 6 ≠ recvSeq a (get16 ch.cd 4) ∧
      ∃ ss, acceptData a ch clear r =
          ({ a with
              streams := ss
              cumTsn := cumAfter a (get32 ch.cd 0)
              rcvq := if a.rcvq.length < icspRcvq then
                a.rcvq ++ [⟨get32 ch.cd 0, get16 ch.cd 4, get16 ch.cd 6,
                  slice clear 8 (UInt16.ofNat (msgLen ch)).toNat, .ofNat (msgLen ch), true⟩]
              else a.rcvq }, none) ∧
        (∀ j, recvSeq { a with streams := ss } j = recvSeq a j) ∧
        ∀ j, sendSeq { a with streams := ss } j = sendSeq a j) := by
  by_cases hm : HeaderMatches ch clear
  · have hm' : ¬ (get32 clear 0 ≠ get32 ch.cd 0 ∨ get16 clear 4 ≠ get16 ch.cd 4 ∨
        get16 clear 6 ≠ get16 ch.cd 6) := by
      simpa [HeaderMatches, not_or] using hm
    cases hg : getStream a (get16 ch.cd 4) with
    | mk a1 o =>
      obtain ⟨⟨ss, hss⟩, hrecv, hsend, hnone, hslot⟩ := getStream_spec hg
      cases o with
      | none =>
        obtain rfl := hnone rfl
        refine .inr (.inr (.inl ⟨hm, rfl, ?_⟩))
        simp only [acceptData, if_neg hm', hg]
      | some s =>
        subst hss
        obtain ⟨hid, hnext, -, hfind⟩ := hslot s rfl
        by_cases hseq : get16 ch.cd 6 = s.nextRecvSeq
        · refine .inr (.inl ⟨hm, hseq.trans hnext, ?_⟩)
          simp only [acceptData, if_neg hm', hg, if_pos hseq]
          refine ⟨updStream (get16 ch.cd 4) (fun s => { s with nextRecvSeq := s.nextRecvSeq + 1 }) ss,
            ?_, ?_, ?_⟩
          · have hmin : (if r.outlen < msgLen ch then r.outlen else msgLen ch) =
                min r.outlen (msgLen ch) := by
              split <;> omega
            simp only [← hmin]
          · intro j
            have hf := findStream_updStream { a with streams := ss } (get16 ch.cd 4) j
              (fun s => { s with nextRecvSeq := s.nextRecvSeq + 1 }) (fun _ => rfl)
            rw [← hrecv j]
            simp only [recvSeq, hf]
            split
            · rename_i hj
              subst hj
              simp [hfind]
            · rfl
          · intro j
            have hf := findStream_updStream { a with streams := ss } (get16 ch.cd 4) j
              (fun s => { s with nextRecvSeq := s.nextRecvSeq + 1 }) (fun _ => rfl)
            rw [← hsend j]
            simp only [sendSeq, hf]
            split
            · rename_i hj
              subst hj
              simp [hfind]
            · rfl
        · refine .inr (.inr (.inr ⟨hm, fun h => hseq (h.trans hnext.symm), ss, ?_, hrecv, hsend⟩))
          simp only [acceptData, if_neg hm', hg, if_neg hseq]
  · refine .inl ⟨hm, ?_⟩
    have hm' : get32 clear 0 ≠ get32 ch.cd 0 ∨ get16 clear 4 ≠ get16 ch.cd 4 ∨
        get16 clear 6 ≠ get16 ch.cd 6 := by
      simpa only [HeaderMatches, not_and_or] using hm
    simp only [acceptData, if_pos hm']

/-- `b` differs from `a` in its data plane at most, and there neither in the next
TSN nor in a send sequence number. -/
structure RxKeeps (a b : IcspAssoc) : Prop where
  dataPlane : ∃ d : DataPlane, b = { a with toDataPlane := d }
  nextTsn : b.nextTsn = a.nextTsn
  sendSeq : ∀ j, sendSeq b j = sendSeq a j

theorem RxKeeps.refl (a : IcspAssoc) : RxKeeps a a := ⟨⟨a.toDataPlane, rfl⟩, rfl, fun _ => rfl⟩

theorem RxKeeps.trans {a b d : IcspAssoc} (h₁ : RxKeeps a b) (h₂ : RxKeeps b d) : RxKeeps a d := by
  obtain ⟨d₁, rfl⟩ := h₁.dataPlane
  obtain ⟨d₂, rfl⟩ := h₂.dataPlane
  exact ⟨⟨d₂, rfl⟩, h₂.nextTsn.trans h₁.nextTsn, fun j => (h₂.sendSeq j).trans (h₁.sendSeq j)⟩

theorem acceptData_keeps (a : IcspAssoc) (ch : Chunk) (clear : Bytes) (r : DataRet) :
    RxKeeps a (acceptData a ch clear r).1 := by
  rcases acceptData_cases a ch clear r with ⟨-, h⟩ | ⟨-, -, ss, h, -, hs⟩ | ⟨-, -, h⟩ | ⟨-, -, ss, h, -, hs⟩
  · rw [h]
    exact RxKeeps.refl a
  · rw [h]
    exact ⟨⟨_, rfl⟩, rfl, hs⟩
  · rw [h]
    exact ⟨⟨_, rfl⟩, rfl, fun _ => rfl⟩
  · rw [h]
    exact ⟨⟨_, rfl⟩, rfl, hs⟩

section

variable (c : TweetNaCl)

theorem handleChunk_keeps (a : IcspAssoc) (ch : Chunk) (r : DataRet) :
    RxKeeps a (handleChunk c a ch r).1 := by
  by_cases hd : ch.type = chunkData ∧ a.hasKey
  · rw [handleChunk_data c a ch r hd]
    cases replayWindow a.rwTsn a.rwMask (get32 ch.cd 0) with
    | none => exact RxKeeps.refl a
    | some w =>
      have hw : RxKeeps a { a with rwTsn := w.1, rwMask := w.2 } := ⟨⟨_, rfl⟩, rfl, fun _ => rfl⟩
      cases openData c a ch with
      | none => exact hw
      | some clear => exact hw.trans (acceptData_keeps _ ch clear r)
  · obtain ⟨q, h, -⟩ := handleChunk_other c a ch r hd
    rw [h]
    exact ⟨⟨_, rfl⟩, rfl, fun _ => rfl⟩

theorem handleChunks_keeps (r : DataRet) (chs : List Chunk) (a : IcspAssoc) :
    RxKeeps a (handleChunks c r chs a).1 := by
  induction chs generalizing a with
  | nil => exact RxKeeps.refl a
  | cons ch chs ih =>
    have hk := handleChunk_keeps c a ch r
    simp only [handleChunks]
    revert hk
    obtain ⟨a', o⟩ := handleChunk c a ch r
    intro hk
    cases o with
    | none => exact RxKeeps.trans hk (ih a')
    | some r' => exact hk

/-- The frame rule of `icsp_data_handle`, for any payload. -/
theorem handleCall_keeps (a : IcspAssoc) (p : RxCall) : RxKeeps a (handleCall c a p).1 := by
  rw [handleCall, icspDataHandle]
  split
  · exact RxKeeps.refl a
  · exact handleChunks_keeps c _ _ a

/-- The cumulative TSNs of the SACK chunks among `chs`. -/
def sackCums (chs : List Chunk) : List UInt32 :=
  (chs.filter (fun ch => ch.type = chunkSack)).map (fun ch => get32 ch.cd 0)

theorem sackCums_cons (ch : Chunk) (chs : List Chunk) :
    sackCums (ch :: chs) = sackCums [ch] ++ sackCums chs := by
  rw [sackCums, ← List.singleton_append, List.filter_append, List.map_append]
  rfl

/-- A queue entry after SACKs with these cumulative TSNs. -/
def ackBy (cums : List UInt32) (e : SendEntry) : SendEntry :=
  { e with acked := e.acked || cums.any (fun cum => e.tsn ≤ cum) }

theorem ackBy_nil (e : SendEntry) : ackBy [] e = e := by
  rw [ackBy, List.any_nil, Bool.or_false]

theorem ackBy_one (cum : UInt32) (e : SendEntry) :
    (if e.tsn ≤ cum then { e with acked := true } else e) = ackBy [cum] e := by
  by_cases h : e.tsn ≤ cum
  · simp [ackBy, h]
  · simp [ackBy, h]

theorem ackBy_append (cums cums' : List UInt32) (e : SendEntry) :
    ackBy cums' (ackBy cums e) = ackBy (cums ++ cums') e := by
  rw [ackBy, ackBy, ackBy, List.any_append, Bool.or_assoc]

theorem acceptData_sendq_eq (a : IcspAssoc) (ch : Chunk) (clear : Bytes) (r : DataRet) :
    (acceptData a ch clear r).1.sendq = a.sendq := by
  rcases acceptData_cases a ch clear r with ⟨-, h⟩ | ⟨-, -, ss, h, -, -⟩ | ⟨-, -, h⟩ | ⟨-, -, ss, h, -, -⟩ <;>
    rw [h]

theorem handleChunk_acks (a : IcspAssoc) (ch : Chunk) (r : DataRet) :
    ∃ cums, (∀ cum ∈ cums, cum ∈ sackCums [ch]) ∧
      (handleChunk c a ch r).1.sendq = a.sendq.map (ackBy cums) := by
  have hnone : a.sendq = a.sendq.map (ackBy []) := by
    rw [funext ackBy_nil, List.map_id']
  by_cases hd : ch.type = chunkData ∧ a.hasKey
  · refine ⟨[], fun _ hc => (nomatch hc), ?_⟩
    rw [← hnone, handleChunk_data c a ch r hd]
    cases replayWindow a.rwTsn a.rwMask (get32 ch.cd 0) with
    | none => rfl
    | some w =>
      cases openData c a ch with
      | none => rfl
      | some clear => exact acceptData_sendq_eq _ ch clear r
  · obtain ⟨q, h, hq⟩ := handleChunk_other c a ch r hd
    rw [h]
    rcases hq with rfl | ⟨hs, rfl⟩
    · exact ⟨[], fun _ hc => (nomatch hc), hnone⟩
    · refine ⟨[get32 ch.cd 0], fun cum hc => ?_, ?_⟩
      · rw [List.mem_singleton] at hc
        simp [sackCums, hs, hc]
      · exact List.map_congr_left fun e _ => ackBy_one _ e

theorem handleChunks_acks (r : DataRet) (chs : List Chunk) (a : IcspAssoc) :
    ∃ cums, (∀ cum ∈ cums, cum ∈ sackCums chs) ∧
      (handleChunks c r chs a).1.sendq = a.sendq.map (ackBy cums) := by
  induction chs generalizing a with
  | nil =>
    refine ⟨[], fun _ hc => (nomatch hc), ?_⟩
    rw [funext ackBy_nil, List.map_id']
    rfl
  | cons ch chs ih =>
    rw [sackCums_cons]
    obtain ⟨cums, hsub, hq⟩ := handleChunk_acks c a ch r
    simp only [handleChunks]
    revert hq
    obtain ⟨a', o⟩ := handleChunk c a ch r
    intro hq
    cases o with
    | some r' => exact ⟨cums, fun cum hc => List.mem_append_left _ (hsub _ hc), hq⟩
    | none =>
      obtain ⟨cums', hsub', hq'⟩ := ih a'
      refine ⟨cums ++ cums', ?_, ?_⟩
      · intro cum hc
        rcases List.mem_append.mp hc with hc | hc
        · exact List.mem_append_left _ (hsub _ hc)
        · exact List.mem_append_right _ (hsub' _ hc)
      · have hq'' : a'.sendq = a.sendq.map (ackBy cums) := hq
        show (handleChunks c r chs a').1.sendq = _
        rw [hq', hq'', List.map_map]
        exact List.map_congr_left fun e _ => ackBy_append cums cums' e

/-- Handling a payload acknowledges by its SACK chunks and does nothing else to the
send queue. -/
theorem handleCall_acks (a : IcspAssoc) (p : RxCall) :
    ∃ cums, (∀ cum ∈ cums, cum ∈ sackCums (chunks p.payload p.plen)) ∧
      (handleCall c a p).1.sendq = a.sendq.map (ackBy cums) := by
  rw [handleCall, icspDataHandle]
  split
  · refine ⟨[], fun _ hc => (nomatch hc), ?_⟩
    rw [funext ackBy_nil, List.map_id']
  · exact handleChunks_acks c _ _ a

end

end Icsp
