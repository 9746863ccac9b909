import BaitNet.StreamReset
import BaitNet.Receive

/-!
# The chunks of one packet

`icsp_data_handle` and `icsp_life_handle` each walk all the chunks of a packet. Where no chunk is
shorter than its fixed fields, neither reads beyond a chunk; and unless one stops the data walk early or
resets a stream before its data, both walks together do what the chunks do one after the other.
-/
namespace Icsp

open Wire Link Crypto

/-- A chunk as it stands in a packet. -/
structure RawChunk where
  type : UInt8
  flags : UInt8
  data : Bytes
  short : data.length < 2 ^ 16

namespace RawChunk

def bytes (k : RawChunk) : Bytes :=
  [k.type, k.flags, .ofNat (k.data.length / 256), .ofNat k.data.length] ++ k.data

/-- The chunk as a walk sees it, with what stands behind it in the buffer. -/
def seen (k : RawChunk) (rest : Bytes) : Chunk := ⟨k.type, k.data.length, k.data ++ rest⟩

/-- The chunk by itself. -/
def own (k : RawChunk) : Chunk := k.seen []

/-- The chunk has the fields that its type announces. -/
def Whole (k : RawChunk) : Prop :=
  (k.type = chunkData → 8 ≤ k.data.length) ∧ (k.type = chunkSack → 4 ≤ k.data.length)

instance (k : RawChunk) : Decidable k.Whole := inferInstanceAs (Decidable (_ ∧ _))

@[simp] theorem seen_type (k : RawChunk) (rest : Bytes) : (k.seen rest).type = k.type := rfl
@[simp] theorem seen_clen (k : RawChunk) (rest : Bytes) : (k.seen rest).clen = k.data.length := rfl
@[simp] theorem own_type (k : RawChunk) : k.own.type = k.type := rfl
@[simp] theorem own_clen (k : RawChunk) : k.own.clen = k.data.length := rfl

end RawChunk

/-- The chunks of a packet, behind its header. -/
def chunkBytes (ks : List RawChunk) : Bytes := ks.flatMap RawChunk.bytes

def seenAll : List RawChunk → Bytes → List Chunk
  | [], _ => []
  | k :: ks, stale => k.seen (chunkBytes ks ++ stale) :: seenAll ks stale

theorem chunkWalk_bytes (ks : List RawChunk) (stale : Bytes) (fuel : ℕ) (hf : (chunkBytes ks).length ≤ fuel) :
    chunkWalk fuel (chunkBytes ks ++ stale) (chunkBytes ks).length = seenAll ks stale := by
  induction ks generalizing fuel with
  | nil =>
    cases fuel with
    | zero => rfl
    | succ fuel => rfl
  | cons k ks ih =>
    have hlen : (chunkBytes (k :: ks)).length = 4 + k.data.length + (chunkBytes ks).length := by
      simp only [chunkBytes, List.flatMap_cons, List.length_append, RawChunk.bytes, List.length_cons, List.length_nil]
    obtain ⟨fuel, rfl⟩ : ∃ n, fuel = n + 1 := ⟨fuel - 1, by omega⟩
    have hbuf : chunkBytes (k :: ks) ++ stale = k.bytes ++ (chunkBytes ks ++ stale) := by
      rw [chunkBytes, List.flatMap_cons, List.append_assoc]
      rfl
    have hclen : (byteAt (k.bytes ++ (chunkBytes ks ++ stale)) 2).toNat * 256 +
        (byteAt (k.bytes ++ (chunkBytes ks ++ stale)) 3).toNat = k.data.length := by
      have hs := k.short
      simp only [RawChunk.bytes, List.cons_append, List.nil_append, byteAt_cons_succ, byteAt_cons_zero,
        UInt8.toNat_ofNat']
      omega
    have hdata : (k.bytes ++ (chunkBytes ks ++ stale)).drop icspChunkHdr = k.data ++ (chunkBytes ks ++ stale) := rfl
    have hnext : (k.bytes ++ (chunkBytes ks ++ stale)).drop (icspChunkHdr + k.data.length) =
        chunkBytes ks ++ stale := by
      rw [← List.drop_drop, hdata]
      exact List.drop_left' rfl
    rw [hbuf, chunkWalk]
    simp only [hclen]
    rw [if_neg (by simp only [icspChunkHdr]; omega), if_neg (by simp only [icspChunkHdr]; omega), hnext, hdata]
    have hleft : (chunkBytes (k :: ks)).length - (icspChunkHdr + k.data.length) = (chunkBytes ks).length := by
      simp only [icspChunkHdr]
      omega
    rw [hleft, ih fuel (by omega)]
    rfl

theorem get32_append_left {p : Bytes} (rest : Bytes) (h : 4 ≤ p.length) : get32 (p ++ rest) 0 = get32 p 0 := by
  rw [get32_eq, get32_eq, byteAt_append_left _ _ _ (by omega), byteAt_append_left _ _ _ (by omega),
    byteAt_append_left _ _ _ (by omega), byteAt_append_left _ _ _ (by omega)]

theorem get16_append_left {p : Bytes} (rest : Bytes) {i : ℕ} (h : i + 2 ≤ p.length) :
    get16 (p ++ rest) i = get16 p i := by
  rw [get16_eq, get16_eq, byteAt_append_left _ _ _ (by omega), byteAt_append_left _ _ _ (by omega)]

theorem slice_append_left {p : Bytes} (rest : Bytes) {n : ℕ} (h : n ≤ p.length) :
    slice (p ++ rest) 0 n = slice p 0 n := by
  have hp := slice_zero_append p [] n h
  rw [List.append_nil] at hp
  rw [slice_zero_append _ _ _ h, hp]

variable (c : TweetNaCl)

theorem openData_seen (a : IcspAssoc) {k : RawChunk} (h : 8 ≤ k.data.length) (rest : Bytes) :
    openData c a (k.seen rest) = openData c a k.own := by
  have hbox : boxLen (k.seen rest) = boxLen k.own := rfl
  have hlen : boxLen k.own = k.data.length - 8 := if_pos h
  have htsn : get32 (k.seen rest).cd 0 = get32 k.own.cd 0 := by
    show get32 (k.data ++ rest) 0 = get32 (k.data ++ []) 0
    rw [get32_append_left _ (by omega), get32_append_left _ (by omega)]
  rw [openData, openData, hbox, htsn]
  split
  · rfl
  · rename_i hfit
    have hslice : slice ((k.seen rest).cd.drop 8) 0 (boxLen k.own - 32 + 32) =
        slice (k.own.cd.drop 8) 0 (boxLen k.own - 32 + 32) := by
      show slice ((k.data ++ rest).drop 8) 0 _ = slice ((k.data ++ []).drop 8) 0 _
      have hn : boxLen k.own - 32 + 32 ≤ (k.data.drop 8).length := by
        rw [List.length_drop]
        omega
      rw [List.drop_append_of_le_length h, List.drop_append_of_le_length h, slice_append_left _ hn,
        slice_append_left _ hn]
    rw [ed25519SecretboxOpen, ed25519SecretboxOpen, hslice]

/-- The data walk reads a whole chunk only inside. -/
theorem handleChunk_seen_own (a : IcspAssoc) {k : RawChunk} (h : k.Whole) (rest : Bytes) (r : DataRet) :
    handleChunk c a (k.seen rest) r = handleChunk c a k.own r := by
  have htype : (k.seen rest).type = k.own.type := rfl
  rw [handleChunk, handleChunk, htype]
  by_cases hd : k.own.type = chunkData ∧ a.hasKey
  · have hlen : 8 ≤ k.data.length := h.1 hd.1
    have htsn : get32 (k.seen rest).cd 0 = get32 k.own.cd 0 := by
      show get32 (k.data ++ rest) 0 = get32 (k.data ++ []) 0
      rw [get32_append_left _ (by omega), get32_append_left _ (by omega)]
    have hsid : get16 (k.seen rest).cd 4 = get16 k.own.cd 4 := by
      show get16 (k.data ++ rest) 4 = get16 (k.data ++ []) 4
      rw [get16_append_left _ (by omega), get16_append_left _ (by omega)]
    have hseq : get16 (k.seen rest).cd 6 = get16 k.own.cd 6 := by
      show get16 (k.data ++ rest) 6 = get16 (k.data ++ []) 6
      rw [get16_append_left _ (by omega), get16_append_left _ (by omega)]
    have haccept : ∀ b clear, acceptData b (k.seen rest) clear r = acceptData b k.own clear r := by
      intro b clear
      have hmsg : msgLen (k.seen rest) = msgLen k.own := rfl
      simp only [acceptData, htsn, hsid, hseq, hmsg]
    rw [if_pos hd, if_pos hd, htsn]
    simp only [openData_seen c _ hlen rest, haccept]
  · rw [if_neg hd, if_neg hd]
    by_cases hs : k.own.type = chunkSack
    · have hlen : 4 ≤ k.data.length := h.2 hs
      have hcum : get32 (k.seen rest).cd 0 = get32 k.own.cd 0 := by
        show get32 (k.data ++ rest) 0 = get32 (k.data ++ []) 0
        rw [get32_append_left _ hlen, get32_append_left _ hlen]
      rw [if_pos hs, if_pos hs, hcum]
    · rw [if_neg hs, if_neg hs]

theorem handleChunks_seenAll (r : DataRet) {ks : List RawChunk} (h : ∀ k ∈ ks, k.Whole) (stale : Bytes)
    (a : IcspAssoc) : handleChunks c r (seenAll ks stale) a = handleChunks c r (ks.map RawChunk.own) a := by
  induction ks generalizing a with
  | nil => rfl
  | cons k ks ih =>
    have hk := h k (List.mem_cons_self ..)
    have hks := fun x hx => h x (List.mem_cons_of_mem k hx)
    rw [seenAll, List.map_cons, handleChunks, handleChunks, handleChunk_seen_own c a hk]
    obtain ⟨a', o⟩ := handleChunk c a k.own r
    cases o with
    | none => exact ih hks a'
    | some r' => rfl

/-- The stream that a STREAM-RESET chunk restarts. -/
def RawChunk.resets (k : RawChunk) : Option UInt16 :=
  if k.type = chunkStreamReset ∧ 3 ≤ k.data.length then some (get16 k.data 0) else none

def resetAt (sid : UInt16) (a : IcspAssoc) : IcspAssoc := { a with streams := resetStreams sid a.streams }

/-- What the lifecycle walk does at one chunk. -/
def RawChunk.life (k : RawChunk) (a : IcspAssoc) : IcspAssoc :=
  match k.resets with
  | none => a
  | some sid => resetAt sid a

/-- The lifecycle walk checks the length of what it reads. -/
theorem lifeChunks_seen (k : RawChunk) (rest : Bytes) (chs : List Chunk) (a : IcspAssoc) :
    lifeChunks (k.seen rest :: chs) a = if k.type = chunkShutdown then (a, true) else lifeChunks chs (k.life a) := by
  have htype : (k.seen rest).type = k.type := rfl
  rw [lifeChunks, htype]
  by_cases hclose : k.type = chunkShutdown
  · rw [if_pos hclose, if_pos hclose]
  · rw [if_neg hclose, if_neg hclose]
    by_cases hreset : k.type = chunkStreamReset ∧ 3 ≤ k.data.length
    · have hlen := hreset.2
      have hsid : get16 (k.seen rest).cd 0 = get16 k.data 0 := get16_append_left rest (by omega)
      have hseen : k.type = chunkStreamReset ∧ 3 ≤ (k.seen rest).clen := hreset
      rw [if_pos hseen, hsid, RawChunk.life, RawChunk.resets, if_pos hreset]
      rfl
    · have hseen : ¬ (k.type = chunkStreamReset ∧ 3 ≤ (k.seen rest).clen) := hreset
      rw [if_neg hseen, RawChunk.life, RawChunk.resets, if_neg hreset]

theorem lifeChunks_seenAll (ks : List RawChunk) (stale : Bytes) (a : IcspAssoc) :
    lifeChunks (seenAll ks stale) a = lifeChunks (ks.map RawChunk.own) a := by
  induction ks generalizing a with
  | nil => rfl
  | cons k ks ih => rw [seenAll, List.map_cons, RawChunk.own, lifeChunks_seen, lifeChunks_seen, ih]

theorem find_resetStreams {sid id : UInt16} (h : id ≠ sid) (ss : List IcspStream) :
    (resetStreams sid ss).find? (fun s => s.id = id) = ss.find? (fun s => s.id = id) := by
  induction ss with
  | nil => rfl
  | cons s ss ih =>
    rw [resetStreams] at ih ⊢
    by_cases hs : s.id = sid
    · have hne : ¬ s.id = id := fun hid => h (hid.symm.trans hs)
      rw [List.map_cons, if_pos hs, List.find?_cons_of_neg (by simpa using hne),
        List.find?_cons_of_neg (by simpa using hne), ih]
    · rw [List.map_cons, if_neg hs, List.find?_cons, List.find?_cons, ih]

theorem updStream_resetStreams {sid id : UInt16} (h : id ≠ sid) (f : IcspStream → IcspStream)
    (hf : ∀ s, (f s).id = s.id) (ss : List IcspStream) :
    updStream id f (resetStreams sid ss) = resetStreams sid (updStream id f ss) := by
  induction ss with
  | nil => rfl
  | cons s ss ih =>
    rw [resetStreams] at ih ⊢
    by_cases hid : s.id = id
    · have hs : ¬ s.id = sid := fun hs => h (hid.symm.trans hs)
      have hfs : ¬ (f s).id = sid := by rwa [hf]
      simp only [List.map_cons, if_neg hs, updStream, if_pos hid, resetStreams, if_neg hfs]
    · by_cases hs : s.id = sid
      · have hne : ¬ sid = id := fun he => hid (hs.trans he)
        simp only [List.map_cons, if_pos hs, updStream, if_neg hid, ih, resetStreams]
      · simp only [List.map_cons, if_neg hs, updStream, if_neg hid, ih, resetStreams]

theorem getStream_resetAt {sid id : UInt16} (h : id ≠ sid) (a : IcspAssoc) :
    getStream (resetAt sid a) id = (resetAt sid (getStream a id).1, (getStream a id).2) := by
  have hfind : findStream (resetAt sid a) id = findStream a id := find_resetStreams h a.streams
  have hlen : (resetAt sid a).streams.length = a.streams.length := List.length_map _
  rw [getStream, getStream, hfind, hlen]
  cases findStream a id with
  | some s => rfl
  | none =>
    by_cases hfull : icspMaxStreams ≤ a.streams.length
    · simp only [if_pos hfull]
    · have hslot : resetStreams sid (a.streams ++ [⟨id, 0, 0⟩]) = resetStreams sid a.streams ++ [⟨id, 0, 0⟩] := by
        rw [resetStreams, List.map_append, List.map_singleton, if_neg h]
        rfl
      simp only [if_neg hfull, resetAt, hslot]

theorem acceptData_resetAt {sid : UInt16} (a : IcspAssoc) (ch : Chunk) (h : get16 ch.cd 4 ≠ sid) (clear : Bytes)
    (r : DataRet) : acceptData (resetAt sid a) ch clear r =
      (resetAt sid (acceptData a ch clear r).1, (acceptData a ch clear r).2) := by
  have hcum : cumAfter (resetAt sid a) (get32 ch.cd 0) = cumAfter a (get32 ch.cd 0) := rfl
  rw [acceptData, acceptData]
  simp only [hcum, getStream_resetAt h]
  split
  · rfl
  · obtain ⟨a', o⟩ := getStream a (get16 ch.cd 4)
    cases o with
    | none => rfl
    | some s =>
      simp only
      split
      · have hupd := updStream_resetStreams h (fun s => { s with nextRecvSeq := s.nextRecvSeq + 1 })
          (fun _ => rfl) a'.streams
        simp only [resetAt, hupd]
      · rfl

/-- The data walk at one chunk does not see the reset of a stream that the chunk is not on. -/
theorem handleChunk_resetAt {sid : UInt16} (a : IcspAssoc) (ch : Chunk)
    (h : ch.type = chunkData → get16 ch.cd 4 ≠ sid) (r : DataRet) :
    handleChunk c (resetAt sid a) ch r = (resetAt sid (handleChunk c a ch r).1, (handleChunk c a ch r).2) := by
  by_cases hd : ch.type = chunkData ∧ a.hasKey
  · have hopen : openData c (resetAt sid a) ch = openData c a ch := openData_congr c ch rfl rfl
    have hwin : replayWindow (resetAt sid a).rwTsn (resetAt sid a).rwMask (get32 ch.cd 0) =
        replayWindow a.rwTsn a.rwMask (get32 ch.cd 0) := rfl
    rw [handleChunk_data c a ch r hd, handleChunk_data c (resetAt sid a) ch r hd, hwin, hopen]
    cases replayWindow a.rwTsn a.rwMask (get32 ch.cd 0) with
    | none => rfl
    | some w =>
      cases openData c a ch with
      | none => rfl
      | some clear => exact acceptData_resetAt { a with rwTsn := w.1, rwMask := w.2 } ch (h hd.1) clear r
  · have hd' : ¬ (ch.type = chunkData ∧ (resetAt sid a).hasKey) := hd
    rw [handleChunk, handleChunk, if_neg hd, if_neg hd']
    split
    · rfl
    · rfl

theorem handleChunks_resetAt {sid : UInt16} (chs : List Chunk)
    (h : ∀ ch ∈ chs, ch.type = chunkData → get16 ch.cd 4 ≠ sid) (r : DataRet) (a : IcspAssoc) :
    handleChunks c r chs (resetAt sid a) = (resetAt sid (handleChunks c r chs a).1, (handleChunks c r chs a).2) := by
  induction chs generalizing a with
  | nil => rfl
  | cons ch chs ih =>
    rw [handleChunks, handleChunks, handleChunk_resetAt c a ch (h ch (List.mem_cons_self ..)) r]
    obtain ⟨a', o⟩ := handleChunk c a ch r
    cases o with
    | none => exact ih (fun x hx => h x (List.mem_cons_of_mem ch hx)) a'
    | some r' => rfl

def Act.isReply : Act → Bool
  | .tx _ _ => true
  | _ => false

def Act.isDelivery : Act → Bool
  | .deliver _ _ => true
  | _ => false

/-- A SACK for another cumulative TSN than `cum`. -/
def Act.outdated (cum : UInt32) : Act → Bool
  | .tx chunk _ => byteAt chunk 0 == chunkSack && get32 chunk 4 != cum
  | _ => false

/-- What `icsp_handle_frame` passes to the data walk. -/
def DataRet.start : DataRet := ⟨0, [], icspMaxPayload, 0⟩

def delivered (r : DataRet) : List Act := if 0 < r.ret then [.deliver r.outStream r.out] else []

/-- The SACK that is due when the data walk led from `a` to `b`. -/
def sackDue (io : Io) (a b : IcspAssoc) : List Act :=
  if b.cumTsn ≠ a.cumTsn ∧ (b.sackLossPct = 0 ∨ b.sackLossPct ≤ io.rand % 100) then (icspSackSend io b).1 else []

/-- Both walks over the chunks of one packet. -/
def packetStep (io : Io) (a : IcspAssoc) (ks : List RawChunk) : IcspAssoc × List Act :=
  let p := handleChunks c .start (ks.map RawChunk.own) a
  if p.2.ret < 0 then (p.1, [])
  else ((lifeChunks (ks.map RawChunk.own) p.1).1, delivered p.2 ++ sackDue io a p.1)

/-- A packet for every chunk. -/
def chunkSteps (io : Io) : List RawChunk → IcspAssoc → IcspAssoc × List Act
  | [], a => (a, [])
  | k :: ks, a =>
    let p := packetStep c io a [k]
    let q := chunkSteps io ks p.1
    (q.1, p.2 ++ q.2)

/-- The association behind a packet with one chunk. -/
def after (a : IcspAssoc) (k : RawChunk) : IcspAssoc := k.life (handleChunk c a k.own .start).1

theorem handleData_packetStep (io : Io) (a : IcspAssoc) {payload : Bytes} {plen : ℕ} {ks : List RawChunk}
    {stale : Bytes} (hplen : icspHeaderLen ≤ plen) (hch : chunks payload plen = seenAll ks stale)
    (hw : ∀ k ∈ ks, k.Whole) :
    ((handleData c io a payload plen).1, (handleData c io a payload plen).2.1) = packetStep c io a ks := by
  have hdata : icspDataHandle c a payload plen icspMaxPayload 0 =
      handleChunks c .start (ks.map RawChunk.own) a := by
    rw [icspDataHandle, if_neg (Nat.not_lt.mpr hplen), hch]
    exact handleChunks_seenAll c _ hw stale a
  have hlife : ∀ b, icspLifeHandle b payload plen = lifeChunks (ks.map RawChunk.own) b := by
    intro b
    rw [icspLifeHandle, if_neg (Nat.not_lt.mpr hplen), hch, lifeChunks_seenAll]
  rw [handleData, packetStep, hdata]
  obtain ⟨b, r⟩ := handleChunks c .start (ks.map RawChunk.own) a
  simp only [hlife]
  by_cases hr : r.ret < 0
  · simp only [if_pos hr]
  · simp only [if_neg hr]
    obtain ⟨b', closed⟩ := lifeChunks (ks.map RawChunk.own) b
    cases closed with
    | true => rfl
    | false => rfl

theorem handleChunk_idle (a : IcspAssoc) {ch : Chunk} (r : DataRet) (hd : ch.type ≠ chunkData)
    (hs : ch.type ≠ chunkSack) : handleChunk c a ch r = (a, none) := by
  rw [handleChunk, if_neg (fun h => hd h.1), if_neg hs]

theorem RawChunk.life_of_ne {k : RawChunk} (h : k.type ≠ chunkStreamReset) (a : IcspAssoc) : k.life a = a := by
  rw [RawChunk.life, RawChunk.resets, if_neg (fun hreset => h hreset.1)]

theorem handleChunk_cum_le (a : IcspAssoc) (ch : Chunk) (r : DataRet) :
    a.cumTsn ≤ (handleChunk c a ch r).1.cumTsn := by
  by_cases hd : ch.type = chunkData ∧ a.hasKey
  · rw [handleChunk_data c a ch r hd]
    have hcum : ∀ b : IcspAssoc, b.cumTsn = a.cumTsn → a.cumTsn ≤ cumAfter b (get32 ch.cd 0) := by
      intro b hb
      rw [cumAfter, hb]
      split
      · rename_i hlt
        exact UInt32.le_of_lt hlt
      · exact UInt32.le_refl _
    cases replayWindow a.rwTsn a.rwMask (get32 ch.cd 0) with
    | none => exact UInt32.le_refl _
    | some w =>
      cases openData c a ch with
      | none => exact UInt32.le_refl _
      | some clear =>
        rcases acceptData_cases { a with rwTsn := w.1, rwMask := w.2 } ch clear r with
          ⟨-, h⟩ | ⟨-, -, ss, h, -, -⟩ | ⟨-, -, h⟩ | ⟨-, -, ss, h, -, -⟩
        · simp only [h]
          exact UInt32.le_refl _
        · simp only [h]
          exact hcum _ rfl
        · simp only [h]
          exact hcum _ rfl
        · simp only [h]
          exact hcum _ rfl
  · obtain ⟨q, hq, -⟩ := handleChunk_other c a ch r hd
    rw [hq]
    exact UInt32.le_refl _

theorem RawChunk.life_cum (k : RawChunk) (a : IcspAssoc) : (k.life a).cumTsn = a.cumTsn := by
  rw [RawChunk.life]
  split
  · rfl
  · rfl

theorem after_plane (a : IcspAssoc) (k : RawChunk) : ∃ d : DataPlane, after c a k = { a with toDataPlane := d } := by
  obtain ⟨d, hd⟩ := (handleChunk_keeps c a k.own .start).dataPlane
  rw [after, hd, RawChunk.life]
  split
  · exact ⟨d, rfl⟩
  · exact ⟨{ d with streams := _ }, rfl⟩

theorem lifeChunks_one (k : RawChunk) (a : IcspAssoc) : (lifeChunks [k.own] a).1 = k.life a := by
  rw [RawChunk.own, lifeChunks_seen]
  by_cases hclose : k.type = chunkShutdown
  · have hne : k.type ≠ chunkStreamReset := by
      rw [hclose]
      decide
    rw [if_pos hclose, RawChunk.life_of_ne hne]
  · rw [if_neg hclose]
    rfl

theorem packetStep_none (io : Io) {a a' : IcspAssoc} {k : RawChunk}
    (h : handleChunk c a k.own .start = (a', none)) : packetStep c io a [k] = (after c a k, sackDue io a a') := by
  have hwalk : handleChunks c .start [k.own] a = (a', .start) := by
    rw [handleChunks_single, h]
    rfl
  rw [packetStep, after, h]
  simp only [List.map_cons, List.map_nil, hwalk, lifeChunks_one]
  rfl

theorem packetStep_some (io : Io) {a a' : IcspAssoc} {k : RawChunk} {r : DataRet}
    (h : handleChunk c a k.own .start = (a', some r)) (hr : 0 ≤ r.ret) :
    packetStep c io a [k] = (after c a k, delivered r ++ sackDue io a a') := by
  have hwalk : handleChunks c .start [k.own] a = (a', r) := by
    rw [handleChunks_single, h]
    rfl
  rw [packetStep, after, h]
  simp only [List.map_cons, List.map_nil, hwalk, lifeChunks_one, if_neg (not_lt.mpr hr)]

/-- Whether `k'` may stand behind `k`: nothing behind a SHUTDOWN, no HEARTBEAT behind anything, and no
DATA behind a reset of its stream. -/
structure Follows (k k' : RawChunk) : Prop where
  notClosed : k.type ≠ chunkShutdown
  notBeat : k'.type ≠ chunkHeartbeat
  notReset : ∀ sid ∈ k.resets, k'.type = chunkData → get16 k'.data 4 ≠ sid

/-- No DATA or SACK chunk stands behind a DATA chunk that stops the data walk, and no DATA chunk opens to
another header than it has outside. -/
def Undisturbed : IcspAssoc → List RawChunk → Prop
  | _, [] => True
  | a, k :: ks =>
    match (handleChunk c a k.own .start).2 with
    | none => Undisturbed (after c a k) ks
    | some r => 0 ≤ r.ret ∧ ∀ k' ∈ ks, k'.type ≠ chunkData ∧ k'.type ≠ chunkSack

theorem handleChunks_idle (ks : List RawChunk) (h : ∀ k ∈ ks, k.type ≠ chunkData ∧ k.type ≠ chunkSack)
    (r : DataRet) (a : IcspAssoc) : handleChunks c r (ks.map RawChunk.own) a = (a, r) := by
  induction ks with
  | nil => rfl
  | cons k ks ih =>
    obtain ⟨hd, hs⟩ := h k (List.mem_cons_self ..)
    rw [List.map_cons, handleChunks, handleChunk_idle c a r hd hs]
    exact ih fun x hx => h x (List.mem_cons_of_mem k hx)

theorem undisturbed_idle (ks : List RawChunk) (h : ∀ k ∈ ks, k.type ≠ chunkData ∧ k.type ≠ chunkSack)
    (a : IcspAssoc) : Undisturbed c a ks := by
  induction ks generalizing a with
  | nil => trivial
  | cons k ks ih =>
    obtain ⟨hd, hs⟩ := h k (List.mem_cons_self ..)
    rw [Undisturbed, handleChunk_idle c a .start hd hs]
    exact ih (fun x hx => h x (List.mem_cons_of_mem k hx)) _

/-- The first chunk and the walk over the others, from where that chunk alone would have led. -/
theorem walk_after {a a' : IcspAssoc} {k : RawChunk} {ks : List RawChunk}
    (h : handleChunk c a k.own .start = (a', none)) (hf : ∀ k' ∈ ks, Follows k k') :
    handleChunks c .start (ks.map RawChunk.own) (after c a k) =
      (k.life (handleChunks c .start (ks.map RawChunk.own) a').1,
        (handleChunks c .start (ks.map RawChunk.own) a').2) := by
  have hafter : after c a k = k.life a' := by rw [after, h]
  rw [hafter, RawChunk.life]
  cases hreset : k.resets with
  | none => rw [RawChunk.life, hreset]
  | some sid =>
    rw [RawChunk.life, hreset]
    refine handleChunks_resetAt c _ (fun ch hch hdata => ?_) .start a'
    obtain ⟨k', hk', rfl⟩ := List.mem_map.mp hch
    have hstream : k'.own.cd = k'.data := List.append_nil _
    rw [hstream]
    exact (hf k' hk').notReset sid hreset hdata

/-- Both walks over a packet lead where its chunks lead one by one. -/
theorem packet_state (ks : List RawChunk) (io : Io) (a : IcspAssoc) (hu : Undisturbed c a ks)
    (ho : ks.Pairwise Follows) :
    0 ≤ (handleChunks c .start (ks.map RawChunk.own) a).2.ret ∧
      (lifeChunks (ks.map RawChunk.own) (handleChunks c .start (ks.map RawChunk.own) a).1).1 =
        (chunkSteps c io ks a).1 ∧
      delivered (handleChunks c .start (ks.map RawChunk.own) a).2 =
        (chunkSteps c io ks a).2.filter Act.isDelivery := by
  induction ks generalizing a with
  | nil => exact ⟨Int.le_refl 0, rfl, rfl⟩
  | cons k ks ih =>
    obtain ⟨hf, ho⟩ := List.pairwise_cons.mp ho
    have hsack : ∀ b, (sackDue io a b).filter Act.isDelivery = [] := by
      intro b
      rw [sackDue]
      split
      · rw [icspSackSend]
        rcases icspSendPkt_cases io b (icspChunkPut chunkSack 4 ++ put32 b.cumTsn) with ⟨hs, -, -⟩ | ⟨hs, -⟩
        · rw [hs]
          rfl
        · rw [hs]
          rfl
      · rfl
    have hlife : ∀ b, (lifeChunks ((k :: ks).map RawChunk.own) b).1 =
        (lifeChunks (ks.map RawChunk.own) (k.life b)).1 := by
      intro b
      rw [List.map_cons]
      show (lifeChunks (k.seen [] :: ks.map RawChunk.own) b).1 = _
      rw [lifeChunks_seen]
      by_cases hclose : k.type = chunkShutdown
      · -- nothing follows
        obtain rfl : ks = [] := List.eq_nil_iff_forall_not_mem.mpr fun k' hk' => (hf k' hk').notClosed hclose
        have hne : k.type ≠ chunkStreamReset := by
          rw [hclose]
          decide
        rw [if_pos hclose, RawChunk.life_of_ne hne]
        rfl
      · rw [if_neg hclose]
    rw [Undisturbed] at hu
    rw [hlife, chunkSteps]
    rcases hstep : handleChunk c a k.own .start with ⟨a', o⟩
    rw [hstep] at hu
    cases o with
    | none =>
      have hwalk : handleChunks c .start ((k :: ks).map RawChunk.own) a =
          handleChunks c .start (ks.map RawChunk.own) a' := by
        rw [List.map_cons, handleChunks, hstep]
      obtain ⟨hret, hstate, hdel⟩ := ih (after c a k) hu ho
      rw [walk_after c hstep hf] at hret hstate hdel
      rw [hwalk, packetStep_none c io hstep]
      refine ⟨hret, hstate, ?_⟩
      rw [List.filter_append, hsack, List.nil_append]
      exact hdel
    | some r =>
      have hwalk : handleChunks c .start ((k :: ks).map RawChunk.own) a = (a', r) := by
        rw [List.map_cons, handleChunks, hstep]
      obtain ⟨hret, hidle⟩ := hu
      have hsame : k.life a' = after c a k := by rw [after, hstep]
      obtain ⟨-, hstate, hdel⟩ := ih (after c a k) (undisturbed_idle c ks hidle _) ho
      rw [handleChunks_idle c ks hidle] at hstate hdel
      rw [hwalk, packetStep_some c io hstep hret]
      refine ⟨hret, by rw [hsame, hstate], ?_⟩
      have hdelivered : (delivered r).filter Act.isDelivery = delivered r := by
        rw [delivered]
        split
        · rfl
        · rfl
      rw [List.filter_append, List.filter_append, hsack, hdelivered, ← hdel]
      show delivered r = delivered r ++ [] ++ []
      rw [List.append_nil, List.append_nil]

/-- A SACK of the association for a cumulative TSN. -/
def sackFor (io : Io) (a : IcspAssoc) (cum : UInt32) : List Act :=
  (icspSendPkt io a (icspChunkPut chunkSack 4 ++ put32 cum)).1

/-- The fault injection lets SACKs through. -/
def SacksPass (io : Io) (a : IcspAssoc) : Prop := a.sackLossPct = 0 ∨ a.sackLossPct ≤ io.rand % 100

instance (io : Io) (a : IcspAssoc) : Decidable (SacksPass io a) := inferInstanceAs (Decidable (_ ∨ _))

theorem sackDue_plane (io : Io) (a : IcspAssoc) (d : DataPlane) :
    sackDue io a { a with toDataPlane := d } =
      if d.cumTsn ≠ a.cumTsn ∧ SacksPass io a then sackFor io a d.cumTsn else [] := rfl

theorem sackFor_cases (io : Io) (a : IcspAssoc) (cum : UInt32) :
    sackFor io a cum = [] ∨ ∃ frame, sackFor io a cum = [.tx (icspChunkPut chunkSack 4 ++ put32 cum) frame] := by
  rcases icspSendPkt_cases io a (icspChunkPut chunkSack 4 ++ put32 cum) with ⟨h, -, -⟩ | ⟨h, -⟩
  · exact .inr ⟨_, by rw [sackFor, h]⟩
  · exact .inl (by rw [sackFor, h])

theorem sackFor_replies (io : Io) (a : IcspAssoc) (cum : UInt32) :
    (sackFor io a cum).filter Act.isReply = sackFor io a cum := by
  rcases sackFor_cases io a cum with h | ⟨frame, h⟩
  · rw [h]
    rfl
  · rw [h]
    rfl

theorem sackFor_current (io : Io) (a : IcspAssoc) (cum final : UInt32) :
    (sackFor io a cum).filter (fun act => !act.outdated final) = if cum = final then sackFor io a cum else [] := by
  rcases sackFor_cases io a cum with h | ⟨frame, h⟩
  · rw [h]
    split
    · rfl
    · rfl
  · have hcum : get32 (icspChunkPut chunkSack 4 ++ put32 cum) 4 = cum := by
      have hput := get32_put32 cum []
      rw [List.append_nil] at hput
      rw [get32_append_right _ _ _ (Nat.le_of_eq (icspChunkPut_length ..))]
      exact hput
    have htype : byteAt (icspChunkPut chunkSack 4 ++ put32 cum) 0 = chunkSack := rfl
    rw [h]
    by_cases hsame : cum = final
    · subst hsame
      simp [Act.outdated, hcum]
    · simp [Act.outdated, htype, hcum, hsame]

theorem delivered_replies (r : DataRet) : (delivered r).filter Act.isReply = [] := by
  rw [delivered]
  split
  · rfl
  · rfl

/-- The packet of the first chunk: its delivery, its SACK, and the other packets. -/
theorem chunkSteps_cons (io : Io) {a : IcspAssoc} {k : RawChunk} {ks : List RawChunk}
    (hu : Undisturbed c a (k :: ks)) :
    Undisturbed c (after c a k) ks ∧ (chunkSteps c io (k :: ks) a).1 = (chunkSteps c io ks (after c a k)).1 ∧
      (chunkSteps c io (k :: ks) a).2.filter Act.isReply =
        (sackDue io a (after c a k)).filter Act.isReply ++
          (chunkSteps c io ks (after c a k)).2.filter Act.isReply := by
  have hlife : sackDue io a (after c a k) = sackDue io a (handleChunk c a k.own .start).1 := by
    rw [after, RawChunk.life]
    split
    · rfl
    · rfl
  rw [Undisturbed] at hu
  rw [chunkSteps, hlife]
  rcases hstep : handleChunk c a k.own .start with ⟨a', o⟩
  rw [hstep] at hu
  cases o with
  | none =>
    rw [packetStep_none c io hstep]
    exact ⟨hu, rfl, List.filter_append ..⟩
  | some r =>
    obtain ⟨hret, hidle⟩ := hu
    rw [packetStep_some c io hstep hret]
    refine ⟨undisturbed_idle c ks hidle _, rfl, ?_⟩
    rw [List.filter_append, List.filter_append, delivered_replies]
    rfl

/-- Of the SACKs of the single packets, the last one answers for all. -/
theorem chunkSteps_replies (io : Io) (ks : List RawChunk) (a : IcspAssoc) (hu : Undisturbed c a ks) :
    a.cumTsn ≤ (chunkSteps c io ks a).1.cumTsn ∧
      ((chunkSteps c io ks a).2.filter Act.isReply).filter
          (fun act => !act.outdated (chunkSteps c io ks a).1.cumTsn) =
        if (chunkSteps c io ks a).1.cumTsn ≠ a.cumTsn ∧ SacksPass io a then
          sackFor io a (chunkSteps c io ks a).1.cumTsn
        else [] := by
  induction ks generalizing a with
  | nil => exact ⟨UInt32.le_refl _, (if_neg fun h => h.1 rfl).symm⟩
  | cons k ks ih =>
    obtain ⟨hnext, hstate, hreplies⟩ := chunkSteps_cons c io hu
    obtain ⟨hmono, htail⟩ := ih (after c a k) hnext
    have hstep : a.cumTsn ≤ (after c a k).cumTsn := by
      rw [after, RawChunk.life_cum]
      exact handleChunk_cum_le c a k.own .start
    refine ⟨hstate ▸ UInt32.le_trans hstep hmono, ?_⟩
    rw [hstate, hreplies, List.filter_append, htail]
    generalize (chunkSteps c io ks (after c a k)).1.cumTsn = final at hmono
    obtain ⟨d, hd⟩ := after_plane c a k
    rw [hd] at hstep hmono ⊢
    have hpass : SacksPass io { a with toDataPlane := d } ↔ SacksPass io a := Iff.rfl
    have hsend : sackFor io { a with toDataPlane := d } final = sackFor io a final := rfl
    rw [sackDue_plane, hsend]
    simp only [hpass]
    change a.cumTsn ≤ d.cumTsn at hstep
    change d.cumTsn ≤ final at hmono
    change _ ++ (if final ≠ d.cumTsn ∧ _ then _ else _) = _
    by_cases hp : SacksPass io a
    · by_cases hadv : d.cumTsn = a.cumTsn
      · simp only [hadv, ne_eq, not_true_eq_false, false_and, if_false, List.filter_nil, List.nil_append]
      · have hlt : final ≠ a.cumTsn := by
          rintro rfl
          exact hadv (UInt32.le_antisymm hmono hstep)
        have hdue : final ≠ a.cumTsn ∧ SacksPass io a := ⟨hlt, hp⟩
        rw [if_pos ⟨hadv, hp⟩, if_pos hdue, sackFor_replies, sackFor_current]
        by_cases hlast : d.cumTsn = final
        · have hrest : ¬ (final ≠ d.cumTsn ∧ SacksPass io a) := fun h => h.1 hlast.symm
          rw [if_pos hlast, if_neg hrest, List.append_nil, hlast]
        · have hrest : final ≠ d.cumTsn ∧ SacksPass io a := ⟨fun h => hlast h.symm, hp⟩
          rw [if_neg hlast, if_pos hrest, List.nil_append]
    · rw [if_neg (fun h => hp h.2), if_neg (fun h => hp h.2), if_neg (fun h => hp h.2)]
      rfl

/-- The packet sends what its chunks send one by one, but of the SACKs only the last. -/
theorem packet_replies (io : Io) (ks : List RawChunk) (a : IcspAssoc) (hu : Undisturbed c a ks)
    (ho : ks.Pairwise Follows) :
    (packetStep c io a ks).1 = (chunkSteps c io ks a).1 ∧
      (packetStep c io a ks).2.filter Act.isDelivery = (chunkSteps c io ks a).2.filter Act.isDelivery ∧
      (packetStep c io a ks).2.filter Act.isReply = ((chunkSteps c io ks a).2.filter Act.isReply).filter
        (fun act => !act.outdated (chunkSteps c io ks a).1.cumTsn) := by
  obtain ⟨hret, hstate, hdel⟩ := packet_state c ks io a hu ho
  obtain ⟨-, hreplies⟩ := chunkSteps_replies c io ks a hu
  obtain ⟨d, hd⟩ := (handleChunks_keeps c .start (ks.map RawChunk.own) a).dataPlane
  obtain ⟨ss, hss⟩ := lifeChunks_keeps (ks.map RawChunk.own) (handleChunks c .start (ks.map RawChunk.own) a).1
  have hcum : (chunkSteps c io ks a).1.cumTsn = d.cumTsn := by
    rw [← hstate, hss, hd]
  have hsackReply : (sackDue io a { a with toDataPlane := d }).filter Act.isReply =
      sackDue io a { a with toDataPlane := d } := by
    rw [sackDue_plane]
    split
    · exact sackFor_replies io a d.cumTsn
    · rfl
  have hsackDel : (sackDue io a { a with toDataPlane := d }).filter Act.isDelivery = [] := by
    rw [sackDue_plane]
    split
    · rcases sackFor_cases io a d.cumTsn with h | ⟨frame, h⟩
      · rw [h]
        rfl
      · rw [h]
        rfl
    · rfl
  have hdelDel : (delivered (handleChunks c .start (ks.map RawChunk.own) a).2).filter Act.isDelivery =
      delivered (handleChunks c .start (ks.map RawChunk.own) a).2 := by
    rw [delivered]
    split
    · rfl
    · rfl
  rw [hreplies, hcum, packetStep]
  simp only [if_neg (not_lt.mpr hret)]
  refine ⟨hstate, ?_, ?_⟩
  · rw [List.filter_append, hd, hsackDel, hdelDel, List.append_nil, hdel]
  · rw [List.filter_append, delivered_replies, hd, hsackReply, List.nil_append, sackDue_plane]

end Icsp
