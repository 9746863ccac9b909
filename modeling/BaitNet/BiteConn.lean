import BaitNet.BiteExchange
import BaitNet.Poll

/-!
# The programs on their associations

`icsp_poll` with the data callback and the calls of a round, for a program in its process: what
a process makes of each frame of the other one, in terms of TSNs.
-/
namespace Bite

open Wire Link Crypto Interop

/-- An association in its process, and how often the outside has supplied a call. -/
structure Conn where
  calls : Nat
  host : Icsp.Host

def Conn.after (k : Conn) (a : Icsp.IcspAssoc) : Conn := ⟨k.calls + 1, { k.host with assoc := a }⟩

section Process

variable (c : TweetNaCl) (e : Circumstances)

/-- The calls of a round on its association, with the frames sent so far. -/
def assocPort : Handler port (Conn × List Bytes)
  | .send rec, (k, out) =>
    let (a, acts, ret) := Icsp.icspDataSend c (e.io k.calls) k.host.assoc 1 rec
    (decide (ret ≠ -1), k.after a, out ++ Icsp.txFrames acts)
  | .retransmit, (k, out) =>
    let (a, acts, _) := Icsp.icspDataRetransmit c (e.io k.calls) k.host.assoc 1
    ((), k.after a, out ++ Icsp.txFrames acts)
  | .shutdown, (k, out) =>
    let (a, acts, _) := Icsp.icspShutdownSend (e.io k.calls) k.host.assoc
    ((), k.after a, out ++ Icsp.txFrames acts)

/-- `icsp_poll`, and what `bite_data_cb` leaves in `pend`. -/
def Conn.poll (k : Conn) (rx : Icsp.Rx) : Conn × List Bytes × Int × Bytes :=
  let (h, acts, r) := Icsp.icspPoll c (e.io k.calls) k.host rx
  (⟨k.calls + 1, h⟩, Icsp.txFrames acts, r, (handedOn acts).foldl (fun pend d => biteDataCb pend d.2) [])

/-- A program and its association. -/
structure Process (g : Program) where
  app : g.State
  conn : Conn

/-- One round, unless the program has left its loop, and the frames it sends. -/
def Process.round {g : Program} (x : Process g) (rx : Icsp.Rx) : Process g × List Bytes :=
  if g.left x.app then (x, [])
  else
    let (k, out, r, pend) := x.conn.poll c e rx
    let (app, k, out) := (g.round x.app r pend).run (assocPort c e) (k, out)
    (⟨app, k⟩, out)

end Process

inductive Post where
  | data (m : Icsp.DataMsg)
  | sack (cum : UInt32)
  | shutdown

def Post.chunk (c : TweetNaCl) (s : Session) (i : Bool) : Post → Bytes
  | .data m => m.chunk c s.assocId (s.key i)
  | .sack cum => sackChunk cum
  | .shutdown => Icsp.icspChunkPut Icsp.chunkShutdown 0

/-- The frame is that of end `i` for the post. -/
def Posts (c : TweetNaCl) (s : Session) (i : Bool) (x : Post) (frame : Bytes) : Prop :=
  ∃ dst sp dp, Carries (s.mac i) (s.addr i) dst (packet sp dp s.assocId (x.chunk c s i)) frame

/-- An association of end `i` in the data phase. -/
structure Live (s : Session) (i : Bool) (a : Icsp.IcspAssoc) : Prop where
  calm : Icsp.Calm a
  hasKey : a.hasKey = true
  srcMac : a.srcMac = s.mac i
  srcAddr : a.srcAddr = s.addr i
  assocId : a.assocId = s.assocId
  sendKey : a.sendKey = s.key i
  recvKey : a.recvKey = s.key (!i)
  slots : Icsp.SlotsOf {1} a.streams
  untimed : Icsp.Untimed a.toEndpoint

variable {c : TweetNaCl} {s : Session} {i : Bool} {a : Icsp.IcspAssoc}

theorem Post.chunk_length_ge (x : Post) : 4 ≤ (x.chunk c s i).length := by
  cases x with
  | data m => rw [Post.chunk, Icsp.DataMsg.chunk_length]; omega
  | sack cum => exact Nat.le_of_ble_eq_true rfl
  | shutdown => exact Nat.le_of_ble_eq_true rfl

theorem Live.posts_frame (h : Live s i a) (x : Post) : Posts c s i x (Icsp.assocFrame a (x.chunk c s i)) := by
  refine ⟨a.dstAddr, a.srcPort, a.dstPort, if a.hasPeerMac then a.peerMac else bcastMac, 0, 0, ?_⟩
  rw [← h.srcMac, ← h.srcAddr, ← h.assocId, ← assocPkt_eq]
  rfl

/-- A chunk leaves on a network that takes every frame. -/
theorem Live.sendPkt (h : Live s i a) (e : Circumstances) (n : Nat) (x : Post) (hlen : (x.chunk c s i).length ≤ 1388) :
    ∃ frame, Icsp.icspSendPkt (e.io n) a (x.chunk c s i) = ([.tx (x.chunk c s i) frame], true) ∧
      Posts c s i x frame := by
  rcases Icsp.icspSendPkt_cases (e.io n) a (x.chunk c s i) with ⟨hs, -, -⟩ | ⟨-, hno⟩
  · exact ⟨_, hs, h.posts_frame x⟩
  · cases hno (by omega)

theorem Live.linked (h : Live s i a) (io : Icsp.Io) (buf : Bytes) : Live s i (Icsp.linked io a buf) :=
  { h with }

theorem Live.slot (h : Live s i a) : (Icsp.getStream a 1).2.isSome = true :=
  h.slots.slot (by decide) (Finset.mem_singleton_self 1)

/-- Records are numbered from `first` on; so many were sent. -/
structure Issued (first sent : Nat) (a : Icsp.IcspAssoc) : Prop where
  next : a.nextTsn = .ofNat (first + sent)
  seq : Icsp.sendSeq a 1 = .ofNat sent
  slots : ∀ q ∈ a.sendq, ∃ j < sent, q.tsn = .ofNat (first + j)

/-- So many of the other side's records arrived, and stream 1 handed on all of them or, when it
is deaf, only the first few. -/
structure Heard (first past : Nat) (deaf : Bool) (a : Icsp.IcspAssoc) : Prop where
  window : a.rwTsn = 0 ∧ a.rwMask = 0 ∧ past = 0 ∨ a.rwTsn.toNat + 1 = first + past ∧ 0 < past
  seen : ∀ j < past, Icsp.TsnSeen a (.ofNat (first + j))
  taken : ∃ t ≤ past, Icsp.recvSeq a 1 = .ofNat t ∧ (deaf = true ↔ t < past)

/-- Two ends and the first TSN of each. -/
structure Line extends Session where
  first : Bool → Nat

/-- End `i` when it has sent so many records and so many have arrived. -/
structure Ready (l : Line) (i : Bool) (sent past : Nat) (deaf : Bool) (a : Icsp.IcspAssoc) : Prop where
  live : Live l.toSession i a
  issued : Issued (l.first i) sent a
  heard : Heard (l.first (!i)) past deaf a

/-- The message of record `j` of end `i`. -/
def Line.msg (l : Line) (i : Bool) (j : Nat) (rec : Bytes) : Icsp.DataMsg := ⟨.ofNat (l.first i + j), 1, .ofNat j, rec⟩

theorem tsnInt_ne {k : Nat} (h : k + 1 < 2 ^ 32) : Icsp.tsnInt (.ofNat k) ≠ -1 := by
  have hk : (UInt32.ofNat k).toNat = k := UInt32.toNat_ofNat_of_lt' (by simp only [UInt32.size]; omega)
  rw [Icsp.tsnInt, hk]
  split
  · omega
  · omega

variable {l : Line} {sent past : Nat} {deaf : Bool}

/-- `icsp_data_send` of a record that fits. -/
theorem Ready.dataSend (h : Ready l i sent past deaf a) (e : Circumstances) (n : Nat) {rec : Bytes}
    (hfit : rec.length ≤ Icsp.maxSendable) (hwrap : l.first i + sent + 1 < 2 ^ 32) :
    (∃ frame, Icsp.txFrames (Icsp.icspDataSend c (e.io n) a 1 rec).2.1 = [frame] ∧
      Posts c l.toSession i (.data (l.msg i sent rec)) frame) ∧
    (Icsp.icspDataSend c (e.io n) a 1 rec).2.2 ≠ -1 ∧
    Ready l i (sent + 1) past deaf (Icsp.icspDataSend c (e.io n) a 1 rec).1 := by
  obtain ⟨ss, q, -, hret, hsent, -⟩ := Icsp.icspDataSend_goes c (e.io n) a 1 rec h.live.hasKey h.live.slot hfit rfl
  have hslots := Icsp.icspDataSend_slots c (e.io n) h.live.slots (Finset.mem_singleton_self 1) rec
  have hmsg : (⟨a.nextTsn, 1, Icsp.sendSeq a 1, rec⟩ : Icsp.DataMsg) = l.msg i sent rec := by
    rw [h.issued.next, h.issued.seq]
    rfl
  rw [hmsg] at hsent
  refine ⟨⟨_, hsent, ?_⟩, ?_, ?_⟩
  · have hframe := h.live.posts_frame (c := c) (.data (l.msg i sent rec))
    rw [Post.chunk, ← h.live.assocId, ← h.live.sendKey] at hframe
    exact hframe
  · rw [hret, h.issued.next]
    exact tsnInt_ne hwrap
  · rcases Icsp.icspDataSend_cases c (e.io n) a 1 rec with ⟨ss', hsend, -, -⟩ | ⟨-, -, -, ss', hsend, hrecv, hseq⟩
    · rw [Icsp.sentFrames, hsend] at hsent
      cases hsent
    · rw [hsend] at hslots ⊢
      constructor
      · exact { h.live with slots := hslots }
      · constructor
        · change a.nextTsn + 1 = .ofNat (l.first i + (sent + 1))
          rw [h.issued.next, ← Nat.add_assoc, UInt32.ofNat_add (l.first i + sent)]
          rfl
        · have hone := hseq 1
          rw [if_pos rfl, h.issued.seq] at hone
          exact hone.trans (UInt16.ofNat_add sent 1).symm
        · intro q' hq'
          have hold : ∀ x ∈ a.sendq, ∃ j < sent + 1, x.tsn = .ofNat (l.first i + j) := by
            intro x hx
            obtain ⟨j, hj, htsn⟩ := h.issued.slots x hx
            exact ⟨j, hj.trans (Nat.lt_succ_self sent), htsn⟩
          dsimp only at hq'
          split at hq'
          · rcases List.mem_append.mp hq' with hmem | hmem
            · exact hold q' hmem
            · obtain rfl := List.mem_singleton.mp hmem
              exact ⟨sent, Nat.lt_succ_self sent, h.issued.next⟩
          · exact hold q' hq'
      · obtain ⟨t, ht, htaken, hdeaf⟩ := h.heard.taken
        exact ⟨h.heard.window, h.heard.seen, t, ht, (hrecv 1).trans htaken, hdeaf⟩

/-- What a receiver that has `n` records takes no notice of: a record sent again, or a SACK. -/
def Aside (l : Line) (i : Bool) (n : Nat) : Post → Prop
  | .data m => (∃ j < n, m.tsn = .ofNat (l.first i + j)) ∧ m.msg.length ≤ Icsp.maxSendable
  | .sack _ => True
  | .shutdown => False

theorem mem_txFrames {acts : List Icsp.Act} {frame : Bytes} (h : frame ∈ Icsp.txFrames acts) :
    ∃ chunk, .tx chunk frame ∈ acts := by
  obtain ⟨act, hact, hsome⟩ := List.mem_filterMap.mp h
  cases act with
  | tx chunk frame' =>
    obtain rfl := Option.some.inj hsome
    exact ⟨chunk, hact⟩
  | _ => cases hsome

/-- `icsp_data_retransmit` repeats TSNs, whatever its messages have become. -/
theorem Ready.dataRetransmit (h : Ready l i sent past deaf a) (e : Circumstances) (n : Nat) :
    (∀ frame ∈ Icsp.txFrames (Icsp.icspDataRetransmit c (e.io n) a 1).2.1,
      ∃ x, Aside l i sent x ∧ Posts c l.toSession i x frame) ∧
    Ready l i sent past deaf (Icsp.icspDataRetransmit c (e.io n) a 1).1 := by
  obtain ⟨hq, hacts⟩ := Icsp.retransmitLoop_spec c (e.io n) a 1 a.sendq
  constructor
  · intro frame hframe
    obtain ⟨chunk, hact⟩ := mem_txFrames hframe
    obtain ⟨q, hmem, -, -, hact⟩ := hacts _ hact
    obtain ⟨j, hj, htsn⟩ := h.issued.slots q hmem
    change .tx chunk frame ∈ (Icsp.sealSend c (e.io n) a (Icsp.entryMsg q).tsn (Icsp.entryMsg q).streamId
      (Icsp.entryMsg q).seq (Icsp.entryMsg q).msg).1 at hact
    rcases Icsp.sealSend_cases c (e.io n) a (Icsp.entryMsg q) with ⟨hseal, hfit, -⟩ | hseal
    · rw [hseal] at hact
      simp only [List.mem_cons, reduceCtorEq, false_or, List.not_mem_nil, or_false, Icsp.Act.tx.injEq] at hact
      have hpost := h.live.posts_frame (c := c) (.data (Icsp.entryMsg q))
      rw [Post.chunk, ← h.live.assocId, ← h.live.sendKey] at hpost
      rw [hact.2]
      exact ⟨.data (Icsp.entryMsg q), ⟨⟨j, hj, htsn⟩, hfit⟩, hpost⟩
    · rw [hseal] at hact
      simp at hact
  · refine ⟨{ h.live with }, ⟨h.issued.next, h.issued.seq, ?_⟩, ⟨h.heard.window, h.heard.seen, h.heard.taken⟩⟩
    intro q hmem
    change q ∈ (Icsp.retransmitLoop c (e.io n) a 1 a.sendq).1 at hmem
    rw [hq] at hmem
    obtain ⟨q₀, hmem₀, rfl⟩ := List.mem_map.mp hmem
    obtain ⟨t, ht⟩ := Icsp.resentEntry_eq c (e.io n) a 1 q₀
    rw [ht]
    exact h.issued.slots q₀ hmem₀

theorem Ready.shutdownSend (h : Ready l i sent past deaf a) (e : Circumstances) (n : Nat) :
    (∃ frame, Icsp.txFrames (Icsp.icspShutdownSend (e.io n) a).2.1 = [frame] ∧
      Posts c l.toSession i .shutdown frame) ∧
    Ready l i sent past deaf (Icsp.icspShutdownSend (e.io n) a).1 := by
  obtain ⟨frame, hsend, hpost⟩ := h.live.sendPkt (c := c) e n .shutdown (Nat.le_of_ble_eq_true rfl)
  have hsend' : Icsp.icspSendPkt (e.io n) a (Icsp.icspChunkPut Icsp.chunkShutdown 0) = _ := hsend
  have hshut : Icsp.icspShutdownSend (e.io n) a =
      ({ a with state := .shutdown }, [.tx (Icsp.icspChunkPut Icsp.chunkShutdown 0) frame], true) := by
    rw [Icsp.icspShutdownSend, hsend']
    rfl
  rw [hshut]
  exact ⟨⟨frame, rfl, hpost⟩, { h.live with calm := .inr rfl }, ⟨h.issued.next, h.issued.seq, h.issued.slots⟩,
    h.heard.window, h.heard.seen, h.heard.taken⟩

theorem Live.sackSend (h : Live s i a) (e : Circumstances) (n : Nat) :
    ∃ frame, Icsp.txFrames (Icsp.icspSackSend (e.io n) a).1 = [frame] ∧ handedOn (Icsp.icspSackSend (e.io n) a).1 = [] ∧
      Posts c s i (.sack a.cumTsn) frame := by
  obtain ⟨frame, hsend, hpost⟩ := h.sendPkt (c := c) e n (.sack a.cumTsn) (Nat.le_of_ble_eq_true rfl)
  have hsack : Icsp.icspSackSend (e.io n) a = ([.tx (sackChunk a.cumTsn) frame], true) := hsend
  rw [hsack]
  exact ⟨frame, rfl, rfl, hpost⟩

/-- What `handleData` makes of a message. -/
theorem Live.handleData_msg (h : Live s i a) (io : Icsp.Io) (m : Icsp.DataMsg) (sp dp : UInt16) (stale : Bytes)
    (hfit : m.msg.length ≤ Icsp.maxSendable) :
    ∃ a' r sacked, Icsp.RxOutcome a m Icsp.icspMaxPayload (a', r) ∧
      (m.streamId = 1 → Icsp.SlotsOf {1} a'.streams) ∧
      (sacked = [] ∨ sacked = (Icsp.icspSackSend io a').1) ∧
      Icsp.handleData c io a (packet sp dp s.assocId ((Post.data m).chunk c s (!i)) ++ stale)
          (12 + ((Post.data m).chunk c s (!i)).length) =
        (a', (if 0 < r.ret then [.deliver r.outStream r.out] else []) ++ sacked,
          if 0 < r.ret then Icsp.icspPollData else 0) := by
  obtain ⟨hpay, hplen⟩ := packet_rx (c := c) (s := s) (i := !i) m sp dp stale Icsp.icspMaxPayload
  have hchunks := Icsp.chunks_rx c m (senderOf s (!i) sp dp) stale Icsp.icspMaxPayload hfit
  have hout := Icsp.handleCall_outcome (c := c) (a := senderOf s (!i) sp dp) m stale Icsp.icspMaxPayload h.hasKey
    h.assocId h.recvKey hfit
  have hslots := fun hone : m.streamId = 1 =>
    Icsp.handleCall_rx_slots c h.slots m (senderOf s (!i) sp dp) stale Icsp.icspMaxPayload hfit
      (by rw [hone]; exact Finset.mem_singleton_self 1)
  have hge : 12 ≤ 12 + ((Post.data m).chunk c s (!i)).length := Nat.le_add_right _ _
  have hchunk : (Post.data m).chunk c s (!i) = (Msg.data m).chunk c s (!i) := rfl
  rw [Icsp.handleCall] at hout hslots
  rw [hpay, hplen] at hout hslots hchunks
  rw [hchunk] at hge ⊢
  generalize packet sp dp s.assocId ((Msg.data m).chunk c s (!i)) ++ stale = payload at hout hslots hchunks ⊢
  generalize 12 + ((Msg.data m).chunk c s (!i)).length = plen at hout hslots hchunks hge ⊢
  change Icsp.RxOutcome a m Icsp.icspMaxPayload (Icsp.icspDataHandle c a payload plen Icsp.icspMaxPayload 0) at hout
  change m.streamId = 1 → Icsp.SlotsOf {1} (Icsp.icspDataHandle c a payload plen Icsp.icspMaxPayload 0).1.streams
    at hslots
  cases hdata : Icsp.icspDataHandle c a payload plen Icsp.icspMaxPayload 0 with
  | mk a' r =>
    rw [hdata] at hout hslots
    have hret : 0 ≤ r.ret := by
      cases hout with
      | seen hs => exact le_rfl
      | lost w hw hlong => exact le_rfl
      | noSlot w hw hfit' hno => exact le_rfl
      | buffered w ss hw hfit' hne hrecv hsend => exact le_rfl
      | delivered w ss hw hfit' hseq hrecv hsend => exact Int.natCast_nonneg _
    have hlife : Icsp.icspLifeHandle a' payload plen = (a', false) := by
      rw [icspLifeHandle_single a' hge hchunks]
      exact lifeChunks_other a' (by decide : Icsp.chunkData ≠ Icsp.chunkShutdown)
        (by decide : Icsp.chunkData ≠ Icsp.chunkStreamReset)
    obtain ⟨sacked, hsacked, heq⟩ := Icsp.handleData_result io hdata hret hlife
    exact ⟨a', r, sacked, hout, hslots, hsacked, heq⟩

/-- Nobody takes notice of the SACK behind a payload. -/
theorem Ready.sacked (h : Ready l i sent past deaf a) {e : Circumstances} {n : Nat} {sacked : List Icsp.Act}
    (hsacked : sacked = [] ∨ sacked = (Icsp.icspSackSend (e.io n) a).1) :
    (∀ frame ∈ Icsp.txFrames sacked, ∃ x, Aside l i sent x ∧ Posts c l.toSession i x frame) ∧ handedOn sacked = [] := by
  rcases hsacked with rfl | rfl
  · exact ⟨by simp [Icsp.txFrames], rfl⟩
  · obtain ⟨frame, hframe, hquiet, hpost⟩ := h.live.sackSend (c := c) e n
    rw [hframe]
    refine ⟨fun f hf => ?_, hquiet⟩
    rw [List.mem_singleton.mp hf]
    exact ⟨.sack a.cumTsn, trivial, hpost⟩

theorem ofNat16_inj {a b : Nat} (ha : a < 2 ^ 16) (hb : b < 2 ^ 16) (h : UInt16.ofNat a = .ofNat b) : a = b := by
  have hnat := congrArg UInt16.toNat h
  rwa [UInt16.toNat_ofNat_of_lt' (by simpa using ha), UInt16.toNat_ofNat_of_lt' (by simpa using hb)] at hnat

/-- The next record's TSN is new. -/
theorem Heard.not_seen {first : Nat} (h : Heard first past deaf a) (hwrap : first + past < 2 ^ 32) :
    ¬ Icsp.TsnSeen a (.ofNat (first + past)) := by
  rcases h.window with ⟨hzero, hmask, -⟩ | ⟨htop, -⟩
  · exact Icsp.not_tsnSeen_fresh hzero hmask _
  · rintro ⟨hle, -⟩
    rw [UInt32.toNat_ofNat_of_lt' (by simpa using hwrap)] at hle
    omega

/-- Once its window took the next record. -/
theorem Heard.next {first : Nat} (h : Heard first past deaf a) (hwrap : first + past < 2 ^ 32) {w : UInt32 × UInt32}
    (hw : Icsp.replayWindow a.rwTsn a.rwMask (.ofNat (first + past)) = some w) {b : Icsp.IcspAssoc} {deaf' : Bool}
    (htsn : b.rwTsn = w.1) (hmask : b.rwMask = w.2)
    (htaken : ∃ t ≤ past + 1, Icsp.recvSeq b 1 = .ofNat t ∧ (deaf' = true ↔ t < past + 1)) :
    Heard first (past + 1) deaf' b := by
  have hseen : ∀ u, Icsp.TsnSeen { a with rwTsn := w.1, rwMask := w.2 } u → Icsp.TsnSeen b u := by
    intro u hu
    rwa [Icsp.TsnSeen, htsn, hmask]
  obtain ⟨-, hnew, hold⟩ := Icsp.replayWindow_some hw
  constructor
  · have htop := Icsp.replayWindow_top hw
    rw [UInt32.toNat_ofNat_of_lt' (by simpa using hwrap)] at htop
    refine .inr ⟨?_, Nat.succ_pos past⟩
    rcases h.window with ⟨hzero, -, rfl⟩ | ⟨hlast, -⟩
    · have hnat : a.rwTsn.toNat = 0 := congrArg UInt32.toNat hzero
      rw [htsn, htop]
      omega
    · rw [htsn, htop]
      omega
  · intro j hj
    rcases Nat.lt_succ_iff_lt_or_eq.mp hj with hlt | rfl
    · exact hseen _ (hold _ (h.seen j hlt))
    · exact hseen _ hnew
  · exact htaken

/-- What the data path makes of a record: it hands it on, or is deaf from now on. -/
def recordRet (deaf : Bool) (rec : Bytes) : Icsp.DataRet :=
  if deaf ∨ Icsp.maxOpenable < rec.length then .nothing Icsp.icspMaxPayload else ⟨rec.length, rec, rec.length, 1⟩

theorem Ready.takes (h : Ready l i sent past deaf a) {rec : Bytes} (hfit : rec.length ≤ Icsp.maxSendable)
    (hwrap : l.first (!i) + past < 2 ^ 32) (hpast : past < 2 ^ 16) {a' : Icsp.IcspAssoc} {r : Icsp.DataRet}
    (hout : Icsp.RxOutcome a (l.msg (!i) past rec) Icsp.icspMaxPayload (a', r)) (hslots : Icsp.SlotsOf {1} a'.streams) :
    Ready l i sent (past + 1) (deaf || decide (Icsp.maxOpenable < rec.length)) a' ∧ r = recordRet deaf rec := by
  obtain ⟨t, ht, htaken, hdeaf⟩ := h.heard.taken
  have hnew := h.heard.not_seen hwrap
  have ht' : t ≤ past + 1 := ht.trans (Nat.le_succ past)
  cases hout with
  | seen hs => exact absurd hs hnew
  | noSlot w hw hfit' hno =>
    have hslot := h.live.slot
    have hno' : (Icsp.getStream a 1).2 = none := hno
    rw [hno'] at hslot
    cases hslot
  | lost w hw hlong =>
    have hlong' : Icsp.maxOpenable < rec.length := hlong
    rw [recordRet, if_pos (Or.inr hlong')]
    refine ⟨⟨{ h.live with }, ⟨h.issued.next, h.issued.seq, h.issued.slots⟩, ?_⟩, rfl⟩
    exact h.heard.next hwrap hw rfl rfl ⟨t, ht', htaken, by simp [hlong', Nat.lt_succ_of_le ht]⟩
  | buffered w ss hw hfit' hseq hrecv hsend =>
    have hlt : t < past := by
      refine lt_of_le_of_ne ht fun heq => hseq ?_
      have hseq' : (l.msg (!i) past rec).seq = .ofNat past := rfl
      rw [hseq', ← heq]
      exact htaken.symm
    have hdeaf' : deaf = true := hdeaf.mpr hlt
    rw [recordRet, if_pos (Or.inl hdeaf')]
    refine ⟨⟨{ h.live with slots := hslots },
      ⟨h.issued.next, (hsend 1).trans h.issued.seq, h.issued.slots⟩, ?_⟩, rfl⟩
    exact h.heard.next hwrap hw rfl rfl ⟨t, ht', (hrecv 1).trans htaken, by simp [hdeaf', Nat.lt_succ_of_le ht]⟩
  | delivered w ss hw hfit' hseq hrecv hsend =>
    have hall : past = t := ofNat16_inj hpast (by omega) (hseq.trans htaken)
    have hdeaf' : deaf = false := Bool.eq_false_iff.mpr fun hd => absurd (hdeaf.mp hd) (by omega)
    have hshort : ¬ Icsp.maxOpenable < rec.length := Nat.not_lt.mpr hfit'
    have hmin : min Icsp.icspMaxPayload rec.length = rec.length := Nat.min_eq_right (by
      simp only [Icsp.maxSendable, Icsp.icspMaxPayload] at hfit ⊢
      omega)
    have hnot : ¬ (deaf = true ∨ Icsp.maxOpenable < rec.length) := by simp [hdeaf', hshort]
    refine ⟨⟨{ h.live with slots := hslots },
      ⟨h.issued.next, (hsend 1).trans h.issued.seq, h.issued.slots⟩, ?_⟩, ?_⟩
    · refine h.heard.next hwrap hw rfl rfl ⟨past + 1, le_rfl, ?_, by simp [hdeaf', hshort]⟩
      have hone := (hrecv 1).trans (if_pos rfl)
      rw [htaken, ← hall] at hone
      exact hone.trans (UInt16.ofNat_add past 1).symm
    · rw [recordRet, if_neg hnot]
      change Icsp.DataRet.mk (min Icsp.icspMaxPayload rec.length : Nat) (rec.take (min Icsp.icspMaxPayload rec.length))
        (min Icsp.icspMaxPayload rec.length) 1 = _
      rw [hmin, List.take_length]

/-- What the data callback gets of a record, and what `icsp_poll` returns. -/
def recordResult (deaf : Bool) (rec : Bytes) : List (Nat × Bytes) × Int :=
  if deaf ∨ Icsp.maxOpenable < rec.length then ([], 0) else ([(1, rec)], Icsp.icspPollData)

/-- The next record. -/
theorem Ready.hears_record (h : Ready l i sent past deaf a) (e : Circumstances) (n : Nat) {rec : Bytes} (hne : rec ≠ [])
    (hfit : rec.length ≤ Icsp.maxSendable) (hwrap : l.first (!i) + past < 2 ^ 32) (hpast : past < 2 ^ 16)
    (sp dp : UInt16) (stale : Bytes) :
    ∃ a' acts r, Icsp.handleData c (e.io n) a
        (packet sp dp l.assocId ((Post.data (l.msg (!i) past rec)).chunk c l.toSession (!i)) ++ stale)
        (12 + ((Post.data (l.msg (!i) past rec)).chunk c l.toSession (!i)).length) = (a', acts, r) ∧
      Ready l i sent (past + 1) (deaf || decide (Icsp.maxOpenable < rec.length)) a' ∧
      (∀ frame ∈ Icsp.txFrames acts, ∃ x, Aside l i sent x ∧ Posts c l.toSession i x frame) ∧
      (handedOn acts, r) = recordResult deaf rec := by
  obtain ⟨a', r, sacked, hout, hslots, hsacked, heq⟩ :=
    h.live.handleData_msg (c := c) (e.io n) (l.msg (!i) past rec) sp dp stale hfit
  obtain ⟨hready, hret⟩ := h.takes hfit hwrap hpast hout (hslots rfl)
  have hsacks := hready.sacked (c := c) hsacked
  refine ⟨_, _, _, heq, hready, ?_, ?_⟩
  · intro frame hframe
    refine hsacks.1 frame ?_
    split at hframe
    · exact hframe
    · exact hframe
  · rw [hret, recordRet, recordResult]
    by_cases hno : deaf = true ∨ Icsp.maxOpenable < rec.length
    · rw [if_pos hno, if_pos hno]
      exact congrArg (·, 0) hsacks.2
    · have hpos : (0 : Int) < (rec.length : Int) := Int.natCast_pos.mpr (List.length_pos_iff.mpr hne)
      rw [if_neg hno, if_neg hno, if_pos hpos, if_pos hpos]
      exact congrArg (fun x => ((1, rec) :: x, Icsp.icspPollData)) hsacks.2

/-- A chunk that is not DATA may acknowledge, and close the association. -/
theorem Ready.hears_control (h : Ready l i sent past deaf a) (e : Circumstances) (n : Nat) (type : UInt8) (body : Bytes)
    (hdata : type ≠ Icsp.chunkData) (hreset : type ≠ Icsp.chunkStreamReset) (hbody : body.length < 2 ^ 16)
    (sp dp : UInt16) (stale : Bytes) :
    ∃ a' acts, Icsp.handleData c (e.io n) a
        (packet sp dp l.assocId (Icsp.icspChunkPut type body.length ++ body) ++ stale) (16 + body.length) =
          (a', acts, if type = Icsp.chunkShutdown then Icsp.icspPollClosed else 0) ∧
      Ready l i sent past deaf a' ∧
      (∀ frame ∈ Icsp.txFrames acts, ∃ x, Aside l i sent x ∧ Posts c l.toSession i x frame) ∧ handedOn acts = [] := by
  have hchunks := chunks_packet sp dp l.assocId type body stale hbody
  generalize packet sp dp l.assocId (Icsp.icspChunkPut type body.length ++ body) ++ stale = payload at hchunks ⊢
  obtain ⟨q, hq, hacked⟩ := Icsp.handleChunk_other c a ⟨type, body.length, body ++ stale⟩ (.nothing Icsp.icspMaxPayload)
    fun hd => hdata hd.1
  have hcall : Icsp.icspDataHandle c a payload (16 + body.length) Icsp.icspMaxPayload 0 =
      ({ a with sendq := q }, .nothing Icsp.icspMaxPayload) := by
    have hlong : ¬ 16 + body.length < Icsp.icspHeaderLen := by
      rw [Icsp.icspHeaderLen]
      omega
    rw [Icsp.icspDataHandle, if_neg hlong, hchunks]
    rw [Icsp.DataRet.nothing] at hq ⊢
    rw [Icsp.handleChunks_single, hq]
    rfl
  have hready : Ready l i sent past deaf { a with sendq := q } := by
    refine ⟨{ h.live with }, ⟨h.issued.next, h.issued.seq, ?_⟩, ⟨h.heard.window, h.heard.seen, h.heard.taken⟩⟩
    intro x hx
    rcases hacked with rfl | ⟨-, rfl⟩
    · exact h.issued.slots x hx
    · obtain ⟨x₀, hx₀, rfl⟩ := List.mem_map.mp hx
      split
      · exact h.issued.slots x₀ hx₀
      · exact h.issued.slots x₀ hx₀
  have hlife : Icsp.icspLifeHandle { a with sendq := q } payload (16 + body.length) =
      ({ a with sendq := q }, decide (type = Icsp.chunkShutdown)) := by
    rw [icspLifeHandle_single _ (by omega) hchunks]
    by_cases hshut : type = Icsp.chunkShutdown
    · rw [Icsp.lifeChunks, if_pos hshut, decide_eq_true hshut]
    · rw [lifeChunks_other _ hshut hreset, decide_eq_false hshut]
  obtain ⟨sacked, hsacked, heq⟩ := Icsp.handleData_result (e.io n) hcall le_rfl hlife
  have hsacks := hready.sacked (c := c) hsacked
  refine ⟨_, sacked, ?_, hready, hsacks⟩
  rw [heq]
  simp [Icsp.DataRet.nothing]

/-- A record sent again, or a SACK. -/
theorem Ready.hears_aside (h : Ready l i sent past deaf a) (e : Circumstances) (n : Nat) {x : Post}
    (hx : Aside l (!i) past x) (sp dp : UInt16) (stale : Bytes) :
    ∃ a' acts, Icsp.handleData c (e.io n) a (packet sp dp l.assocId (x.chunk c l.toSession (!i)) ++ stale)
        (12 + (x.chunk c l.toSession (!i)).length) = (a', acts, 0) ∧ Ready l i sent past deaf a' ∧
      (∀ frame ∈ Icsp.txFrames acts, ∃ x, Aside l i sent x ∧ Posts c l.toSession i x frame) ∧ handedOn acts = [] := by
  cases x with
  | shutdown => exact absurd hx id
  | sack cum =>
    obtain ⟨a', acts, heq, hrest⟩ := h.hears_control (c := c) e n Icsp.chunkSack (put32 cum) (by decide) (by decide)
      (Nat.lt_of_succ_le (Nat.le_of_ble_eq_true rfl)) sp dp stale
    exact ⟨a', acts, heq, hrest⟩
  | data m =>
    obtain ⟨⟨j, hj, htsn⟩, hfit⟩ := hx
    obtain ⟨a', r, sacked, hout, -, hsacked, heq⟩ := h.live.handleData_msg (c := c) (e.io n) m sp dp stale hfit
    have hseen : Icsp.TsnSeen a m.tsn := by
      rw [htsn]
      exact h.heard.seen j hj
    have hsame : a' = a ∧ r = .nothing Icsp.icspMaxPayload := by
      cases hout with
      | seen hs => exact ⟨rfl, rfl⟩
      | lost w hw hlong => exact absurd hseen (Icsp.replayWindow_some hw).1
      | noSlot w hw hfit' hno => exact absurd hseen (Icsp.replayWindow_some hw).1
      | buffered w ss hw hfit' hne hrecv hsend => exact absurd hseen (Icsp.replayWindow_some hw).1
      | delivered w ss hw hfit' hseq hrecv hsend => exact absurd hseen (Icsp.replayWindow_some hw).1
    obtain ⟨rfl, rfl⟩ := hsame
    exact ⟨a', sacked, heq, h, h.sacked hsacked⟩

variable {e : Circumstances} {k : Conn}

theorem Ready.linked (h : Ready l i sent past deaf a) (io : Icsp.Io) (buf : Bytes) :
    Ready l i sent past deaf (Icsp.linked io a buf) :=
  ⟨h.live.linked io buf, ⟨h.issued.next, h.issued.seq, h.issued.slots⟩,
    ⟨h.heard.window, h.heard.seen, h.heard.taken⟩⟩

theorem Post.chunk_type (x : Post) :
    byteAt (x.chunk c s i) 0 ≠ Icsp.chunkInit ∧ byteAt (x.chunk c s i) 0 ≠ Icsp.chunkHeartbeat := by
  cases x with
  | data m => exact (by decide : Icsp.chunkData ≠ Icsp.chunkInit ∧ Icsp.chunkData ≠ Icsp.chunkHeartbeat)
  | sack cum => exact (by decide : Icsp.chunkSack ≠ Icsp.chunkInit ∧ Icsp.chunkSack ≠ Icsp.chunkHeartbeat)
  | shutdown => exact (by decide : Icsp.chunkShutdown ≠ Icsp.chunkInit ∧ Icsp.chunkShutdown ≠ Icsp.chunkHeartbeat)

/-- What a poll leaves behind: the connection, frames that nobody takes notice of, and the
result with what is in `pend`. -/
structure Polled (c : TweetNaCl) (e : Circumstances) (l : Line) (i : Bool) (sent past : Nat) (deaf : Bool) (k : Conn)
    (rx : Icsp.Rx) (r : Int) (pend : Bytes) : Prop where
  result : (k.poll c e rx).2.2 = (r, pend)
  frames : ∀ frame ∈ (k.poll c e rx).2.1, ∃ x, Aside l i sent x ∧ Posts c l.toSession i x frame
  ready : Ready l i sent past deaf (k.poll c e rx).1.host.assoc

/-- From what `handleData` makes of the packet to what the poll does. -/
theorem Ready.polled {past' : Nat} {deaf' : Bool} {x : Post} {frame : Bytes} {r : Int} {data : List (Nat × Bytes)}
    (h : Ready l i sent past deaf k.host.assoc) (hpost : Posts c l.toSession (!i) x frame)
    (hlen : (x.chunk c l.toSession (!i)).length ≤ 1388)
    (hdata : ∀ a, Ready l i sent past deaf a → ∀ sp dp stale, ∃ a' acts, Icsp.handleData c (e.io k.calls) a
      (packet sp dp l.assocId (x.chunk c l.toSession (!i)) ++ stale) (12 + (x.chunk c l.toSession (!i)).length) =
        (a', acts, r) ∧ Ready l i sent past' deaf' a' ∧
      (∀ frame ∈ Icsp.txFrames acts, ∃ x, Aside l i sent x ∧ Posts c l.toSession i x frame) ∧ handedOn acts = data) :
    Polled c e l i sent past' deaf' k (e.rx k.calls frame) r (data.foldl (fun pend d => biteDataCb pend d.2) []) := by
  obtain ⟨dst, sp, dp, hcar⟩ := hpost
  have hge := x.chunk_length_ge (c := c) (s := l.toSession) (i := !i)
  obtain ⟨hinit, hbeat⟩ := x.chunk_type (c := c) (s := l.toSession) (i := !i)
  have hmac : l.mac (!i) ≠ k.host.assoc.srcMac := by
    rw [h.live.srcMac]
    exact l.mac_not i
  have hne : frame.length ≠ 0 := by
    obtain ⟨dm, fsp, fdp, rfl⟩ := hcar
    rw [buildFrame_length, packet_length]
    omega
  have hframe := Icsp.icspHandleFrame_carries (c := c) (e.io k.calls) (h := k.host) (e.stale k.calls) hcar hmac
    h.live.calm hge hlen hinit hbeat
  obtain ⟨a', acts, heq, hready, hacts, hon⟩ :=
    hdata _ (h.linked (e.io k.calls) (frame ++ e.stale k.calls)) sp dp (e.stale k.calls)
  have hpoll : k.poll c e (e.rx k.calls frame) = (⟨k.calls + 1, { k.host with assoc := a' }⟩, Icsp.txFrames acts, r,
      data.foldl (fun pend d => biteDataCb pend d.2) []) := by
    rw [Conn.poll, Circumstances.rx, Icsp.icspPoll_frame c _ _ hne, hframe]
    simp only [heq, hon]
  constructor
  · rw [hpoll]
  · rw [hpoll]
    exact hacts
  · rw [hpoll]
    exact hready

theorem Ready.polls_record (h : Ready l i sent past deaf k.host.assoc) {rec frame : Bytes} (hne : rec ≠ [])
    (hfit : rec.length ≤ Icsp.maxSendable) (hwrap : l.first (!i) + past < 2 ^ 32) (hpast : past < 2 ^ 16)
    (hpost : Posts c l.toSession (!i) (.data (l.msg (!i) past rec)) frame) :
    if deaf ∨ Icsp.maxOpenable < rec.length then
      Polled c e l i sent (past + 1) true k (e.rx k.calls frame) Icsp.icspPollTimeout []
    else Polled c e l i sent (past + 1) false k (e.rx k.calls frame) Icsp.icspPollData rec := by
  have hlen : ((Post.data (l.msg (!i) past rec)).chunk c l.toSession (!i)).length ≤ 1388 := by
    have hmsg : (l.msg (!i) past rec).msg.length ≤ 1336 := hfit
    rw [Post.chunk, Icsp.DataMsg.chunk_length]
    omega
  have hpolled : Polled c e l i sent (past + 1) (deaf || decide (Icsp.maxOpenable < rec.length)) k
      (e.rx k.calls frame) (recordResult deaf rec).2
      ((recordResult deaf rec).1.foldl (fun pend d => biteDataCb pend d.2) []) :=
    h.polled hpost hlen fun a ha sp dp stale => by
      obtain ⟨a', acts, r, heq, hready, hacts, hon⟩ := ha.hears_record (c := c) e k.calls hne hfit hwrap hpast sp dp stale
      rw [← hon]
      exact ⟨a', acts, heq, hready, hacts, rfl⟩
  split
  · rename_i hno
    have hdeaf : (deaf || decide (Icsp.maxOpenable < rec.length)) = true := by simpa using hno
    rw [hdeaf, recordResult, if_pos hno] at hpolled
    exact hpolled
  · rename_i hno
    have hdeaf : (deaf || decide (Icsp.maxOpenable < rec.length)) = false := by simpa using hno
    have hshort : ¬ (([] : Bytes) ≠ [] ∨ btlsMaxRec < rec.length) := by
      have hfit' : rec.length ≤ 1336 := hfit
      simp only [ne_eq, not_true_eq_false, false_or, btlsMaxRec]
      omega
    rw [hdeaf, recordResult, if_neg hno] at hpolled
    simp only [List.foldl_cons, List.foldl_nil, biteDataCb, if_neg hshort] at hpolled
    exact hpolled

theorem Ready.polls_aside (h : Ready l i sent past deaf k.host.assoc) {x : Post} {frame : Bytes}
    (hx : Aside l (!i) past x) (hpost : Posts c l.toSession (!i) x frame) :
    Polled c e l i sent past deaf k (e.rx k.calls frame) Icsp.icspPollTimeout [] := by
  have hlen : (x.chunk c l.toSession (!i)).length ≤ 1388 := by
    cases x with
    | data m =>
      have hfit : m.msg.length ≤ 1336 := hx.2
      rw [Post.chunk, Icsp.DataMsg.chunk_length]
      omega
    | sack cum => exact Nat.le_of_ble_eq_true rfl
    | shutdown => exact Nat.le_of_ble_eq_true rfl
  exact h.polled hpost hlen fun a ha sp dp stale => ha.hears_aside (c := c) e k.calls hx sp dp stale

theorem Ready.polls_shutdown (h : Ready l i sent past deaf k.host.assoc) {frame : Bytes}
    (hpost : Posts c l.toSession (!i) .shutdown frame) :
    Polled c e l i sent past deaf k (e.rx k.calls frame) Icsp.icspPollClosed [] := by
  have hlen : (Post.shutdown.chunk c l.toSession (!i)).length ≤ 1388 := Nat.le_of_ble_eq_true rfl
  exact h.polled hpost hlen fun a ha sp dp stale => ha.hears_control (c := c) e k.calls Icsp.chunkShutdown [] (by decide)
    (by decide) (by decide) sp dp stale

theorem Ready.polls_nothing (h : Ready l i sent past deaf k.host.assoc) :
    Polled c e l i sent past deaf k .timedOut Icsp.icspPollTimeout [] := by
  have hpoll : k.poll c e .timedOut = (⟨k.calls + 1, k.host⟩, [], Icsp.icspPollTimeout, []) := by
    rw [Conn.poll, Icsp.icspPoll_timedOut c _ h.live.untimed]
    rfl
  constructor
  · rw [hpoll]
  · rw [hpoll]
    exact fun _ hf => nomatch hf
  · rw [hpoll]
    exact h

end Bite
