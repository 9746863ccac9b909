import BaitNet.Established
import BaitNet.ExchangeC
import BaitNet.Lossless
import BaitNet.SessionSpec

/-!
# The C implementation in the data phase

`icsp_data_send`, `icsp_stream_reset` and `icsp_handle_frame` of an established association,
as one end of a network that takes every frame.
-/
namespace Interop

open Wire Link Crypto

/-- What goes to the `on_data` callback. -/
def handedOn (acts : List Icsp.Act) : List (Nat × Bytes) :=
  acts.filterMap fun
    | .deliver stream data => some (stream.toNat, data)
    | _ => none

variable (c : TweetNaCl)

/-- An association in its process, with what the outside supplies to each of its calls. -/
def cEnd (e : Circumstances) : End where
  State := Nat × Icsp.Host
  call s x :=
    match x with
    | .data sid msg =>
      let r := Icsp.icspDataSend c (e.io s.1) s.2.assoc sid msg
      ((s.1 + 1, { s.2 with assoc := r.1 }), Icsp.txFrames r.2.1)
    | .reset sid mode => ((s.1 + 1, s.2), Icsp.txFrames (Icsp.icspStreamReset (e.io s.1) s.2.assoc sid mode).1)
  receive s frame :=
    let r := Icsp.icspHandleFrame c (e.io s.1) s.2 (frame ++ e.stale s.1) frame.length
    ((s.1 + 1, r.1), Icsp.txFrames r.2.1, handedOn r.2.1)
  sendSeq s sid := (Icsp.sendSeq s.2.assoc sid).toNat
  recvSeq s sid := (Icsp.recvSeq s.2.assoc sid).toNat
  hasRoom s sid := (Icsp.getStream s.2.assoc sid).2.isSome
  isClear s sid := Icsp.sendSeq s.2.assoc sid = 0 ∧ Icsp.recvSeq s.2.assoc sid = 0

/-- An established association of end `i` with these counters. -/
structure CReads (s : Session) (i : Bool) (a : Icsp.IcspAssoc) (v : Counters) : Prop where
  state : a.state = .established
  hasKey : a.hasKey = true
  srcMac : a.srcMac = s.mac i
  srcAddr : a.srcAddr = s.addr i
  assocId : a.assocId = s.assocId
  sendKey : a.sendKey = s.key i
  recvKey : a.recvKey = s.key (!i)
  nextTsn : a.nextTsn = .ofNat v.next
  sendSeq : ∀ sid, Icsp.sendSeq a sid = v.sendSeq sid
  recvSeq : ∀ sid, Icsp.recvSeq a sid = v.recvSeq sid
  window : a.rwTsn = 0 ∧ a.rwMask = 0 ∨ a.rwTsn.toNat < v.low

variable {c} {s : Session} {i : Bool} {a : Icsp.IcspAssoc} {v : Counters}

theorem carries_assocFrame (h : CReads s i a v) (m : Msg) :
    Frames c s i m (Icsp.assocFrame a (m.chunk c s i)) := by
  refine ⟨a.dstAddr, a.srcPort, a.dstPort, if a.hasPeerMac then a.peerMac else bcastMac, 0, 0, ?_⟩
  rw [← h.srcMac, ← h.srcAddr, ← h.assocId, ← assocPkt_eq]
  rfl

/-- A control chunk leaves on a network that takes every frame. -/
theorem icspSendPkt_frames (h : CReads s i a v) (e : Circumstances) (n : Nat) (m : Msg)
    (hlen : (m.chunk c s i).length ≤ 1388) :
    ∃ frame, Icsp.icspSendPkt (e.io n) a (m.chunk c s i) = ([.tx (m.chunk c s i) frame], true) ∧
      Frames c s i m frame := by
  rcases Icsp.icspSendPkt_cases (e.io n) a (m.chunk c s i) with ⟨hs, -, -⟩ | ⟨-, hno⟩
  · exact ⟨_, hs, carries_assocFrame h m⟩
  · cases hno (by omega)

/-- The sizes at which the C sender advances its counters only for what leaves. -/
def cKeeps (n : Nat) : Prop := n ≤ Icsp.maxSendable ∨ Icsp.icspMaxPayload < n

instance (n : Nat) : Decidable (cKeeps n) := inferInstanceAs (Decidable (_ ∨ _))

/-- What the 1024 bytes of the opener take. -/
def cOpens (n : Nat) : Prop := n ≤ Icsp.maxOpenable

instance (n : Nat) : Decidable (cOpens n) := inferInstanceAs (Decidable (_ ≤ _))

theorem icspDataSend_reads (h : CReads s i a v) (e : Circumstances) (n : Nat) (sid : UInt16) {msg : Bytes}
    (hkeeps : cKeeps msg.length) :
    (∃ frame, Icsp.txFrames (Icsp.icspDataSend c (e.io n) a sid msg).2.1 = [frame] ∧
      Frames c s i (.data (v.msg sid msg)) frame ∧ msg.length ≤ Icsp.maxSendable ∧
      CReads s i (Icsp.icspDataSend c (e.io n) a sid msg).1 (v.sent sid)) ∨
    (Icsp.txFrames (Icsp.icspDataSend c (e.io n) a sid msg).2.1 = [] ∧
      ¬ (msg.length ≤ Icsp.maxSendable ∧ (Icsp.getStream a sid).2.isSome = true) ∧
      CReads s i (Icsp.icspDataSend c (e.io n) a sid msg).1 v) := by
  have hm : v.msg sid msg = ⟨a.nextTsn, sid, Icsp.sendSeq a sid, msg⟩ := by
    rw [Counters.msg, h.nextTsn, h.sendSeq]
  rcases Icsp.icspDataSend_cases c (e.io n) a sid msg with ⟨ss, hsend, hrecv', hsend'⟩ |
    ⟨-, hslot, hlen, ss, hsend, hrecv', hsend'⟩
  · refine .inr ⟨by rw [hsend]; rfl, fun hgo => ?_, ?_⟩
    · obtain ⟨_, _, -, -, hgone, -⟩ := Icsp.icspDataSend_goes c (e.io n) a sid msg h.hasKey hgo.2 hgo.1 rfl
      rw [Icsp.sentFrames, hsend] at hgone
      cases hgone
    · rw [hsend]
      exact { h with
        sendSeq := fun j => (hsend' j).trans (h.sendSeq j)
        recvSeq := fun j => (hrecv' j).trans (h.recvSeq j) }
  · have hfit : msg.length ≤ Icsp.maxSendable := hkeeps.resolve_right (Nat.not_lt.mpr hlen)
    refine .inl ⟨Icsp.dataFrame c a (v.msg sid msg), ?_, ?_, hfit, ?_⟩
    · obtain ⟨_, _, -, -, hgone, -⟩ := Icsp.icspDataSend_goes c (e.io n) a sid msg h.hasKey hslot hfit rfl
      rw [hm]
      exact hgone
    · have hframe := carries_assocFrame (c := c) h (.data (v.msg sid msg))
      rw [Msg.chunk, ← h.assocId, ← h.sendKey] at hframe
      exact hframe
    · rw [hsend]
      refine { h with
        nextTsn := ?_
        sendSeq := fun j => ?_
        recvSeq := fun j => (hrecv' j).trans (h.recvSeq j) }
      · rw [h.nextTsn, Counters.sent, UInt32.ofNat_add]
        rfl
      · rw [Counters.sent]
        exact (hsend' j).trans (by rw [h.sendSeq]; rfl)

theorem chunks_packet (sp dp : UInt16) (aid : UInt32) (type : UInt8) (body stale : Bytes) (h : body.length < 2 ^ 16) :
    Icsp.chunks (packet sp dp aid (Icsp.icspChunkPut type body.length ++ body) ++ stale) (16 + body.length) =
      [⟨type, body.length, body ++ stale⟩] := by
  rw [packet, Icsp.assocPkt, Icsp.icspPkt]
  exact Icsp.chunks_single _ body stale type (by simp [Icsp.icspHeaderLen]) h

/-- Established, anything but an INIT goes to the data path. -/
theorem handlePayload_established {io : Icsp.Io} {h : Icsp.Host} {buf payload : Bytes} {plen : Nat}
    (hstate : h.assoc.state = .established) (hinit : byteAt payload Icsp.icspHeaderLen ≠ Icsp.chunkInit) :
    Icsp.handlePayload c io h buf payload plen =
      let r := Icsp.handleData c io h.assoc payload plen
      ({ h with assoc := r.1 }, r.2.1, r.2.2) := by
  have hrekey : ¬ Icsp.Rekeying h.assoc := by
    rw [Icsp.Rekeying, hstate]
    decide
  have hwait : ¬ h.assoc.state = .rekeyWaitCookie := by
    rw [hstate]
    decide
  have hserver : Icsp.icspRekeyServerStep c io h buf payload plen = (h, [], 0) := by
    rw [Icsp.icspRekeyServerStep, if_neg fun hi => hinit hi.2, if_neg fun he => hwait he.1]
  have hserve : Icsp.handleServer c io h buf payload plen =
      let r := Icsp.handleData c io h.assoc payload plen
      ({ h with assoc := r.1 }, r.2.1, r.2.2) := by
    unfold Icsp.handleServer
    rw [if_pos (.inl hstate), hserver]
    rfl
  unfold Icsp.handlePayload
  rw [if_neg hrekey]
  dsimp only
  rw [hserve]
  rfl

/-- A frame of the other end goes to the data path. -/
theorem icspHandleFrame_frames (e : Circumstances) (n : Nat) {h : Icsp.Host} (ha : CReads s i h.assoc v) {m : Msg}
    {frame : Bytes} (hframe : Frames c s (!i) m frame) (hlen : (m.chunk c s (!i)).length ≤ 1388) :
    ∃ sp dp, Icsp.icspHandleFrame c (e.io n) h (frame ++ e.stale n) frame.length =
      let a := Icsp.linked (e.io n) h.assoc (frame ++ e.stale n)
      let r := Icsp.handleData c (e.io n) a (packet sp dp s.assocId (m.chunk c s (!i)) ++ e.stale n)
        (12 + (m.chunk c s (!i)).length)
      ({ h with assoc := r.1 }, r.2.1, r.2.2) := by
  obtain ⟨dst, sp, dp, dm, fsp, fdp, rfl⟩ := hframe
  generalize e.stale n = stale
  have hge := Msg.chunk_length_ge c s (!i) m
  have hflen := buildFrame_length dm (s.mac (!i)) (s.addr (!i)) dst ipv69NextStream 64 fsp fdp
    (packet sp dp s.assocId (m.chunk c s (!i)))
  have hpay := framePayload_build dm (s.mac (!i)) (s.addr (!i)) dst ipv69NextStream 64 fsp fdp
    (packet sp dp s.assocId (m.chunk c s (!i))) stale
  have hmac := frameSrcMac_build dm (s.mac (!i)) (s.addr (!i)) dst ipv69NextStream 64 fsp fdp
    (packet sp dp s.assocId (m.chunk c s (!i))) stale
  have hnext := frameNextHeader_build dm (s.mac (!i)) (s.addr (!i)) dst ipv69NextStream 64 fsp fdp
    (packet sp dp s.assocId (m.chunk c s (!i))) stale
  rw [packet_length] at hflen
  revert hflen hpay hmac hnext
  generalize buildFrame dm (s.mac (!i)) (s.addr (!i)) dst ipv69NextStream 64 fsp fdp
    (packet sp dp s.assocId (m.chunk c s (!i))) = frame
  intro hflen hpay hmac hnext
  refine ⟨sp, dp, ?_⟩
  have htype : byteAt (framePayload (frame ++ stale)) Icsp.icspHeaderLen = m.type := by
    rw [hpay, ← Msg.chunk_type c s (!i)]
    exact packet_type stale sp dp s.assocId 0 (by omega)
  have hn : frame.length - 14 - ipv69HeaderLen = 12 + (m.chunk c s (!i)).length := by
    simp only [ipv69HeaderLen]
    omega
  have hown : Icsp.ownTxControl h.assoc (frame ++ stale) frame.length = false := by
    have hshort : ¬ frame.length < 14 + ipv69HeaderLen + Icsp.icspHeaderLen + Icsp.icspChunkHdr := by
      simp only [ipv69HeaderLen, Icsp.icspHeaderLen, Icsp.icspChunkHdr]
      omega
    have hother : frameSrcMac (frame ++ stale) ≠ h.assoc.srcMac := by
      rw [hmac, ha.srcMac]
      exact s.mac_not i
    rw [Icsp.ownTxControl, if_neg hshort, if_pos hother]
  have hadm : Icsp.frameAdmitted h.assoc (frame ++ stale) frame.length = true := by
    have hlong : 14 + ipv69HeaderLen + Icsp.icspHeaderLen ≤ frame.length := by
      simp only [ipv69HeaderLen, Icsp.icspHeaderLen]
      omega
    rw [Icsp.frameAdmitted, decide_eq_true hlong, hown, hnext, hn, hpay, icspCheckPkt_packet _ _ _ _ hlen]
    rfl
  have hbeat : m.type ≠ Icsp.chunkHeartbeat := by
    cases m with
    | data m => exact (by decide : Icsp.chunkData ≠ Icsp.chunkHeartbeat)
    | reset sid mode => exact (by decide : Icsp.chunkStreamReset ≠ Icsp.chunkHeartbeat)
    | sack cum => exact (by decide : Icsp.chunkSack ≠ Icsp.chunkHeartbeat)
  have hinit : m.type ≠ Icsp.chunkInit := by
    cases m with
    | data m => exact (by decide : Icsp.chunkData ≠ Icsp.chunkInit)
    | reset sid mode => exact (by decide : Icsp.chunkStreamReset ≠ Icsp.chunkInit)
    | sack cum => exact (by decide : Icsp.chunkSack ≠ Icsp.chunkInit)
  rcases Icsp.icspHandleFrame_cases c (e.io n) h (frame ++ stale) frame.length with ⟨hno, -⟩ | ⟨-, heq⟩
  · rw [hadm] at hno
    cases hno
  · have hnone : Icsp.beatOf (e.io n) (Icsp.linked (e.io n) h.assoc (frame ++ stale)) (framePayload (frame ++ stale))
        (frame.length - 14 - ipv69HeaderLen) = [] := by
      rw [Icsp.beatOf, htype]
      exact if_neg fun hb => hbeat hb.2
    have hdata := @handlePayload_established c (e.io n) { h with assoc := Icsp.linked (e.io n) h.assoc (frame ++ stale) }
      (frame ++ stale) (framePayload (frame ++ stale)) (frame.length - 14 - ipv69HeaderLen) ha.state
      (by rw [htype]; exact hinit)
    rw [heq, hnone, hdata, hn, hpay]
    rfl

theorem CReads.linked (h : CReads s i a v) (io : Icsp.Io) (buf : Bytes) : CReads s i (Icsp.linked io a buf) v :=
  { h with }

theorem getStream_linked (io : Icsp.Io) (a : Icsp.IcspAssoc) (buf : Bytes) (sid : UInt16) :
    (Icsp.getStream (Icsp.linked io a buf) sid).2 = (Icsp.getStream a sid).2 := by
  have hfind : Icsp.findStream (Icsp.linked io a buf) sid = Icsp.findStream a sid := rfl
  have hstreams : (Icsp.linked io a buf).streams = a.streams := rfl
  rw [Icsp.getStream, Icsp.getStream, hfind, hstreams]
  split
  · rfl
  · split
    · rfl
    · rfl

/-- What `handleData` makes of a payload that is neither an error nor a shutdown. -/
theorem handleData_of (io : Icsp.Io) {a a' a'' : Icsp.IcspAssoc} {payload : Bytes} {plen : Nat} {r : Icsp.DataRet}
    (hdata : Icsp.icspDataHandle c a payload plen Icsp.icspMaxPayload 0 = (a', r)) (hret : 0 ≤ r.ret)
    (hlife : Icsp.icspLifeHandle a' payload plen = (a'', false)) :
    (Icsp.handleData c io a payload plen).1 = a'' ∧
      ∃ sacked, (sacked = [] ∨ a'.cumTsn ≠ a.cumTsn ∧ sacked = (Icsp.icspSackSend io a').1) ∧
        (Icsp.handleData c io a payload plen).2.1 =
          (if 0 < r.ret then [.deliver r.outStream r.out] else []) ++ sacked := by
  unfold Icsp.handleData
  simp only [hdata, hlife, if_neg (Int.not_lt.mpr hret), true_and]
  refine ⟨_, ?_, rfl⟩
  split
  · rename_i hcum
    exact .inr ⟨hcum.1, rfl⟩
  · exact .inl rfl

/-- The association of the sender, as far as a receive call of its frames depends on it. -/
def senderOf (s : Session) (i : Bool) (sp dp : UInt16) : Icsp.IcspAssoc :=
  { Icsp.IcspAssoc.zero with srcPort := sp, dstPort := dp, assocId := s.assocId, sendKey := s.key i }

/-- The packet of a message as the call that it leads to. -/
theorem packet_rx (m : Icsp.DataMsg) (sp dp : UInt16) (stale : Bytes) (outlen : Nat) :
    (m.rx c (senderOf s i sp dp) stale outlen).payload =
        packet sp dp s.assocId ((Msg.data m).chunk c s i) ++ stale ∧
      (m.rx c (senderOf s i sp dp) stale outlen).plen = 12 + ((Msg.data m).chunk c s i).length := by
  constructor
  · exact Icsp.framePayload_assocFrame _ _ _
  · have hlen : (Icsp.dataFrame c (senderOf s i sp dp) m).length = 58 + ((Msg.data m).chunk c s i).length :=
      Icsp.assocFrame_length _ _
    rw [Icsp.DataMsg.rx, Icsp.rxFrame]
    dsimp only
    rw [hlen, frameHeaderLen, ipv69HeaderLen]
    omega

theorem lifeChunks_other {ch : Icsp.Chunk} (a : Icsp.IcspAssoc) (hshut : ch.type ≠ Icsp.chunkShutdown)
    (hreset : ch.type ≠ Icsp.chunkStreamReset) : Icsp.lifeChunks [ch] a = (a, false) := by
  rw [Icsp.lifeChunks, if_neg hshut, if_neg fun h => hreset h.1]
  rfl

/-- In step, the TSN of a message is new. -/
theorem CReads.not_seen (h : CReads s i a v) {tsn : UInt32} (hlow : v.low ≤ tsn.toNat) : ¬ Icsp.TsnSeen a tsn := by
  rcases h.window with ⟨hzero, hmask⟩ | hlt
  · exact Icsp.not_tsnSeen_fresh hzero hmask tsn
  · rintro ⟨hle, -⟩
    omega

theorem icspLifeHandle_single {payload : Bytes} {plen : Nat} {ch : Icsp.Chunk} (a : Icsp.IcspAssoc) (hplen : 12 ≤ plen)
    (hchunks : Icsp.chunks payload plen = [ch]) : Icsp.icspLifeHandle a payload plen = Icsp.lifeChunks [ch] a := by
  have hlong : ¬ plen < Icsp.icspHeaderLen := Nat.not_lt.mpr hplen
  rw [Icsp.icspLifeHandle, if_neg hlong, hchunks]

/-- The SACK behind a message, if there is one. -/
theorem sacked_frames (h : CReads s i a v) (e : Circumstances) (n : Nat) {sacked : List Icsp.Act}
    (hs : sacked = [] ∨ sacked = (Icsp.icspSackSend (e.io n) a).1) :
    handedOn sacked = [] ∧
      ∃ cums : List UInt32, List.Forall₂ (Frames c s i) (cums.map .sack) (Icsp.txFrames sacked) := by
  rcases hs with rfl | rfl
  · exact ⟨rfl, [], .nil⟩
  · obtain ⟨frame, hsend, hframe⟩ := icspSendPkt_frames (c := c) h e n (.sack a.cumTsn) (Nat.le_of_ble_eq_true rfl)
    have hsack : Icsp.icspSackSend (e.io n) a = ([.tx (sackChunk a.cumTsn) frame], true) := hsend
    rw [hsack]
    exact ⟨rfl, [a.cumTsn], .cons hframe .nil⟩

/-- A message that arrives in order. -/
theorem handleData_data (e : Circumstances) (n : Nat) (h : CReads s i a v) (m : Icsp.DataMsg) (sp dp : UInt16)
    (stale : Bytes) (hseq : m.seq = v.recvSeq m.streamId) (hlow : v.low ≤ m.tsn.toNat)
    (hfit : m.msg.length ≤ Icsp.maxSendable) (hopen : cOpens m.msg.length)
    (hroom : (Icsp.getStream a m.streamId).2.isSome = true) :
    ∃ r, Icsp.handleData c (e.io n) a (packet sp dp s.assocId ((Msg.data m).chunk c s (!i)) ++ stale)
        (12 + ((Msg.data m).chunk c s (!i)).length) = r ∧ CReads s i r.1 (v.received m) ∧
      (∃ cums : List UInt32, List.Forall₂ (Frames c s i) (cums.map .sack) (Icsp.txFrames r.2.1)) ∧
      (m.msg ≠ [] → handedOn r.2.1 = [(m.streamId.toNat, m.msg)]) := by
  obtain ⟨hpay, hplen⟩ := packet_rx (c := c) (s := s) (i := !i) m sp dp stale Icsp.icspMaxPayload
  have hchunks := Icsp.chunks_rx c m (senderOf s (!i) sp dp) stale Icsp.icspMaxPayload hfit
  have hout := Icsp.handleCall_outcome (c := c) (a := senderOf s (!i) sp dp) m stale Icsp.icspMaxPayload h.hasKey
    h.assocId h.recvKey hfit
  rw [Icsp.handleCall] at hout
  rw [hpay, hplen] at hout hchunks
  have hge : 12 ≤ 12 + ((Msg.data m).chunk c s (!i)).length := Nat.le_add_right _ _
  generalize packet sp dp s.assocId ((Msg.data m).chunk c s (!i)) ++ stale = payload at hout hchunks
  generalize 12 + ((Msg.data m).chunk c s (!i)).length = plen at hout hchunks hge
  refine ⟨_, rfl, ?_⟩
  have hnew := h.not_seen hlow
  have hopen' : m.msg.length ≤ 1016 := hopen
  cases hdata : Icsp.icspDataHandle c a payload plen Icsp.icspMaxPayload 0 with
  | mk a' r =>
    have hlife : Icsp.icspLifeHandle a' payload plen = (a', false) := by
      rw [icspLifeHandle_single a' hge hchunks]
      exact lifeChunks_other a' (by decide : Icsp.chunkData ≠ Icsp.chunkShutdown)
        (by decide : Icsp.chunkData ≠ Icsp.chunkStreamReset)
    change Icsp.RxOutcome a m Icsp.icspMaxPayload (Icsp.icspDataHandle c a payload plen Icsp.icspMaxPayload 0) at hout
    rw [hdata] at hout
    cases hout with
    | seen hs => exact absurd hs hnew
    | lost w hw hlong => exact absurd hopen (Nat.not_le.mpr hlong)
    | noSlot w hw hfit' hno =>
      rw [hno] at hroom
      cases hroom
    | buffered w ss hw hfit' hne hrecv hsend => exact absurd (hseq.trans (h.recvSeq m.streamId).symm) hne
    | delivered w ss hw hfit' hseq' hrecv hsend =>
      have hmin : min Icsp.icspMaxPayload m.msg.length = m.msg.length := Nat.min_eq_right (by
        simp only [Icsp.icspMaxPayload]
        omega)
      rw [hmin, List.take_length] at hdata
      obtain ⟨hassoc, sacked, hs, hacts⟩ := handleData_of (e.io n) hdata (Int.natCast_nonneg _) hlife
      have hreads : CReads s i { a with
          rwTsn := w.1, rwMask := w.2, streams := ss, cumTsn := Icsp.cumAfter a m.tsn } (v.received m) := by
        refine { h with
          sendSeq := fun j => (hsend j).trans (h.sendSeq j)
          recvSeq := fun j => (hrecv j).trans (by rw [h.recvSeq]; rfl)
          window := ?_ }
        have htop := Icsp.replayWindow_top hw
        refine .inr ?_
        change w.1.toNat < m.tsn.toNat + 1
        rcases h.window with ⟨hzero, -⟩ | hlt
        · rw [htop, hzero]
          simp
        · omega
      obtain ⟨hquiet, hsacks⟩ := sacked_frames (c := c) hreads e n (hs.imp_right And.right)
      rw [hassoc, hacts]
      refine ⟨hreads, ?_, fun hne => ?_⟩
      · obtain ⟨cums, hcums⟩ := hsacks
        refine ⟨cums, ?_⟩
        rw [Icsp.txFrames, List.filterMap_append]
        split
        · exact hcums
        · exact hcums
      · have hpos : (0 : Int) < (m.msg.length : Int) := Int.natCast_pos.mpr (List.length_pos_iff.mpr hne)
        rw [if_pos hpos, handedOn, List.filterMap_append]
        exact congrArg (_ ++ ·) hquiet

/-- A reset sets the counters of its stream and no others. -/
theorem find_resetStreams (sid j : UInt16) (ss : List Icsp.IcspStream) :
    (Icsp.resetStreams sid ss).find? (fun x => x.id = j) =
      (ss.find? fun x => x.id = j).map fun x =>
        if j = sid then { x with nextSendSeq := 0, nextRecvSeq := 0 } else x := by
  induction ss with
  | nil => rfl
  | cons x ss ih =>
    rw [Icsp.resetStreams] at ih
    by_cases hx : x.id = sid
    · by_cases hj : x.id = j
      · have hjs : j = sid := hj.symm.trans hx
        simp [Icsp.resetStreams, hx, hjs]
      · have hjs : ¬ sid = j := fun h => hj (hx.trans h)
        simp [Icsp.resetStreams, hx, hjs, ih]
    · by_cases hj : x.id = j
      · have hjs : ¬ j = sid := fun h => hx (hj.trans h)
        simp [Icsp.resetStreams, hj, hjs]
      · simp [Icsp.resetStreams, hx, hj, ih]

theorem reset_clear {sid : UInt16} (hclear : Icsp.sendSeq a sid = 0 ∧ Icsp.recvSeq a sid = 0) (j : UInt16) :
    Icsp.sendSeq { a with streams := Icsp.resetStreams sid a.streams } j = Icsp.sendSeq a j ∧
      Icsp.recvSeq { a with streams := Icsp.resetStreams sid a.streams } j = Icsp.recvSeq a j := by
  simp only [Icsp.sendSeq, Icsp.recvSeq, Icsp.findStream] at hclear ⊢
  rw [find_resetStreams]
  by_cases hj : j = sid
  · subst hj
    cases hfind : a.streams.find? fun x => x.id = j with
    | none => exact ⟨rfl, rfl⟩
    | some x =>
      rw [hfind] at hclear
      simp only [Option.map_some, Option.getD_some, if_true] at hclear ⊢
      exact ⟨hclear.1.symm, hclear.2.symm⟩
  · simp only [if_neg hj, Option.map_id']
    exact ⟨trivial, trivial⟩

/-- A control chunk of the other end: it may acknowledge, and then it goes to
`icsp_life_handle`. -/
theorem handleData_control (e : Circumstances) (n : Nat) (a : Icsp.IcspAssoc) (type : UInt8) (body : Bytes)
    (sp dp : UInt16) (stale : Bytes) (hdata : type ≠ Icsp.chunkData) (hshut : type ≠ Icsp.chunkShutdown)
    (hbody : body.length < 2 ^ 16) :
    ∃ q, (Icsp.handleData c (e.io n) a
        (packet sp dp s.assocId (Icsp.icspChunkPut type body.length ++ body) ++ stale) (16 + body.length)).1 =
          (if type = Icsp.chunkStreamReset ∧ 3 ≤ body.length then
            { a with sendq := q, streams := Icsp.resetStreams (get16 (body ++ stale) 0) a.streams }
          else { a with sendq := q }) ∧
      ((Icsp.handleData c (e.io n) a
        (packet sp dp s.assocId (Icsp.icspChunkPut type body.length ++ body) ++ stale) (16 + body.length)).2.1 = []) := by
  have hchunks := chunks_packet sp dp s.assocId type body stale hbody
  generalize packet sp dp s.assocId (Icsp.icspChunkPut type body.length ++ body) ++ stale = payload at hchunks
  obtain ⟨q, hq, -⟩ := Icsp.handleChunk_other c a ⟨type, body.length, body ++ stale⟩ (.nothing Icsp.icspMaxPayload)
    fun hd => hdata hd.1
  have hcall : Icsp.icspDataHandle c a payload (16 + body.length) Icsp.icspMaxPayload 0 =
      ({ a with sendq := q }, .nothing Icsp.icspMaxPayload) := by
    have hlong : ¬ 16 + body.length < Icsp.icspHeaderLen := by
      simp only [Icsp.icspHeaderLen]
      omega
    rw [Icsp.icspDataHandle, if_neg hlong, hchunks]
    rw [Icsp.DataRet.nothing] at hq ⊢
    rw [Icsp.handleChunks_single, hq]
    rfl
  have hlife : ∃ a', Icsp.icspLifeHandle { a with sendq := q } payload (16 + body.length) = (a', false) ∧
      a' = if type = Icsp.chunkStreamReset ∧ 3 ≤ body.length then
          { a with sendq := q, streams := Icsp.resetStreams (get16 (body ++ stale) 0) a.streams }
        else { a with sendq := q } := by
    rw [icspLifeHandle_single _ (by omega) hchunks, Icsp.lifeChunks, if_neg hshut]
    split
    · exact ⟨_, rfl, rfl⟩
    · exact ⟨_, rfl, rfl⟩
  obtain ⟨a', hlife, rfl⟩ := hlife
  obtain ⟨hassoc, sacked, hs, hacts⟩ := handleData_of (e.io n) hcall le_rfl hlife
  refine ⟨q, hassoc, ?_⟩
  rw [hacts, hs.resolve_right fun hcum => hcum.1 rfl]
  rfl

/-- A control frame of the other end. -/
theorem icspHandleFrame_control (e : Circumstances) (n : Nat) {h : Icsp.Host} (ha : CReads s i h.assoc v) {m : Msg}
    {frame : Bytes} (hframe : Frames c s (!i) m frame) (type : UInt8) (body : Bytes)
    (hchunk : m.chunk c s (!i) = Icsp.icspChunkPut type body.length ++ body) (hdata : type ≠ Icsp.chunkData)
    (hshut : type ≠ Icsp.chunkShutdown) (hbody : body.length ≤ 1384) :
    ∃ q, (Icsp.icspHandleFrame c (e.io n) h (frame ++ e.stale n) frame.length).1.assoc =
        (let a := Icsp.linked (e.io n) h.assoc (frame ++ e.stale n)
        if type = Icsp.chunkStreamReset ∧ 3 ≤ body.length then
          { a with sendq := q, streams := Icsp.resetStreams (get16 (body ++ e.stale n) 0) a.streams }
        else { a with sendq := q }) ∧
      (Icsp.icspHandleFrame c (e.io n) h (frame ++ e.stale n) frame.length).2.1 = [] := by
  have hlen : (m.chunk c s (!i)).length = 4 + body.length := by
    rw [hchunk, List.length_append, Icsp.icspChunkPut_length]
  obtain ⟨sp, dp, heq⟩ := icspHandleFrame_frames e n ha hframe (by omega)
  obtain ⟨q, hassoc, hacts⟩ := handleData_control (c := c) (s := s) e n
    (Icsp.linked (e.io n) h.assoc (frame ++ e.stale n)) type body sp dp (e.stale n) hdata hshut (by omega)
  have hplen : 12 + (m.chunk c s (!i)).length = 16 + body.length := by omega
  rw [hplen, hchunk] at heq
  rw [heq]
  exact ⟨q, hassoc, hacts⟩

/-- What the C end does, in terms of counters. -/
theorem cEnd_role (c : TweetNaCl) (e : Circumstances) (s : Session) (i : Bool) :
    Role c (cEnd c e) s i cKeeps cOpens fun st v => CReads s i st.2.assoc v where
  counters st v h sid := by
    refine ⟨congrArg UInt16.toNat (h.sendSeq sid), congrArg UInt16.toNat (h.recvSeq sid)⟩
  data st v sid msg h hnext hkeeps := by
    rcases icspDataSend_reads h e st.1 sid hkeeps with ⟨frame, hout, hframe, hfit, hst⟩ | ⟨hout, hno, hst⟩
    · exact .inl ⟨frame, hout, hframe, hfit, hst⟩
    · exact .inr ⟨hout, hno, v.next, Nat.le_succ _, le_rfl, hst⟩
  reset st v sid mode h := by
    obtain ⟨frame, hsend, hframe⟩ := icspSendPkt_frames (c := c) h e st.1 (.reset sid mode) (Nat.le_of_ble_eq_true rfl)
    have hreset : Icsp.icspStreamReset (e.io st.1) st.2.assoc sid mode = ([.tx (resetChunk sid mode) frame], true) :=
      hsend
    refine ⟨frame, ?_, hframe, h⟩
    simp only [cEnd, hreset]
    rfl
  recvData st v m frame h hframe hseq hlow hfit hopen hroom := by
    have hlen : ((Msg.data m).chunk c s (!i)).length ≤ 1388 := by
      simp only [Icsp.maxSendable] at hfit
      rw [Msg.chunk, Icsp.DataMsg.chunk_length]
      omega
    obtain ⟨sp, dp, heq⟩ := icspHandleFrame_frames e st.1 h hframe hlen
    obtain ⟨r, hr, hreads, hsacks, hgot⟩ := handleData_data (c := c) e st.1
      (h.linked (e.io st.1) (frame ++ e.stale st.1)) m sp dp (e.stale st.1) hseq hlow hfit hopen
      (by rw [getStream_linked]; exact hroom)
    dsimp only at heq
    rw [hr] at heq
    simp only [cEnd, heq]
    exact ⟨hreads, hsacks, hgot⟩
  recvReset st v sid mode frame h hframe hclear := by
    obtain ⟨q, hassoc, hout⟩ := icspHandleFrame_control e st.1 h hframe Icsp.chunkStreamReset (put16 sid ++ [mode]) rfl
      (by decide) (by decide) (Nat.le_of_ble_eq_true rfl)
    have hsid : get16 (put16 sid ++ [mode] ++ e.stale st.1) 0 = sid := by
      rw [List.append_assoc]
      exact get16_put16 sid _
    have hlong : 3 ≤ (put16 sid ++ [mode]).length := Nat.le_of_ble_eq_true rfl
    have hkept := reset_clear (of_decide_eq_true hclear)
    have hlinked := h.linked (e.io st.1) (frame ++ e.stale st.1)
    dsimp only at hassoc
    rw [if_pos ⟨rfl, hlong⟩, hsid] at hassoc
    refine ⟨?_, ?_⟩
    · simp only [cEnd, hassoc]
      exact { hlinked with
        sendSeq := fun j => (hkept j).1.trans (h.sendSeq j)
        recvSeq := fun j => (hkept j).2.trans (h.recvSeq j) }
    · simp only [cEnd, hout]
      rfl
  recvSack st v cum frame h hframe := by
    obtain ⟨q, hassoc, hout⟩ := icspHandleFrame_control e st.1 h hframe Icsp.chunkSack (put32 cum) rfl
      (by decide) (by decide) (Nat.le_of_ble_eq_true rfl)
    have hlinked := h.linked (e.io st.1) (frame ++ e.stale st.1)
    dsimp only at hassoc
    rw [if_neg fun hr => absurd hr.1 (by decide)] at hassoc
    refine ⟨?_, ?_⟩
    · simp only [cEnd, hassoc]
      exact { hlinked with }
    · simp only [cEnd, hout]
      rfl

end Interop
