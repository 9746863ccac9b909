import BaitNet.Handshake

/-!
# The session layer

`icsp_life.c` and the dispatcher of `icsp_session.c`: heartbeats, shutdown, stream
resets, `icsp_handle_frame` and `icsp_keepalive_tick`.
-/
namespace Icsp

open Wire Link Crypto

/-- The low half of `time(NULL)`, which a heartbeat carries. -/
def heartbeatChunk (io : Io) (type : UInt8) : Bytes := icspChunkPut type 4 ++ put32 (.ofNat io.now)

def icspHeartbeatSend (io : Io) (a : IcspAssoc) : List Act × Bool :=
  icspSendPkt io a (heartbeatChunk io chunkHeartbeat)

def icspHeartbeatAck (io : Io) (a : IcspAssoc) : List Act × Bool :=
  icspSendPkt io a (heartbeatChunk io chunkHeartbeatAck)

def icspShutdownSend (io : Io) (a : IcspAssoc) : IcspAssoc × List Act × Bool :=
  let (acts, sent) := icspSendPkt io a (icspChunkPut chunkShutdown 0)
  (if sent then { a with state := .shutdown } else a, acts, sent)

/-- `icsp_stream_reset`: mode 0 resets, 1 adds, 2 closes. The receiver does not look at it. -/
def icspStreamReset (io : Io) (a : IcspAssoc) (streamId : UInt16) (mode : UInt8) : List Act × Bool :=
  icspSendPkt io a (icspChunkPut chunkStreamReset 3 ++ (put16 streamId ++ [mode]))

/-- Every slot of stream `sid` starts again. -/
def resetStreams (sid : UInt16) (ss : List IcspStream) : List IcspStream :=
  ss.map (fun s => if s.id = sid then { s with nextSendSeq := 0, nextRecvSeq := 0 } else s)

/-- The chunk loop of `icsp_life_handle`. -/
def lifeChunks : List Chunk → IcspAssoc → IcspAssoc × Bool
  | [], a => (a, false)
  | ch :: chs, a =>
    if ch.type = chunkShutdown then (a, true)
    else if ch.type = chunkStreamReset ∧ 3 ≤ ch.clen then
      lifeChunks chs { a with streams := resetStreams (get16 ch.cd 0) a.streams }
    else lifeChunks chs a

/-- `icsp_life_handle`: whether the peer closed the association. -/
def icspLifeHandle (a : IcspAssoc) (payload : Bytes) (plen : Nat) : IcspAssoc × Bool :=
  if plen < icspHeaderLen then (a, false) else lifeChunks (chunks payload plen) a

def icspPollData : Int := 1
def icspPollErr : Int := -1
def icspPollClosed : Int := -3

variable (c : TweetNaCl)

/-- The part of `icsp_handle_frame` behind the rekey machines: data, SACK, lifecycle. -/
def handleData (io : Io) (a : IcspAssoc) (payload : Bytes) (plen : Nat) : IcspAssoc × List Act × Int :=
  let cumBefore := a.cumTsn
  let (a, r) := icspDataHandle c a payload plen icspMaxPayload 0
  if r.ret < 0 then (a, [], icspPollErr)
  else
    let delivered := if 0 < r.ret then [.deliver r.outStream r.out] else []
    let sacked :=
      if a.cumTsn ≠ cumBefore ∧ (a.sackLossPct = 0 ∨ a.sackLossPct ≤ io.rand % 100) then
        (icspSackSend io a).1
      else []
    match icspLifeHandle a payload plen with
    | (a, true) => (a, delivered ++ sacked, icspPollClosed)
    | (a, false) => (a, delivered ++ sacked, if 0 < r.ret then icspPollData else 0)

/-- The initiator's states during a rekey. -/
def Rekeying (a : IcspAssoc) : Prop := a.state = .rekeyWaitAck ∨ a.state = .rekeyWaitCookieAck

/-- The states in which the responder's half of a rekey runs. -/
def Answering (a : IcspAssoc) : Prop := a.state = .established ∨ a.state = .rekeyWaitCookie

instance (a : IcspAssoc) : Decidable (Rekeying a) := inferInstanceAs (Decidable (_ ∨ _))

instance (a : IcspAssoc) : Decidable (Answering a) := inferInstanceAs (Decidable (_ ∨ _))

/-- The responder's half of the rekey dispatch; whatever it leaves goes to the data path. -/
def handleServer (io : Io) (h : Host) (buf payload : Bytes) (plen : Nat) : Host × List Act × Int :=
  let (h, acts, r) :=
    if Answering h.assoc then
      icspRekeyServerStep c io h buf payload plen
    else (h, [], 0)
  if r < 0 then (h, acts, icspPollErr)
  else if r = 1 then (h, acts, 0)
  else
    let (a, acts', ret) := handleData c io h.assoc payload plen
    ({ h with assoc := a }, acts ++ acts', ret)

/-- The initiator's half, tried first. -/
def handlePayload (io : Io) (h : Host) (buf payload : Bytes) (plen : Nat) : Host × List Act × Int :=
  let (a, acts, r) :=
    if Rekeying h.assoc then
      icspRekeyClientStep c io h.assoc payload
    else (h.assoc, [], 0)
  let h := { h with assoc := a }
  if r < 0 then (h, acts, icspPollErr)
  else if r = 1 then (h, acts, 0)
  else
    let (h, acts', ret) := handleServer c io h buf payload plen
    (h, acts ++ acts', ret)

/-- The frame is one the dispatcher looks at. -/
def frameAdmitted (a : IcspAssoc) (buf : Bytes) (n : Nat) : Bool :=
  decide (14 + ipv69HeaderLen + icspHeaderLen ≤ n) && !ownTxControl a buf n &&
    frameNextHeader buf == ipv69NextStream &&
    icspCheckPkt (framePayload buf) (n - 14 - ipv69HeaderLen)

/-- `icsp_handle_frame` on a buffer of which `n` bytes were received. -/
def icspHandleFrame (io : Io) (h : Host) (buf : Bytes) (n : Nat) : Host × List Act × Int :=
  if frameAdmitted h.assoc buf n = false then (h, [], 0)
  else
    let payload := framePayload buf
    let plen := n - 14 - ipv69HeaderLen
    let a := { h.assoc with peerMac := frameSrcMac buf, hasPeerMac := true, lastRx := io.now }
    let beat :=
      if icspHeaderLen + icspChunkHdr ≤ plen ∧ byteAt payload icspHeaderLen = chunkHeartbeat then
        (icspHeartbeatAck io a).1
      else []
    let (h, acts, ret) := handlePayload c io { h with assoc := a } buf payload plen
    (h, beat ++ acts, ret)

/-- A heartbeat when one is due. -/
def tickBeat (io : Io) (a : IcspAssoc) : IcspAssoc × List Act :=
  if 0 < a.hbIntervalS ∧ (a.hbIntervalS : Int) ≤ (io.now : Int) - a.lastHb then
    ({ a with lastHb := io.now }, (icspHeartbeatSend io a).1)
  else (a, [])

/-- A tunnel server's announce when one is due. -/
def tickAnnounce (io : Io) (a : IcspAssoc) : IcspAssoc × List Act :=
  if a.tunnel ∧ 0 < a.announceS ∧ (a.announceS : Int) ≤ (io.now : Int) - a.lastAnn then
    icspAnnounceSend c io a
  else (a, [])

/-- A rekey when one is due; only the initiator starts it. -/
def tickRekey (io : Io) (a : IcspAssoc) : IcspAssoc × List Act :=
  if 0 < a.rekeyIntervalS ∧ a.isInitiator ∧ a.state = .established ∧
      (a.rekeyIntervalS : Int) ≤ (io.now : Int) - a.keyTs then
    ((icspRekeyStart c io a).1, (icspRekeyStart c io a).2.1)
  else (a, [])

/-- `icsp_keepalive_tick`: true when the peer was silent for too long. -/
def icspKeepaliveTick (io : Io) (a : IcspAssoc) : IcspAssoc × List Act × Bool :=
  if 0 < a.deadTimeoutS ∧ (a.deadTimeoutS : Int) ≤ (io.now : Int) - a.lastRx then (a, [], true)
  else
    let (a, beat) := tickBeat io a
    let (a, announced) := tickAnnounce c io a
    let (a, rekey) := tickRekey c io a
    (a, beat ++ announced ++ rekey, false)

end Icsp
