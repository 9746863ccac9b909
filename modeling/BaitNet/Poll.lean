import BaitNet.EstablishedC

/-!
# Polling an association

`icsp_poll`, and what a frame of the peer does to an association whose timers are off: to one
that is established, or whose own side has sent SHUTDOWN.
-/
namespace Icsp

open Wire Link Crypto

def icspPollTimeout : Int := 0
def icspPollDead : Int := -2

/-- `icsp_poll`: one wait and what it ends with. -/
def icspPoll (c : TweetNaCl) (io : Io) (h : Host) (rx : Rx) : Host × List Act × Int :=
  match icspRx h.assoc.tunnel rx with
  | .failed _ => (h, [], icspPollErr)
  | .timedOut =>
    let (a, acts, dead) := icspKeepaliveTick c io h.assoc
    ({ h with assoc := a }, acts, if dead then icspPollDead else icspPollTimeout)
  | .frame buf n => icspHandleFrame c io h buf n

/-- No timer is set, and the frames go to the segment. -/
structure Untimed (x : Endpoint) : Prop where
  beat : x.hbIntervalS = 0
  dead : x.deadTimeoutS = 0
  rekey : x.rekeyIntervalS = 0
  segment : x.tunnel = false

theorem icspKeepaliveTick_untimed (c : TweetNaCl) (io : Io) {a : IcspAssoc} (h : Untimed a.toEndpoint) :
    icspKeepaliveTick c io a = (a, [], false) := by
  simp [icspKeepaliveTick, tickBeat, tickAnnounce, tickRekey, h.beat, h.dead, h.rekey, h.segment]

theorem icspPoll_timedOut (c : TweetNaCl) (io : Io) {h : Host} (hu : Untimed h.assoc.toEndpoint) :
    icspPoll c io h .timedOut = (h, [], icspPollTimeout) := by
  simp [icspPoll, icspRx, icspKeepaliveTick_untimed c io hu]

theorem icspPoll_frame (c : TweetNaCl) (io : Io) (h : Host) {frame stale : Bytes} (hne : frame.length ≠ 0) :
    icspPoll c io h (.frame (frame ++ stale) frame.length) = icspHandleFrame c io h (frame ++ stale) frame.length := by
  simp [icspPoll, icspRx, hne]

/-- No rekey is going on. -/
def Calm (a : IcspAssoc) : Prop := a.state = .established ∨ a.state = .shutdown

variable {c : TweetNaCl}

/-- Anything but an INIT goes to the data path. -/
theorem handlePayload_calm {io : Io} {h : Host} {buf payload : Bytes} {plen : Nat} (hcalm : Calm h.assoc)
    (hinit : byteAt payload icspHeaderLen ≠ chunkInit) :
    handlePayload c io h buf payload plen =
      let r := handleData c io h.assoc payload plen
      ({ h with assoc := r.1 }, r.2.1, r.2.2) := by
  rcases hcalm with hstate | hstate
  · exact Interop.handlePayload_established hstate hinit
  · have hrekey : ¬ Rekeying h.assoc := by
      rw [Rekeying, hstate]
      decide
    have hanswer : ¬ Answering h.assoc := by
      rw [Answering, hstate]
      decide
    have hserve : handleServer c io h buf payload plen =
        let r := handleData c io h.assoc payload plen
        ({ h with assoc := r.1 }, r.2.1, r.2.2) := by
      unfold handleServer
      rw [if_neg hanswer]
      rfl
    unfold handlePayload
    rw [if_neg hrekey]
    dsimp only
    rw [hserve]
    rfl

/-- A frame of another station goes to the data path, whatever its single chunk is, unless
that is an INIT or a heartbeat. -/
theorem icspHandleFrame_carries (io : Io) {h : Host} {mac : Arr 6} {src dst : UInt64} {sp dp : UInt16} {aid : UInt32}
    {chunk frame : Bytes} (stale : Bytes) (hcar : Interop.Carries mac src dst (Interop.packet sp dp aid chunk) frame)
    (hmac : mac ≠ h.assoc.srcMac) (hcalm : Calm h.assoc) (hge : 4 ≤ chunk.length) (hlen : chunk.length ≤ 1388)
    (hinit : byteAt chunk 0 ≠ chunkInit) (hbeat : byteAt chunk 0 ≠ chunkHeartbeat) :
    icspHandleFrame c io h (frame ++ stale) frame.length =
      let r := handleData c io (linked io h.assoc (frame ++ stale)) (Interop.packet sp dp aid chunk ++ stale)
        (12 + chunk.length)
      ({ h with assoc := r.1 }, r.2.1, r.2.2) := by
  obtain ⟨dm, fsp, fdp, rfl⟩ := hcar
  have hflen := buildFrame_length dm mac src dst ipv69NextStream 64 fsp fdp (Interop.packet sp dp aid chunk)
  have hpay := framePayload_build dm mac src dst ipv69NextStream 64 fsp fdp (Interop.packet sp dp aid chunk) stale
  have hsrc := frameSrcMac_build dm mac src dst ipv69NextStream 64 fsp fdp (Interop.packet sp dp aid chunk) stale
  have hnext := frameNextHeader_build dm mac src dst ipv69NextStream 64 fsp fdp (Interop.packet sp dp aid chunk) stale
  rw [Interop.packet_length] at hflen
  generalize buildFrame dm mac src dst ipv69NextStream 64 fsp fdp (Interop.packet sp dp aid chunk) = frame at *
  have htype : byteAt (framePayload (frame ++ stale)) icspHeaderLen = byteAt chunk 0 := by
    rw [hpay]
    exact Interop.packet_type stale sp dp aid 0 (by omega)
  have hn : frame.length - 14 - ipv69HeaderLen = 12 + chunk.length := by
    rw [ipv69HeaderLen]
    omega
  have hown : ownTxControl h.assoc (frame ++ stale) frame.length = false := by
    have hshort : ¬ frame.length < 14 + ipv69HeaderLen + icspHeaderLen + icspChunkHdr := by
      simp only [ipv69HeaderLen, icspHeaderLen, icspChunkHdr]
      omega
    have hother : frameSrcMac (frame ++ stale) ≠ h.assoc.srcMac := by rwa [hsrc]
    rw [ownTxControl, if_neg hshort, if_pos hother]
  have hadm : frameAdmitted h.assoc (frame ++ stale) frame.length = true := by
    have hlong : 14 + ipv69HeaderLen + icspHeaderLen ≤ frame.length := by
      simp only [ipv69HeaderLen, icspHeaderLen]
      omega
    rw [frameAdmitted, decide_eq_true hlong, hown, hnext, hn, hpay, Interop.icspCheckPkt_packet _ _ _ _ hlen]
    rfl
  rcases icspHandleFrame_cases c io h (frame ++ stale) frame.length with ⟨hno, -⟩ | ⟨-, heq⟩
  · rw [hadm] at hno
    cases hno
  · have hnone : beatOf io (linked io h.assoc (frame ++ stale)) (framePayload (frame ++ stale))
        (frame.length - 14 - ipv69HeaderLen) = [] := by
      rw [beatOf, htype]
      exact if_neg fun hb => hbeat hb.2
    have hdata := @handlePayload_calm c io { h with assoc := linked io h.assoc (frame ++ stale) } (frame ++ stale)
      (framePayload (frame ++ stale)) (frame.length - 14 - ipv69HeaderLen) hcalm (by rwa [htype])
    rw [heq, hnone, hdata, hn, hpay]
    rfl

/-- What `handleData` makes of a payload that is no error. -/
theorem handleData_result (io : Io) {a a' a'' : IcspAssoc} {payload : Bytes} {plen : Nat} {r : DataRet} {closed : Bool}
    (hdata : icspDataHandle c a payload plen icspMaxPayload 0 = (a', r)) (hret : 0 ≤ r.ret)
    (hlife : icspLifeHandle a' payload plen = (a'', closed)) :
    ∃ sacked, (sacked = [] ∨ sacked = (icspSackSend io a').1) ∧
      handleData c io a payload plen =
        (a'', (if 0 < r.ret then [.deliver r.outStream r.out] else []) ++ sacked,
          if closed then icspPollClosed else if 0 < r.ret then icspPollData else 0) := by
  unfold handleData
  simp only [hdata, hlife, if_neg (Int.not_lt.mpr hret)]
  refine ⟨_, ?_, by cases closed <;> rfl⟩
  split
  · exact .inr rfl
  · exact .inl rfl

end Icsp
