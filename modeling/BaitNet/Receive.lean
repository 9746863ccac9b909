import BaitNet.Genuine

/-!
# Receiving frames

`icsp_rx`, `own_tx_control`, `icsp_recv_frame` and `icsp_announce_send` of
`icsp_session.c`, and what they see of a frame that an association built. A
receive buffer is the whole array: the received bytes with whatever it held before
behind them.
-/
namespace Icsp

open Wire Link Crypto

/-- What a wait on the transport ends with. `EAGAIN`, `EWOULDBLOCK` and `EINTR` are
the transient errors. -/
inductive Rx where
  | timedOut
  | failed (transient : Bool)
  | frame (buf : Bytes) (n : Nat)
  deriving DecidableEq

/-- The tunnel socket counts every error as a timeout. -/
def icspRx (tunnel : Bool) : Rx → Rx
  | .failed transient => if tunnel then .timedOut else .failed transient
  | .frame buf n => if n = 0 then .timedOut else .frame buf n
  | .timedOut => .timedOut

/-- A frame from our own MAC and port that no state machine may see. -/
def ownTxControl (a : IcspAssoc) (buf : Bytes) (n : Nat) : Bool :=
  if n < 14 + ipv69HeaderLen + icspHeaderLen + icspChunkHdr then true
  else if frameSrcMac buf ≠ a.srcMac then false
  else if get16 (framePayload buf) 0 ≠ a.srcPort then false
  else
    let type := byteAt (framePayload buf) icspHeaderLen
    if type = chunkInit ∨ type = chunkInitAck ∨ type = chunkCookieEcho ∨ type = chunkCookieAck ∨
        type = chunkData then false
    else true

/-- The result of `icsp_recv_frame`: -1 with its `errno`, 0 for noise, or a payload with
its length and the source address of the frame. -/
inductive RecvRet where
  | timedOut
  | failed (transient : Bool)
  | noise
  | payload (payload : Bytes) (plen : Nat) (src : UInt64)

def icspRecvFrame (io : Io) (a : IcspAssoc) (rx : Rx) : IcspAssoc × RecvRet :=
  match icspRx a.tunnel rx with
  | .timedOut => (a, .timedOut)
  | .failed transient => (a, .failed transient)
  | .frame buf n =>
    if n < 14 + ipv69HeaderLen + icspHeaderLen then (a, .noise)
    else if ownTxControl a buf n then (a, .noise)
    else if frameNextHeader buf ≠ ipv69NextStream then (a, .noise)
    else
      ({ a with
          peerMac := frameSrcMac buf, hasPeerMac := true, dstAddr := frameSource buf,
          lastRx := io.now },
        .payload (framePayload buf) (n - 14 - ipv69HeaderLen) (frameSource buf))

/-- The control chunk type of a signed ND request. -/
def ipv69CtrlNdRequest : UInt8 := 1

/-- `icsp_announce_send`. -/
def icspAnnounceSend (c : TweetNaCl) (io : Io) (a : IcspAssoc) : IcspAssoc × List Act :=
  let body := ipv69CtrlNdRequest :: put40 a.srcAddr
  let sig := ed25519Sign c body a.sk
  let frame := buildFrame bcastMac a.srcMac a.srcAddr 0xFFFFFFFFFF ipv69NextControl 64 0 0
    (body ++ (arr a.sk.val 32 32).val ++ sig.val)
  if io.netOk frame then ({ a with lastAnn := io.now }, [.sign body, .announce frame])
  else (a, [.sign body])

/-- A payload comes from a frame of the ICSP protocol and updates the link state. -/
theorem icspRecvFrame_payload {io : Io} {a a' : IcspAssoc} {rx : Rx} {payload : Bytes} {plen : Nat}
    {src : UInt64} (h : icspRecvFrame io a rx = (a', .payload payload plen src)) :
    ∃ buf n, rx = .frame buf n ∧ frameNextHeader buf = ipv69NextStream ∧ 58 ≤ n ∧
      payload = framePayload buf ∧ plen = n - 46 ∧ src = frameSource buf ∧
      a' = { a with
        peerMac := frameSrcMac buf, hasPeerMac := true, dstAddr := frameSource buf,
        lastRx := io.now } := by
  unfold icspRecvFrame at h
  split at h
  · cases h
  · cases h
  · rename_i buf n hrx
    split at h
    · cases h
    · rename_i hlen
      split at h
      · cases h
      · split at h
        · cases h
        · rename_i hnh
          have hrx' : rx = .frame buf n := by
            cases rx with
            | timedOut => cases hrx
            | failed transient =>
              simp only [icspRx] at hrx
              split at hrx <;> cases hrx
            | frame buf' n' =>
              simp only [icspRx] at hrx
              split at hrx
              · cases hrx
              · exact hrx
          obtain ⟨rfl, hret⟩ := Prod.mk.inj h
          injection hret with hp hn hs
          simp only [ipv69HeaderLen, icspHeaderLen] at hlen hn
          refine ⟨buf, n, hrx', not_not.mp hnh, by omega, hp.symm, by omega, hs.symm, rfl⟩

/-- Without a payload nothing changes. -/
theorem icspRecvFrame_other {io : Io} {a a' : IcspAssoc} {rx : Rx} {ret : RecvRet}
    (h : icspRecvFrame io a rx = (a', ret)) (hret : ∀ p n src, ret ≠ .payload p n src) : a' = a := by
  unfold icspRecvFrame at h
  split at h
  · exact (Prod.mk.inj h).1.symm
  · exact (Prod.mk.inj h).1.symm
  · split at h
    · exact (Prod.mk.inj h).1.symm
    · split at h
      · exact (Prod.mk.inj h).1.symm
      · split at h
        · exact (Prod.mk.inj h).1.symm
        · exact absurd (Prod.mk.inj h).2.symm (hret _ _ _)

section AssocFrame

variable (a : IcspAssoc) (chunk stale : Bytes)

/-- The packet around a chunk. -/
def assocPkt : Bytes := icspPkt a (icspCrc32c (icspPkt a 0 chunk)).toUInt16 chunk

@[simp] theorem assocPkt_length : (assocPkt a chunk).length = 12 + chunk.length := icspPkt_length _ _ _

@[simp] theorem assocFrame_length : (assocFrame a chunk).length = 58 + chunk.length := by
  rw [assocFrame, buildFrame_length, icspPkt_length]
  omega

theorem framePayload_assocFrame :
    framePayload (assocFrame a chunk ++ stale) = assocPkt a chunk ++ stale :=
  framePayload_build _ _ _ _ _ _ _ _ _ _

theorem assocPkt_drop : (assocPkt a chunk ++ stale).drop icspHeaderLen = chunk ++ stale :=
  icspPkt_drop _ _ _ _

theorem assocPkt_assocId : get32 (assocPkt a chunk ++ stale) 6 = a.assocId := icspPkt_assocId _ _ _ _

theorem assocPkt_byte (i : Nat) :
    byteAt (assocPkt a chunk ++ stale) (icspHeaderLen + i) = byteAt (chunk ++ stale) i := by
  rw [← byteAt_drop, assocPkt_drop]

theorem byteAt_assocFrame {i : Nat} (h : i < chunk.length) :
    byteAt (framePayload (assocFrame a chunk ++ stale)) (icspHeaderLen + i) = byteAt chunk i := by
  rw [framePayload_assocFrame, assocPkt_byte, byteAt_append_left _ _ _ h]

theorem assocFrame_assocId : get32 (framePayload (assocFrame a chunk ++ stale)) 6 = a.assocId := by
  rw [framePayload_assocFrame, assocPkt_assocId]

/-- The data area of a chunk in its frame. -/
theorem assocFrame_data (h : 4 ≤ chunk.length) :
    (framePayload (assocFrame a chunk ++ stale)).drop (icspHeaderLen + icspChunkHdr) = chunk.drop 4 ++ stale := by
  have hd : (assocPkt a chunk ++ stale).drop 16 = ((assocPkt a chunk ++ stale).drop icspHeaderLen).drop 4 := by
    rw [List.drop_drop]
    rfl
  rw [framePayload_assocFrame]
  show (assocPkt a chunk ++ stale).drop 16 = _
  rw [hd, assocPkt_drop, List.drop_append_of_le_length h]

theorem icspBuildPkt_fits (h : 12 + chunk.length ≤ icspMaxPayload) :
    icspBuildPkt a chunk icspMaxPayload = some (assocPkt a chunk) :=
  if_neg (by simp only [icspHeaderLen]; omega)

theorem icspCheckPkt_assocPkt (h : 12 + chunk.length ≤ icspMaxPayload) :
    icspCheckPkt (assocPkt a chunk ++ stale) (12 + chunk.length) = true := by
  have hc := icspCheckPkt_build a chunk _ stale (icspBuildPkt_fits a chunk h)
  rwa [assocPkt_length] at hc

end AssocFrame

end Icsp
