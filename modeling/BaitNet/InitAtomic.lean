import BaitNet.HandshakeSpec

/-!
# Rejected INITs

`init_check` stores the timestamp, the association id, the ephemeral and the identity of
an INIT between its checks. A rejection leaves the four fields alone when it comes before
the first of these writes; after it the timestamp alone has already grown.
-/
namespace Icsp

open Wire Link Crypto

variable (c : TweetNaCl)

/-- The fields of a live session that an INIT writes: the floor against replays, the nonce
domain, the ephemeral and the identity of the peer. -/
structure SameSession (a b : IcspAssoc) : Prop where
  ts : b.lastInitTs = a.lastInitTs
  id : b.assocId = a.assocId
  eph : b.peerEph = a.peerEph
  peer : b.peerId = a.peerId

/-- A rejection by `init_check` keeps them. -/
def RejectsAtomically (io : Io) (h : Host) (buf payload : Bytes) (plen : Nat) (peers : List (Arr 32)) : Prop :=
  (initCheck c io h buf payload plen peers).2 = none →
    SameSession h.assoc (initCheck c io h buf payload plen peers).1.assoc

/-- The checks behind the writes: the box opens, the signature verifies, the key is listed. -/
def initVouched (a : IcspAssoc) (payload : Bytes) (peers : List (Arr 32)) : Bool :=
  (claimedIdentity c a payload).any fun id =>
    initVerifies c payload id && (peers.isEmpty || decide (id ∈ peers))

/-- The verdict is that of the checks before the writes and of those behind them. -/
theorem initCheck_accepts_iff (io : Io) (h : Host) (buf payload : Bytes) (plen : Nat) (peers : List (Arr 32)) :
    (initCheck c io h buf payload plen peers).2 ≠ none ↔
      initAdmitted c io h buf payload plen = true ∧ initVouched c h.assoc payload peers = true := by
  rw [initCheck]
  cases hw : initWellFormed c buf payload plen with
  | false => simp [initAdmitted, hw]
  | true =>
    cases hr : rateAllow h.glob.gRate io.nowMs (pad 8 (frameSrcMac buf).val) 10 20 1 with
    | mk table allowed =>
      cases allowed with
      | false => simp [initAdmitted, hw, hr]
      | true =>
        by_cases hts : get64 (chunkData0 payload) 37 ≤ h.assoc.lastInitTs
        · have hts' := hts
          rw [chunkData0] at hts'
          simp [initAdmitted, hw, hr, hts, hts', UInt64.not_lt]
        · have hadm : initAdmitted c io h buf payload plen = true := by
            rw [initAdmitted, hw, hr, decide_eq_true (UInt64.not_le.mp hts)]
            rfl
          have hid : initIdentity c (takeInit h.assoc payload) (byteAt payload (icspHeaderLen + 1))
              (chunkData0 payload) = claimedIdentity c h.assoc payload := rfl
          have hver : ∀ id, ed25519Verify c
              (slice (chunkData0 payload) 0 (initPreSig (byteAt payload (icspHeaderLen + 1))))
              (arr (chunkData0 payload) (initPreSig (byteAt payload (icspHeaderLen + 1))) 64) id =
                initVerifies c payload id := fun _ => rfl
          rw [chunkData0] at hts hid hver
          simp only [Bool.true_eq_false, if_false]
          rw [if_neg hts, hid, hadm, initVouched]
          cases claimedIdentity c h.assoc payload with
          | none => simp
          | some id =>
            dsimp only
            rw [hver]
            cases hsig : initVerifies c payload id with
            | false => simp [hsig]
            | true => by_cases hnil : peers = [] <;> by_cases hmem : id ∈ peers <;> simp [hsig, hnil, hmem]

/-- Once the timestamp was found newer it is in place, whatever the later checks say. -/
theorem initCheck_ts_grows {io : Io} {h : Host} {buf payload : Bytes} {plen : Nat} (peers : List (Arr 32))
    (hadm : initAdmitted c io h buf payload plen = true) :
    h.assoc.lastInitTs < (initCheck c io h buf payload plen peers).1.assoc.lastInitTs := by
  have hnewer : h.assoc.lastInitTs < get64 (chunkData0 payload) 37 := by
    rw [initAdmitted, Bool.and_eq_true, decide_eq_true_eq] at hadm
    exact hadm.2
  have hout := initCheck_outcome c io h buf payload plen peers
  revert hout
  generalize initCheck c io h buf payload plen peers = res
  intro hout
  cases hout with
  | refused g hnot =>
    rw [hadm] at hnot
    cases hnot
  | boxed g _ hid => exact hnewer
  | rejected g id _ hid => exact hnewer
  | accepted g id _ hid hsig hpeers => exact hnewer

theorem initCheck_refused {io : Io} {h : Host} {buf payload : Bytes} {plen : Nat} {peers : List (Arr 32)}
    (hadm : initAdmitted c io h buf payload plen = false) :
    (initCheck c io h buf payload plen peers).1.assoc = h.assoc := by
  have hout := initCheck_outcome c io h buf payload plen peers
  revert hout
  generalize initCheck c io h buf payload plen peers = res
  intro hout
  cases hout with
  | refused g hnot => rfl
  | boxed g hyes hid =>
    rw [hadm] at hyes
    cases hyes
  | rejected g id hyes hid =>
    rw [hadm] at hyes
    cases hyes
  | accepted g id hyes hid hsig hpeers =>
    rw [hadm] at hyes
    cases hyes

/-- A rejection is atomic exactly when it is due before the timestamp is stored: the INIT
fails one of the checks up to there, or fails none at all. -/
theorem init_rejection_atomic_iff (io : Io) (h : Host) (buf payload : Bytes) (plen : Nat)
    (peers : List (Arr 32)) :
    RejectsAtomically c io h buf payload plen peers ↔
      (initAdmitted c io h buf payload plen = true → initVouched c h.assoc payload peers = true) := by
  have hiff := initCheck_accepts_iff c io h buf payload plen peers
  constructor
  · intro hatomic hadm
    by_contra hvouch
    have hnone : (initCheck c io h buf payload plen peers).2 = none := by
      by_contra hsome
      exact hvouch (hiff.mp hsome).2
    have hgrows := initCheck_ts_grows c peers hadm
    rw [(hatomic hnone).ts] at hgrows
    exact UInt64.lt_irrefl _ hgrows
  · intro himp hnone
    cases hadm : initAdmitted c io h buf payload plen with
    | true => exact absurd hnone (hiff.mpr ⟨hadm, himp hadm⟩)
    | false =>
      rw [initCheck_refused c hadm]
      exact ⟨rfl, rfl, rfl, rfl⟩

/-- A live session of station 9 with station 7, and an INIT of the latest timestamp that
claims the identity of station 8 under a signature of station 6. It is dropped, yet the
session is now one with station 8 under a new nonce domain, and no later INIT can rekey it. -/
theorem forged_init_not_atomic :
    let live := { toyAssoc 7 with state := .established, hasKey := true, assocId := 5, lastInitTs := 3, peerId := toyId 9 }
    let stranger := { toyAssoc 8 with dstAddr := 7, assocId := 6 }
    let io := Io.quiet (2 ^ 64 - 1)
    let forged := initChunk toy stranger (toyKey 6) 0 (initBody toy io stranger none)
    let frame := (txFrames (icspSendPkt io stranger forged).1).headD []
    let payload := framePayload frame
    let res := initCheck toy (.quiet 4) ⟨live, .zero⟩ frame payload (frame.length - 46) []
    res.2 = none ∧ ¬ RejectsAtomically toy (.quiet 4) ⟨live, .zero⟩ frame payload (frame.length - 46) [] ∧
      (res.1.assoc.lastInitTs, res.1.assoc.assocId, res.1.assoc.peerId) = (2 ^ 64 - 1, 6, toyId 8) := by
  intro live stranger io forged frame payload res
  refine ⟨by decide +kernel, ?_, by decide +kernel⟩
  have hadm : initAdmitted toy (.quiet 4) ⟨live, .zero⟩ frame payload (frame.length - 46) = true := by
    decide +kernel
  have hnone : (initCheck toy (.quiet 4) ⟨live, .zero⟩ frame payload (frame.length - 46) []).2 = none := by
    decide +kernel
  have hgrows := initCheck_ts_grows toy [] hadm
  intro hatomic
  rw [(hatomic hnone).ts] at hgrows
  exact UInt64.lt_irrefl _ hgrows

end Icsp
