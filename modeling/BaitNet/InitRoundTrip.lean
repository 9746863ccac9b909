import BaitNet.CallSpec
import BaitNet.InitAtomic

/-!
# From `init_build` to `init_check`

An INIT in its frame, as the addressed server reads it. The plain form comes back as it was
built. In the form with a hidden identity the box has 64 bytes and its slot 48: the
signature is written over the last 16, so what the server opens is not the box that the
client sealed. Moreover the Ed25519 key of the server stands where X25519 wants a point.
-/
namespace Icsp

open Wire Link Crypto

/-- The ephemeral stands behind the version and the streams of an INIT or INIT-ACK. -/
theorem arr_eph (a : IcspAssoc) (eph : Arr 32) (rest : Bytes) :
    arr (icspVersion :: putStreams a ++ eph.val ++ rest) 5 32 = eph := by
  have h := arr_append_right (icspVersion :: putStreams a) (eph.val ++ rest) 5 32 (by simp [putStreams])
  rw [List.append_assoc, h]
  exact arr_append_exact eph rest


variable (c : TweetNaCl)

/-- The frame that carries the chunk of `init_build`. -/
def initFrame (io : Io) (a : IcspAssoc) (sk : Arr 64) (serverPub : Option (Arr 32)) : Bytes :=
  assocFrame (initBuild c io a sk serverPub).1 (initBuild c io a sk serverPub).2.1

section Fields

variable (io : Io) (a : IcspAssoc) (sk : Arr 64) (serverPub : Option (Arr 32)) (stale : Bytes)

theorem initIdField_length : (initIdField c a serverPub).length = if serverPub.isSome then 48 else 32 := by
  cases serverPub with
  | none => simp [initIdField]
  | some pub => simp [initIdField, ed25519Secretbox_length, initBoxLen]

theorem initBody_length : (initBody c io a serverPub).length = initPreSig (initFlags serverPub) := by
  simp only [initBody, List.length_append, List.length_cons, initIdField_length, Arr.length, putStreams,
    put16_length, put64_length]
  cases serverPub with
  | none =>
    show 77 = initPreSig 0
    decide
  | some pub =>
    show 93 = initPreSig icspInitFlagIdbox
    decide

/-- Version, streams, ephemeral, time and identity in their places. -/
structure BodyReads (eph : Arr 32) (ts : UInt64) (field body : Bytes) : Prop where
  version : byteAt body 0 = icspVersion
  eph : arr body 5 32 = eph
  ts : get64 body 37 = ts
  field : body.drop 45 = field

theorem initBody_reads (rest : Bytes) :
    BodyReads a.ephPub (.ofNat io.now) (initIdField c a serverPub ++ rest) (initBody c io a serverPub ++ rest) := by
  have hfront : initBody c io a serverPub ++ rest = icspVersion :: putStreams a ++ a.ephPub.val ++
      (put64 (.ofNat io.now) ++ (initIdField c a serverPub ++ rest)) := by
    simp only [initBody, List.append_assoc]
  have hlen : (icspVersion :: putStreams a ++ a.ephPub.val).length = 37 := by simp [putStreams]
  rw [hfront]
  refine ⟨rfl, arr_eph a a.ephPub _, ?_, ?_⟩
  · rw [get64_append_right _ _ _ (by omega), hlen]
    exact get64_put64 _ _
  · have hdrop : (45 : Nat) = 37 + 8 := rfl
    rw [hdrop, ← List.drop_drop, List.drop_left' hlen, List.drop_left' (put64_length _)]

/-- The part that mac1 covers: the body and its signature. -/
def initMaced : Bytes :=
  initBody c io (newEph c io a) serverPub ++ (ed25519Sign c (initBody c io (newEph c io a) serverPub) sk).val

theorem initMaced_length : (initMaced c io a sk serverPub).length = initPreSig (initFlags serverPub) + 64 := by
  rw [initMaced, List.length_append, initBody_length, Arr.length]

/-- The data area of the INIT: there is no gap between its parts. -/
theorem initFrame_data : chunkData0 (framePayload (initFrame c io a sk serverPub ++ stale)) =
    initMaced c io a sk serverPub ++
      ((mac1Compute c (mac1Key c a.dstAddr) (initMaced c io a sk serverPub)).val ++ stale) := by
  have hlong : 4 ≤ (initBuild c io a sk serverPub).2.1.length := by simp [initBuild, initChunk]
  rw [initFrame, chunkData0, assocFrame_data _ _ _ hlong]
  simp only [initBuild, initChunk, initMaced, List.cons_append, List.nil_append, List.drop_succ_cons,
    List.drop_zero, List.append_assoc]
  rfl

theorem initFrame_flags :
    byteAt (framePayload (initFrame c io a sk serverPub ++ stale)) (icspHeaderLen + 1) = initFlags serverPub :=
  byteAt_assocFrame _ _ _ (by simp [initBuild, initChunk])

theorem initFrame_length : (initFrame c io a sk serverPub).length = 62 + initLen (initFlags serverPub) := by
  have hbody := initBody_length c io (newEph c io a) serverPub
  simp only [initFrame, assocFrame_length, initBuild, initChunk, List.length_append, List.length_cons,
    List.length_nil, Arr.length, hbody, initLen, mac1Len]
  omega

/-- The fields of the body, in front of the signature. -/
theorem initFrame_reads : ∃ rest, BodyReads (c.scalarmultBase io.ephRnd) (.ofNat io.now)
    (initIdField c (newEph c io a) serverPub ++ rest)
    (chunkData0 (framePayload (initFrame c io a sk serverPub ++ stale))) := by
  rw [initFrame_data, initMaced, List.append_assoc]
  exact ⟨_, initBody_reads c io (newEph c io a) serverPub _⟩

/-- The signature covers the body, and verifies under the identity of the signer. -/
theorem initFrame_verifies {id : Arr 32} (hid : id = c.seedToPk (arr sk.val 0 32)) :
    initVerifies c (framePayload (initFrame c io a sk serverPub ++ stale)) id = true := by
  have hlen := initBody_length c io (newEph c io a) serverPub
  rw [initVerifies, initSigned, initFrame_flags, initFrame_data, initMaced, List.append_assoc, ← hlen,
    slice_append_exact, arr_append_right _ _ _ _ le_rfl, Nat.sub_self, arr_append_exact, hid]
  exact c.open_sign _ _

theorem initFrame_checked : icspCheckPkt (framePayload (initFrame c io a sk serverPub ++ stale))
    ((initFrame c io a sk serverPub).length - 46) = true := by
  have hl : (initFrame c io a sk serverPub).length = 58 + (initBuild c io a sk serverPub).2.1.length :=
    assocFrame_length _ _
  have hplen := initFrame_length c io a sk serverPub
  have hmax : initLen (initFlags serverPub) ≤ 173 := by
    cases serverPub with
    | none => decide
    | some pub =>
      show initLen icspInitFlagIdbox ≤ 173
      decide
  have hn : (initFrame c io a sk serverPub).length - 46 = 12 + (initBuild c io a sk serverPub).2.1.length := by
    omega
  have hpay : framePayload (initFrame c io a sk serverPub ++ stale) =
      assocPkt (initBuild c io a sk serverPub).1 (initBuild c io a sk serverPub).2.1 ++ stale :=
    framePayload_assocFrame _ _ _
  rw [hn, hpay]
  exact icspCheckPkt_assocPkt _ _ _ (by simp only [icspMaxPayload]; omega)

/-- The server that was dialled finds the INIT well formed. -/
theorem initFrame_wellFormed (haddr : a.dstAddr.toNat < 2 ^ 40) :
    initWellFormed c (initFrame c io a sk serverPub ++ stale)
      (framePayload (initFrame c io a sk serverPub ++ stale))
      ((initFrame c io a sk serverPub).length - 46) = true := by
  have hlen := initMaced_length c io a sk serverPub
  have hplen := initFrame_length c io a sk serverPub
  have hdest : frameDest (initFrame c io a sk serverPub ++ stale) = a.dstAddr :=
    frameDest_build _ _ _ _ _ _ _ _ _ _ haddr
  have hcheck := initFrame_checked c io a sk serverPub stale
  have hflags := initFrame_flags c io a sk serverPub stale
  have hdata := initFrame_data c io a sk serverPub stale
  obtain ⟨rest, hver, -, -, -⟩ := initFrame_reads c io a sk serverPub stale
  have hmaced : slice (chunkData0 (framePayload (initFrame c io a sk serverPub ++ stale))) 0
      (initPreSig (initFlags serverPub) + 64) = initMaced c io a sk serverPub := by
    rw [hdata, ← hlen]
    exact slice_append_exact _ _
  have htag : arr (chunkData0 (framePayload (initFrame c io a sk serverPub ++ stale)))
      (initPreSig (initFlags serverPub) + 64) mac1Len =
        mac1Compute c (mac1Key c a.dstAddr) (initMaced c io a sk serverPub) := by
    rw [hdata, arr_append_right _ _ _ _ (by omega), hlen, Nat.sub_self]
    exact arr_append_exact _ _
  have hroom : icspHeaderLen + icspChunkHdr + initLen (initFlags serverPub) ≤
      (initFrame c io a sk serverPub).length - 46 := by
    simp only [icspHeaderLen, icspChunkHdr]
    omega
  rw [chunkData0] at hver hmaced htag
  simp only [initWellFormed, hcheck, hflags, hver, hdest, hmaced, htag, mac1Verify_compute, beq_self_eq_true,
    decide_eq_true hroom, Bool.and_self]

theorem initFrame_admitted {ioS : Io} {h : Host} (haddr : a.dstAddr.toNat < 2 ^ 40)
    (hts : h.assoc.lastInitTs < .ofNat io.now)
    (hrate : (rateAllow h.glob.gRate ioS.nowMs (pad 8 a.srcMac.val) 10 20 1).2 = true) :
    initAdmitted c ioS h (initFrame c io a sk serverPub ++ stale)
      (framePayload (initFrame c io a sk serverPub ++ stale))
      ((initFrame c io a sk serverPub).length - 46) = true := by
  have hmac : frameSrcMac (initFrame c io a sk serverPub ++ stale) = a.srcMac := frameSrcMac_build ..
  obtain ⟨rest, -, -, htime, -⟩ := initFrame_reads c io a sk serverPub stale
  rw [initAdmitted, initFrame_wellFormed c io a sk serverPub stale haddr, hmac, hrate, htime]
  exact decide_eq_true hts

/-- What the server opens in the identity slot: the first 48 bytes of a box of 64, as a box of 16
bytes, in front of what `peer_id` held. -/
def stubIdentity (b : IcspAssoc) (pub : Arr 32) : Option (Arr 32) :=
  (ed25519SecretboxOpen c (initIdField c (newEph c io a) (some pub)) (initBoxLen - 32) (.zero 24)
    (c.scalarmult (arr b.sk.val 0 32) (c.scalarmultBase io.ephRnd))).map
      fun id => pad 32 (id ++ b.peerId.val.drop (initBoxLen - 32))

theorem initFrame_claims_plain (b : IcspAssoc) :
    claimedIdentity c b (framePayload (initFrame c io a sk none ++ stale)) = some a.idPub := by
  obtain ⟨rest, -, -, -, hfield⟩ := initFrame_reads c io a sk none stale
  have hid : arr (chunkData0 (framePayload (initFrame c io a sk none ++ stale))) 45 32 = a.idPub := by
    have h : arr ((chunkData0 (framePayload (initFrame c io a sk none ++ stale))).drop 45) 0 32 = a.idPub := by
      rw [hfield]
      exact arr_append_exact a.idPub rest
    exact h
  have hflags := initFrame_flags c io a sk none stale
  rw [claimedIdentity, hflags, initIdentity, if_neg (by decide), hid]

theorem initFrame_claims_boxed (b : IcspAssoc) (pub : Arr 32) :
    claimedIdentity c b (framePayload (initFrame c io a sk (some pub) ++ stale)) =
      stubIdentity c io a b pub := by
  obtain ⟨rest, -, heph, -, hfield⟩ := initFrame_reads c io a sk (some pub) stale
  have hflags := initFrame_flags c io a sk (some pub) stale
  have hlen : (initIdField c (newEph c io a) (some pub)).length = 48 := initIdField_length c _ _
  have hopen : ∀ key, ed25519SecretboxOpen c (initIdField c (newEph c io a) (some pub) ++ rest) 16 (.zero 24) key =
      ed25519SecretboxOpen c (initIdField c (newEph c io a) (some pub)) 16 (.zero 24) key := by
    intro key
    have h₁ := slice_append_exact (initIdField c (newEph c io a) (some pub)) rest
    have h₂ := slice_append_exact (initIdField c (newEph c io a) (some pub)) []
    rw [hlen] at h₁ h₂
    rw [List.append_nil] at h₂
    rw [ed25519SecretboxOpen, ed25519SecretboxOpen, h₁, h₂]
  have hboxed : initFlags (some pub) &&& icspInitFlagIdbox ≠ 0 := by
    show icspInitFlagIdbox &&& icspInitFlagIdbox ≠ 0
    decide
  rw [claimedIdentity, hflags, initIdentity, if_pos hboxed, heph, hfield, stubIdentity]
  simp only [initBoxLen, Nat.reduceSub, hopen]

end Fields

/-- `init_check` accepts the frame and finds this identity and this ephemeral in it. -/
def Recovers (io : Io) (h : Host) (buf : Bytes) (n : Nat) (peers : List (Arr 32)) (id eph : Arr 32) : Prop :=
  (initCheck c io h buf (framePayload buf) (n - 46) peers).2 ≠ none ∧
    (initCheck c io h buf (framePayload buf) (n - 46) peers).1.assoc.peerId = id ∧
    (initCheck c io h buf (framePayload buf) (n - 46) peers).1.assoc.peerEph = eph

instance (io : Io) (h : Host) (buf : Bytes) (n : Nat) (peers : List (Arr 32)) (id eph : Arr 32) :
    Decidable (Recovers c io h buf n peers id eph) :=
  inferInstanceAs (Decidable (_ ≠ none ∧ _ = id ∧ _ = eph))

/-- An accepted INIT leaves the identity that it claims and its ephemeral. -/
theorem initCheck_takes {io : Io} {h : Host} {buf payload : Bytes} {plen : Nat} {peers : List (Arr 32)}
    (hacc : (initCheck c io h buf payload plen peers).2 ≠ none) :
    claimedIdentity c h.assoc payload = some (initCheck c io h buf payload plen peers).1.assoc.peerId ∧
      (initCheck c io h buf payload plen peers).1.assoc.peerEph = arr (chunkData0 payload) 5 32 := by
  have hout := initCheck_outcome c io h buf payload plen peers
  revert hout hacc
  generalize initCheck c io h buf payload plen peers = res
  intro hacc hout
  cases hout with
  | accepted g id hadm hid hsig hpeers => exact ⟨hid, rfl⟩
  | refused g hadm => exact absurd rfl hacc
  | boxed g hadm hid => exact absurd rfl hacc
  | rejected g id hadm hid => exact absurd rfl hacc

/-- The addressed server recovers the identity and the ephemeral of a client from its INIT exactly
when it is in the plain form, or else the stub of the box happens to open to the first half of
the identity while `peer_id` still ends in the second. -/
theorem init_recovered_iff (io ioS : Io) (a : IcspAssoc) (h : Host) (sk : Arr 64) (serverPub : Option (Arr 32))
    (peers : List (Arr 32)) (stale : Bytes) (hid : a.idPub = c.seedToPk (arr sk.val 0 32))
    (haddr : a.dstAddr.toNat < 2 ^ 40) (hts : h.assoc.lastInitTs < .ofNat io.now)
    (hrate : (rateAllow h.glob.gRate ioS.nowMs (pad 8 a.srcMac.val) 10 20 1).2 = true)
    (hpeers : peers = [] ∨ a.idPub ∈ peers) :
    Recovers c ioS h (initFrame c io a sk serverPub ++ stale) (initFrame c io a sk serverPub).length peers
        a.idPub (initBuild c io a sk serverPub).1.ephPub ↔
      ∀ pub ∈ serverPub, stubIdentity c io a h.assoc pub = some a.idPub := by
  have hadm := initFrame_admitted c io a sk serverPub stale haddr hts hrate
  have hver := initFrame_verifies c io a sk serverPub stale hid
  obtain ⟨rest, -, heph, -, -⟩ := initFrame_reads c io a sk serverPub stale
  have hclaim : claimedIdentity c h.assoc (framePayload (initFrame c io a sk serverPub ++ stale)) = some a.idPub ↔
      ∀ pub ∈ serverPub, stubIdentity c io a h.assoc pub = some a.idPub := by
    cases serverPub with
    | none =>
      rw [initFrame_claims_plain]
      exact ⟨fun _ _ hpub => (nomatch hpub), fun _ => rfl⟩
    | some pub =>
      rw [initFrame_claims_boxed]
      exact ⟨fun hstub _ hpub => Option.some.inj hpub ▸ hstub, fun hall => hall pub rfl⟩
  rw [← hclaim]
  constructor
  · rintro ⟨hacc, hpeer, -⟩
    rw [← hpeer]
    exact (initCheck_takes c hacc).1
  · intro hcl
    have hvouched : initVouched c h.assoc (framePayload (initFrame c io a sk serverPub ++ stale)) peers = true := by
      rw [initVouched, hcl, Option.any_some, hver, Bool.true_and, Bool.or_eq_true, List.isEmpty_iff,
        decide_eq_true_eq]
      exact hpeers
    have hacc := (initCheck_accepts_iff c ioS h (initFrame c io a sk serverPub ++ stale) _ _ peers).mpr
      ⟨hadm, hvouched⟩
    obtain ⟨hpeer, hpeph⟩ := initCheck_takes c hacc
    rw [hcl] at hpeer
    exact ⟨hacc, (Option.some.inj hpeer).symm, hpeph.trans heph⟩

/-- Station 9 dials station 7 in the plain form. -/
theorem init_recovered_plain :
    Recovers toy (.quiet 1) ⟨toyAssoc 7, .zero⟩ (initFrame toy (.quiet 1) { toyAssoc 9 with dstAddr := 7 } (toyKey 9) none)
      (initFrame toy (.quiet 1) { toyAssoc 9 with dstAddr := 7 } (toyKey 9) none).length [toyId 9] (toyId 9)
      (initBuild toy (.quiet 1) { toyAssoc 9 with dstAddr := 7 } (toyKey 9) none).1.ephPub := by
  have h := init_recovered_iff toy (.quiet 1) (.quiet 1) { toyAssoc 9 with dstAddr := 7 } ⟨toyAssoc 7, .zero⟩ (toyKey 9)
    none [toyId 9] [] (by decide +kernel) (by decide) (by decide) (by decide +kernel) (.inr (by decide))
  rw [List.append_nil] at h
  exact h.mpr fun _ hpub => nomatch hpub

/-- The same call with the server's key, on an otherwise idle server: the box does not open. -/
theorem boxed_init_refused :
    let client := { toyAssoc 9 with dstAddr := 7 }
    let frame := initFrame toy (.quiet 1) client (toyKey 9) (some (toyId 7))
    client.idPub = toy.seedToPk (arr (toyKey 9).val 0 32) ∧
      toyId 7 = toy.seedToPk (arr (toyAssoc 7).sk.val 0 32) ∧ client.dstAddr = (toyAssoc 7).srcAddr ∧
      initAdmitted toy (.quiet 1) ⟨toyAssoc 7, .zero⟩ frame (framePayload frame) (frame.length - 46) = true ∧
      ¬ Recovers toy (.quiet 1) ⟨toyAssoc 7, .zero⟩ frame frame.length [] client.idPub
        (initBuild toy (.quiet 1) client (toyKey 9) (some (toyId 7))).1.ephPub := by
  decide +kernel

end Icsp
