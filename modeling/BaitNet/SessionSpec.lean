import BaitNet.HandshakeSpec

/-!
# What the dispatcher can do

`icsp_handle_frame` in five pieces: a frame it does not look at, a step of either
rekey machine that ends the call, and the data path, with or without such a step
before it. The data path handles no keys.
-/
namespace Icsp

open Wire Link Crypto

/-- Acts that involve no key: frames and messages that come and go. -/
def Act.isTraffic : Act → Bool
  | .tx _ _ | .deliver _ _ | .announce _ => true
  | .seal _ _ _ | .sign _ | .install _ _ _ _ => false

/-- Only traffic. -/
def Traffic (acts : List Act) : Prop := ∀ act ∈ acts, act.isTraffic = true

theorem traffic_nil : Traffic [] := fun _ h => nomatch h

theorem Traffic.append {acts acts' : List Act} (h : Traffic acts) (h' : Traffic acts') :
    Traffic (acts ++ acts') := by
  intro act hact
  cases List.mem_append.mp hact with
  | inl hmem => exact h act hmem
  | inr hmem => exact h' act hmem

theorem icspSendPkt_traffic (io : Io) (a : IcspAssoc) (chunk : Bytes) :
    Traffic (icspSendPkt io a chunk).1 := by
  rcases icspSendPkt_cases io a chunk with ⟨h, -, -⟩ | ⟨h, -⟩
  · rw [h]
    intro act hact
    rw [List.mem_singleton.mp hact]
    rfl
  · rw [h]
    exact traffic_nil

theorem Traffic.of_send {io : Io} {a : IcspAssoc} {chunk : Bytes} {acts : List Act} {sent : Bool}
    (h : icspSendPkt io a chunk = (acts, sent)) : Traffic acts := by
  have ht := icspSendPkt_traffic io a chunk
  rwa [h] at ht

/-- A chunk loop over lifecycle chunks resets streams at most. -/
theorem lifeChunks_keeps (chs : List Chunk) (a : IcspAssoc) :
    ∃ ss, (lifeChunks chs a).1 = { a with streams := ss } := by
  induction chs generalizing a with
  | nil => exact ⟨a.streams, rfl⟩
  | cons ch chs ih =>
    rw [lifeChunks]
    split
    · exact ⟨a.streams, rfl⟩
    · split
      · obtain ⟨ss, h⟩ := ih { a with streams := resetStreams (get16 ch.cd 0) a.streams }
        exact ⟨ss, h⟩
      · exact ih a

theorem icspLifeHandle_keeps (a : IcspAssoc) (payload : Bytes) (plen : Nat) :
    ∃ ss, (icspLifeHandle a payload plen).1 = { a with streams := ss } := by
  rw [icspLifeHandle]
  split
  · exact ⟨a.streams, rfl⟩
  · exact lifeChunks_keeps _ a

section

variable (c : TweetNaCl)

/-- What a data step does to the sending half: it acknowledges. -/
structure DataKeeps (a b : IcspAssoc) : Prop where
  dataPlane : ∃ d : DataPlane, b = { a with toDataPlane := d }
  nextTsn : b.nextTsn = a.nextTsn
  sendq : ∃ cums, b.sendq = a.sendq.map (ackBy cums)

theorem handleData_keeps (io : Io) (a : IcspAssoc) (payload : Bytes) (plen : Nat) :
    DataKeeps a (handleData c io a payload plen).1 ∧ Traffic (handleData c io a payload plen).2.1 := by
  have hk := handleCall_keeps c a ⟨payload, plen, icspMaxPayload, 0⟩
  obtain ⟨cums, -, hq⟩ := handleCall_acks c a ⟨payload, plen, icspMaxPayload, 0⟩
  rw [handleCall] at hk hq
  rw [handleData]
  revert hk hq
  generalize icspDataHandle c a payload plen icspMaxPayload 0 = res
  intro hk hq
  obtain ⟨a₁, r⟩ := res
  obtain ⟨⟨d, hd⟩, hnext, -⟩ := hk
  have hd' : a₁ = { a with toDataPlane := d } := hd
  by_cases hr : r.ret < 0
  · simp only [if_pos hr]
    exact ⟨⟨⟨d, hd'⟩, hnext, ⟨cums, hq⟩⟩, traffic_nil⟩
  · simp only [if_neg hr]
    have hacts : Traffic ((if 0 < r.ret then [.deliver r.outStream r.out] else []) ++
        if a₁.cumTsn ≠ a.cumTsn ∧ (a₁.sackLossPct = 0 ∨ a₁.sackLossPct ≤ io.rand % 100) then
          (icspSackSend io a₁).1 else []) := by
      refine Traffic.append ?_ ?_
      · split
        · intro act hact
          rw [List.mem_singleton.mp hact]
          rfl
        · exact traffic_nil
      · split
        · exact icspSendPkt_traffic io a₁ _
        · exact traffic_nil
    obtain ⟨ss, hl⟩ := icspLifeHandle_keeps a₁ payload plen
    revert hl
    generalize icspLifeHandle a₁ payload plen = res
    intro hl
    obtain ⟨a₂, closed⟩ := res
    have hl' : a₂ = { a₁ with streams := ss } := hl
    have hkeep : DataKeeps a a₂ := by
      rw [hl', hd']
      refine ⟨⟨_, rfl⟩, ?_, ⟨cums, ?_⟩⟩
      · rw [hd'] at hnext
        exact hnext
      · rw [hd'] at hq
        exact hq
    cases closed with
    | true => exact ⟨hkeep, hacts⟩
    | false => exact ⟨hkeep, hacts⟩

/-- The association once the sender of the frame is noted. -/
def linked (io : Io) (a : IcspAssoc) (buf : Bytes) : IcspAssoc :=
  { a with peerMac := frameSrcMac buf, hasPeerMac := true, lastRx := io.now }

/-- The answer to a heartbeat. -/
def beatOf (io : Io) (a : IcspAssoc) (payload : Bytes) (plen : Nat) : List Act :=
  if icspHeaderLen + icspChunkHdr ≤ plen ∧ byteAt payload icspHeaderLen = chunkHeartbeat then
    (icspHeartbeatAck io a).1
  else []

theorem beatOf_traffic (io : Io) (a : IcspAssoc) (payload : Bytes) (plen : Nat) :
    Traffic (beatOf io a payload plen) := by
  rw [beatOf]
  split
  · exact icspSendPkt_traffic io a _
  · exact traffic_nil

theorem Rekeying.not_answering {a : IcspAssoc} (h : Rekeying a) : ¬ Answering a := by
  rcases h with h | h
  · rintro (h' | h') <;> rw [h] at h' <;> cases h'
  · rintro (h' | h') <;> rw [h] at h' <;> cases h'

inductive PayloadOutcome (io : Io) (h : Host) (buf payload : Bytes) (plen : Nat) :
    Host × List Act × Int → Prop
  /-- a rekey step of the initiator that ends the call -/
  | client (hst : Rekeying h.assoc) (a : IcspAssoc) (acts : List Act) (r : Int)
      (hout : RekeyClientOutcome c io h.assoc payload (a, acts, r)) (hr : r ≠ 0) :
      PayloadOutcome io h buf payload plen ({ h with assoc := a }, acts, if r = 1 then 0 else -1)
  | clientData (hst : Rekeying h.assoc) (a : IcspAssoc) (acts : List Act)
      (hout : RekeyClientOutcome c io h.assoc payload (a, acts, 0)) :
      PayloadOutcome io h buf payload plen
        ({ h with assoc := (handleData c io a payload plen).1 },
          acts ++ (handleData c io a payload plen).2.1, (handleData c io a payload plen).2.2)
  /-- a rekey step of the responder that ends the call -/
  | server (hst : Answering h.assoc) (h' : Host) (acts : List Act) (r : Int)
      (hout : RekeyServerOutcome c io h buf payload plen (h', acts, r)) (hr : r ≠ 0) :
      PayloadOutcome io h buf payload plen (h', acts, if r = 1 then 0 else -1)
  | serverData (hst : Answering h.assoc) (h' : Host) (acts : List Act)
      (hout : RekeyServerOutcome c io h buf payload plen (h', acts, 0)) :
      PayloadOutcome io h buf payload plen
        ({ h' with assoc := (handleData c io h'.assoc payload plen).1 },
          acts ++ (handleData c io h'.assoc payload plen).2.1,
          (handleData c io h'.assoc payload plen).2.2)
  | data (h₁ : ¬ Rekeying h.assoc) (h₂ : ¬ Answering h.assoc) :
      PayloadOutcome io h buf payload plen
        ({ h with assoc := (handleData c io h.assoc payload plen).1 },
          (handleData c io h.assoc payload plen).2.1, (handleData c io h.assoc payload plen).2.2)

theorem RekeyClientOutcome.ret {io : Io} {a a' : IcspAssoc} {payload : Bytes} {acts : List Act}
    {r : Int} (h : RekeyClientOutcome c io a payload (a', acts, r)) : r = -1 ∨ r = 0 ∨ r = 1 := by
  cases h with
  | badAck => exact .inl rfl
  | echoed => exact .inr (.inl rfl)
  | unsent => exact .inl rfl
  | completed => exact .inr (.inr rfl)
  | other => exact .inr (.inl rfl)

theorem RekeyServerOutcome.ret {io : Io} {h h' : Host} {buf payload : Bytes} {plen : Nat}
    {acts : List Act} {r : Int} (hout : RekeyServerOutcome c io h buf payload plen (h', acts, r)) :
    r = -1 ∨ r = 0 ∨ r = 1 := by
  cases hout with
  | dropped => exact .inl rfl
  | stranger => exact .inl rfl
  | answered hst hty h' flags hout hid acts sent hs =>
    cases sent with
    | true => exact .inr (.inl rfl)
    | false => exact .inl rfl
  | badEcho => exact .inl rfl
  | completed => exact .inr (.inr rfl)
  | unsent => exact .inl rfl
  | other => exact .inr (.inl rfl)

/-- A rekey step of the initiator that goes on leaves it an initiator. -/
theorem RekeyClientOutcome.rekeying {io : Io} {a a' : IcspAssoc} {payload : Bytes} {acts : List Act}
    (h : RekeyClientOutcome c io a payload (a', acts, 0)) (hst : Rekeying a) : Rekeying a' := by
  generalize hr : (0 : Int) = r at h
  cases h with
  | badAck => cases hr
  | echoed => exact .inr rfl
  | unsent => cases hr
  | completed => cases hr
  | other => exact hst

theorem handleServer_answering (io : Io) (h : Host) (buf payload : Bytes) (plen : Nat)
    (hst : Answering h.assoc) : PayloadOutcome c io h buf payload plen
      (handleServer c io h buf payload plen) := by
  have hout := icspRekeyServerStep_outcome c io h buf payload plen
  rw [handleServer, if_pos hst]
  revert hout
  generalize icspRekeyServerStep c io h buf payload plen = res
  intro hout
  obtain ⟨h', acts, r⟩ := res
  rcases hout.ret with rfl | rfl | rfl
  · exact .server hst h' acts (-1) hout (by decide)
  · exact .serverData hst h' acts hout
  · exact .server hst h' acts 1 hout (by decide)

theorem handleServer_other (io : Io) (h : Host) (buf payload : Bytes) (plen : Nat)
    (hst : ¬ Answering h.assoc) :
    handleServer c io h buf payload plen =
      ({ h with assoc := (handleData c io h.assoc payload plen).1 },
        (handleData c io h.assoc payload plen).2.1, (handleData c io h.assoc payload plen).2.2) := by
  rw [handleServer, if_neg hst]
  rfl

theorem handlePayload_outcome (io : Io) (h : Host) (buf payload : Bytes) (plen : Nat) :
    PayloadOutcome c io h buf payload plen (handlePayload c io h buf payload plen) := by
  rw [handlePayload]
  by_cases hst : Rekeying h.assoc
  · have hout := icspRekeyClientStep_outcome c io h.assoc payload
    rw [if_pos hst]
    revert hout
    generalize icspRekeyClientStep c io h.assoc payload = res
    intro hout
    obtain ⟨a, acts, r⟩ := res
    rcases hout.ret with rfl | rfl | rfl
    · exact .client hst a acts (-1) hout (by decide)
    · have hs := handleServer_other c io { h with assoc := a } buf payload plen
        (hout.rekeying c hst).not_answering
      simp only [hs]
      exact .clientData hst a acts hout
    · exact .client hst a acts 1 hout (by decide)
  · rw [if_neg hst]
    by_cases hans : Answering h.assoc
    · exact handleServer_answering c io h buf payload plen hans
    · have hs := handleServer_other c io h buf payload plen hans
      simp only [hs]
      exact .data hst hans

/-- A frame is ignored, or noted, answered if it is a heartbeat, and dispatched. -/
theorem icspHandleFrame_cases (io : Io) (h : Host) (buf : Bytes) (n : Nat) :
    (frameAdmitted h.assoc buf n = false ∧ icspHandleFrame c io h buf n = (h, [], 0)) ∨
    (frameAdmitted h.assoc buf n = true ∧
      icspHandleFrame c io h buf n =
        ((handlePayload c io { h with assoc := linked io h.assoc buf } buf (framePayload buf)
            (n - 14 - ipv69HeaderLen)).1,
          beatOf io (linked io h.assoc buf) (framePayload buf) (n - 14 - ipv69HeaderLen) ++
            (handlePayload c io { h with assoc := linked io h.assoc buf } buf (framePayload buf)
              (n - 14 - ipv69HeaderLen)).2.1,
          (handlePayload c io { h with assoc := linked io h.assoc buf } buf (framePayload buf)
            (n - 14 - ipv69HeaderLen)).2.2)) := by
  cases hadm : frameAdmitted h.assoc buf n with
  | false =>
    refine .inl ⟨rfl, ?_⟩
    rw [icspHandleFrame, if_pos hadm]
  | true =>
    refine .inr ⟨rfl, ?_⟩
    rw [icspHandleFrame, if_neg (by rw [hadm]; exact Bool.noConfusion)]
    rfl

end

end Icsp
