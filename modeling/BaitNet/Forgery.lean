import BaitNet.DataSpec

/-!
# DATA that does not authenticate

What a payload without a single authentic DATA chunk does to the receiver. It
delivers nothing, but the replay window is moved before the box is opened: the
payload is harmless exactly when the window already refuses every TSN in it.
-/
namespace Icsp

open Wire Crypto

variable (c : TweetNaCl)

/-- What a sequence of calls returns. -/
def results : IcspAssoc → List RxCall → List DataRet
  | _, [] => []
  | a, p :: ps => (handleCall c a p).2 :: results (handleCall c a p).1 ps

theorem acceptData_sendq (a : IcspAssoc) (q : List SendEntry) (ch : Chunk) (clear : Bytes)
    (r : DataRet) :
    acceptData { a with sendq := q } ch clear r =
      ({ (acceptData a ch clear r).1 with sendq := q }, (acceptData a ch clear r).2) := by
  simp only [acceptData, getStream, findStream]
  split
  · rfl
  · cases a.streams.find? (fun s => s.id = get16 ch.cd 4) with
    | some s => dsimp only; split <;> rfl
    | none =>
      by_cases hfull : icspMaxStreams ≤ a.streams.length
      · simp only [if_pos hfull, cumAfter]
      · simp only [if_neg hfull]
        split <;> rfl

theorem handleChunk_sendq (a : IcspAssoc) (q : List SendEntry) (ch : Chunk) (r : DataRet) :
    ∃ q', handleChunk c { a with sendq := q } ch r =
      ({ (handleChunk c a ch r).1 with sendq := q' }, (handleChunk c a ch r).2) := by
  by_cases hd : ch.type = chunkData ∧ a.hasKey
  · refine ⟨q, ?_⟩
    rw [handleChunk_data c a ch r hd, handleChunk_data c { a with sendq := q } ch r hd,
      openData_congr c ch (a := { a with sendq := q }) (b := a) rfl rfl]
    cases replayWindow a.rwTsn a.rwMask (get32 ch.cd 0) with
    | none => rfl
    | some w =>
      cases openData c a ch with
      | none => rfl
      | some clear => exact acceptData_sendq { a with rwTsn := w.1, rwMask := w.2 } q ch clear r
  · obtain ⟨q₁, h₁, -⟩ := handleChunk_other c a ch r hd
    obtain ⟨q₂, h₂, -⟩ := handleChunk_other c { a with sendq := q } ch r hd
    exact ⟨q₂, by rw [h₁, h₂]⟩

theorem handleChunks_sendq (r : DataRet) (chs : List Chunk) (a : IcspAssoc) (q : List SendEntry) :
    ∃ q', handleChunks c r chs { a with sendq := q } =
      ({ (handleChunks c r chs a).1 with sendq := q' }, (handleChunks c r chs a).2) := by
  induction chs generalizing a q with
  | nil => exact ⟨q, rfl⟩
  | cons ch chs ih =>
    obtain ⟨q₁, h₁⟩ := handleChunk_sendq c a q ch r
    simp only [handleChunks, h₁]
    obtain ⟨a', o⟩ := handleChunk c a ch r
    cases o with
    | none => exact ih a' q₁
    | some r' => exact ⟨q₁, rfl⟩

theorem handleCall_sendq (a : IcspAssoc) (q : List SendEntry) (p : RxCall) :
    ∃ q', handleCall c { a with sendq := q } p =
      ({ (handleCall c a p).1 with sendq := q' }, (handleCall c a p).2) := by
  simp only [handleCall, icspDataHandle]
  split
  · exact ⟨q, rfl⟩
  · exact handleChunks_sendq c _ _ a q

theorem results_sendq (ps : List RxCall) (a : IcspAssoc) (q : List SendEntry) :
    results c { a with sendq := q } ps = results c a ps := by
  induction ps generalizing a q with
  | nil => rfl
  | cons p ps ih =>
    obtain ⟨q', h⟩ := handleCall_sendq c a q p
    simp only [results, h, ih]

/-- No DATA chunk of the payload opens under `recv_key` and the nonce of its TSN. -/
def Unauthentic (a : IcspAssoc) (payload : Bytes) (plen : Nat) : Prop :=
  ∀ ch ∈ chunks payload plen, ch.type = chunkData → openData c a ch = none

instance (a : IcspAssoc) (payload : Bytes) (plen : Nat) : Decidable (Unauthentic c a payload plen) :=
  inferInstanceAs (Decidable (∀ ch ∈ chunks payload plen, _ → _))

/-- The window refuses the TSN of every DATA chunk of the payload. -/
def WindowRefuses (a : IcspAssoc) (payload : Bytes) (plen : Nat) : Prop :=
  ∀ ch ∈ chunks payload plen, ch.type = chunkData → TsnSeen a (get32 ch.cd 0)

instance (a : IcspAssoc) (payload : Bytes) (plen : Nat) : Decidable (WindowRefuses a payload plen) :=
  inferInstanceAs (Decidable (∀ ch ∈ chunks payload plen, _ → _))

/-- The call delivers nothing, leaves the receive state as it was, and no later
sequence of calls returns anything else than without it. -/
def Inert (a : IcspAssoc) (p : RxCall) : Prop :=
  (handleCall c a p).2.ret ≤ 0 ∧ (handleCall c a p).2.out = [] ∧
    (handleCall c a p).1.rwTsn = a.rwTsn ∧ (handleCall c a p).1.rwMask = a.rwMask ∧
    (handleCall c a p).1.cumTsn = a.cumTsn ∧ (handleCall c a p).1.streams = a.streams ∧
    (handleCall c a p).1.rcvq = a.rcvq ∧
    ∀ later, results c (handleCall c a p).1 later = results c a later

/-- One chunk that does not authenticate: it touches the window at most, and every
TSN it refused or was offered is refused from then on. -/
theorem handleChunk_unauth (a : IcspAssoc) (ch : Chunk) (r : DataRet) (hk : a.hasKey = true)
    (hu : ch.type = chunkData → openData c a ch = none) :
    ∃ rwTsn rwMask q, handleChunk c a ch r = ({ a with rwTsn, rwMask, sendq := q }, none) ∧
      (∀ u, TsnSeen a u → TsnSeen { a with rwTsn, rwMask, sendq := q } u) ∧
      (ch.type = chunkData → TsnSeen { a with rwTsn, rwMask, sendq := q } (get32 ch.cd 0)) ∧
      ((ch.type = chunkData → TsnSeen a (get32 ch.cd 0)) → rwTsn = a.rwTsn ∧ rwMask = a.rwMask) := by
  by_cases hd : ch.type = chunkData
  · rw [handleChunk_data c a ch r ⟨hd, hk⟩, hu hd]
    cases hw : replayWindow a.rwTsn a.rwMask (get32 ch.cd 0) with
    | none =>
      have hseen := (replayWindow_none_iff a _).mp hw
      exact ⟨a.rwTsn, a.rwMask, a.sendq, rfl, fun _ h => h, fun _ => hseen, fun _ => ⟨rfl, rfl⟩⟩
    | some w =>
      obtain ⟨hnew, hrec, hmono⟩ := replayWindow_some hw
      exact ⟨w.1, w.2, a.sendq, rfl, hmono, fun _ => hrec, fun h => absurd (h hd) hnew⟩
  · obtain ⟨q, h, -⟩ := handleChunk_other c a ch r (fun h => hd h.1)
    exact ⟨a.rwTsn, a.rwMask, q, h, fun _ h => h, fun h => absurd h hd, fun _ => ⟨rfl, rfl⟩⟩

theorem handleChunks_unauth (r : DataRet) (chs : List Chunk) (a : IcspAssoc) (hk : a.hasKey = true)
    (hu : ∀ ch ∈ chs, ch.type = chunkData → openData c a ch = none) :
    ∃ rwTsn rwMask q, handleChunks c r chs a = ({ a with rwTsn, rwMask, sendq := q }, r) ∧
      (∀ u, TsnSeen a u → TsnSeen { a with rwTsn, rwMask, sendq := q } u) ∧
      (∀ ch ∈ chs, ch.type = chunkData → TsnSeen { a with rwTsn, rwMask, sendq := q } (get32 ch.cd 0)) ∧
      ((∀ ch ∈ chs, ch.type = chunkData → TsnSeen a (get32 ch.cd 0)) →
        rwTsn = a.rwTsn ∧ rwMask = a.rwMask) := by
  induction chs generalizing a with
  | nil => exact ⟨a.rwTsn, a.rwMask, a.sendq, rfl, fun _ h => h, fun _ h => (nomatch h), fun _ => ⟨rfl, rfl⟩⟩
  | cons ch chs ih =>
    obtain ⟨t₁, m₁, q₁, h₁, hmono₁, hrec₁, hsame₁⟩ :=
      handleChunk_unauth c a ch r hk (hu ch List.mem_cons_self)
    obtain ⟨t₂, m₂, q₂, h₂, hmono₂, hrec₂, hsame₂⟩ :=
      ih { a with rwTsn := t₁, rwMask := m₁, sendq := q₁ } hk
        (fun ch' hmem hd => by
          rw [← hu ch' (List.mem_cons_of_mem _ hmem) hd]
          exact openData_congr c ch' rfl rfl)
    refine ⟨t₂, m₂, q₂, ?_, fun u hs => hmono₂ u (hmono₁ u hs), ?_, ?_⟩
    · simp only [handleChunks, h₁, h₂]
    · intro ch' hmem hd
      rcases List.mem_cons.mp hmem with rfl | hmem
      · exact hmono₂ _ (hrec₁ hd)
      · exact hrec₂ ch' hmem hd
    · intro hall
      obtain ⟨ht, hm⟩ := hsame₁ (hall ch List.mem_cons_self)
      obtain ⟨ht', hm'⟩ := hsame₂ (fun ch' hmem hd => by
        have hs := hmono₁ _ (hall ch' (List.mem_cons_of_mem _ hmem) hd)
        exact hs)
      exact ⟨ht'.trans ht, hm'.trans hm⟩

/-- The call as a whole. -/
theorem handleCall_unauth (a : IcspAssoc) (p : RxCall) (hk : a.hasKey = true)
    (hu : Unauthentic c a p.payload p.plen) :
    ∃ rwTsn rwMask q, (handleCall c a p).1 = { a with rwTsn, rwMask, sendq := q } ∧
      (handleCall c a p).2.ret ≤ 0 ∧ (handleCall c a p).2.out = [] ∧
      (∀ ch ∈ chunks p.payload p.plen, ch.type = chunkData →
        TsnSeen { a with rwTsn, rwMask, sendq := q } (get32 ch.cd 0)) ∧
      (WindowRefuses a p.payload p.plen → rwTsn = a.rwTsn ∧ rwMask = a.rwMask) ∧
      ∀ u, TsnSeen a u → TsnSeen { a with rwTsn, rwMask, sendq := q } u := by
  by_cases hlen : p.plen < icspHeaderLen
  · have hnil : chunks p.payload p.plen = [] := by
      rw [chunks, Nat.sub_eq_zero_of_le (Nat.le_of_lt hlen)]
      rfl
    refine ⟨a.rwTsn, a.rwMask, a.sendq, ?_, ?_, ?_, by simp [hnil], fun _ => ⟨rfl, rfl⟩,
      fun _ hu => hu⟩ <;>
      simp [handleCall, icspDataHandle, hlen]
  · obtain ⟨t, m, q, h, hmono, hrec, hsame⟩ :=
      handleChunks_unauth c ⟨0, [], p.outlen, p.outStream⟩ (chunks p.payload p.plen) a hk hu
    have hcall : handleCall c a p =
        ({ a with rwTsn := t, rwMask := m, sendq := q }, ⟨0, [], p.outlen, p.outStream⟩) := by
      rw [handleCall, icspDataHandle, if_neg hlen, h]
    exact ⟨t, m, q, by rw [hcall], by rw [hcall], by rw [hcall], hrec, hsame, hmono⟩

/-- A payload without authentic DATA is inert if and only if the window refuses
each of its TSNs beforehand. -/
theorem unauthentic_inert_iff (a : IcspAssoc) (p : RxCall) (hk : a.hasKey = true)
    (hu : Unauthentic c a p.payload p.plen) :
    Inert c a p ↔ WindowRefuses a p.payload p.plen := by
  obtain ⟨t, m, q, hst, hret, hout, hrec, hsame, -⟩ := handleCall_unauth c a p hk hu
  constructor
  · rintro ⟨-, -, ht, hm, -⟩ ch hmem hd
    have hs := hrec ch hmem hd
    rw [hst] at ht hm
    simp only [TsnSeen] at hs ⊢
    rwa [show t = a.rwTsn from ht, show m = a.rwMask from hm] at hs
  · intro hw
    obtain ⟨rfl, rfl⟩ := hsame hw
    refine ⟨hret, hout, ?_⟩
    rw [hst]
    exact ⟨rfl, rfl, rfl, rfl, rfl, fun later => results_sendq c later a q⟩

/-- A receiver that has seen TSN 7, and a forged chunk that repeats it. -/
theorem unauthentic_inert_seen :
    Inert toy { IcspAssoc.zero with hasKey := true, rwTsn := 7, rwMask := 1 }
      ⟨List.replicate 12 0 ++ dataChunk 7 0 0 0 (List.replicate 40 0), 64, 1400, 0⟩ :=
  (unauthentic_inert_iff toy _ _ rfl (by decide +kernel)).mpr (by decide +kernel)

/-- Eight bytes of header and no box move the window over TSN 9; the peer's genuine
message with that TSN is then dropped, which would have been delivered. -/
theorem forged_header_not_inert :
    let peer := { IcspAssoc.zero with hasKey := true, nextTsn := 9 }
    let here := { IcspAssoc.zero with hasKey := true }
    let forged : RxCall := ⟨List.replicate 12 0 ++ icspChunkPut chunkData 8 ++ dataHeader 9 0 0, 24, 1400, 0⟩
    let genuine := (sentFrames toy (.quiet 0) peer 0 [1, 2, 3]).map (rxFrame · [] 1400)
    Unauthentic toy here forged.payload forged.plen ∧
      (results toy here genuine).map (·.out) = [[1, 2, 3]] ∧
      (results toy (handleCall toy here forged).1 genuine).map (·.ret) = [0] ∧
      ¬ Inert toy here forged := by
  refine ⟨by decide +kernel, by decide +kernel, by decide +kernel, ?_⟩
  rintro ⟨-, -, htop, -⟩
  revert htop
  decide +kernel

end Icsp
