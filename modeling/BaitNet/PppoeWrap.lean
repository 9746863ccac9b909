import BaitNet.PppoeDial

/-!
# Frames inside a session

The session data of `pppoe69.c`: the concentrator and the host put an inner frame behind
their own Ethernet and IPv69 header and a session id, and take it out again. Every buffer
for a frame has 2048 bytes.
-/
namespace Pppoe

open Wire Link Crypto
open Gw (frameDstMac)

/-- `sizeof(frame)`. -/
def frameBuf : Nat := 2048

namespace Host

/-- A frame that is read from the TAP, as far as the buffer goes, wrapped for the
concentrator. -/
def wrap (h : Host) (ac : AcId) (sid : UInt16) (tap : Bytes) : Option Bytes :=
  let inner := tap.take (frameBuf - 2 - 14 - ipv69HeaderLen)
  if inner = [] then none
  else if frameBuf - 2 < inner.length then none
  else some (buildFrame ac.mac h.mac 0 ac.addr ipv69NextPppoe 64 0 0 (put16 sid ++ inner))

/-- What the session loop writes to the TAP for a received frame. -/
def unwrap (h : Host) (sid : UInt16) (frame : Bytes) : Option Bytes :=
  let p := framePayload frame
  if frame.length < 14 + ipv69HeaderLen + 1 ∨ frameSrcMac frame = h.mac then none
  else if frameNextHeader frame ≠ ipv69NextPppoe ∨ frame.length < 14 + ipv69HeaderLen + 2 + 14 + ipv69HeaderLen then none
  else if get16 p 0 ≠ sid then none
  else some (p.drop 2)

end Host

namespace Ac

/-- The inner frame that `ac_rx` hands to `ac_inner`, with the slot of its session, where it
passes the length check that `ac_inner` begins with. -/
def unwrap (a : Ac) (frame : Bytes) : Option (Nat × Bytes) :=
  if frame.length < 14 + ipv69HeaderLen + 1 then none
  else if frameSrcMac frame = a.cfg.mac then none
  else if frameNextHeader frame = ipv69NextPppoe then
    (a.sessionData frame).filter fun x => 14 + ipv69HeaderLen + 1 ≤ x.2.length
  else none

/-- What is recovered is learned from and forwarded. -/
theorem acRx_unwrap {c : TweetNaCl} {a : Ac} {frame inner : Bytes} {i : Nat} (h : a.unwrap frame = some (i, inner)) :
    a.acRx c frame = (a.sessModify i (a.acLearn inner), (a.sessModify i (a.acLearn inner)).acForward i inner) := by
  rw [unwrap] at h
  rw [acRx]
  split at h
  · cases h
  rename_i hlen
  split at h
  · cases h
  rename_i hsrc
  split at h
  · rename_i hnext
    obtain ⟨hdata, hlong⟩ := Option.filter_eq_some_iff.mp h
    have hshort : ¬ inner.length < 14 + ipv69HeaderLen + 1 := Nat.not_lt.mpr (of_decide_eq_true hlong)
    rw [if_neg hlen, if_neg hsrc, if_pos hnext, hdata]
    exact if_neg hshort
  · cases h

end Ac

section build

variable (dst src : Arr 6) (s d : UInt64) (nh hop : UInt8) (sid : UInt16) (inner : Bytes)

theorem wrapped_length :
    (buildFrame dst src s d nh hop 0 0 (put16 sid ++ inner)).length = 48 + inner.length := by
  rw [buildFrame_length, List.length_append, put16_length]
  omega

theorem wrapped_dstMac : frameDstMac (buildFrame dst src s d nh hop 0 0 (put16 sid ++ inner)) = dst := by
  rw [frameDstMac, buildFrame, List.append_assoc, List.append_assoc, List.append_assoc, arr_append_exact]

end build

/-- The session of slot `i` at the concentrator is the one that the host is in. -/
structure Linked (a : Ac) (i : Nat) (h : Host) (ac : AcId) (sid : UInt16) : Prop where
  slot : a.sessByCmac h.mac = some i
  sid : (a.sessAt i).sid = sid
  mac : ac.mac = a.cfg.mac
  apart : h.mac ≠ a.cfg.mac

/-- What `ac_session_send` takes fits its buffer, and the host gets it back. -/
def AcCarries (a : Ac) (i : Nat) (h : Host) (sid : UInt16) (inner : Bytes) : Prop :=
  ∀ o ∈ a.acSessionSend i inner, o.frame.length ≤ frameBuf ∧ h.unwrap sid (o.frame.take frameBuf) = some inner

/-- What the session loop of the host takes fits its buffer, and the concentrator gets it back. -/
def HostCarries (a : Ac) (i : Nat) (h : Host) (ac : AcId) (sid : UInt16) (inner : Bytes) : Prop :=
  ∀ f ∈ h.wrap ac sid inner, f.length ≤ frameBuf ∧ a.unwrap (f.take frameBuf) = some (i, inner)

/-- What the host makes of a wrapped frame that fits its buffer. -/
theorem Linked.host_unwrap {a : Ac} {i : Nat} {h : Host} {ac : AcId} {sid : UInt16} (hl : Linked a i h ac sid)
    (dst : Arr 6) {r : Bytes} (hr : r.length ≤ 2000) :
    h.unwrap sid ((a.acSend dst ipv69NextPppoe (put16 (a.sessAt i).sid ++ r)).take frameBuf) =
      if 46 ≤ r.length then some r else none := by
  have hbuf : frameBuf = 2048 := rfl
  have hheader : ipv69HeaderLen = 32 := rfl
  rw [Ac.acSend, List.take_of_length_le (by rw [wrapped_length]; omega), Host.unwrap, wrapped_length, frameSrcMac_built,
    frameNextHeader_built, framePayload_built, hl.sid, get16_put16, if_neg, List.drop_left' (put16_length sid)]
  · by_cases hlow : 46 ≤ r.length
    · rw [if_pos hlow, if_neg, if_neg (not_not.mpr rfl)]
      rintro (hnext | hshort)
      · exact hnext rfl
      · omega
    · rw [if_neg hlow, if_pos (.inr (by omega))]
  · rintro (hshort | hsame)
    · omega
    · exact hl.apart hsame.symm

/-- What the concentrator makes of a wrapped frame that fits its buffer. -/
theorem Linked.ac_unwrap {a : Ac} {i : Nat} {h : Host} {ac : AcId} {sid : UInt16} (hl : Linked a i h ac sid)
    {r : Bytes} (hr : r.length ≤ 2000) :
    a.unwrap ((buildFrame ac.mac h.mac 0 ac.addr ipv69NextPppoe 64 0 0 (put16 sid ++ r)).take frameBuf) =
      if 47 ≤ r.length then some (i, r) else none := by
  have hbuf : frameBuf = 2048 := rfl
  have hheader : ipv69HeaderLen = 32 := rfl
  have hlen : (put16 sid ++ r).length = 2 + r.length := by rw [List.length_append, put16_length]
  rw [List.take_of_length_le (by rw [wrapped_length]; omega), Ac.unwrap, wrapped_length, frameSrcMac_built,
    frameNextHeader_built, if_neg (by omega), if_neg hl.apart, if_pos rfl, Ac.sessionData, framePayload_built, wrapped_dstMac,
    frameSrcMac_built, hl.slot, hlen]
  by_cases hlow : 46 ≤ r.length
  · rw [if_neg]
    · dsimp only
      rw [get16_put16, hl.sid, if_neg (not_not.mpr rfl), List.drop_left' (put16_length sid)]
      by_cases hlong : 47 ≤ r.length
      · rw [if_pos hlong]
        exact Option.filter_some_pos (decide_eq_true hlong)
      · rw [if_neg hlong]
        exact Option.filter_some_neg (decide_eq_false hlong)
    · rintro (hmac | hshort)
      · exact hmac hl.mac
      · omega
  · rw [if_pos (.inr (by omega)), if_neg (by omega)]
    rfl

theorem Linked.ac_carries_iff {a : Ac} {i : Nat} {h : Host} {ac : AcId} {sid : UInt16} (hl : Linked a i h ac sid)
    (inner : Bytes) : AcCarries a i h sid inner ↔ (inner.length ≤ frameBuf - 2 → 46 ≤ inner.length ∧ inner.length ≤ 2000) := by
  have hbuf : frameBuf = 2048 := rfl
  rw [AcCarries, Ac.acSessionSend]
  by_cases hlong : 2048 - 2 < inner.length
  · rw [if_pos hlong]
    exact ⟨fun _ hle => by omega, fun _ o ho => by cases ho⟩
  have hlength : (a.acSend (a.sessAt i).cmac ipv69NextPppoe (put16 (a.sessAt i).sid ++ inner)).length =
      48 + inner.length := wrapped_length _ _ _ _ _ _ _ _
  rw [if_neg hlong, List.forall_mem_singleton, Out.frame, hlength]
  constructor
  · rintro ⟨hfits, hunwrap⟩ -
    rw [hl.host_unwrap _ (by omega)] at hunwrap
    split at hunwrap
    · omega
    · cases hunwrap
  · intro hbounds
    obtain ⟨hlow, hhigh⟩ := hbounds (by omega)
    exact ⟨by omega, by rw [hl.host_unwrap _ hhigh, if_pos hlow]⟩

theorem Linked.host_carries_iff {a : Ac} {i : Nat} {h : Host} {ac : AcId} {sid : UInt16} (hl : Linked a i h ac sid)
    (inner : Bytes) : HostCarries a i h ac sid inner ↔ (inner ≠ [] → 47 ≤ inner.length ∧ inner.length ≤ 2000) := by
  have hbuf : frameBuf = 2048 := rfl
  have hread : frameBuf - 2 - 14 - ipv69HeaderLen = 2000 := rfl
  have htake : (inner.take 2000).length = min 2000 inner.length := List.length_take
  rw [HostCarries, Host.wrap, hread]
  by_cases hempty : inner = []
  · subst hempty
    exact ⟨fun _ hne => absurd rfl hne, fun _ f hf => (nomatch hf)⟩
  have hpos : 0 < inner.length := List.length_pos_of_ne_nil hempty
  rw [if_neg (fun h => by rw [h, List.length_nil] at htake; omega), if_neg (by omega)]
  simp only [Option.mem_def, Option.some.injEq, forall_eq', wrapped_length]
  rw [hl.ac_unwrap (by omega)]
  constructor
  · rintro ⟨-, hunwrap⟩ -
    split at hunwrap
    · have hsame := congrArg List.length (Prod.mk.inj (Option.some.inj hunwrap)).2
      omega
    · cases hunwrap
  · intro hbounds
    obtain ⟨hlow, hhigh⟩ := hbounds hempty
    rw [List.take_of_length_le hhigh, if_pos hlow]
    exact ⟨by omega, rfl⟩

/-- The concentrator carries an inner frame to the host, and keeps within its buffer, exactly if
it refuses it or the frame has 46 to 2000 bytes; the other way it takes one byte more, which
`ac_inner` asks for. -/
theorem session_carries_iff {a : Ac} {i : Nat} {h : Host} {ac : AcId} {sid : UInt16} (hl : Linked a i h ac sid)
    (inner : Bytes) :
    (AcCarries a i h sid inner ↔ (inner.length ≤ frameBuf - 2 → 46 ≤ inner.length ∧ inner.length ≤ 2000)) ∧
      (HostCarries a i h ac sid inner ↔ (inner ≠ [] → 47 ≤ inner.length ∧ inner.length ≤ 2000)) ∧
      (AcCarries a i h sid inner ∧ HostCarries a i h ac sid inner ↔ 47 ≤ inner.length ∧ inner.length ≤ 2000) := by
  refine ⟨hl.ac_carries_iff inner, hl.host_carries_iff inner, ?_⟩
  rw [hl.ac_carries_iff, hl.host_carries_iff]
  have hbuf : frameBuf = 2048 := rfl
  constructor
  · rintro ⟨hac, hhost⟩
    by_cases hempty : inner = []
    · subst hempty
      exact absurd (hac (by decide)).1 (by decide)
    · exact hhost hempty
  · exact fun hbounds => ⟨fun _ => ⟨by omega, hbounds.2⟩, fun _ => hbounds⟩

/-- The concentrator with the session of host 7. -/
def toySession : Ac := step toy (start toyCfg .empty 0) (.recv (toyPadr 7 9 9))

theorem toySession_linked : Linked toySession 0 toyHost toyAc 1 :=
  ⟨by decide +kernel, by decide +kernel, by decide +kernel, by decide +kernel⟩

theorem session_carries_toy : ¬ HostCarries toySession 0 toyHost toyAc 1 (List.replicate 46 0) := by
  rw [(session_carries_iff toySession_linked (List.replicate 46 0)).2.1, List.length_replicate]
  decide

/-- A frame of 2001 bytes is taken by the concentrator and written past the end of its buffer. -/
theorem wrap_overflows : Linked toySession 0 toyHost toyAc 1 ∧ ¬ AcCarries toySession 0 toyHost 1 (List.replicate 2001 0) := by
  refine ⟨toySession_linked, ?_⟩
  rw [toySession_linked.ac_carries_iff, List.length_replicate]
  decide

end Pppoe
