import BaitNet.Crc
import BaitNet.Interop

/-!
# What the packet checksum detects

A packet carries the low 16 bits of a CRC32c taken with their own field blank. Which changes of one byte
they miss depends on the difference and on how many bytes follow it, and on nothing else.
-/
namespace Py

open Wire

theorem crcRound_eq (c : ℕ) : crcRound c = Crc.shift poly c := by
  have hand : c &&& 1 = c % 2 := Nat.and_one_is_mod c
  have hshift : c >>> 1 = c / 2 := Nat.shiftRight_one c
  rw [crcRound, Crc.shift, hand, hshift]
  rcases Nat.mod_two_eq_zero_or_one c with h | h
  · rw [h, if_neg (not_not.mpr rfl), Nat.mul_zero, Nat.xor_zero]
  · rw [h, if_pos Nat.one_ne_zero, Nat.mul_one]

theorem crcStep_eq (c : ℕ) (x : UInt8) :
    table ((c ^^^ x.toNat) &&& 0xFF) ^^^ (c >>> 8) = (Crc.shift poly)^[8] (c ^^^ x.toNat) := by
  have hround : crcRound = Crc.shift poly := funext crcRound_eq
  have hmask : (c ^^^ x.toNat) &&& 0xFF = (c ^^^ x.toNat) % 2 ^ 8 := Nat.and_two_pow_sub_one_eq_mod _ 8
  have hhigh : (c ^^^ x.toNat) / 2 ^ 8 = c >>> 8 := by
    have hx : x.toNat / 2 ^ 8 = 0 := Nat.div_eq_of_lt x.toNat_lt
    rw [Nat.xor_div_two_pow, hx, Nat.xor_zero, Nat.shiftRight_eq_div_pow]
  rw [Crc.shift_iterate_split, table, hround, hmask, hhigh]

theorem crc32c_eq_run (b : Bytes) :
    crc32c b = Crc.run poly 0xFFFFFFFF (b.map UInt8.toNat) ^^^ 0xFFFFFFFF := by
  rw [crc32c, Crc.run, List.foldl_map]
  congr 2
  funext c x
  exact crcStep_eq c x

end Py

namespace Icsp

open Wire Link

/-- The differences that the checksum misses in a byte with `k` bytes behind it. -/
def lost (k : ℕ) : List ℕ := if k = 1135 then [37] else if k = 1385 then [112, 144, 224] else []

theorem scan_lost : Crc.scan Py.poly 16 lost 1400 0 1 = true := by decide +kernel

theorem crc16_change (pre post : Bytes) {b v : UInt8} (hv : v ≠ b) (hlen : post.length < 1400) :
    (icspCrc32c (pre ++ v :: post)).toUInt16 = (icspCrc32c (pre ++ b :: post)).toUInt16 ↔
      (b ^^^ v).toNat ∈ lost post.length := by
  have hlow : ∀ p : Bytes, (icspCrc32c p).toUInt16.toNat =
      (Crc.run Py.poly 0xFFFFFFFF (p.map UInt8.toNat) ^^^ 0xFFFFFFFF) % 2 ^ 16 := by
    intro p
    rw [UInt32.toNat_toUInt16, ← Interop.crc32c_eq, Py.crc32c_eq_run]
  have hvb : v.toNat = b.toNat ^^^ (b ^^^ v).toNat := by
    rw [UInt8.toNat_xor, ← Nat.xor_assoc, Nat.xor_self, Nat.zero_xor]
  have hpos : (b ^^^ v).toNat ≠ 0 := by
    rw [UInt8.toNat_xor]
    exact fun h => hv (UInt8.toNat.inj (Nat.eq_of_xor_eq_zero h).symm)
  have hlost := Crc.scan_sound (k := 0) scan_lost (Nat.zero_le post.length) (by omega) (b ^^^ v).toNat_lt hpos
  rw [← UInt16.toNat_inj, hlow, hlow]
  simp only [List.map_append, List.map_cons]
  rw [hvb, Crc.run_change, List.length_map, Nat.xor_mod_two_pow, Nat.xor_mod_two_pow, Nat.xor_mod_two_pow, ← hlost]
  generalize Crc.run _ _ _ % 2 ^ 16 = r
  generalize (Crc.shift _)^[_] _ % 2 ^ 16 = d
  have hcomm : r ^^^ d ^^^ 0xFFFFFFFF % 2 ^ 16 = (r ^^^ 0xFFFFFFFF % 2 ^ 16) ^^^ d := by ac_rfl
  constructor
  · intro h
    rw [hcomm] at h
    have hcancel : (r ^^^ 0xFFFFFFFF % 2 ^ 16) ^^^ d = (r ^^^ 0xFFFFFFFF % 2 ^ 16) ^^^ 0 := by rwa [Nat.xor_zero]
    exact Nat.xor_right_injective hcancel
  · intro h
    rw [h, Nat.xor_zero]

theorem byteAt_set_self {b : Bytes} {i : ℕ} (hi : i < b.length) (v : UInt8) : byteAt (b.set i v) i = v := by
  simp [byteAt, hi]

theorem byteAt_set_ne {b : Bytes} {i j : ℕ} (h : i ≠ j) (v : UInt8) : byteAt (b.set i v) j = byteAt b j := by
  simp [byteAt, List.getElem?_set_ne h]

theorem get16_inj {b b' : Bytes} {i j : ℕ} (h : get16 b i = get16 b' j) :
    byteAt b i = byteAt b' j ∧ byteAt b (i + 1) = byteAt b' (j + 1) := by
  have h₀ := (byteAt b i).toNat_lt
  have h₁ := (byteAt b (i + 1)).toNat_lt
  have h₂ := (byteAt b' j).toNat_lt
  have h₃ := (byteAt b' (j + 1)).toNat_lt
  rw [get16_eq, get16_eq, ← UInt16.toNat_inj, UInt16.toNat_ofNat', UInt16.toNat_ofNat'] at h
  exact ⟨UInt8.toNat.inj (by omega), UInt8.toNat.inj (by omega)⟩

theorem split_at {b : Bytes} {i : ℕ} (hi : i < b.length) (v : UInt8) :
    b.set i v = b.take i ++ v :: b.drop (i + 1) := by
  rw [List.set_eq_take_append_cons_drop, if_pos hi]

theorem split_self {b : Bytes} {i : ℕ} (hi : i < b.length) :
    b = b.take i ++ byteAt b i :: b.drop (i + 1) := by
  have hget : byteAt b i = b[i] := by simp [byteAt, hi]
  rw [← split_at hi, hget, List.set_getElem_self]

/-- Changing one byte of a buffer keeps its checksum exactly when the difference is lost. -/
theorem crc16_set {p : Bytes} {i : ℕ} (hi : i < p.length) (hp : p.length ≤ 1400) {v : UInt8} (hv : v ≠ byteAt p i) :
    (icspCrc32c (p.set i v)).toUInt16 = (icspCrc32c p).toUInt16 ↔
      (byteAt p i ^^^ v).toNat ∈ lost (p.length - 1 - i) := by
  have hlen : (p.drop (i + 1)).length = p.length - 1 - i := by
    rw [List.length_drop]
    omega
  have h := crc16_change (p.take i) (p.drop (i + 1)) hv (by omega)
  rwa [hlen, ← split_at hi, ← split_self hi] at h

/-- The packet with a blank checksum. -/
def blank (pkt : Bytes) : Bytes := pkt.take 10 ++ [0, 0] ++ pkt.drop 12

variable {pkt : Bytes} {i : ℕ} {v : UInt8}

theorem blank_length (h : 12 ≤ pkt.length) : (blank pkt).length = pkt.length := by
  simp only [blank, List.length_append, List.length_take, List.length_drop, List.length_cons, List.length_nil]
  omega

theorem byteAt_blank (h : 12 ≤ pkt.length) (hten : i ≠ 10) (heleven : i ≠ 11) :
    byteAt (blank pkt) i = byteAt pkt i := by
  have htake : (pkt.take 10).length = 10 := by
    rw [List.length_take]
    omega
  rw [blank, List.append_assoc]
  rcases Nat.lt_or_ge i 10 with hlt | hge
  · rw [byteAt_append_left _ _ _ (by omega)]
    simp [byteAt, List.getElem?_take_of_lt hlt]
  · have htwo : ([0, 0] : Bytes).length = 2 := rfl
    rw [byteAt_append_right _ _ _ (by omega), byteAt_append_right _ _ _ (by omega), byteAt_drop]
    congr 1
    omega

theorem blank_set (h : 12 ≤ pkt.length) (hten : i ≠ 10) (heleven : i ≠ 11) (v : UInt8) :
    blank (pkt.set i v) = (blank pkt).set i v := by
  have htake : (pkt.take 10).length = 10 := by
    rw [List.length_take]
    omega
  rw [blank, blank, List.append_assoc, List.append_assoc, List.take_set, List.drop_set, List.set_append]
  rcases Nat.lt_or_ge i 10 with hlt | hge
  · rw [if_pos (by omega), if_pos (by omega)]
  · have htwo : ([0, 0] : Bytes).length = 2 := rfl
    rw [if_neg (by omega), if_neg (by omega), List.set_append_right _ _ (by omega), htwo, htake, Nat.sub_sub,
      List.set_eq_of_length_le (by omega)]

theorem blank_set_field (h : i = 10 ∨ i = 11) (v : UInt8) : blank (pkt.set i v) = blank pkt := by
  rw [blank, blank, List.take_set_of_le (by omega), List.drop_set_of_lt (by omega)]

/-- The check of a whole packet. -/
theorem icspCheckPkt_whole (hlen : 12 ≤ pkt.length) (hmax : pkt.length ≤ 1400) :
    icspCheckPkt pkt pkt.length = (get16 pkt 10 == (icspCrc32c (blank pkt)).toUInt16) := by
  have h := slice_append_exact pkt []
  rw [List.append_nil] at h
  rw [icspCheckPkt, if_neg (by simp only [icspHeaderLen, icspMaxPayload]; omega)]
  simp only [h]
  rfl

/-- An accepted packet with one other byte is accepted again exactly when the byte is not in the
checksum and the difference is lost. -/
theorem icspCheckPkt_set (hlen : 12 ≤ pkt.length) (hmax : pkt.length ≤ 1400)
    (hok : icspCheckPkt pkt pkt.length = true) (hi : i < pkt.length) (hv : v ≠ byteAt pkt i) :
    icspCheckPkt (pkt.set i v) pkt.length = true ↔
      i ≠ 10 ∧ i ≠ 11 ∧ (byteAt pkt i ^^^ v).toNat ∈ lost (pkt.length - 1 - i) := by
  have hset : (pkt.set i v).length = pkt.length := List.length_set
  have hcheck := @icspCheckPkt_whole (pkt.set i v) (by omega) (by omega)
  rw [icspCheckPkt_whole hlen hmax, beq_iff_eq] at hok
  rw [hset] at hcheck
  rw [hcheck, beq_iff_eq]
  by_cases hfield : i = 10 ∨ i = 11
  · rw [blank_set_field hfield, ← hok]
    refine iff_of_false (fun hsame => hv ?_) (fun hno => hfield.elim hno.1 hno.2.1)
    obtain ⟨hhigh, hlow⟩ := get16_inj hsame
    rcases hfield with rfl | rfl
    · rwa [byteAt_set_self hi] at hhigh
    · rwa [byteAt_set_self hi] at hlow
  · obtain ⟨hten, heleven⟩ := not_or.mp hfield
    have hfieldBytes : get16 (pkt.set i v) 10 = get16 pkt 10 := by
      rw [get16_eq, get16_eq, byteAt_set_ne hten, byteAt_set_ne heleven]
    have hblank : v ≠ byteAt (blank pkt) i := by rwa [byteAt_blank hlen hten heleven]
    have hcrc := crc16_set (p := blank pkt) (by rwa [blank_length hlen]) (by rwa [blank_length hlen]) hblank
    rw [byteAt_blank hlen hten heleven, blank_length hlen] at hcrc
    rw [hfieldBytes, hok, blank_set hlen hten heleven, eq_comm, hcrc]
    exact ⟨fun h => ⟨hten, heleven, h⟩, fun h => h.2.2⟩

/-- Whether no change of a single byte gets past the check. -/
def DetectsBytes (pkt : Bytes) : Prop :=
  ∀ i < pkt.length, ∀ v, v ≠ byteAt pkt i → icspCheckPkt (pkt.set i v) pkt.length = false

theorem not_detectsBytes {d : ℕ} (hlen : 12 ≤ pkt.length) (hmax : pkt.length ≤ 1400)
    (hok : icspCheckPkt pkt pkt.length = true) (hi : i < pkt.length) (hfield : i ≠ 10 ∧ i ≠ 11)
    (hd : d < 256) (hpos : d ≠ 0) (hlost : d ∈ lost (pkt.length - 1 - i)) : ¬ DetectsBytes pkt := by
  intro h
  have hxor : byteAt pkt i ^^^ (byteAt pkt i ^^^ UInt8.ofNat d) = UInt8.ofNat d := by
    rw [← UInt8.xor_assoc, UInt8.xor_self, UInt8.zero_xor]
  have hnat : (UInt8.ofNat d).toNat = d := UInt8.toNat_ofNat_of_lt' hd
  have hv : byteAt pkt i ^^^ UInt8.ofNat d ≠ byteAt pkt i := by
    intro hsame
    rw [hsame, UInt8.xor_self] at hxor
    rw [← hxor] at hnat
    exact hpos hnat.symm
  have hacc := (icspCheckPkt_set hlen hmax hok hi hv).mpr ⟨hfield.1, hfield.2, by rwa [hxor, hnat]⟩
  rw [h i hi _ hv] at hacc
  cases hacc

/-- A built packet passes its check. A change of one byte passes too exactly when it is one of the lost
differences, so up to 1135 bytes, and at 1146 and 1147, none does. -/
theorem checksum_detects_iff (a : IcspAssoc) (chunk pkt : Bytes)
    (h : icspBuildPkt a chunk icspMaxPayload = some pkt) :
    icspCheckPkt pkt pkt.length = true ∧
      (∀ i < pkt.length, ∀ v, v ≠ byteAt pkt i → (icspCheckPkt (pkt.set i v) pkt.length = false ↔
        (i = 10 ∨ i = 11 ∨ (byteAt pkt i ^^^ v).toNat ∉ lost (pkt.length - 1 - i)))) ∧
      (DetectsBytes pkt ↔ pkt.length ≤ 1135 ∨ pkt.length = 1146 ∨ pkt.length = 1147) := by
  have hok := icspCheckPkt_build a chunk pkt [] h
  rw [List.append_nil] at hok
  obtain ⟨hlen, hmax⟩ : 12 ≤ pkt.length ∧ pkt.length ≤ 1400 := by
    rw [icspCheckPkt] at hok
    split at hok
    · cases hok
    · rename_i hfit
      simp only [icspHeaderLen, icspMaxPayload] at hfit
      omega
  refine ⟨hok, fun i hi v hv => ?_, ?_, ?_⟩
  · rw [← Bool.not_eq_true, icspCheckPkt_set hlen hmax hok hi hv]
    tauto
  · intro hdet
    by_contra hno
    obtain ⟨hlong, hfield⟩ := not_or.mp hno
    have hbehind : pkt.length - 1 - (pkt.length - 1136) = 1135 := by omega
    exact not_detectsBytes hlen hmax hok (by omega : pkt.length - 1136 < pkt.length) (by omega)
      (by decide : 37 < 256) (by decide) (by rw [hbehind]; decide) hdet
  · intro hshort i hi v hv
    rw [← Bool.not_eq_true, icspCheckPkt_set hlen hmax hok hi hv]
    rintro ⟨hten, heleven, hlost⟩
    rw [lost] at hlost
    split at hlost
    · omega
    · split at hlost
      · omega
      · cases hlost

/-- Five bytes on an idle association. -/
theorem checksum_detects_small :
    DetectsBytes (assocPkt IcspAssoc.zero [1, 2, 3, 4, 5]) :=
  (checksum_detects_iff IcspAssoc.zero [1, 2, 3, 4, 5] _ rfl).2.2.mpr (.inl (by decide +kernel))

/-- 1124 bytes of chunks: with 37 for 0 in the first byte the packet passes all the same. -/
theorem changed_packet_accepted :
    let pkt := assocPkt IcspAssoc.zero (List.replicate 1124 0)
    icspBuildPkt IcspAssoc.zero (List.replicate 1124 0) icspMaxPayload = some pkt ∧ byteAt pkt 0 ≠ 37 ∧
      icspCheckPkt (pkt.set 0 37) pkt.length = true := by
  intro pkt
  have hlen : pkt.length = 1136 := by rw [assocPkt_length, List.length_replicate]
  have hbuilt : icspBuildPkt IcspAssoc.zero (List.replicate 1124 0) icspMaxPayload = some pkt :=
    icspBuildPkt_fits _ _ (by rw [List.length_replicate]; decide)
  have hok : icspCheckPkt pkt pkt.length = true := by
    have h := icspCheckPkt_build _ _ pkt [] hbuilt
    rwa [List.append_nil] at h
  have hfirst : byteAt pkt 0 = 0 := by
    show byteAt (put16 _ ++ put16 _ ++ [icspVersion, 0] ++ put32 _ ++ put16 _ ++ _) 0 = 0
    generalize List.replicate 1124 (0 : UInt8) = rest
    rfl
  have hother : (37 : UInt8) ≠ byteAt pkt 0 := by
    rw [hfirst]
    decide
  refine ⟨hbuilt, hother.symm, (icspCheckPkt_set (by omega) (by omega) hok (by omega) hother).mpr ?_⟩
  rw [hfirst, hlen]
  decide

theorem crc32c_bits (b : Bytes) :
    Py.crc32c b = Crc.serial 0x82F63B78 0xFFFFFFFF (b.map UInt8.toNat) ^^^ 0xFFFFFFFF := by
  rw [Py.crc32c_eq_run, Crc.serial_eq_run]
  · rfl
  · intro x hx
    obtain ⟨y, -, rfl⟩ := List.mem_map.mp hx
    exact y.toNat_lt

theorem checkPkt_eq (pkt : Bytes) : Py.checkPkt pkt = icspCheckPkt pkt pkt.length := by
  by_cases hfit : 12 ≤ pkt.length ∧ pkt.length ≤ 1400
  · have hlen : ¬ ¬ (Py.icspHeaderLen ≤ pkt.length ∧ pkt.length ≤ Py.icspMaxPayload) := not_not.mpr hfit
    rw [Py.checkPkt, if_neg hlen, icspCheckPkt_whole hfit.1 hfit.2, Interop.crc16_eq, Interop.fromBytes_u16 (by omega),
      Bool.eq_iff_iff, decide_eq_true_iff, UInt16.toNat_inj, beq_iff_eq]
    exact eq_comm
  · have hlen : ¬ (Py.icspHeaderLen ≤ pkt.length ∧ pkt.length ≤ Py.icspMaxPayload) := hfit
    rw [Py.checkPkt, if_pos hlen, icspCheckPkt, if_pos (by simp only [icspHeaderLen, icspMaxPayload]; omega)]

theorem lt_of_toBytes {v k : ℕ} {b : Bytes} (h : Py.toBytes v k = .ok b) : v < 256 ^ k := by
  rw [Py.toBytes] at h
  split at h
  · assumption
  · cases h

/-- A packet that `build_pkt` returns is the one that the C builder makes of the same header. -/
theorem pyBuildPkt_ok {sp dp aid : ℕ} {chunk pkt : Bytes} (h : Py.buildPkt sp dp aid chunk = .ok pkt) :
    ∃ a, icspBuildPkt a chunk icspMaxPayload = some pkt := by
  rcases Nat.lt_or_ge 1388 chunk.length with hlong | hshort
  · rw [Interop.buildPkt_error sp dp aid hlong] at h
    cases h
  have hport : ∀ {v : ℕ}, v < 256 ^ 2 → ∃ w : UInt16, w.toNat = v := fun hv => ⟨.ofNat _, UInt16.toNat_ofNat_of_lt' hv⟩
  have hid : ∀ {v : ℕ}, v < 256 ^ 4 → ∃ w : UInt32, w.toNat = v := fun hv => ⟨.ofNat _, UInt32.toNat_ofNat_of_lt' hv⟩
  have hranges : sp < 256 ^ 2 ∧ dp < 256 ^ 2 ∧ aid < 256 ^ 4 := by
    have hfit : ¬ Py.icspMaxPayload < chunk.length + Py.icspHeaderLen := by
      simp only [Py.icspMaxPayload, Py.icspHeaderLen]
      omega
    simp only [Py.buildPkt, if_neg hfit, Py.IcspHeader.pack] at h
    rcases hs : Py.toBytes sp 2 with e | b
    · rw [hs] at h
      cases h
    rcases hd : Py.toBytes dp 2 with e | b'
    · rw [hs, hd] at h
      cases h
    rcases ha : Py.toBytes aid 4 with e | b''
    · rw [hs, hd, ha] at h
      cases h
    exact ⟨lt_of_toBytes hs, lt_of_toBytes hd, lt_of_toBytes ha⟩
  obtain ⟨srcPort, rfl⟩ := hport hranges.1
  obtain ⟨dstPort, rfl⟩ := hport hranges.2.1
  obtain ⟨assocId, rfl⟩ := hid hranges.2.2
  rw [Interop.buildPkt_eq _ _ _ hshort] at h
  cases h
  exact ⟨{ IcspAssoc.zero with srcPort, dstPort, assocId },
    icspBuildPkt_fits _ _ (by simp only [icspMaxPayload]; omega)⟩

/-- Both implementations compute the bit-serial CRC-32C. Their checks are the same function of the packet, and
either accepts what either built. -/
theorem crc32c_serial :
    (∀ b : Bytes,
      (icspCrc32c b).toNat = Crc.serial 0x82F63B78 0xFFFFFFFF (b.map UInt8.toNat) ^^^ 0xFFFFFFFF ∧
        Py.crc32c b = Crc.serial 0x82F63B78 0xFFFFFFFF (b.map UInt8.toNat) ^^^ 0xFFFFFFFF) ∧
      (∀ pkt : Bytes, Py.checkPkt pkt = icspCheckPkt pkt pkt.length) ∧
      (∀ a chunk, ∀ pkt ∈ icspBuildPkt a chunk icspMaxPayload, Py.checkPkt pkt = true) ∧
      ∀ sp dp aid chunk, ∀ pkt ∈ (Py.buildPkt sp dp aid chunk).toOption, icspCheckPkt pkt pkt.length = true := by
  have hbuilt : ∀ a chunk, ∀ pkt ∈ icspBuildPkt a chunk icspMaxPayload, icspCheckPkt pkt pkt.length = true := by
    intro a chunk pkt h
    have hok := icspCheckPkt_build a chunk pkt [] h
    rwa [List.append_nil] at hok
  refine ⟨fun b => ⟨?_, crc32c_bits b⟩, checkPkt_eq, fun a chunk pkt h => ?_, fun sp dp aid chunk pkt h => ?_⟩
  · rw [← Interop.crc32c_eq, crc32c_bits]
  · rw [checkPkt_eq]
    exact hbuilt a chunk pkt h
  · have hpy : Py.buildPkt sp dp aid chunk = .ok pkt := by
      cases hres : Py.buildPkt sp dp aid chunk with
      | error e =>
        rw [hres] at h
        cases h
      | ok p =>
        rw [hres] at h
        cases h
        rfl
    obtain ⟨a, ha⟩ := pyBuildPkt_ok hpy
    exact hbuilt a chunk pkt ha

/-- The check value of the digits one to nine. -/
example : Crc.serial 0x82F63B78 0xFFFFFFFF [0x31, 0x32, 0x33, 0x34, 0x35, 0x36, 0x37, 0x38, 0x39] ^^^ 0xFFFFFFFF =
    0xE3069283 := by decide +kernel

end Icsp
