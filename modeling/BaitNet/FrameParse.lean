import BaitNet.ExchangePy
import BaitNet.Gateway
import BaitNet.Pppoe

/-!
# The two frame parsers

`parse_ipv69_frame` checks a received frame and its callers read the fields in place; `parse_frame`
splits a received frame into an object. The first asks for more.
-/
namespace Parse

open Wire Link
open Gw (ipv69NextDgram)
open Pppoe (ipv69NextPppoe)

def ethertypeIpv69 : UInt16 := 0x6969
def ipv69Version : UInt8 := 6

def errShort : Nat := 1
def errEthertype : Nat := 2
def errVersion : Nat := 4
def errLen : Nat := 5
def errNexthdr : Nat := 6

/-- The header behind the Ethernet header. -/
def header (frame : Bytes) : Bytes := frame.drop 14

/-- `payload_len` of the header. -/
def payloadLen (frame : Bytes) : UInt16 := get16 (header frame) 2

/-- `parse_ipv69_frame`: 0, or what is wrong with the frame. -/
def parseIpv69Frame (frame : Bytes) : Nat :=
  if frame.length < 14 + ipv69HeaderLen then errShort
  else if get16 frame 12 ≠ ethertypeIpv69 then errEthertype
  else if byteAt (header frame) 0 >>> 4 ≠ ipv69Version then errVersion
  else if frame.length - 14 - ipv69HeaderLen < (payloadLen frame).toNat then errLen
  else
    let nh := byteAt (header frame) 6
    if nh ≠ ipv69NextControl ∧ nh ≠ ipv69NextDgram ∧ nh ≠ ipv69NextStream then errNexthdr else 0

/-- A frame as the two structures of `header.h` show it, and its payload. -/
structure Fields where
  dstMac : Arr 6
  srcMac : Arr 6
  ethertype : UInt16
  verTraffic : UInt8
  dscpEcn : UInt8
  payloadLen : UInt16
  flowId : UInt16
  nextHeader : UInt8
  hopLimit : UInt8
  flags : UInt8
  reserved : UInt8
  srcPort : UInt16
  dstPort : UInt16
  sequence : Arr 4
  source : UInt64
  sourceRes : Arr 2
  dest : UInt64
  destRes : Arr 2
  payload : Bytes
  deriving DecidableEq

/-- What stands in the frame: numbers in network order, then as many bytes as the length field says. -/
def readFields (frame : Bytes) : Fields where
  dstMac := arr frame 0 6
  srcMac := arr frame 6 6
  ethertype := get16 frame 12
  verTraffic := byteAt (header frame) 0
  dscpEcn := byteAt (header frame) 1
  payloadLen := payloadLen frame
  flowId := get16 (header frame) 4
  nextHeader := byteAt (header frame) 6
  hopLimit := byteAt (header frame) 7
  flags := byteAt (header frame) 8
  reserved := byteAt (header frame) 9
  srcPort := get16 (header frame) 10
  dstPort := get16 (header frame) 12
  sequence := arr (header frame) 14 4
  source := get40 (header frame) 18
  sourceRes := arr (header frame) 23 2
  dest := get40 (header frame) 25
  destRes := arr (header frame) 30 2
  payload := slice frame frameHeaderLen (payloadLen frame).toNat

/-- The low 40 bits, which is what a header has room for. -/
def low40 (v : UInt64) : UInt64 := .ofNat (v.toNat % 2 ^ 40)

/-- What `build_frame` is given, as fields. -/
def builtFields (dstMac srcMac : Arr 6) (src dst : UInt64) (nextHeader hopLimit : UInt8) (srcPort dstPort : UInt16)
    (payload : Bytes) : Fields where
  dstMac := dstMac
  srcMac := srcMac
  ethertype := ethertypeIpv69
  verTraffic := 0x69
  dscpEcn := 0
  payloadLen := .ofNat payload.length
  flowId := 1
  nextHeader := nextHeader
  hopLimit := if hopLimit = 0 then 64 else hopLimit
  flags := 1
  reserved := 0
  srcPort := srcPort
  dstPort := dstPort
  sequence := .zero 4
  source := low40 src
  sourceRes := .zero 2
  dest := low40 dst
  destRes := .zero 2
  payload := payload

theorem get40_put40_low (v : UInt64) (rest : Bytes) : get40 (put40 v ++ rest) 0 = low40 v := by
  have hv := v.toNat_lt
  have hbyte : ∀ i < 5, byteAt (put40 v ++ rest) i = byteAt (put40 v) i :=
    fun i hi => byteAt_append_left _ _ _ (by rw [put40_length]; exact hi)
  rw [← UInt64.toNat_inj, get40_toNat, hbyte 0 (by decide), hbyte 1 (by decide), hbyte 2 (by decide),
    hbyte 3 (by decide), hbyte 4 (by decide), low40, UInt64.toNat_ofNat']
  simp only [put40, put32, byteAt_cons_zero, byteAt_cons_succ, UInt8.toNat_ofNat', UInt32.toNat_ofNat']
  omega

section built

variable (dm sm : Arr 6) (src dst : UInt64) (nh hop : UInt8) (sp dp : UInt16) (payload pad : Bytes)

/-- The 32 bytes of the header that `build_frame` writes. -/
def builtHeader : Bytes :=
  [0x69, 0] ++ (put16 (.ofNat payload.length) ++ (put16 1 ++ ([nh, if hop = 0 then 64 else hop, 1, 0] ++
    (put16 sp ++ (put16 dp ++ ([0, 0, 0, 0] ++ (put40 src ++ ([0, 0] ++ (put40 dst ++ [0, 0])))))))))

theorem buildFrame_pad : buildFrame dm sm src dst nh hop sp dp payload ++ pad =
    dm.val ++ (sm.val ++ (put16 ethertypeIpv69 ++ (builtHeader src dst nh hop sp dp payload ++ (payload ++ pad)))) := by
  simp only [buildFrame, builtHeader, List.append_assoc]
  rfl

theorem header_build : header (buildFrame dm sm src dst nh hop sp dp payload ++ pad) =
    builtHeader src dst nh hop sp dp payload ++ (payload ++ pad) := by
  rw [buildFrame_pad, header, ← List.append_assoc, ← List.append_assoc]
  exact List.drop_left' (by simp)

theorem payloadLen_build (h : payload.length ≤ 65535) :
    (payloadLen (buildFrame dm sm src dst nh hop sp dp payload ++ pad)).toNat = payload.length := by
  rw [payloadLen, header_build]
  show (get16 ([0x69, 0] ++ (put16 (.ofNat payload.length) ++ _)) 2).toNat = payload.length
  rw [get16_append_right _ _ _ (by simp)]
  show (get16 (put16 (.ofNat payload.length) ++ _) 0).toNat = payload.length
  rw [get16_put16, UInt16.toNat_ofNat_of_lt' (by simp only [UInt16.size]; omega)]

theorem dstMac_build : arr (buildFrame dm sm src dst nh hop sp dp payload ++ pad) 0 6 = dm := by
  rw [buildFrame_pad, arr_append_exact]

theorem srcMac_build : arr (buildFrame dm sm src dst nh hop sp dp payload ++ pad) 6 6 = sm := by
  rw [buildFrame_pad, arr_append_right _ _ _ _ (by simp), dm.length, Nat.sub_self, arr_append_exact]

theorem ethertype_build :
    get16 (buildFrame dm sm src dst nh hop sp dp payload ++ pad) 12 = ethertypeIpv69 := by
  rw [buildFrame_pad, get16_append_right _ _ _ (by simp), get16_append_right _ _ _ (by simp), dm.length, sm.length,
    get16_put16]

theorem payload_build : slice (buildFrame dm sm src dst nh hop sp dp payload ++ pad) frameHeaderLen payload.length =
    payload := by
  have hfront : frameHeaderLen = 46 := rfl
  have hlen : (builtHeader src dst nh hop sp dp payload).length = 32 := rfl
  rw [buildFrame_pad, hfront, slice_append_right _ _ _ _ (by simp), slice_append_right _ _ _ _ (by simp),
    slice_append_right _ _ _ _ (by simp), slice_append_right _ _ _ _ (by simp [hlen]), dm.length, sm.length,
    put16_length, hlen, slice_append_exact]

theorem builtHeader_bytes (rest : Bytes) :
    let h := builtHeader src dst nh hop sp dp payload ++ rest
    byteAt h 0 = 0x69 ∧ byteAt h 1 = 0 ∧ byteAt h 6 = nh ∧ byteAt h 7 = (if hop = 0 then 64 else hop) ∧
      byteAt h 8 = 1 ∧ byteAt h 9 = 0 ∧ arr h 14 4 = .zero 4 ∧ arr h 23 2 = .zero 2 ∧ arr h 30 2 = .zero 2 := by
  refine ⟨rfl, rfl, rfl, rfl, rfl, rfl, ?_, ?_, ?_⟩
  all_goals exact Subtype.ext rfl

theorem builtHeader_numbers (rest : Bytes) :
    let h := builtHeader src dst nh hop sp dp payload ++ rest
    get16 h 4 = 1 ∧ get16 h 10 = sp ∧ get16 h 12 = dp ∧ get40 h 18 = low40 src ∧ get40 h 25 = low40 dst := by
  intro h
  have hh : h = [0x69, 0] ++ (put16 (.ofNat payload.length) ++ (put16 1 ++
      ([nh, if hop = 0 then 64 else hop, 1, 0] ++ (put16 sp ++ (put16 dp ++ ([0, 0, 0, 0] ++
        (put40 src ++ ([0, 0] ++ (put40 dst ++ ([0, 0] ++ rest)))))))))) := by
    simp only [h, builtHeader, List.append_assoc]
  rw [hh]
  refine ⟨?_, ?_, ?_, ?_, ?_⟩
  · iterate 2 rw [get16_append_right _ _ _ (by simp)]
    exact get16_put16 _ _
  · iterate 4 rw [get16_append_right _ _ _ (by simp)]
    exact get16_put16 _ _
  · iterate 5 rw [get16_append_right _ _ _ (by simp)]
    exact get16_put16 _ _
  · iterate 7 rw [get40_append_right _ _ _ (by simp)]
    exact get40_put40_low _ _
  · iterate 9 rw [get40_append_right _ _ _ (by simp)]
    exact get40_put40_low _ _

/-- All fields and the payload are read back, whatever padding the frame has. -/
theorem readFields_build (h : payload.length ≤ 65535) :
    readFields (buildFrame dm sm src dst nh hop sp dp payload ++ pad) =
      builtFields dm sm src dst nh hop sp dp payload := by
  have hplen := payloadLen_build dm sm src dst nh hop sp dp payload pad h
  have hword : payloadLen (buildFrame dm sm src dst nh hop sp dp payload ++ pad) = .ofNat payload.length := by
    rw [← UInt16.toNat_inj, hplen, UInt16.toNat_ofNat_of_lt' (by simp only [UInt16.size]; omega)]
  obtain ⟨hflow, hsp, hdp, hsrc, hdst⟩ := builtHeader_numbers src dst nh hop sp dp payload (payload ++ pad)
  obtain ⟨hver, hdscp, hnh, hhop, hflags, hres, hseq, hsres, hdres⟩ :=
    builtHeader_bytes src dst nh hop sp dp payload (payload ++ pad)
  rw [readFields, hplen, hword, payload_build, dstMac_build, srcMac_build, ethertype_build, header_build, hflow, hsp, hdp,
    hsrc, hdst, hver, hdscp, hnh, hhop, hflags, hres, hseq, hsres, hdres]
  rfl

theorem parseIpv69Frame_build (h : payload.length ≤ 65535)
    (hnh : nh = ipv69NextControl ∨ nh = ipv69NextDgram ∨ nh = ipv69NextStream) :
    parseIpv69Frame (buildFrame dm sm src dst nh hop sp dp payload ++ pad) = 0 := by
  have hlen : (buildFrame dm sm src dst nh hop sp dp payload ++ pad).length = 46 + payload.length + pad.length := by
    rw [List.length_append, buildFrame_length]
  have hver : byteAt (header (buildFrame dm sm src dst nh hop sp dp payload ++ pad)) 0 >>> 4 = ipv69Version := by
    rw [header_build, (builtHeader_bytes src dst nh hop sp dp payload (payload ++ pad)).1]
    decide
  have hnext : byteAt (header (buildFrame dm sm src dst nh hop sp dp payload ++ pad)) 6 = nh := by
    rw [header_build]
    rfl
  have hlong : ¬ (buildFrame dm sm src dst nh hop sp dp payload ++ pad).length < 14 + ipv69HeaderLen := by
    rw [hlen, ipv69HeaderLen]
    omega
  have hfits : ¬ (buildFrame dm sm src dst nh hop sp dp payload ++ pad).length - 14 - ipv69HeaderLen <
      (payloadLen (buildFrame dm sm src dst nh hop sp dp payload ++ pad)).toNat := by
    rw [hlen, payloadLen_build _ _ _ _ _ _ _ _ _ _ h, ipv69HeaderLen]
    omega
  rw [parseIpv69Frame, if_neg hlong, if_neg (not_not.mpr (ethertype_build ..)), if_neg (not_not.mpr hver), if_neg hfits,
    hnext]
  exact if_neg fun hno => hnh.elim hno.1 fun hor => hor.elim hno.2.1 hno.2.2

end built

/-- The two parsers read the same. -/
structure SameFields (fr : Py.Frame) (f : Fields) : Prop where
  ethDst : fr.ethDst = f.dstMac.val
  ethSrc : fr.ethSrc = f.srcMac.val
  ethertype : fr.ethertype = f.ethertype.toNat
  version : fr.header.version = (f.verTraffic >>> 4).toNat
  payloadLen : fr.header.payloadLen = f.payloadLen.toNat
  flowId : fr.header.flowId = f.flowId.toNat
  nextHeader : fr.header.nextHeader = f.nextHeader
  hopLimit : fr.header.hopLimit = f.hopLimit
  flags : fr.header.flags = f.flags
  reserved : fr.header.reserved = f.reserved
  srcPort : fr.header.srcPort = f.srcPort.toNat
  dstPort : fr.header.dstPort = f.dstPort.toNat
  sequence : fr.header.sequence = f.sequence.val
  source : fr.header.source = f.source.toNat
  sourceRes : fr.header.sourceRes = f.sourceRes.val
  dest : fr.header.dest = f.dest.toNat
  destRes : fr.header.destRes = f.destRes.val
  payload : fr.payload = f.payload

/-- Version 6, a next header that the parser knows, and a length field that the frame has room for. -/
structure Regular (frame : Bytes) : Prop where
  version : byteAt (header frame) 0 >>> 4 = ipv69Version
  fits : (payloadLen frame).toNat ≤ frame.length - 46
  next : byteAt (header frame) 6 = ipv69NextControl ∨ byteAt (header frame) 6 = ipv69NextDgram ∨
    byteAt (header frame) 6 = ipv69NextStream

theorem parseIpv69Frame_eq_zero {frame : Bytes} :
    parseIpv69Frame frame = 0 ↔ 46 ≤ frame.length ∧ get16 frame 12 = ethertypeIpv69 ∧ Regular frame := by
  have hcodes : errShort ≠ 0 ∧ errEthertype ≠ 0 ∧ errVersion ≠ 0 ∧ errLen ≠ 0 ∧ errNexthdr ≠ 0 := by decide
  rw [parseIpv69Frame]
  constructor
  · intro h
    split at h
    · exact absurd h hcodes.1
    split at h
    · exact absurd h hcodes.2.1
    split at h
    · exact absurd h hcodes.2.2.1
    split at h
    · exact absurd h hcodes.2.2.2.1
    rename_i hlen htype hver hfits
    simp only [ipv69HeaderLen] at hlen hfits
    refine ⟨by omega, not_not.mp htype, not_not.mp hver, by omega, ?_⟩
    by_contra hnh
    obtain ⟨hcontrol, hdgram, hstream⟩ : _ ∧ _ ∧ _ := by simpa only [not_or] using hnh
    simp only [if_pos (show _ ∧ _ ∧ _ from ⟨hcontrol, hdgram, hstream⟩)] at h
    exact hcodes.2.2.2.2 h
  · rintro ⟨hlen, htype, hver, hfits, hnh⟩
    have hlong : ¬ frame.length < 14 + ipv69HeaderLen := by
      rw [ipv69HeaderLen]
      omega
    have hroom : ¬ frame.length - 14 - ipv69HeaderLen < (payloadLen frame).toNat := by
      rw [ipv69HeaderLen]
      omega
    rw [if_neg hlong, if_neg (not_not.mpr htype), if_neg (not_not.mpr hver), if_neg hroom]
    exact if_neg fun hno => hnh.elim hno.1 fun hor => hor.elim hno.2.1 hno.2.2

variable {frame : Bytes}

/-- The header that Python cuts out has the bytes of the one that C reads in place. -/
theorem byteAt_cut {i : Nat} (hi : i < 32) : byteAt (slice frame 14 32) i = byteAt (header frame) i := by
  rw [byteAt_slice _ _ _ _ hi, header, byteAt_drop]

theorem get16_cut {i : Nat} (hi : i + 2 ≤ 32) : get16 (slice frame 14 32) i = get16 (header frame) i := by
  rw [get16_eq, get16_eq, byteAt_cut (by omega), byteAt_cut (by omega)]

theorem get40_cut {i : Nat} (hi : i + 5 ≤ 32) : get40 (slice frame 14 32) i = get40 (header frame) i := by
  rw [← UInt64.toNat_inj, get40_toNat, get40_toNat, byteAt_cut (by omega), byteAt_cut (by omega),
    byteAt_cut (by omega), byteAt_cut (by omega), byteAt_cut (by omega)]

theorem slice_cut {i n : Nat} (hi : i + n ≤ 32) : slice (slice frame 14 32) i n = slice (header frame) i n := by
  rw [Interop.slice_eq_map (slice frame 14 32), Interop.slice_eq_map (header frame)]
  apply List.map_congr_left
  intro j hj
  have hjn := List.mem_range.mp hj
  exact byteAt_cut (by omega)

/-- The object that `parse_frame` makes of a frame that it takes. -/
def pyFrame (frame : Bytes) : Py.Frame :=
  ⟨Py.cut frame 0 6, Py.cut frame 6 12, 0x6969, Py.IpV69Header.unpack (slice frame 14 32),
    Py.cut frame 46 (46 + (payloadLen frame).toNat)⟩

theorem unpack_payloadLen : (Py.IpV69Header.unpack (slice frame 14 32)).payloadLen = (payloadLen frame).toNat := by
  have h := Interop.fromBytes_u16 (b := slice frame 14 32) (i := 2) (by rw [slice_length]; omega)
  rw [get16_cut (by omega)] at h
  exact h

theorem pyFrame_fields (hlen : 46 ≤ frame.length) (htype : get16 frame 12 = ethertypeIpv69)
    (hfits : (payloadLen frame).toNat ≤ frame.length - 46) : SameFields (pyFrame frame) (readFields frame) where
  ethDst := Interop.cut_eq_slice (i := 0) (n := 6) (by omega)
  ethSrc := Interop.cut_eq_slice (i := 6) (n := 6) (by omega)
  ethertype := by
    show 0x6969 = (get16 frame 12).toNat
    rw [htype]
    rfl
  version := by
    show (byteAt (slice frame 14 32) 0 >>> 4).toNat = (byteAt (header frame) 0 >>> 4).toNat
    rw [byteAt_cut (by decide)]
  payloadLen := unpack_payloadLen
  flowId := (Interop.fromBytes_u16 (b := slice frame 14 32) (i := 4) (by rw [slice_length]; omega)).trans
    (by rw [get16_cut (by omega)]; rfl)
  nextHeader := byteAt_cut (i := 6) (by decide)
  hopLimit := byteAt_cut (i := 7) (by decide)
  flags := byteAt_cut (i := 8) (by decide)
  reserved := byteAt_cut (i := 9) (by decide)
  srcPort := (Interop.fromBytes_u16 (b := slice frame 14 32) (i := 10) (by rw [slice_length]; omega)).trans
    (by rw [get16_cut (by omega)]; rfl)
  dstPort := (Interop.fromBytes_u16 (b := slice frame 14 32) (i := 12) (by rw [slice_length]; omega)).trans
    (by rw [get16_cut (by omega)]; rfl)
  sequence := (Interop.cut_eq_slice (b := slice frame 14 32) (i := 14) (n := 4) (by rw [slice_length]; omega)).trans
    (slice_cut (by omega))
  source := (Interop.fromBytes_addr (b := slice frame 14 32) (i := 18) (by rw [slice_length]; omega)).trans
    (by rw [get40_cut (by omega)]; rfl)
  sourceRes := (Interop.cut_eq_slice (b := slice frame 14 32) (i := 23) (n := 2) (by rw [slice_length]; omega)).trans
    (slice_cut (by omega))
  dest := (Interop.fromBytes_addr (b := slice frame 14 32) (i := 25) (by rw [slice_length]; omega)).trans
    (by rw [get40_cut (by omega)]; rfl)
  destRes := (Interop.cut_eq_slice (b := slice frame 14 32) (i := 30) (n := 2) (by simp)).trans
    (slice_cut (by omega))
  payload := Interop.cut_eq_slice (i := 46) (by omega)

/-- `parse_frame` asks for the length of the two headers and for the EtherType, and for nothing else. -/
theorem parseFrame_eq (frame : Bytes) :
    (46 ≤ frame.length ∧ get16 frame 12 = ethertypeIpv69 ∧ Py.parseFrame frame = .ok (pyFrame frame)) ∨
      (¬ (46 ≤ frame.length ∧ get16 frame 12 = ethertypeIpv69) ∧ ∃ e, Py.parseFrame frame = .error e) := by
  by_cases hlen : 46 ≤ frame.length
  · have hshort : ¬ frame.length < Py.ethHeaderLen + Py.headerLen := Nat.not_lt.mpr hlen
    have htype : Py.fromBytes (Py.cut frame 12 14) = (get16 frame 12).toNat :=
      Interop.fromBytes_u16 (i := 12) (by omega)
    have hcut : Py.cut frame 14 46 = slice frame 14 32 := Interop.cut_eq_slice (n := 32) (by omega)
    by_cases hether : get16 frame 12 = ethertypeIpv69
    · refine .inl ⟨hlen, hether, ?_⟩
      have hok : ¬ Py.fromBytes (Py.cut frame 12 14) ≠ Py.ethertypeIpv69 := by
        rw [htype, hether]
        decide
      simp only [Py.parseFrame, if_neg hshort, if_neg hok]
      simp only [Py.ethHeaderLen, Py.headerLen, Nat.reduceAdd, hcut, unpack_payloadLen, htype, hether]
      rfl
    · refine .inr ⟨fun h => hether h.2, ?_⟩
      have hbad : Py.fromBytes (Py.cut frame 12 14) ≠ Py.ethertypeIpv69 := by
        rw [htype]
        exact fun h => hether (UInt16.toNat_inj.mp h)
      simp only [Py.parseFrame, if_neg hshort, if_pos hbad]
      exact ⟨_, rfl⟩
  · have hshort : frame.length < Py.ethHeaderLen + Py.headerLen := Nat.not_le.mp hlen
    refine .inr ⟨fun h => hlen h.1, ?_⟩
    simp only [Py.parseFrame, if_pos hshort]
    exact ⟨_, rfl⟩

theorem parseFrame_ok_iff {fr : Py.Frame} :
    Py.parseFrame frame = .ok fr ↔ 46 ≤ frame.length ∧ get16 frame 12 = ethertypeIpv69 ∧ fr = pyFrame frame := by
  rcases parseFrame_eq frame with ⟨hlen, htype, hok⟩ | ⟨hno, e, herr⟩
  · rw [hok]
    constructor
    · intro h
      cases h
      exact ⟨hlen, htype, rfl⟩
    · rintro ⟨-, -, rfl⟩
      rfl
  · rw [herr]
    refine iff_of_false (fun h => ?_) fun h => hno ⟨h.1, h.2.1⟩
    cases h

/-- A built frame is accepted and reads back as what was built, with the hop limit 64 for 0. What C accepts Python
accepts with the same fields, and on regular frames each accepts what the other does. -/
theorem frames_agree :
    (∀ (dm sm : Arr 6) (src dst : UInt64) (nh hop : UInt8) (sp dp : UInt16) (payload pad : Bytes),
      nh = ipv69NextControl ∨ nh = ipv69NextDgram ∨ nh = ipv69NextStream → payload.length ≤ 65535 →
        parseIpv69Frame (buildFrame dm sm src dst nh hop sp dp payload ++ pad) = 0 ∧
          readFields (buildFrame dm sm src dst nh hop sp dp payload ++ pad) =
            builtFields dm sm src dst nh hop sp dp payload) ∧
      (∀ frame, parseIpv69Frame frame = 0 → ∃ fr, Py.parseFrame frame = .ok fr ∧ SameFields fr (readFields frame)) ∧
      ∀ frame, Regular frame → (parseIpv69Frame frame = 0 ↔ ∃ fr, Py.parseFrame frame = .ok fr) := by
  refine ⟨fun dm sm src dst nh hop sp dp payload pad hnh hlen => ⟨?_, ?_⟩, fun frame h => ?_, fun frame hreg => ?_⟩
  · exact parseIpv69Frame_build dm sm src dst nh hop sp dp payload pad hlen hnh
  · exact readFields_build dm sm src dst nh hop sp dp payload pad hlen
  · obtain ⟨hlen, htype, hreg⟩ := parseIpv69Frame_eq_zero.mp h
    exact ⟨_, parseFrame_ok_iff.mpr ⟨hlen, htype, rfl⟩, pyFrame_fields hlen htype hreg.fits⟩
  · rw [parseIpv69Frame_eq_zero]
    constructor
    · exact fun h => ⟨_, parseFrame_ok_iff.mpr ⟨h.1, h.2.1, rfl⟩⟩
    · rintro ⟨fr, hfr⟩
      obtain ⟨hlen, htype, -⟩ := parseFrame_ok_iff.mp hfr
      exact ⟨hlen, htype, hreg⟩

/-- A frame of five payload bytes with padding behind it. -/
theorem frames_agree_padded :
    parseIpv69Frame (buildFrame bcastMac (.zero 6) 5 6 ipv69NextStream 0 7 16 (ascii "hello") ++ [0, 0, 0]) = 0 ∧
      readFields (buildFrame bcastMac (.zero 6) 5 6 ipv69NextStream 0 7 16 (ascii "hello") ++ [0, 0, 0]) =
        builtFields bcastMac (.zero 6) 5 6 ipv69NextStream 0 7 16 (ascii "hello") :=
  frames_agree.1 bcastMac (.zero 6) 5 6 ipv69NextStream 0 7 16 (ascii "hello") [0, 0, 0] (.inr (.inr rfl)) (by decide)

/-- The hop limit 0 is not read back; a session frame of PPPoE69 is built and refused; and Python takes that
frame, one of version 5 and one whose length field is too large. -/
theorem frames_disagree :
    (readFields (buildFrame bcastMac (.zero 6) 5 6 ipv69NextStream 0 7 16 [])).hopLimit = 64 ∧
      parseIpv69Frame (buildFrame bcastMac (.zero 6) 5 6 ipv69NextPppoe 64 0 0 []) = errNexthdr ∧
      ∀ frame ∈ [buildFrame bcastMac (.zero 6) 5 6 ipv69NextPppoe 64 0 0 [],
          (buildFrame bcastMac (.zero 6) 5 6 ipv69NextStream 64 0 0 []).set 14 0x59,
          (buildFrame bcastMac (.zero 6) 5 6 ipv69NextStream 64 0 0 []).set 17 1],
        parseIpv69Frame frame ≠ 0 ∧ Py.parseFrame frame = .ok (pyFrame frame) := by
  refine ⟨by decide, by decide, fun frame h => ?_⟩
  have hok : 46 ≤ frame.length ∧ get16 frame 12 = ethertypeIpv69 ∧ parseIpv69Frame frame ≠ 0 := by
    revert frame
    decide
  exact ⟨hok.2.2, parseFrame_ok_iff.mpr ⟨hok.1, hok.2.1, rfl⟩⟩

end Parse
