import BaitNet.HexText

/-!
# IPv69 addresses as text

`parse.c`: the reader of an address with an optional port and the printer of a header's fields. The
dotted form is read octet by octet. Any other text is one hexadecimal number, which the reader does
not hold to 40 bits.
-/
namespace Parse

open Wire
open Dhcp (isHex hexVal hexValue sign dropPrefix strtoull16 octets parseIpv69Addr)

/-- One line of the table `fields`. -/
structure Field where
  name : Bytes
  off : Nat
  nbytes : Nat

def fields : List Field :=
  [⟨ascii "ver_traffic", 0, 1⟩, ⟨ascii "dscp_ecn", 1, 1⟩, ⟨ascii "payload_len", 2, 2⟩, ⟨ascii "flow_id", 4, 2⟩,
    ⟨ascii "next_header", 6, 1⟩, ⟨ascii "hop_limit", 7, 1⟩, ⟨ascii "flags", 8, 1⟩, ⟨ascii "src_port", 10, 2⟩,
    ⟨ascii "dst_port", 12, 2⟩, ⟨ascii "sequence", 14, 4⟩, ⟨ascii "source", 18, 5⟩, ⟨ascii "dest", 25, 5⟩]

/-- `%0*llx` of a number that is not wider than the field. -/
def hexPadded (width v : Nat) : Bytes := (List.range width).map fun i => Text.hexDigit (v / 16 ^ (width - 1 - i) % 16)

/-- `%02x`. -/
def hexOctet (x : UInt8) : Bytes := [Text.hexDigit (x.toNat / 16), Text.hexDigit (x.toNat % 16)]

/-- `%02x.%02x.%02x.%02x.%02x` of the five bytes at `b`. -/
def dotted (b : Bytes) : Bytes :=
  hexOctet (byteAt b 0) ++ 46 :: (hexOctet (byteAt b 1) ++ 46 :: (hexOctet (byteAt b 2) ++ 46 ::
    (hexOctet (byteAt b 3) ++ 46 :: hexOctet (byteAt b 4))))

def fieldValue (base : Bytes) (f : Field) : Bytes :=
  if f.nbytes = 5 then dotted (base.drop f.off)
  else
    let v :=
      if f.nbytes = 1 then (byteAt base f.off).toNat
      else if f.nbytes = 2 then (get16 base f.off).toNat
      else if f.nbytes = 4 then (get32 base f.off).toNat
      else (get64 base f.off).toNat
    hexPadded (f.nbytes * 2) v

/-- The lines that `print_ipv69_fields` writes. -/
def printIpv69Fields (base : Bytes) : List Bytes :=
  fields.map fun f => f.name ++ ascii " = " ++ fieldValue base f ++ [10]

/-- How an address is printed: as a header has it, in five bytes. -/
def addrText (v : UInt64) : Bytes := dotted (put40 v)

theorem dotted_append (v : UInt64) (rest : Bytes) : dotted (put40 v ++ rest) = addrText v := by
  have hbyte : ∀ i < 5, byteAt (put40 v ++ rest) i = byteAt (put40 v) i :=
    fun i hi => byteAt_append_left _ _ _ (by rw [put40_length]; exact hi)
  rw [addrText, dotted, dotted, hbyte 0 (by decide), hbyte 1 (by decide), hbyte 2 (by decide), hbyte 3 (by decide),
    hbyte 4 (by decide)]

/-- The source and the destination of a frame are printed as their addresses. -/
theorem printIpv69Fields_addr (dstMac srcMac : Arr 6) (src dst : UInt64) (nh hop : UInt8) (sp dp : UInt16)
    (payload : Bytes) :
    let base := (Link.buildFrame dstMac srcMac src dst nh hop sp dp payload).drop 14
    ascii "source" ++ ascii " = " ++ addrText src ++ [10] ∈ printIpv69Fields base ∧
      ascii "dest" ++ ascii " = " ++ addrText dst ++ [10] ∈ printIpv69Fields base := by
  intro base
  have hsrc : base.drop 18 = put40 src ++ ([0, 0] ++ put40 dst ++ [0, 0] ++ payload) := by
    have hmac : ∀ (mac : Arr 6) {n}, 6 ≤ n → mac.val.drop n = [] :=
      fun mac _ hn => List.drop_eq_nil_of_le (by rw [mac.length]; exact hn)
    simp only [base, Link.buildFrame, List.drop_drop, List.append_assoc]
    simp [List.drop_append, dstMac.length, srcMac.length, hmac, put16]
  have hdst : base.drop 25 = put40 dst ++ ([0, 0] ++ payload) := by
    have hmore : base.drop 25 = (base.drop 18).drop 7 := by rw [List.drop_drop (l := base)]
    rw [hmore, hsrc]
    rfl
  constructor
  · refine List.mem_map.mpr ⟨⟨ascii "source", 18, 5⟩, by simp [fields], ?_⟩
    rw [fieldValue, if_pos rfl, hsrc, dotted_append]
  · refine List.mem_map.mpr ⟨⟨ascii "dest", 25, 5⟩, by simp [fields], ?_⟩
    rw [fieldValue, if_pos rfl, hdst, dotted_append]

/-- `strtoul(s, &end, 10)` with a 64-bit `long`, like `strtoull16`. -/
def strtoul10 (s : Bytes) : Option (UInt64 × Bytes) :=
  let (neg, t) := sign (s.dropWhile Text.isSpace)
  let v := Text.value (t.takeWhile Text.isDigit)
  if t.takeWhile Text.isDigit = [] then none
  else
    some (if 2 ^ 64 ≤ v then 0xFFFFFFFFFFFFFFFF else if neg then 0 - .ofNat v else .ofNat v,
      t.dropWhile Text.isDigit)

/-- The number behind the colon. -/
def parsePort (s : Bytes) : Option UInt16 :=
  match strtoul10 s with
  | some (p, []) => if 0xffff < p then none else some p.toUInt16
  | _ => none

def parseIpv69AddrPort (s : Bytes) : Option (UInt64 × UInt16) :=
  match Text.splitLast 58 s with
  | some (buf, tail) =>
    if 64 ≤ buf.length then none
    else
      match parseIpv69Addr buf with
      | none => none
      | some addr =>
        match parsePort tail with
        | none => none
        | some port => some (addr, port)
  | none => (parseIpv69Addr s).map fun addr => (addr, 0)

/-- Shifting in one octet. -/
theorem shiftIn_toNat {v o : UInt64} {n : Nat} (hn : n ≤ 56) (hv : v.toNat < 2 ^ n) (ho : o.toNat ≤ 255) :
    (v <<< 8 ||| o).toNat = v.toNat * 256 + o.toNat := by
  have hsmall : v.toNat < 2 ^ 56 := Nat.lt_of_lt_of_le hv (Nat.pow_le_pow_right (by decide) hn)
  have hshift : (v <<< 8).toNat = v.toNat * 2 ^ 8 := by
    rw [UInt64.toNat_shiftLeft, show (8 : UInt64).toNat % 64 = 8 from rfl, Nat.shiftLeft_eq]
    exact Nat.mod_eq_of_lt (by omega)
  rw [UInt64.toNat_or, hshift, Nat.mul_comm, ← Nat.two_pow_add_eq_or_of_lt (show o.toNat < 2 ^ 8 by omega)]
  omega

theorem isHex_hexDigit {n : Nat} (hn : n < 16) : isHex (Text.hexDigit n) = true ∧ hexVal (Text.hexDigit n) = n ∧
    Text.isSpace (Text.hexDigit n) = false ∧ Text.hexDigit n ≠ 45 ∧ Text.hexDigit n ≠ 43 ∧
    Text.hexDigit n ≠ 120 ∧ Text.hexDigit n ≠ 88 := by
  revert n
  decide +kernel

/-- An octet that was printed is read whole when no digit follows it. -/
theorem strtoull16_octet (x : UInt8) {rest : Bytes} (hrest : rest = [] ∨ ∃ r, rest = 46 :: r) :
    strtoull16 (hexOctet x ++ rest) = some (.ofNat x.toNat, rest) := by
  have hx := x.toNat_lt
  obtain ⟨hhex₁, hval₁, hspace₁, hminus₁, hplus₁, -, -⟩ := isHex_hexDigit (show x.toNat / 16 < 16 by omega)
  obtain ⟨hhex₂, hval₂, -, -, -, hx₂, hX₂⟩ := isHex_hexDigit (show x.toNat % 16 < 16 by omega)
  have htext : hexOctet x ++ rest = Text.hexDigit (x.toNat / 16) :: Text.hexDigit (x.toNat % 16) :: rest := rfl
  rw [htext]
  revert hhex₁ hval₁ hspace₁ hminus₁ hplus₁ hhex₂ hval₂ hx₂ hX₂
  generalize Text.hexDigit (x.toNat / 16) = hi
  generalize Text.hexDigit (x.toNat % 16) = lo
  intro hhex₁ hval₁ hspace₁ hminus₁ hplus₁ hhex₂ hval₂ hx₂ hX₂
  have hstop : rest.takeWhile isHex = [] ∧ rest.dropWhile isHex = rest := by
    rcases hrest with rfl | ⟨r, rfl⟩
    · exact ⟨rfl, rfl⟩
    · exact ⟨rfl, rfl⟩
  have hsign : sign (hi :: lo :: rest) = (false, hi :: lo :: rest) := by
    unfold sign
    split
    · rename_i heq
      exact absurd (List.cons.inj heq).1 hminus₁
    · rename_i heq
      exact absurd (List.cons.inj heq).1 hplus₁
    · rfl
  have hzerox : dropPrefix (hi :: lo :: rest) = hi :: lo :: rest := by
    unfold dropPrefix
    split
    · rename_i y d r heq
      obtain ⟨rfl, hy⟩ := List.cons.inj heq
      obtain ⟨rfl, rfl⟩ := List.cons.inj hy
      exact if_neg fun h => h.1.elim hx₂ hX₂
    · rfl
  have htake : (hi :: lo :: rest).takeWhile isHex = [hi, lo] := by
    rw [List.takeWhile_cons_of_pos hhex₁, List.takeWhile_cons_of_pos hhex₂, hstop.1]
  have hdrop : (hi :: lo :: rest).dropWhile isHex = rest := by
    rw [List.dropWhile_cons_of_pos hhex₁, List.dropWhile_cons_of_pos hhex₂, hstop.2]
  have hvalue : hexValue [hi, lo] = x.toNat := by
    simp only [hexValue, List.foldl_cons, List.foldl_nil, hval₁, hval₂]
    omega
  rw [strtoull16, List.dropWhile_cons_of_neg (by simp [hspace₁]), hsign]
  simp only [hzerox, htake, hdrop, hvalue]
  rw [if_neg (by simp), if_neg (by omega), if_neg Bool.false_ne_true]

theorem octets_step (x : UInt8) (r : Bytes) (v : UInt64) (left : Nat) :
    octets (hexOctet x ++ 46 :: r) v (left + 2) = octets r (v <<< 8 ||| .ofNat x.toNat) (left + 1) := by
  have hx := x.toNat_lt
  have hle : ¬ (0xff : UInt64) < .ofNat x.toNat := by
    rw [UInt64.lt_iff_toNat_lt, UInt64.toNat_ofNat', show (0xff : UInt64).toNat = 255 from rfl]
    omega
  rw [octets, strtoull16_octet x (.inr ⟨r, rfl⟩)]
  simp only
  rw [if_neg hle]

theorem octets_last (x : UInt8) (v : UInt64) : octets (hexOctet x) v 1 = some (v <<< 8 ||| .ofNat x.toNat) := by
  have hx := x.toNat_lt
  have hle : ¬ (0xff : UInt64) < .ofNat x.toNat := by
    rw [UInt64.lt_iff_toNat_lt, UInt64.toNat_ofNat', show (0xff : UInt64).toNat = 255 from rfl]
    omega
  have hread := strtoull16_octet x (.inl rfl)
  rw [List.append_nil] at hread
  rw [octets, hread]
  simp only
  rw [if_neg hle]

/-- The printed form of any five bytes is accepted. -/
theorem parseIpv69Addr_dotted (b : Bytes) : parseIpv69Addr (dotted b) = some (get40 b 0) := by
  have hpoint : (46 : UInt8) ∈ dotted b := by simp [dotted]
  have hof : ∀ x : UInt8, (UInt64.ofNat x.toNat).toNat = x.toNat := by
    intro x
    have hx := x.toNat_lt
    rw [UInt64.toNat_ofNat', Nat.mod_eq_of_lt (by omega)]
  have hle : ∀ x : UInt8, (UInt64.ofNat x.toNat).toNat ≤ 255 := by
    intro x
    have hx := x.toNat_lt
    rw [hof]
    omega
  rw [parseIpv69Addr, if_pos hpoint, dotted, octets_step, octets_step, octets_step, octets_step, octets_last]
  congr 1
  rw [← UInt64.toNat_inj, get40_toNat]
  have h₀ := (byteAt b 0).toNat_lt
  have h₁ := (byteAt b 1).toNat_lt
  have h₂ := (byteAt b 2).toNat_lt
  have h₃ := (byteAt b 3).toNat_lt
  have e₀ := @shiftIn_toNat 0 (.ofNat (byteAt b 0).toNat) 0 (by decide) (by decide) (hle _)
  rw [hof, show (0 : UInt64).toNat = 0 from rfl] at e₀
  have e₁ := @shiftIn_toNat _ (.ofNat (byteAt b 1).toNat) 8 (by decide) (by rw [e₀]; omega) (hle _)
  rw [hof, e₀] at e₁
  have e₂ := @shiftIn_toNat _ (.ofNat (byteAt b 2).toNat) 16 (by decide) (by rw [e₁]; omega) (hle _)
  rw [hof, e₁] at e₂
  have e₃ := @shiftIn_toNat _ (.ofNat (byteAt b 3).toNat) 24 (by decide) (by rw [e₂]; omega) (hle _)
  rw [hof, e₂] at e₃
  rw [@shiftIn_toNat _ (.ofNat (byteAt b 4).toNat) 32 (by decide) (by rw [e₃]; omega) (hle _), hof, e₃]
  simp only [Nat.zero_add]
  omega

/-- Every address of 40 bits is printed as a text that is read as this address. -/
theorem parseIpv69Addr_addrText {v : UInt64} (hv : v.toNat < 2 ^ 40) : parseIpv69Addr (addrText v) = some v := by
  have hget := get40_put40 v [] hv
  rw [List.append_nil] at hget
  rw [addrText, parseIpv69Addr_dotted, hget]

theorem parseIpv69AddrPort_addrText {v : UInt64} (hv : v.toNat < 2 ^ 40) :
    parseIpv69AddrPort (addrText v) = some (v, 0) := by
  have hdigit : ∀ {n}, n < 16 → Text.hexDigit n ≠ 58 := by
    intro n hn
    revert n
    decide
  have hoctet : ∀ x : UInt8, (58 : UInt8) ∉ hexOctet x := by
    intro x
    have hx := x.toNat_lt
    have hhi := hdigit (show x.toNat / 16 < 16 by omega)
    have hlo := hdigit (show x.toNat % 16 < 16 by omega)
    simp [hexOctet, hhi.symm, hlo.symm]
  have hcolon : (58 : UInt8) ∉ addrText v := by simp [addrText, dotted, hoctet]
  rw [parseIpv69AddrPort, Text.splitLast_none hcolon, parseIpv69Addr_addrText hv]
  rfl

/-- The dotted form keeps every octet below 256. -/
theorem octets_lt {s : Bytes} {v w : UInt64} {left n : Nat} (h : octets s v left = some w)
    (hn : n + 8 * left ≤ 64) (hv : v.toNat < 2 ^ n) : w.toNat < 2 ^ (n + 8 * left) := by
  induction left generalizing s v n with
  | zero =>
    cases h
    exact hv
  | succ left ih =>
    rw [octets] at h
    split at h
    · cases h
    · rename_i o rest hread
      split at h
      · cases h
      · rename_i hfits
        have ho : o.toNat ≤ 255 := by
          rw [UInt64.lt_iff_toNat_lt, show (0xff : UInt64).toNat = 255 from rfl] at hfits
          omega
        have hstep := shiftIn_toNat (by omega) hv ho
        have hnext : (v <<< 8 ||| o).toNat < 2 ^ (n + 8) := by
          rw [hstep, pow_add]
          omega
        split at h
        · cases h
          exact hnext
        · refine lt_of_lt_of_eq (ih h (by omega) hnext) ?_
          congr 1
          omega
        · cases h

/-- The sign and the value of a text that is one hexadecimal number from its blanks to its end. -/
def rawNumeral (s : Bytes) : Option (Bool × Nat) :=
  let (neg, t) := sign (s.dropWhile Text.isSpace)
  let t := dropPrefix t
  if t.takeWhile isHex ≠ [] ∧ t.dropWhile isHex = [] then some (neg, hexValue t) else none

/-- The number is below 2^40 when its sign is applied to 64 bits. -/
def Below40 : Bool × Nat → Prop
  | (false, n) => n < 2 ^ 40
  | (true, n) => n = 0 ∨ 2 ^ 64 - 2 ^ 40 < n ∧ n < 2 ^ 64

/-- A text with a point, or one that is no hexadecimal number at all, or one whose number is an address. -/
def NamesAddr (s : Bytes) : Prop := 46 ∈ s ∨ ∀ m ∈ rawNumeral s, Below40 m

/-- The raw form is accepted where the text is one number, with its value in 64 bits. -/
theorem parseIpv69Addr_raw {s : Bytes} (hs : 46 ∉ s) : parseIpv69Addr s = (rawNumeral s).map fun m =>
    if 2 ^ 64 ≤ m.2 then 0xFFFFFFFFFFFFFFFF else if m.1 then 0 - .ofNat m.2 else .ofNat m.2 := by
  rw [parseIpv69Addr, if_neg hs, strtoull16, rawNumeral]
  rcases sign (s.dropWhile Text.isSpace) with ⟨neg, t⟩
  simp only
  generalize dropPrefix t = t
  by_cases hnone : t.takeWhile isHex = []
  · have hno : ¬ (t.takeWhile isHex ≠ [] ∧ t.dropWhile isHex = []) := fun h => h.1 hnone
    rw [if_pos hnone, if_neg hno]
    rfl
  rw [if_neg hnone]
  by_cases hend : t.dropWhile isHex = []
  · have hyes : t.takeWhile isHex ≠ [] ∧ t.dropWhile isHex = [] := ⟨hnone, hend⟩
    have hall : t.takeWhile isHex = t := by
      have h := List.takeWhile_append_dropWhile (p := isHex) (l := t)
      rwa [hend, List.append_nil] at h
    rw [if_pos hyes, hend, hall]
    rfl
  · have hno : ¬ (t.takeWhile isHex ≠ [] ∧ t.dropWhile isHex = []) := fun h => hend h.2
    rw [if_neg hno]
    cases hrest : t.dropWhile isHex with
    | nil => exact absurd hrest hend
    | cons => rfl

theorem below40_iff (m : Bool × Nat) :
    (if 2 ^ 64 ≤ m.2 then 0xFFFFFFFFFFFFFFFF else if m.1 then 0 - .ofNat m.2 else .ofNat m.2 : UInt64).toNat < 2 ^ 40 ↔
      Below40 m := by
  obtain ⟨neg, n⟩ := m
  by_cases hbig : 2 ^ 64 ≤ n
  · rw [if_pos hbig, show (0xFFFFFFFFFFFFFFFF : UInt64).toNat = 2 ^ 64 - 1 from rfl]
    cases neg with
    | false =>
      rw [Below40]
      omega
    | true =>
      rw [Below40]
      omega
  · rw [if_neg hbig]
    have hof : (UInt64.ofNat n).toNat = n := by rw [UInt64.toNat_ofNat', Nat.mod_eq_of_lt (by omega)]
    cases neg with
    | false => rw [if_neg Bool.false_ne_true, hof, Below40]
    | true =>
      rw [if_pos rfl, UInt64.toNat_sub, hof, show (0 : UInt64).toNat = 0 from rfl, Below40]
      omega

theorem parseIpv69Addr_lt_iff (s : Bytes) : (∀ v, parseIpv69Addr s = some v → v.toNat < 2 ^ 40) ↔ NamesAddr s := by
  by_cases hs : 46 ∈ s
  · refine iff_of_true (fun v h => ?_) (.inl hs)
    rw [parseIpv69Addr, if_pos hs] at h
    exact octets_lt (n := 0) h (by decide) (by decide)
  · rw [NamesAddr, or_iff_right hs, parseIpv69Addr_raw hs]
    cases rawNumeral s with
    | none => simp
    | some m => simp [← below40_iff]

/-- What is read from the text is an address of 40 bits, and its printed form is read as the same one. -/
def RoundTrips (s : Bytes) : Prop :=
  ∀ v, parseIpv69Addr s = some v → v.toNat < 2 ^ 40 ∧ parseIpv69Addr (addrText v) = some v

/-- The same where a port may follow. -/
def RoundTripsPort (s : Bytes) : Prop :=
  ∀ v port, parseIpv69AddrPort s = some (v, port) →
    v.toNat < 2 ^ 40 ∧ parseIpv69Addr (addrText v) = some v ∧ parseIpv69AddrPort (addrText v) = some (v, 0)

/-- The part of the text that is read as the address; `none` where the port or the length is refused. -/
def addrPart (s : Bytes) : Option Bytes :=
  match Text.splitLast 58 s with
  | some (buf, tail) => if buf.length < 64 ∧ (parsePort tail).isSome = true then some buf else none
  | none => some s

theorem roundTrips_iff (s : Bytes) : RoundTrips s ↔ NamesAddr s := by
  rw [← parseIpv69Addr_lt_iff]
  constructor
  · exact fun h v hv => (h v hv).1
  · exact fun h v hv => ⟨h v hv, parseIpv69Addr_addrText (h v hv)⟩

theorem parseIpv69AddrPort_some (s : Bytes) (v : UInt64) :
    (∃ port, parseIpv69AddrPort s = some (v, port)) ↔ ∃ b ∈ addrPart s, parseIpv69Addr b = some v := by
  rw [parseIpv69AddrPort, addrPart]
  rcases Text.splitLast 58 s with - | ⟨buf, tail⟩
  · simp
  · by_cases hlong : 64 ≤ buf.length
    · have hno : ¬ (buf.length < 64 ∧ (parsePort tail).isSome = true) := by omega
      simp only [if_pos hlong, if_neg hno]
      simp
    · simp only [if_neg hlong]
      cases hport : parsePort tail with
      | none => cases parseIpv69Addr buf <;> simp
      | some port =>
        have hyes : buf.length < 64 ∧ (some port).isSome = true := ⟨by omega, rfl⟩
        simp only [if_pos hyes]
        cases haddr : parseIpv69Addr buf with
        | none => simp [haddr]
        | some w => simp [haddr]

theorem roundTripsPort_iff (s : Bytes) : RoundTripsPort s ↔ ∀ b ∈ addrPart s, NamesAddr b := by
  constructor
  · intro h b hb
    rw [← parseIpv69Addr_lt_iff]
    intro v hv
    obtain ⟨port, hport⟩ := (parseIpv69AddrPort_some s v).mpr ⟨b, hb, hv⟩
    exact (h v port hport).1
  · intro h v port hport
    obtain ⟨b, hb, hv⟩ := (parseIpv69AddrPort_some s v).mp ⟨port, hport⟩
    have hlt := (parseIpv69Addr_lt_iff b).mpr (h b hb) v hv
    exact ⟨hlt, parseIpv69Addr_addrText hlt, parseIpv69AddrPort_addrText hlt⟩

/-- Every address of 40 bits survives printing and reading. What is read from any other text does so exactly
when its address part is dotted or names a number below 2^40. -/
theorem addrText_roundTrip_iff (s : Bytes) :
    (RoundTrips s ↔ NamesAddr s) ∧ (RoundTripsPort s ↔ ∀ b ∈ addrPart s, NamesAddr b) ∧
      ∀ v : UInt64, v.toNat < 2 ^ 40 →
        parseIpv69Addr (addrText v) = some v ∧ parseIpv69AddrPort (addrText v) = some (v, 0) :=
  ⟨roundTrips_iff s, roundTripsPort_iff s, fun _ hv => ⟨parseIpv69Addr_addrText hv, parseIpv69AddrPort_addrText hv⟩⟩

/-- `"10000000000"` is read as 2^40, which is printed as the address 0. -/
theorem rawAddr_too_wide :
    ¬ RoundTrips (ascii "10000000000") ∧ ¬ RoundTripsPort (ascii "10000000000:16") ∧
      parseIpv69Addr (ascii "10000000000") = some 0x10000000000 ∧
      parseIpv69AddrPort (ascii "10000000000:16") = some (0x10000000000, 16) ∧
      addrText 0x10000000000 = ascii "00.00.00.00.00" := by
  have hraw : parseIpv69Addr (ascii "10000000000") = some 0x10000000000 := by decide +kernel
  have hport : parseIpv69AddrPort (ascii "10000000000:16") = some (0x10000000000, 16) := by decide +kernel
  have hwide : ¬ (0x10000000000 : UInt64).toNat < 2 ^ 40 := by decide
  exact ⟨fun h => hwide (h _ hraw).1, fun h => hwide (h _ _ hport).1, hraw, hport, by decide +kernel⟩

end Parse
