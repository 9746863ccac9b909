import BaitNet.BtlsSpec
import BaitNet.Dhcp
import BaitNet.HexText
import BaitNet.Interoperable
import BaitNet.Regroup

/-!
# `.bait` names

`baitname.c` and `bite/names.py`. A label has 160 bits of the key's digest, five a character. Its
first eight characters have the bits of the address, so a name needs no lookup.
-/

namespace Bite

open Wire Crypto

/-- `b32v`, of either case; `none` for -1. -/
def b32v (ch : UInt8) : Option UInt32 :=
  if 97 ≤ ch ∧ ch ≤ 122 then some (ch - 97).toUInt32
  else if 65 ≤ ch ∧ ch ≤ 90 then some (ch - 65).toUInt32
  else if 50 ≤ ch ∧ ch ≤ 55 then some (ch - 50 + 26).toUInt32
  else none

def baitLabelValid (label : Bytes) : Bool :=
  if label.length ≠ baitLabelLen then false else label.all fun ch => (b32v ch).isSome

/-- The inner loop of `bait_label_to_addr` with `nbits` bits: the bytes written, how many there would be with
more room, and how many bits are left. -/
def addrDrain (acc : UInt32) (d : Bytes) (o : Nat) : Nat → Bytes × Nat × Nat
  | n + 8 => addrDrain acc (if o < 5 then d ++ [((acc >>> .ofNat n) &&& 0xff).toUInt8] else d) (o + 1) n
  | n => (d, o, n)

def addrLoop : UInt32 → Nat → Bytes → Nat → Bytes → Option (Bytes × Nat)
  | _, _, d, o, [] => some (d, o)
  | acc, nbits, d, o, ch :: label =>
    match b32v ch with
    | none => none
    | some v =>
      let acc := acc <<< 5 ||| v
      let (d, o, nbits) := addrDrain acc d o (nbits + 5)
      addrLoop acc nbits d o label

/-- The bytes at `addr`; `none` for -1. -/
def baitLabelToAddr (label : Bytes) : Option Bytes :=
  match addrLoop 0 0 [] 0 (slice label 0 8) with
  | none => none
  | some (d, o) =>
    if o < 5 then none
    else some [0x80 ||| (byteAt d 0 &&& 0x3f), byteAt d 1, byteAt d 2, byteAt d 3, byteAt d 4]

end Bite

namespace Py

open Wire

def baitAlphabet : List Char := "abcdefghijklmnopqrstuvwxyz234567".toList

/-- The dictionary `_VALUE`. -/
def labelValue (ch : Char) : Option Nat := baitAlphabet.idxOf? ch

/-- `str.lower` of one character of ASCII. -/
def lower (ch : Char) : Char := ch.toLower

def baitLabelLen : Nat := 32
def ed25519PubLen : Nat := 32

/-- The inner loop of `label_from_pub`. -/
def labelDrain (acc : Nat) : Nat → List Char × Nat
  | n + 5 =>
    let (out, left) := labelDrain acc n
    (baitAlphabet.getD ((acc >>> n) &&& 0x1F) 'a' :: out, left)
  | n => ([], n)

def labelLoop : Nat → Nat → Bytes → List Char
  | _, _, [] => []
  | acc, nbits, d :: digest =>
    let acc := (acc <<< 8) ||| d.toNat
    (labelDrain acc (nbits + 8)).1 ++ labelLoop acc (labelDrain acc (nbits + 8)).2 digest

def labelFromPub (nb : PyNaCl) (pub : Bytes) : Except Exn (List Char) := do
  if pub.length ≠ ed25519PubLen then throw (.valueError "public key must be 32 bytes")
  return labelLoop 0 0 ((nb.sha512 pub).val.take 20)

def labelValid (label : List Char) : Bool :=
  if label = [] ∨ label.length ≠ baitLabelLen then false else label.all fun ch => (labelValue (lower ch)).isSome

/-- The inner loop of `label_to_addr`. -/
def addrDrain (acc : Nat) : Nat → Bytes × Nat
  | n + 8 =>
    let (out, left) := addrDrain acc n
    (.ofNat ((acc >>> n) &&& 0xFF) :: out, left)
  | n => ([], n)

/-- Every character of a valid label is in the dictionary. -/
def addrLoop : Nat → Nat → List Char → Bytes
  | _, _, [] => []
  | acc, nbits, ch :: label =>
    let acc := (acc <<< 5) ||| (labelValue (lower ch)).getD 0
    (addrDrain acc (nbits + 5)).1 ++ addrLoop acc (addrDrain acc (nbits + 5)).2 label

/-- The label is not in the text of the error here. -/
def labelToAddr (label : List Char) : Except Exn Nat := do
  if labelValid label = false then throw (.valueError "invalid .bait label")
  let out := addrLoop 0 0 (label.take 8)
  if out.length < 5 then throw (.valueError "label too short to carry an address")
  return ((0x80 ||| ((byteAt out 0).toNat &&& 0x3F)) <<< 32) ||| fromBytes (cut out 1 5)

end Py

namespace Bite

open Wire Crypto Regroup
open Keyring (lower)

theorem shiftOut_toNat (acc : UInt32) {n : ℕ} (hn : n < 32) : (acc >>> .ofNat n).toNat = acc.toNat / 2 ^ n := by
  rw [UInt32.toNat_shiftRight, UInt32.toNat_ofNat', Nat.mod_eq_of_lt (by omega : n < 2 ^ 32), Nat.mod_eq_of_lt hn,
    Nat.shiftRight_eq_div_pow]

/-- Bits that come in below a word of 32 bits. -/
theorem shiftIn_toNat (acc v : UInt32) {a : ℕ} (ha : a < 32) (hv : v.toNat < 2 ^ a) :
    (acc <<< .ofNat a ||| v).toNat = (acc.toNat * 2 ^ a + v.toNat) % 2 ^ 32 := by
  have hsplit : (2 : ℕ) ^ 32 = 2 ^ a * 2 ^ (32 - a) := by
    rw [← pow_add]
    congr 1
    omega
  have hhigh : acc.toNat * 2 ^ a % 2 ^ 32 = 2 ^ a * (acc.toNat % 2 ^ (32 - a)) := by
    rw [Nat.mul_comm, hsplit, Nat.mul_mod_mul_left]
  have hboth : (acc.toNat * 2 ^ a + v.toNat) % 2 ^ 32 = 2 ^ a * (acc.toNat % 2 ^ (32 - a)) + v.toNat := by
    have hlow : (acc.toNat * 2 ^ a + v.toNat) % 2 ^ a = v.toNat := by
      rw [Nat.add_comm, Nat.add_mul_mod_self_right, Nat.mod_eq_of_lt hv]
    have hquot : (acc.toNat * 2 ^ a + v.toNat) / 2 ^ a = acc.toNat := by
      rw [Nat.add_comm, Nat.add_mul_div_right _ _ (Nat.two_pow_pos a), Nat.div_eq_of_lt hv, Nat.zero_add]
    rw [hsplit, Nat.mod_mul, hlow, hquot, Nat.add_comm]
  rw [UInt32.toNat_or, UInt32.toNat_shiftLeft, UInt32.toNat_ofNat', Nat.mod_eq_of_lt (by omega : a < 2 ^ 32),
    Nat.mod_eq_of_lt ha, Nat.shiftLeft_eq, hhigh, hboth, Nat.two_pow_add_eq_or_of_lt hv]

theorem labelDrain_groups (acc : UInt32) : ∀ n < 32,
    labelDrain acc n = ((groups 5 n acc.toNat).map (byteAt baitAlphabet), n % 5)
  | n + 5, hn => by
    have hvalue : ((acc >>> .ofNat n) &&& 0x1f).toNat = acc.toNat / 2 ^ n % 2 ^ 5 := by
      rw [UInt32.toNat_and, shiftOut_toNat acc (by omega)]
      exact Nat.and_two_pow_sub_one_eq_mod _ 5
    rw [labelDrain, labelDrain_groups acc n (by omega), groups_cons (by decide) (Nat.le_add_left 5 n),
      Nat.add_sub_cancel, Nat.add_mod_right, hvalue]
    rfl
  | 0, _ => rfl
  | 1, _ => rfl
  | 2, _ => rfl
  | 3, _ => rfl
  | 4, _ => rfl

/-- The accumulator of 32 bits is wide enough for what was not taken yet. -/
theorem regroup_word {a b r : ℕ} (hb : 0 < b) (hr : r + a ≤ 32) (acc acc' : ℕ) (hacc : acc' = acc % 2 ^ 32)
    {xs : List ℕ}
    (hxs : ∀ x ∈ xs, x < 2 ^ a) :
    groups b (r + a) acc' = groups b (r + a) acc ∧
      regroup a b acc' ((r + a) % b) xs = regroup a b acc ((r + a) % b) xs := by
  have hlow : ∀ n ≤ r + a, acc' % 2 ^ n = acc % 2 ^ n :=
    fun n hn => by rw [hacc, Nat.mod_mod_of_dvd _ (pow_dvd_pow 2 (by omega))]
  refine ⟨?_, regroup_congr hb (Nat.mod_lt _ hb) hxs (hlow _ (Nat.mod_le _ _))⟩
  rw [← groups_mod, hlow _ le_rfl, groups_mod]

theorem bytes_lt (ds : Bytes) : ∀ x ∈ ds.map UInt8.toNat, x < 2 ^ 8 := by
  intro x hx
  obtain ⟨d, -, rfl⟩ := List.mem_map.mp hx
  exact d.toNat_lt

theorem labelLoop_regroup (acc : UInt32) {nbits : ℕ} (hn : nbits < 5) (ds : Bytes) :
    labelLoop acc nbits ds = (regroup 8 5 acc.toNat nbits (ds.map UInt8.toNat)).map (byteAt baitAlphabet) := by
  induction ds generalizing acc nbits with
  | nil => rfl
  | cons d ds ih =>
    have hacc := shiftIn_toNat acc d.toUInt32 (a := 8) (by decide) d.toNat_lt
    obtain ⟨hgroups, hrest⟩ := regroup_word (b := 5) (by decide) (by omega : nbits + 8 ≤ 32) _ _ hacc (bytes_lt ds)
    rw [labelLoop, List.map_cons, regroup, List.map_append]
    show (labelDrain (acc <<< .ofNat 8 ||| d.toUInt32) (nbits + 8)).1 ++
      labelLoop (acc <<< .ofNat 8 ||| d.toUInt32) (labelDrain (acc <<< .ofNat 8 ||| d.toUInt32) (nbits + 8)).2 ds = _
    rw [labelDrain_groups _ _ (by omega)]
    dsimp only
    rw [ih _ (Nat.mod_lt _ (by decide)), hgroups, hrest]
    rfl

theorem b32v_cases (ch : UInt8) :
    (b32v ch = none ∧ b32v (lower ch) = none) ∨ ∃ v, b32v ch = some v ∧ b32v (lower ch) = some v ∧ v.toNat < 2 ^ 5 := by
  have hall : ∀ n < 256, (b32v (.ofNat n) = none ∧ b32v (lower (.ofNat n)) = none) ∨
      ∃ v < 32, b32v (.ofNat n) = some (.ofNat v) ∧ b32v (lower (.ofNat n)) = some (.ofNat v) := by decide +kernel
  have h := hall ch.toNat ch.toNat_lt
  rw [UInt8.ofNat_toNat] at h
  rcases h with hno | ⟨v, hv, hch, hlow⟩
  · exact .inl hno
  · refine .inr ⟨_, hch, hlow, ?_⟩
    rw [UInt32.toNat_ofNat', Nat.mod_eq_of_lt (by omega)]
    exact hv

theorem b32v_lower (ch : UInt8) : b32v (lower ch) = b32v ch := by
  rcases b32v_cases ch with ⟨hch, hlow⟩ | ⟨v, hch, hlow, -⟩
  · rw [hch, hlow]
  · rw [hch, hlow]

theorem b32v_lt {ch : UInt8} {v : UInt32} (h : b32v ch = some v) : v.toNat < 2 ^ 5 := by
  rcases b32v_cases ch with ⟨hch, -⟩ | ⟨w, hch, -, hw⟩
  · rw [h] at hch
    cases hch
  · rw [h] at hch
    cases hch
    exact hw

theorem addrDrain_groups (acc : UInt32) : ∀ (n : ℕ) (d : Bytes) (o : ℕ), n < 32 → d.length = o → o + n / 8 ≤ 5 →
    addrDrain acc d o n = (d ++ (groups 8 n acc.toNat).map UInt8.ofNat, o + n / 8, n % 8)
  | n + 8, d, o, hn, hd, ho => by
    have hvalue : ((acc >>> .ofNat n) &&& 0xff).toUInt8 = .ofNat (acc.toNat / 2 ^ n % 2 ^ 8) := by
      have hmask : ∀ x : ℕ, x &&& 0xff = x % 2 ^ 8 := fun x => Nat.and_two_pow_sub_one_eq_mod x 8
      rw [← UInt8.toNat_inj, UInt32.toNat_toUInt8, UInt32.toNat_and, shiftOut_toNat acc (by omega), UInt8.toNat_ofNat']
      show (acc.toNat / 2 ^ n &&& 0xff) % 2 ^ 8 = _
      rw [hmask]
    rw [addrDrain, if_pos (by omega), addrDrain_groups acc n _ (o + 1) (by omega) (by simp [hd]) (by omega),
      groups_cons (by decide) (Nat.le_add_left 8 n), Nat.add_sub_cancel, Nat.add_mod_right, hvalue, List.append_assoc]
    refine Prod.ext rfl (Prod.ext ?_ rfl)
    show o + 1 + n / 8 = o + (n + 8) / 8
    omega
  | 0, d, _, _, _, _ | 1, d, _, _, _, _ | 2, d, _, _, _, _ | 3, d, _, _, _, _ => by
    rw [groups_nil (by decide), List.map_nil, List.append_nil]
    rfl
  | 4, d, _, _, _, _ | 5, d, _, _, _, _ | 6, d, _, _, _, _ | 7, d, _, _, _, _ => by
    rw [groups_nil (by decide), List.map_nil, List.append_nil]
    rfl

theorem values_lt {label : Bytes} {vs : List UInt32} (h : label.map b32v = vs.map some) :
    ∀ x ∈ vs.map UInt32.toNat, x < 2 ^ 5 := by
  intro x hx
  obtain ⟨v, hv, rfl⟩ := List.mem_map.mp hx
  have hmem : some v ∈ label.map b32v := by
    rw [h]
    exact List.mem_map_of_mem hv
  obtain ⟨ch, -, hch⟩ := List.mem_map.mp hmem
  exact b32v_lt hch

theorem addrLoop_regroup {label : Bytes} {vs : List UInt32} (h : label.map b32v = vs.map some) (acc : UInt32)
    {nbits o : ℕ} {d : Bytes} (hn : nbits < 8) (hd : d.length = o) (ho : o + (nbits + 5 * vs.length) / 8 ≤ 5) :
    addrLoop acc nbits d o label =
      some (d ++ (regroup 5 8 acc.toNat nbits (vs.map UInt32.toNat)).map UInt8.ofNat,
        o + (nbits + 5 * vs.length) / 8) := by
  induction label generalizing vs acc nbits o d with
  | nil =>
    obtain rfl : vs = [] := List.map_eq_nil_iff.mp h.symm
    rw [addrLoop, List.map_nil, regroup, List.map_nil, List.append_nil, List.length_nil]
    congr 2
    omega
  | cons ch label ih =>
    obtain ⟨v, vs, rfl⟩ : ∃ v vs', vs = v :: vs' := by
      cases vs with
      | nil => cases h
      | cons v vs => exact ⟨v, vs, rfl⟩
    rw [List.map_cons, List.map_cons] at h
    obtain ⟨hch, htail⟩ := List.cons.inj h
    rw [List.length_cons] at ho
    have hacc := shiftIn_toNat acc v (a := 5) (by decide) (b32v_lt hch)
    obtain ⟨hgroups, hrest⟩ := regroup_word (b := 8) (by decide) (by omega : nbits + 5 ≤ 32) _ _ hacc (values_lt htail)
    rw [addrLoop, hch]
    show addrLoop (acc <<< .ofNat 5 ||| v) (addrDrain (acc <<< .ofNat 5 ||| v) d o (nbits + 5)).2.2
      (addrDrain (acc <<< .ofNat 5 ||| v) d o (nbits + 5)).1 (addrDrain (acc <<< .ofNat 5 ||| v) d o (nbits + 5)).2.1
      label = _
    rw [addrDrain_groups _ _ _ _ (by omega) hd (by omega)]
    dsimp only
    rw [ih htail _ (Nat.mod_lt _ (by decide)) (by simp [hd]) (by omega), hrest, hgroups, List.map_cons, regroup,
      List.map_append, List.append_assoc, List.length_cons]
    congr 2
    omega

/-- The address in the first five bytes, with the bits of class C. -/
def addrBytes (d : Bytes) : Bytes :=
  [0x80 ||| (byteAt d 0 &&& 0x3f), byteAt d 1, byteAt d 2, byteAt d 3, byteAt d 4]

theorem baitLabelToAddr_values {label : Bytes} {vs : List UInt32} (h : (slice label 0 8).map b32v = vs.map some) :
    baitLabelToAddr label =
      some (addrBytes ((groups 8 40 (number 5 (vs.map UInt32.toNat))).map UInt8.ofNat)) := by
  have hlen : vs.length = 8 := by
    have hlens := congrArg List.length h
    rwa [List.length_map, List.length_map, slice_length, eq_comm] at hlens
  have hloop := regroup_start (a := 5) (b := 8) (by decide) (values_lt h)
  rw [List.length_map, hlen] at hloop
  rw [baitLabelToAddr, addrLoop_regroup h 0 (o := 0) (d := []) (by decide) rfl (by rw [hlen]), hlen]
  show some (addrBytes ([] ++ (regroup 5 8 0 0 _).map UInt8.ofNat)) = _
  rw [hloop, List.nil_append]

variable (c : TweetNaCl)

/-- The digest bytes that a label shows, as a number of 160 bits. -/
def labelNumber (pub : Arr 32) : ℕ := number 8 ((slice (ed25519Sha512 c pub.val).val 0 20).map UInt8.toNat)

theorem baitLabelFromPub_groups (pub : Arr 32) :
    baitLabelFromPub c pub = (groups 5 160 (labelNumber c pub)).map (byteAt baitAlphabet) := by
  have hloop := regroup_start (a := 8) (b := 5) (by decide)
    (bytes_lt (slice (ed25519Sha512 c pub.val).val 0 20))
  rw [List.length_map, slice_length] at hloop
  rw [baitLabelFromPub, labelLoop_regroup 0 (by decide)]
  show (regroup 8 5 0 0 _).map _ = _
  rw [hloop]
  rfl

theorem b32v_alphabet {v : ℕ} (hv : v < 2 ^ 5) : b32v (byteAt baitAlphabet v) = some (.ofNat v) := by
  revert v
  decide +kernel

theorem baitLabelValid_fromPub (pub : Arr 32) : baitLabelValid (baitLabelFromPub c pub) = true := by
  rw [baitLabelValid, if_neg (not_not.mpr (baitLabelFromPub_length c pub)), List.all_eq_true]
  intro ch hch
  rw [baitLabelFromPub_groups] at hch
  obtain ⟨v, hv, rfl⟩ := List.mem_map.mp hch
  rw [b32v_alphabet (groups_lt v hv)]
  rfl

theorem slice_take {b : Bytes} {n : ℕ} (h : n ≤ b.length) : slice b 0 n = b.take n := by
  rw [slice, List.drop_zero, List.takeD_eq_take _ h]

/-- Eight characters in front have the first five bytes of the digest. -/
theorem labelNumber_front (pub : Arr 32) :
    groups 8 40 (labelNumber c pub / 2 ^ 120) = (slice (ed25519Sha512 c pub.val).val 0 5).map UInt8.toNat := by
  have hdigest : ∀ n ≤ 64, slice (ed25519Sha512 c pub.val).val 0 n = (ed25519Sha512 c pub.val).val.take n :=
    fun n hn => slice_take (by rw [Arr.length]; exact hn)
  have hfive : (slice (ed25519Sha512 c pub.val).val 0 20).take 5 = slice (ed25519Sha512 c pub.val).val 0 5 := by
    rw [hdigest 20 (by decide), hdigest 5 (by decide), List.take_take]
    rfl
  have hnumber := number_take (bytes_lt (slice (ed25519Sha512 c pub.val).val 0 20)) 5
  rw [← List.map_take, hfive, List.length_map, slice_length] at hnumber
  have hgroups := groups_number (b := 8) (by decide) (bytes_lt (slice (ed25519Sha512 c pub.val).val 0 5))
  rw [List.length_map, slice_length, hnumber] at hgroups
  exact hgroups

theorem label_values (pub : Arr 32) {label : Bytes} (h : label.map lower = baitLabelFromPub c pub) :
    (slice label 0 8).map b32v = ((groups 5 40 (labelNumber c pub / 2 ^ 120)).map UInt32.ofNat).map some := by
  have hlen : label.length = 32 := by
    rw [← List.length_map (f := lower), h]
    exact baitLabelFromPub_length c pub
  have hcase : b32v ∘ lower = b32v := funext b32v_lower
  have hfront := groups_take (b := 5) (n := 160) (x := labelNumber c pub) 8 (by decide) (by decide)
  calc (slice label 0 8).map b32v
    _ = ((label.map lower).take 8).map b32v := by
      rw [slice_take (by omega), ← List.map_take, List.map_map, hcase]
    _ = (((groups 5 160 (labelNumber c pub)).take 8).map (byteAt baitAlphabet)).map b32v := by
      rw [h, baitLabelFromPub_groups, ← List.map_take]
    _ = ((groups 5 40 (labelNumber c pub / 2 ^ 120)).map (byteAt baitAlphabet)).map b32v := by rw [hfront]
    _ = ((groups 5 40 (labelNumber c pub / 2 ^ 120)).map UInt32.ofNat).map some := by
      rw [List.map_map, List.map_map]
      exact List.map_congr_left fun v hv => b32v_alphabet (groups_lt v hv)

theorem labelNumber_lt (pub : Arr 32) : labelNumber c pub / 2 ^ 120 < 2 ^ (5 * 8) := by
  have hlt := number_lt (bytes_lt (slice (ed25519Sha512 c pub.val).val 0 20))
  rw [List.length_map, slice_length] at hlt
  rw [Nat.div_lt_iff_lt_mul (by decide), ← pow_add]
  exact hlt

/-- A label of the key, in either case, has the address bytes of the key's digest. -/
theorem baitLabelToAddr_fromPub (pub : Arr 32) {label : Bytes} (h : label.map lower = baitLabelFromPub c pub) :
    baitLabelToAddr label = some (addrBytes (slice (ed25519Sha512 c pub.val).val 0 5)) := by
  have hback : ((groups 5 40 (labelNumber c pub / 2 ^ 120)).map UInt32.ofNat).map UInt32.toNat =
      groups 5 40 (labelNumber c pub / 2 ^ 120) := by
    rw [List.map_map]
    refine (List.map_congr_left fun v hv => ?_).trans (List.map_id _)
    have hlt := groups_lt v hv
    show (UInt32.ofNat v).toNat = v
    rw [UInt32.toNat_ofNat', Nat.mod_eq_of_lt (by omega)]
  have hbytes : ((slice (ed25519Sha512 c pub.val).val 0 5).map UInt8.toNat).map UInt8.ofNat =
      slice (ed25519Sha512 c pub.val).val 0 5 := by
    rw [List.map_map]
    refine (List.map_congr_left fun x _ => ?_).trans (List.map_id _)
    exact UInt8.ofNat_toNat
  rw [baitLabelToAddr_values (label_values c pub h), hback,
    number_groups (b := 5) (k := 8) (by decide) (labelNumber_lt c pub), labelNumber_front, hbytes]

/-- It is the address of class C that `ipv69_addr_derive` gives the key. -/
theorem get40_addrBytes (pub : Arr 32) :
    get40 (addrBytes (slice (ed25519Sha512 c pub.val).val 0 5)) 0 = Dhcp.ipv69AddrDerive c pub .C := by
  have hbyte : ∀ i < 5,
      byteAt (slice (ed25519Sha512 c pub.val).val 0 5) i = byteAt (ed25519Sha512 c pub.val).val i := by
    intro i hi
    rw [byteAt_slice _ _ _ _ hi, Nat.zero_add]
  rw [addrBytes, hbyte 0 (by decide), hbyte 1 (by decide), hbyte 2 (by decide), hbyte 3 (by decide),
    hbyte 4 (by decide)]
  simp only [Dhcp.ipv69AddrDerive, slice_succ, slice_zero, Nat.reduceAdd]

end Bite

namespace Py

open Wire Regroup
open Bite (bytes_lt)

theorem labelDrain_groups (acc : ℕ) : ∀ n,
    labelDrain acc n = ((groups 5 n acc).map fun v => baitAlphabet.getD v 'a', n % 5)
  | n + 5 => by
    have hvalue : (acc >>> n) &&& 0x1F = acc / 2 ^ n % 2 ^ 5 := by
      rw [Nat.shiftRight_eq_div_pow]
      exact Nat.and_two_pow_sub_one_eq_mod _ 5
    rw [labelDrain, labelDrain_groups acc n, groups_cons (by decide) (Nat.le_add_left 5 n), Nat.add_sub_cancel,
      Nat.add_mod_right, hvalue]
    rfl
  | 0 => rfl
  | 1 => rfl
  | 2 => rfl
  | 3 => rfl
  | 4 => rfl

theorem shiftIn (acc : ℕ) {a v : ℕ} (hv : v < 2 ^ a) : (acc <<< a) ||| v = acc * 2 ^ a + v := by
  rw [Nat.shiftLeft_eq, Nat.mul_comm, Nat.two_pow_add_eq_or_of_lt hv]

theorem labelLoop_regroup (acc nbits : ℕ) (ds : Bytes) :
    labelLoop acc nbits ds = (regroup 8 5 acc nbits (ds.map UInt8.toNat)).map fun v => baitAlphabet.getD v 'a' := by
  induction ds generalizing acc nbits with
  | nil => rfl
  | cons d ds ih =>
    rw [labelLoop, shiftIn acc (a := 8) d.toNat_lt, labelDrain_groups, ih, List.map_cons, regroup, List.map_append]

theorem addrDrain_groups (acc : ℕ) : ∀ n, addrDrain acc n = ((groups 8 n acc).map UInt8.ofNat, n % 8)
  | n + 8 => by
    have hvalue : (acc >>> n) &&& 0xFF = acc / 2 ^ n % 2 ^ 8 := by
      rw [Nat.shiftRight_eq_div_pow]
      exact Nat.and_two_pow_sub_one_eq_mod _ 8
    rw [addrDrain, addrDrain_groups acc n, groups_cons (by decide) (Nat.le_add_left 8 n), Nat.add_sub_cancel,
      Nat.add_mod_right, hvalue]
    rfl
  | 0 | 1 | 2 | 3 => rfl
  | 4 | 5 | 6 | 7 => rfl

theorem labelValue_lt {ch : Char} {v : ℕ} (h : labelValue ch = some v) : v < 2 ^ 5 := by
  have hlen : baitAlphabet.length = 32 := by decide
  rw [labelValue, List.idxOf?] at h
  have hfound := List.findIdx?_eq_some_iff_getElem.mp h
  obtain ⟨hlt, -⟩ := hfound
  omega

theorem addrLoop_regroup (acc nbits : ℕ) (label : List Char) :
    addrLoop acc nbits label =
      (regroup 5 8 acc nbits (label.map fun ch => (labelValue (lower ch)).getD 0)).map UInt8.ofNat := by
  induction label generalizing acc nbits with
  | nil => rfl
  | cons ch label ih =>
    have hlt : (labelValue (lower ch)).getD 0 < 2 ^ 5 := by
      cases h : labelValue (lower ch) with
      | none => decide
      | some v => exact labelValue_lt h
    rw [addrLoop, shiftIn acc hlt, addrDrain_groups, ih, List.map_cons, regroup, List.map_append]

/-- The text as a C string. -/
def cText (s : List Char) : Bytes := s.map fun ch => .ofNat ch.toNat

theorem alphabet_mem {vs : List ℕ} {ch : Char} (h : ch ∈ vs.map fun v => baitAlphabet.getD v 'a') :
    ∃ v < 32, ch = baitAlphabet.getD v 'a' := by
  obtain ⟨v, -, rfl⟩ := List.mem_map.mp h
  have hlen : baitAlphabet.length = 32 := by decide
  by_cases hv : v < 32
  · exact ⟨v, hv, rfl⟩
  · exact ⟨0, by decide, List.getD_eq_default _ _ (by omega)⟩

/-- A character of ASCII has the same value in both tables. -/
theorem labelValue_eq {ch : Char} (h : ch.toNat < 128) :
    labelValue (lower ch) = (Bite.b32v (.ofNat ch.toNat)).map UInt32.toNat := by
  have hall : ∀ n < 128, labelValue (lower (Char.ofNat n)) = (Bite.b32v (.ofNat n)).map UInt32.toNat := by
    decide +kernel
  have hch := hall ch.toNat h
  rwa [Char.ofNat_toNat] at hch

theorem labelFromPub_eq {c : Crypto.TweetNaCl} {nb : PyNaCl} (hsha : ∀ m, nb.sha512 m = c.hash m) (pub : Arr 32) :
    ∃ s, labelFromPub nb pub.val = .ok s ∧ cText s = Bite.baitLabelFromPub c pub := by
  have hlen : ¬ pub.val.length ≠ ed25519PubLen := not_not.mpr pub.length
  have hdigest : (nb.sha512 pub.val).val.take 20 = slice (Crypto.ed25519Sha512 c pub.val).val 0 20 := by
    rw [hsha, Bite.slice_take (by rw [Arr.length]; decide)]
    rfl
  have hloop := regroup_start (a := 8) (b := 5) (by decide)
    (bytes_lt (slice (Crypto.ed25519Sha512 c pub.val).val 0 20))
  have hchar : ∀ v < 2 ^ 5, UInt8.ofNat (baitAlphabet.getD v 'a').toNat = byteAt Bite.baitAlphabet v := by
    decide +kernel
  rw [List.length_map, slice_length] at hloop
  refine ⟨labelLoop 0 0 ((nb.sha512 pub.val).val.take 20), ?_, ?_⟩
  · simp only [labelFromPub, if_neg hlen]
    rfl
  · rw [hdigest, labelLoop_regroup, hloop, Bite.baitLabelFromPub_groups, cText, List.map_map]
    exact List.map_congr_left fun v hv => hchar v (groups_lt v hv)

/-- A label is in lower case, and is valid. -/
theorem labelFromPub_clean {c : Crypto.TweetNaCl} {nb : PyNaCl} (hsha : ∀ m, nb.sha512 m = c.hash m) {pub : Arr 32}
    {s : List Char} (h : labelFromPub nb pub.val = .ok s) : s.map lower = s ∧ labelValid s = true := by
  obtain ⟨s', hs', htext⟩ := labelFromPub_eq hsha pub
  obtain rfl : s' = s := Except.ok.inj (hs'.symm.trans h)
  have hlen : s'.length = baitLabelLen := by
    have hc := Bite.baitLabelFromPub_length c pub
    rwa [← htext, cText, List.length_map] at hc
  have hmem : ∀ ch ∈ s', ∃ v < 32, ch = baitAlphabet.getD v 'a' := by
    have hpub : ¬ pub.val.length ≠ ed25519PubLen := not_not.mpr pub.length
    have hbody : labelLoop 0 0 ((nb.sha512 pub.val).val.take 20) = s' := by
      rw [labelFromPub, if_neg hpub] at h
      exact Except.ok.inj h
    rw [← hbody, labelLoop_regroup]
    exact fun ch hch => alphabet_mem hch
  have hvalue : ∀ v < 32, lower (baitAlphabet.getD v 'a') = baitAlphabet.getD v 'a' ∧
      (labelValue (lower (baitAlphabet.getD v 'a'))).isSome = true := by
    decide +kernel
  have hchar : ∀ ch ∈ s', lower ch = ch ∧ (labelValue (lower ch)).isSome = true := by
    intro ch hch
    obtain ⟨v, hv, rfl⟩ := hmem ch hch
    exact hvalue v hv
  have hgood : ¬ (s' = [] ∨ s'.length ≠ baitLabelLen) := by
    rintro (rfl | hne)
    · cases hlen
    · exact hne hlen
  refine ⟨(List.map_congr_left fun ch hch => (hchar ch hch).1).trans (List.map_id _), ?_⟩
  rw [labelValid, if_neg hgood, List.all_eq_true]
  exact fun ch hch => (hchar ch hch).2

/-- A text of ASCII characters. -/
def IsAscii (s : List Char) : Prop := ∀ ch ∈ s, ch.toNat < 128

theorem labelValid_eq {s : List Char} (hs : IsAscii s) : labelValid s = Bite.baitLabelValid (cText s) := by
  have hlen : (cText s).length = s.length := List.length_map _
  by_cases hshort : s.length ≠ 32
  · have hbad : s = [] ∨ s.length ≠ baitLabelLen := .inr hshort
    have hbad' : (cText s).length ≠ Bite.baitLabelLen := by rwa [hlen]
    rw [labelValid, if_pos hbad, Bite.baitLabelValid, if_pos hbad']
  · have hgood : ¬ (s = [] ∨ s.length ≠ baitLabelLen) := by
      rintro (rfl | h)
      · exact hshort (by decide)
      · exact hshort h
    have hgood' : ¬ (cText s).length ≠ Bite.baitLabelLen := by rwa [hlen]
    rw [labelValid, if_neg hgood, Bite.baitLabelValid, if_neg hgood', cText, List.all_map, Bool.eq_iff_iff,
      List.all_eq_true, List.all_eq_true]
    refine forall₂_congr fun ch hch => ?_
    rw [labelValue_eq (hs ch hch), Option.isSome_map]
    rfl

theorem addrNumber_eq {d : Bytes} (hd : d.length = 5) :
    ((0x80 ||| ((byteAt d 0).toNat &&& 0x3F)) <<< 32) ||| fromBytes (cut d 1 5) =
      (get40 (Bite.addrBytes d) 0).toNat := by
  obtain ⟨d₀, d₁, d₂, d₃, d₄, rfl⟩ : ∃ d₀ d₁ d₂ d₃ d₄, d = [d₀, d₁, d₂, d₃, d₄] := by
    match d, hd with
    | [d₀, d₁, d₂, d₃, d₄], _ => exact ⟨d₀, d₁, d₂, d₃, d₄, rfl⟩
  have h₁ := d₁.toNat_lt
  have h₂ := d₂.toNat_lt
  have h₃ := d₃.toNat_lt
  have h₄ := d₄.toNat_lt
  have hnumber : fromBytes (cut [d₀, d₁, d₂, d₃, d₄] 1 5) =
      d₁.toNat * 2 ^ 24 + d₂.toNat * 2 ^ 16 + d₃.toNat * 2 ^ 8 + d₄.toNat := by
    simp only [cut, fromBytes, List.take_succ_cons, List.take_zero, List.drop_succ_cons, List.drop_zero,
      List.foldl_cons, List.foldl_nil]
    omega
  have htop : (0x80 ||| (d₀ &&& 0x3f)).toNat = 0x80 ||| (d₀.toNat &&& 0x3F) := by
    rw [UInt8.toNat_or, UInt8.toNat_and]
    rfl
  rw [hnumber, shiftIn _ (by omega), get40_toNat]
  simp only [Bite.addrBytes, byteAt_cons_zero, byteAt_cons_succ, htop]

theorem labelToAddr_eq {s : List Char} (hs : IsAscii s) (hvalid : labelValid s = true) :
    ∃ addr, Bite.baitLabelToAddr (cText s) = some addr ∧ labelToAddr s = .ok (get40 addr 0).toNat := by
  have hlen : s.length = 32 := by
    rw [labelValid] at hvalid
    split at hvalid
    · cases hvalid
    · rename_i hgood
      exact not_not.mp fun h => hgood (.inr h)
  have hall : ∀ ch ∈ s, (labelValue (lower ch)).isSome = true := by
    rw [labelValid] at hvalid
    split at hvalid
    · cases hvalid
    · exact List.all_eq_true.mp hvalid
  have hfront : slice (cText s) 0 8 = cText (s.take 8) := by
    rw [Bite.slice_take (by rw [cText, List.length_map]; omega), cText, cText, List.map_take]
  have hvalues : (slice (cText s) 0 8).map Bite.b32v =
      ((s.take 8).map fun ch => UInt32.ofNat ((labelValue (lower ch)).getD 0)).map some := by
    rw [hfront, cText, List.map_map, List.map_map]
    refine List.map_congr_left fun ch hch => ?_
    have hmem := List.mem_of_mem_take hch
    have hvalue := labelValue_eq (hs ch hmem)
    obtain ⟨v, hv⟩ := Option.isSome_iff_exists.mp (hall ch hmem)
    rw [hv] at hvalue
    obtain ⟨w, hw, hwv⟩ := Option.map_eq_some_iff.mp hvalue.symm
    simp only [Function.comp_apply, hv, hw, Option.getD_some, ← hwv, UInt32.ofNat_toNat]
  have hback : ((s.take 8).map fun ch => UInt32.ofNat ((labelValue (lower ch)).getD 0)).map UInt32.toNat =
      (s.take 8).map fun ch => (labelValue (lower ch)).getD 0 := by
    rw [List.map_map]
    refine List.map_congr_left fun ch hch => ?_
    obtain ⟨v, hv⟩ := Option.isSome_iff_exists.mp (hall ch (List.mem_of_mem_take hch))
    have hlt := labelValue_lt hv
    simp only [Function.comp_apply, hv, Option.getD_some, UInt32.toNat_ofNat']
    omega
  have haddr := Bite.baitLabelToAddr_values hvalues
  have hlt := Bite.values_lt hvalues
  rw [hback] at haddr hlt
  have hloop := regroup_start (a := 5) (b := 8) (by decide) hlt
  have hcount : ((s.take 8).map fun ch => (labelValue (lower ch)).getD 0).length = 8 := by
    rw [List.length_map, List.length_take, hlen]
    rfl
  rw [hcount] at hloop
  have hout : addrLoop 0 0 (s.take 8) =
      (groups 8 40 (number 5 ((s.take 8).map fun ch => (labelValue (lower ch)).getD 0))).map UInt8.ofNat := by
    rw [addrLoop_regroup, hloop]
  rw [← hout] at haddr
  have hfive : (addrLoop 0 0 (s.take 8)).length = 5 := by
    rw [hout, List.length_map, groups_length]
  have hlong : ¬ (addrLoop 0 0 (s.take 8)).length < 5 := by omega
  refine ⟨_, haddr, ?_⟩
  have hok : ¬ labelValid s = false := by
    rw [hvalid]
    decide
  simp only [labelToAddr, if_neg hok, if_neg hlong, addrNumber_eq hfive]
  rfl

end Py

namespace Bite

open Wire Crypto

/-- A key, its label and its address agree, and so do the two implementations. -/
theorem names_agree {c : TweetNaCl} {nb : Py.PyNaCl} (hsha : ∀ m, nb.sha512 m = c.hash m) :
    (∀ pub : Arr 32,
      (baitLabelFromPub c pub).length = 32 ∧ baitLabelValid (baitLabelFromPub c pub) = true ∧
        (∀ label : Bytes, label.map Keyring.lower = baitLabelFromPub c pub →
          baitLabelToAddr label = some (put40 (Dhcp.ipv69AddrDerive c pub .C))) ∧
        ∃ s, Py.labelFromPub nb pub.val = .ok s ∧ Py.cText s = baitLabelFromPub c pub) ∧
      ∀ s, Py.IsAscii s → Py.labelValid s = baitLabelValid (Py.cText s) ∧
        (Py.labelValid s = true →
          ∃ addr, baitLabelToAddr (Py.cText s) = some addr ∧ Py.labelToAddr s = .ok (get40 addr 0).toNat) := by
  refine ⟨fun pub => ⟨baitLabelFromPub_length c pub, baitLabelValid_fromPub c pub, fun label h => ?_, ?_⟩,
    fun s hs => ⟨Py.labelValid_eq hs, Py.labelToAddr_eq hs⟩⟩
  · rw [baitLabelToAddr_fromPub c pub h, ← get40_addrBytes, put40_get40]
    rfl
  · exact Py.labelFromPub_eq hsha pub

/-- The key of zeros, its label in capitals. -/
theorem names_agree_zero :
    baitLabelToAddr ((baitLabelFromPub toy (.zero 32)).map fun ch => if 97 ≤ ch then ch - 32 else ch) =
        some (put40 (Dhcp.ipv69AddrDerive toy (.zero 32) .C)) ∧
      ∃ s, Py.labelFromPub (Interop.pyOf toy) (Arr.zero 32).val = .ok s ∧
        Py.cText s = baitLabelFromPub toy (.zero 32) := by
  have h := @names_agree toy (Interop.pyOf toy) fun _ => rfl
  exact ⟨(h.1 (.zero 32)).2.2.1 _ (by decide +kernel), (h.1 (.zero 32)).2.2.2⟩

end Bite
