import BaitNet.DhcpPool
import BaitNet.Keyring

/-!
# What the hexadecimal readers take

`hex_decode` stands in `l2.c` and again in `keyring.c`. Every byte is one `sscanf` that starts at
an even position of the text, but skips blanks, takes a sign and is content with one digit.
-/

namespace Link

open Wire

/-- `hex_decode` of `l2.c`. -/
def hexDecode (hex : Bytes) (max : Nat) : Option Bytes :=
  if hex.length % 2 ≠ 0 ∨ max < hex.length / 2 then none
  else (List.range (hex.length / 2)).mapM fun j => Tun.scanHex2 (hex.drop (2 * j))

end Link

namespace Keyring

open Wire
open Dhcp (isHex)

theorem mapM_scanHex2 (n : Nat) (hex : Bytes) :
    (List.range n).mapM (fun j => Tun.scanHex2 (hex.drop (2 * j))) = hexBytes n hex := by
  induction n generalizing hex with
  | zero => rfl
  | succ n ih =>
    have htail : ∀ j, hex.drop (2 * (j + 1)) = (hex.drop 2).drop (2 * j) := by
      intro j
      rw [List.drop_drop]
      congr 1
      omega
    have hmap : (List.map Nat.succ (List.range n)).mapM (fun j => Tun.scanHex2 (hex.drop (2 * j))) =
        hexBytes n (hex.drop 2) := by
      rw [← ih, List.mapM_map]
      simp only [Function.comp_def, Nat.succ_eq_add_one, htail]
    rw [List.range_succ_eq_map, List.mapM_cons, hmap, hexBytes, Nat.mul_zero, List.drop_zero]
    cases hscan : Tun.scanHex2 hex with
    | none => rfl
    | some v => cases hexBytes n (hex.drop 2) <;> rfl

/-- The two copies of the source are one function. -/
theorem link_hexDecode (hex : Bytes) (max : Nat) : Link.hexDecode hex max = hexDecode hex max := by
  rw [Link.hexDecode, hexDecode, mapM_scanHex2]

theorem hexBytes_length {n : Nat} {hex b : Bytes} (h : hexBytes n hex = some b) : b.length = n := by
  induction n generalizing hex b with
  | zero =>
    cases h
    rfl
  | succ n ih =>
    rw [hexBytes] at h
    split at h
    · cases h
    · obtain ⟨b', hb', rfl⟩ := Option.map_eq_some_iff.mp h
      rw [List.length_cons, ih hb']

/-- The options that want a key of 32 bytes call the reader of `l2.c`. -/
theorem hexDecode32_eq (s : Bytes) :
    Tun.hexDecode32 s = ((Link.hexDecode s 32).filter fun b => b.length = 32).map (pad 32) := by
  rw [link_hexDecode, Tun.hexDecode32, hexDecode, mapM_scanHex2]
  by_cases hlen : s.length = 64
  · rw [if_neg (not_not.mpr hlen), if_neg (by omega), hlen]
    cases hb : hexBytes (64 / 2) s with
    | none => rfl
    | some b =>
      have hb32 := hexBytes_length hb
      simp [hb32]
  · rw [if_pos hlen]
    split
    · rfl
    · cases hb : hexBytes (s.length / 2) s with
      | none => rfl
      | some b =>
        have hbl := hexBytes_length hb
        have hne : b.length ≠ 32 := by omega
        simp [hne]

/-- After the blanks of the text stands a digit, or a sign and a digit. -/
def beginsNumber (s : Bytes) : Bool :=
  match s.dropWhile Text.isSpace with
  | [] => false
  | [a] => isHex a
  | a :: b :: _ => if a = 43 ∨ a = 45 then isHex b else isHex a

/-- The lower-case form of a letter. -/
def lower (d : UInt8) : UInt8 := if 65 ≤ d ∧ d ≤ 90 then d + 32 else d

theorem hexVal_cases (d : UInt8) :
    (isHex d = false ∧ Tun.hexVal d = none) ∨
      ∃ v < 16, isHex d = true ∧ Tun.hexVal d = some (.ofNat v) ∧ Text.hexDigit v = lower d := by
  have hall : ∀ n < 256, (isHex (.ofNat n) = false ∧ Tun.hexVal (.ofNat n) = none) ∨
      ∃ v < 16, isHex (.ofNat n) = true ∧ Tun.hexVal (.ofNat n) = some (.ofNat v) ∧
        Text.hexDigit v = lower (.ofNat n) := by decide +kernel
  have h := hall d.toNat d.toNat_lt
  rwa [UInt8.ofNat_toNat] at h

theorem hexVal_isSome (d : UInt8) : (Tun.hexVal d).isSome = isHex d := by
  rcases hexVal_cases d with ⟨hno, hval⟩ | ⟨v, -, hyes, hval, -⟩
  · rw [hno, hval]
    rfl
  · rw [hyes, hval]
    rfl

theorem scanHex2_isSome (s : Bytes) : (Tun.scanHex2 s).isSome = beginsNumber s := by
  rw [Tun.scanHex2, beginsNumber]
  rcases s.dropWhile Text.isSpace with - | ⟨a, - | ⟨b, t⟩⟩
  · rfl
  · exact hexVal_isSome a
  · simp only [List.take_succ_cons, List.take_zero]
    by_cases hplus : a = 43
    · rw [if_pos hplus, if_pos (.inl hplus), hexVal_isSome]
    by_cases hminus : a = 45
    · rw [if_neg hplus, if_pos hminus, if_pos (.inr hminus), Option.isSome_map, hexVal_isSome]
    rw [if_neg hplus, if_neg hminus, if_neg (not_or.mpr ⟨hplus, hminus⟩)]
    rw [Option.isSome_map, hexVal_isSome]

/-- Two digits are read as the byte that is printed as these digits. -/
theorem scanHex2_digits {a b : UInt8} (ha : isHex a = true) (hb : isHex b = true) (t : Bytes) :
    ∃ x, Tun.scanHex2 (a :: b :: t) = some x ∧ hexEncode [x] = [lower a, lower b] := by
  have hne : Text.isSpace a = false ∧ a ≠ 43 ∧ a ≠ 45 := by
    have hall : ∀ n < 256, isHex (.ofNat n) = true → Text.isSpace (.ofNat n) = false ∧
        UInt8.ofNat n ≠ 43 ∧ UInt8.ofNat n ≠ 45 := by decide +kernel
    have h := hall a.toNat a.toNat_lt
    rw [UInt8.ofNat_toNat] at h
    exact h ha
  obtain ⟨hspace, hplus, hminus⟩ := hne
  rcases hexVal_cases a with ⟨hno, -⟩ | ⟨u, hu, -, hau, hlowa⟩
  · rw [ha] at hno
    cases hno
  rcases hexVal_cases b with ⟨hno, -⟩ | ⟨v, hv, -, hbv, hlowb⟩
  · rw [hb] at hno
    cases hno
  have hbyte : (16 * UInt8.ofNat u + .ofNat v).toNat = 16 * u + v := by
    have hsixteen : (16 : UInt8).toNat = 16 := rfl
    rw [UInt8.toNat_add, UInt8.toNat_mul, UInt8.toNat_ofNat_of_lt' (by simp only [UInt8.size]; omega),
      UInt8.toNat_ofNat_of_lt' (by simp only [UInt8.size]; omega), hsixteen]
    omega
  refine ⟨16 * .ofNat u + .ofNat v, ?_, ?_⟩
  · rw [Tun.scanHex2, List.dropWhile_cons_of_neg (by simp [hspace])]
    simp only [List.take_succ_cons, List.take_zero]
    rw [if_neg hplus, if_neg hminus, hau, hbv]
    rfl
  · have hhigh : (16 * u + v) / 16 = u := by omega
    have hlow : (16 * u + v) % 16 = v := by omega
    rw [hexEncode, hbyte, hhigh, hlow, hlowa, hlowb]
    rfl

variable {s : Bytes} {max : Nat}

/-- The text of at most `max` bytes, in hexadecimal. -/
structure IsHexText (s : Bytes) (max : Nat) : Prop where
  even : s.length % 2 = 0
  fits : s.length / 2 ≤ max
  digits : ∀ d ∈ s, isHex d = true

/-- The reader takes the text if and only if it is hexadecimal, and its result is printed as the text in lower case. -/
def ReadsExactly (decode : Bytes → Nat → Option Bytes) (s : Bytes) (max : Nat) : Prop :=
  ((decode s max).isSome = true ↔ IsHexText s max) ∧
    (IsHexText s max → (decode s max).map hexEncode = some (s.map lower))

theorem hexBytes_isSome (n : Nat) (hex : Bytes) :
    (hexBytes n hex).isSome = true ↔ ∀ j < n, beginsNumber (hex.drop (2 * j)) = true := by
  induction n generalizing hex with
  | zero => simp [hexBytes]
  | succ n ih =>
    have htail : ∀ j, (hex.drop 2).drop (2 * j) = hex.drop (2 * (j + 1)) := by
      intro j
      rw [List.drop_drop]
      congr 1
      omega
    have hfirst := scanHex2_isSome hex
    rw [hexBytes]
    constructor
    · intro h j hj
      cases hscan : Tun.scanHex2 hex with
      | none => simp [hscan] at h
      | some v =>
        simp only [hscan, Option.isSome_map] at h
        cases j with
        | zero =>
          rw [Nat.mul_zero, List.drop_zero, ← hfirst, hscan]
          rfl
        | succ j =>
          rw [← htail]
          exact (ih _).mp h j (by omega)
    · intro h
      have hhead := h 0 n.succ_pos
      rw [Nat.mul_zero, List.drop_zero, ← hfirst] at hhead
      obtain ⟨v, hscan⟩ := Option.isSome_iff_exists.mp hhead
      simp only [hscan, Option.isSome_map]
      refine (ih _).mpr fun j hj => ?_
      rw [htail]
      exact h (j + 1) (by omega)

theorem hexBytes_digits (n : Nat) {hex : Bytes} (hlen : hex.length = 2 * n) (hex' : ∀ d ∈ hex, isHex d = true) :
    ∃ b, hexBytes n hex = some b ∧ hexEncode b = hex.map lower := by
  induction n generalizing hex with
  | zero =>
    obtain rfl := List.length_eq_zero_iff.mp hlen
    exact ⟨[], rfl, rfl⟩
  | succ n ih =>
    obtain ⟨a, c, t, rfl⟩ : ∃ a c t, hex = a :: c :: t := by
      match hex, hlen with
      | a :: c :: t, _ => exact ⟨a, c, t, rfl⟩
    obtain ⟨x, hscan, henc⟩ := scanHex2_digits (hex' a (by simp)) (hex' c (by simp)) t
    have hlt : t.length = 2 * n := by
      simp only [List.length_cons] at hlen
      omega
    obtain ⟨b, hb, hbenc⟩ := ih hlt
      fun d hd => hex' d (by simp [hd])
    refine ⟨x :: b, ?_, ?_⟩
    · rw [hexBytes, hscan]
      simp only [List.drop_succ_cons, List.drop_zero, hb, Option.map_some]
    · rw [hexEncode] at henc ⊢
      obtain ⟨hhigh, hlow⟩ : Text.hexDigit (x.toNat / 16) = lower a ∧ Text.hexDigit (x.toNat % 16) = lower c := by
        simpa [hexEncode] using henc
      rw [hhigh, hlow, hbenc]
      rfl

/-- Hexadecimal text is read right. -/
theorem hexDecode_digits (h : IsHexText s max) : ∃ b, hexDecode s max = some b ∧ hexEncode b = s.map lower := by
  have heven := h.even
  have hfits := h.fits
  rw [hexDecode, if_neg (by omega)]
  exact hexBytes_digits _ (by omega) h.digits

theorem hexDecode_isSome : (hexDecode s max).isSome = true ↔
    s.length % 2 = 0 ∧ s.length / 2 ≤ max ∧ ∀ j < s.length / 2, beginsNumber (s.drop (2 * j)) = true := by
  rw [hexDecode]
  by_cases hodd : s.length % 2 ≠ 0 ∨ max < s.length / 2
  · rw [if_pos hodd]
    refine iff_of_false (by simp) fun h => ?_
    omega
  · rw [if_neg hodd, hexBytes_isSome]
    constructor
    · exact fun h => ⟨by omega, by omega, h⟩
    · exact fun h => h.2.2

theorem readsExactly_hexDecode : ReadsExactly hexDecode s max ↔
    s.length % 2 = 1 ∨ max < s.length / 2 ∨ (∀ d ∈ s, isHex d = true) ∨
      ∃ j < s.length / 2, beginsNumber (s.drop (2 * j)) = false := by
  have hright : IsHexText s max → (hexDecode s max).isSome = true ∧
      (hexDecode s max).map hexEncode = some (s.map lower) := by
    intro h
    obtain ⟨b, hb, henc⟩ := hexDecode_digits h
    rw [hb, Option.map_some, henc]
    exact ⟨rfl, rfl⟩
  constructor
  · intro h
    by_contra hno
    obtain ⟨heven, hfits, hdigits, hscans⟩ : s.length % 2 = 0 ∧ s.length / 2 ≤ max ∧ ¬ (∀ d ∈ s, isHex d = true) ∧
        ∀ j < s.length / 2, beginsNumber (s.drop (2 * j)) = true := by
      simp only [not_or, not_exists, not_and, Bool.not_eq_false] at hno
      exact ⟨by omega, by omega, hno.2.2.1, hno.2.2.2⟩
    exact hdigits (h.1.mp (hexDecode_isSome.mpr ⟨heven, hfits, hscans⟩)).digits
  · intro h
    refine ⟨⟨fun hsome => ?_, fun hhex => (hright hhex).1⟩, fun hhex => (hright hhex).2⟩
    obtain ⟨heven, hfits, hscans⟩ := hexDecode_isSome.mp hsome
    rcases h with hodd | hlong | hdigits | ⟨j, hj, hstop⟩
    · omega
    · omega
    · exact ⟨heven, hfits, hdigits⟩
    · rw [hscans j hj] at hstop
      cases hstop

/-- Either reader takes hexadecimal and nothing else exactly on the texts that are too long, of odd length or
hexadecimal throughout, and on those in which no number begins at some even position. -/
theorem hexDecode_exact_iff (s : Bytes) (max : Nat) :
    ReadsExactly hexDecode s max ∧ ReadsExactly Link.hexDecode s max ↔
      s.length % 2 = 1 ∨ max < s.length / 2 ∨ (∀ d ∈ s, isHex d = true) ∨
        ∃ j < s.length / 2, beginsNumber (s.drop (2 * j)) = false := by
  have hsame : Link.hexDecode = hexDecode := funext fun hex => funext fun m => link_hexDecode hex m
  rw [hsame, and_self, readsExactly_hexDecode]

/-- `"-1"` is taken for `ff`, `"5g"` for `05`, and `"0x"` for `00`. -/
theorem hexDecode_takes_sign :
    ¬ ReadsExactly hexDecode (ascii "-1") 32 ∧ ¬ ReadsExactly Link.hexDecode (ascii "5g") 32 ∧
      ¬ ReadsExactly hexDecode (ascii "0x") 32 ∧ hexDecode (ascii "-1") 32 = some [0xff] ∧
      Link.hexDecode (ascii "5g") 32 = some [5] ∧ hexDecode (ascii "0x") 32 = some [0] := by
  have hfail : ∀ (decode : Bytes → Nat → Option Bytes) (s : Bytes) (max : Nat), (decode s max).isSome = true →
      (∃ d ∈ s, isHex d = false) → ¬ ReadsExactly decode s max := by
    intro decode s max hsome hother h
    obtain ⟨d, hd, hno⟩ := hother
    have hyes := (h.1.mp hsome).digits d hd
    rw [hno] at hyes
    cases hyes
  refine ⟨hfail _ _ _ (by decide) ⟨45, by decide, by decide⟩, hfail _ _ _ (by decide) ⟨103, by decide, by decide⟩,
    hfail _ _ _ (by decide) ⟨120, by decide, by decide⟩, by decide, by decide, by decide⟩

end Keyring
