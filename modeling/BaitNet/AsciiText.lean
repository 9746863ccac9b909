import BaitNet.BaitName
import BaitNet.Paths
import BaitNet.PyBite

/-!
# ASCII text in two alphabets

A text that the C code has as bytes and the Python code as characters. On ASCII the two are
the same, and what one of them cuts or prints is what the other one does.
-/
namespace Py

open Wire

/-- The characters of ASCII bytes. -/
def chars (b : Bytes) : List Char := b.map fun x => .ofNat x.toNat

/-- Bytes below 128. -/
def Ascii (b : Bytes) : Prop := ∀ x ∈ b, x < 128

instance (b : Bytes) : Decidable (Ascii b) := decidable_of_iff (b.all (· < 128) = true) (by simp [Ascii])

@[simp] theorem chars_nil : chars [] = [] := rfl

@[simp] theorem chars_cons (x : UInt8) (b : Bytes) : chars (x :: b) = .ofNat x.toNat :: chars b := rfl

@[simp] theorem chars_append (a b : Bytes) : chars (a ++ b) = chars a ++ chars b := List.map_append

@[simp] theorem chars_length (b : Bytes) : (chars b).length = b.length := List.length_map _

theorem toNat_ofNat {n : Nat} (h : n < 256) : (Char.ofNat n).toNat = n := by
  have hvalid : n.isValidChar := .inl (by omega)
  simp [Char.toNat_ofNat, hvalid]

theorem char_inj {x y : UInt8} : Char.ofNat x.toNat = Char.ofNat y.toNat ↔ x = y := by
  constructor
  · intro h
    have hnat := congrArg Char.toNat h
    rw [toNat_ofNat x.toNat_lt, toNat_ofNat y.toNat_lt] at hnat
    exact UInt8.toNat_inj.mp hnat
  · exact fun h => h ▸ rfl

theorem char_injective : Function.Injective fun x : UInt8 => Char.ofNat x.toNat := fun _ _ h => char_inj.mp h

@[simp] theorem cText_chars (b : Bytes) : cText (chars b) = b := by
  rw [cText, chars, List.map_map]
  conv_rhs => rw [← List.map_id b]
  apply List.map_congr_left
  intro x _
  simp [toNat_ofNat x.toNat_lt]

theorem chars_cText {s : List Char} (h : IsAscii s) : chars (cText s) = s := by
  rw [cText, chars, List.map_map]
  conv_rhs => rw [← List.map_id s]
  apply List.map_congr_left
  intro ch hch
  have hlt := h ch hch
  simp [Nat.mod_eq_of_lt (show ch.toNat < 256 by omega)]

theorem isAscii_chars {b : Bytes} (h : Ascii b) : IsAscii (chars b) := by
  intro ch hch
  obtain ⟨x, hx, rfl⟩ := List.mem_map.mp hch
  have hlt := UInt8.lt_iff_toNat_lt.mp (h x hx)
  rw [toNat_ofNat x.toNat_lt]
  exact hlt

theorem Ascii.append {a b : Bytes} (ha : Ascii a) (hb : Ascii b) : Ascii (a ++ b) :=
  fun x hx => (List.mem_append.mp hx).elim (ha x) (hb x)

theorem Ascii.cons {x : UInt8} {b : Bytes} (hx : x < 128) (hb : Ascii b) : Ascii (x :: b) := by
  intro y hy
  rcases List.mem_cons.mp hy with rfl | hy
  · exact hx
  · exact hb y hy

theorem encode_ascii {s : List Char} (h : IsAscii s) : encode s = cText s := by
  rw [encode, cText, List.map_eq_flatMap]
  apply List.flatMap_congr
  intro ch hch
  have hlt := h ch hch
  have hsize : ch.utf8Size = 1 := by
    rw [Char.utf8Size_eq_one_iff]
    have : ch.val.toNat ≤ 127 := by
      have hval : ch.val.toNat = ch.toNat := rfl
      omega
    exact UInt32.le_iff_toNat_le.mpr this
  rw [String.utf8EncodeChar_eq_singleton hsize]
  rfl

theorem encode_chars {b : Bytes} (h : Ascii b) : encode (chars b) = b := by
  rw [encode_ascii (isAscii_chars h), cText_chars]

theorem decodeReplace_ascii {b : Bytes} (h : Ascii b) : decodeReplace b = chars b := by
  have key : ∀ fuel, b.length ≤ fuel → decodeReplaceGo fuel b = chars b := by
    induction b with
    | nil =>
      intro fuel _
      cases fuel <;> rfl
    | cons x b ih =>
      intro fuel hfuel
      cases fuel with
      | zero => simp at hfuel
      | succ fuel =>
        have hx : x < 0x80 := h x List.mem_cons_self
        rw [decodeReplaceGo, if_pos hx, ih (fun y hy => h y (List.mem_cons_of_mem x hy)) fuel (by simpa using hfuel)]
        rfl
  exact key b.length (Nat.le_refl _)

theorem cText_toDigits (n : Nat) : cText (Nat.toDigits 10 n) = Text.decimal n := by
  have hdigit : ∀ d < 10, UInt8.ofNat (Nat.digitChar d).toNat = Text.digit d := by decide
  apply Text.decimal_ind (P := fun n b => cText (Nat.toDigits 10 n) = b)
  · intro n hn
    rw [Nat.toDigits_of_lt_base hn]
    simp [cText, hdigit n hn]
  · intro n b hn ih
    rw [Nat.toDigits_of_base_le (by decide) hn, ← ih]
    simp [cText, hdigit (n % 10) (Nat.mod_lt n (by decide))]

theorem toDigits_digits (n : Nat) : ∀ ch ∈ Nat.toDigits 10 n, ch.isDigit = true := by
  induction n using Nat.strongRecOn with
  | ind n ih =>
    have hdigit : ∀ d < 10, (Nat.digitChar d).isDigit = true := by decide
    intro ch hch
    by_cases hn : n < 10
    · rw [Nat.toDigits_of_lt_base hn, List.mem_singleton] at hch
      exact hch ▸ hdigit n hn
    · rw [Nat.toDigits_of_base_le (by decide) (by omega), List.mem_append, List.mem_singleton] at hch
      rcases hch with hch | rfl
      · exact ih (n / 10) (by omega) ch hch
      · exact hdigit _ (Nat.mod_lt n (by decide))

theorem isDigit_bounds {ch : Char} (h : ch.isDigit = true) : 48 ≤ ch.toNat ∧ ch.toNat ≤ 57 := by
  simpa [Char.isDigit, UInt32.le_iff_toNat_le] using h

theorem isAscii_toDigits (n : Nat) : IsAscii (Nat.toDigits 10 n) := by
  intro ch hch
  have h := isDigit_bounds (toDigits_digits n ch hch)
  omega

theorem chars_decimal (n : Nat) : chars (Text.decimal n) = Nat.toDigits 10 n := by
  rw [← cText_toDigits, chars_cText (isAscii_toDigits n)]

/-- A text of digits is stripped of nothing. -/
theorem strip_digits {s : List Char} (h : ∀ ch ∈ s, ch.isDigit = true) : strip s = s := by
  have hspace : ∀ ch : Char, ch.isDigit = true → isSpace ch = false := by
    intro ch hch
    have := isDigit_bounds hch
    simp [isSpace]
    omega
  have hdrop : ∀ t : List Char, (∀ ch ∈ t, ch.isDigit = true) → t.dropWhile isSpace = t := by
    intro t ht
    cases t with
    | nil => rfl
    | cons ch t => rw [List.dropWhile_cons_of_neg (by simp [hspace ch (ht ch List.mem_cons_self)])]
  rw [strip, hdrop s h, hdrop s.reverse (fun ch hch => h ch (List.mem_reverse.mp hch)), List.reverse_reverse]

theorem signed_digits {s : List Char} (h : ∀ ch ∈ s, ch.isDigit = true) : signed s = (false, s) := by
  unfold signed
  split
  · exact absurd (h '-' List.mem_cons_self) (by decide)
  · exact absurd (h '+' List.mem_cons_self) (by decide)
  · rfl

theorem digitsValue_eq {s : List Char} (h : ∀ ch ∈ s, ch.isDigit = true) : digitsValue s = Text.value (cText s) := by
  have hstep : ∀ v, s.foldl (fun v ch => 10 * v + (ch.toNat - 48)) v =
      s.foldl (fun v ch => 10 * v + ((UInt8.ofNat ch.toNat).toNat - 48)) v := by
    induction s with
    | nil => exact fun v => rfl
    | cons ch s ih =>
      intro v
      have hch := isDigit_bounds (h ch List.mem_cons_self)
      have hbyte : (UInt8.ofNat ch.toNat).toNat = ch.toNat := by
        rw [UInt8.toNat_ofNat', Nat.mod_eq_of_lt (by omega)]
      rw [List.foldl_cons, List.foldl_cons, hbyte]
      exact ih (fun c hc => h c (List.mem_cons_of_mem ch hc)) _
  rw [digitsValue, Text.value, cText, List.foldl_map]
  exact hstep 0

/-- `int` reads what `str` printed. -/
theorem int_toDigits (n : Nat) : int (Nat.toDigits 10 n) = .ok n := by
  have hdigits := toDigits_digits n
  have hne : Nat.toDigits 10 n ≠ [] := Nat.toDigits_ne_nil
  have hunder : '_' ∉ Nat.toDigits 10 n := fun h => absurd (hdigits _ h) (by decide)
  have hall : ([Nat.toDigits 10 n].all fun p => decide (p ≠ [] ∧ p.all Char.isDigit = true)) = true := by
    simp only [List.all_cons, List.all_nil, Bool.and_true, decide_eq_true_eq, List.all_eq_true]
    exact ⟨hne, hdigits⟩
  rw [int, strip_digits hdigits, signed_digits hdigits]
  simp only [List.splitOn_eq_singleton hunder, if_pos hall]
  simp [digitsValue_eq hdigits, cText_toDigits, Text.value_decimal]

theorem chars_splitOn (a : UInt8) (b : Bytes) : (chars b).splitOn (.ofNat a.toNat) = (b.splitOn a).map chars :=
  Paths.splitOn_map char_injective a b

end Py
