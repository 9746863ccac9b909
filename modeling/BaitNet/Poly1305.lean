import BaitNet.PyWire

/-!
# Poly1305, twice

TweetNaCl computes `crypto_onetimeauth` on 17 limbs of eight bits in 32-bit words;
`crypto.py` computes the same tag with integers. Both are translated as they stand,
and the limbs are shown to carry the integer: nothing overflows, each block keeps the
residue, and the final subtraction reduces it.
-/
namespace Poly1305

open Wire

/-- The loop of `add1305` from a carry on. -/
def addLimbs : UInt32 → List UInt32 → List UInt32 → List UInt32
  | u, h :: hs, c :: cs => ((u + (h + c)) &&& 255) :: addLimbs ((u + (h + c)) >>> 8) hs cs
  | _, _, _ => []

def add1305 (h c : List UInt32) : List UInt32 := addLimbs 0 h c

def minusp : List UInt32 := [5, 0, 0, 0, 0, 0, 0, 0, 0, 0, 0, 0, 0, 0, 0, 0, 252]

/-- What the `r[3] &= 15; r[4] &= 252; …` statements keep of each byte; `r[16]` is zero. -/
def clampMask : List UInt32 := [255, 255, 255, 15, 252, 255, 255, 15, 252, 255, 255, 15, 252, 255, 255, 15]

def loadR (k : Bytes) : List UInt32 :=
  List.zipWith (· &&& ·) ((k.take 16).map UInt8.toUInt32) clampMask ++ [0]

/-- `c` for the next at most 16 bytes: the bytes, a 1 and zeros. -/
def loadBlock (m : Bytes) : List UInt32 := (((m.take 16).map UInt8.toUInt32) ++ [1]).takeD 17 0

/-- What `h[j]` adds to `x[i]`: limbs beyond 2^136 come back 320-fold. -/
def mulTerm (h r : List UInt32) (i j : Nat) : UInt32 :=
  h.getD j 0 * (if j ≤ i then r.getD (i - j) 0 else (320 : UInt32) * r.getD (i + 17 - j) 0)

def mulLimb (h r : List UInt32) (i : Nat) : UInt32 :=
  (List.range 17).foldl (fun x j => x + mulTerm h r i j) 0

def mulLimbs (h r : List UInt32) : List UInt32 := (List.range 17).map (mulLimb h r)

/-- A carry pass over limbs: the reduced limbs and what is carried out. -/
def carry : UInt32 → List UInt32 → List UInt32 × UInt32
  | u, [] => ([], u)
  | u, h :: hs =>
    let (rest, out) := carry ((u + h) >>> 8) hs
    (((u + h) &&& 255) :: rest, out)

/-- The two carry passes after the multiplication. -/
def squeeze (x : List UInt32) : List UInt32 :=
  let (low, u) := carry 0 (x.take 16)
  let u := u + x.getD 16 0
  let top := u &&& 3
  let (low, u) := carry ((5 : UInt32) * (u >>> 2)) low
  low ++ [u + top]

/-- `while (n > 0)`, which takes a block a round. -/
def absorb (r : List UInt32) : Nat → Bytes → List UInt32 → List UInt32
  | 0, _, h => h
  | fuel + 1, m, h =>
    if m = [] then h
    else absorb r fuel (m.drop 16) (squeeze (mulLimbs (add1305 h (loadBlock m)) r))

/-- The conditional subtraction of the modulus: `s` is all ones when it went below zero. -/
def freeze (h : List UInt32) : List UInt32 :=
  let d := add1305 h minusp
  let s := -(d.getD 16 0 >>> 7)
  List.zipWith (fun d g => d ^^^ (s &&& (g ^^^ d))) d h

def cryptoOnetimeauth (m : Bytes) (k : Arr 32) : Arr 16 :=
  let h := absorb (loadR k.val) m.length m (List.replicate 17 0)
  let c := (k.val.drop 16).map UInt8.toUInt32 ++ [0]
  pad 16 ((add1305 (freeze h) c).map UInt32.toUInt8)

def value : List UInt32 → Nat
  | [] => 0
  | x :: xs => x.toNat + 256 * value xs

/-- Limbs that each hold a byte. -/
def Reduced (l : List UInt32) : Prop := ∀ x ∈ l, x.toNat < 256

@[simp] theorem value_nil : value [] = 0 := rfl
@[simp] theorem value_cons (x : UInt32) (xs : List UInt32) :
    value (x :: xs) = x.toNat + 256 * value xs := rfl

theorem value_append (xs ys : List UInt32) :
    value (xs ++ ys) = value xs + 256 ^ xs.length * value ys := by
  induction xs with
  | nil => simp
  | cons x xs ih =>
    simp only [List.cons_append, value_cons, ih, List.length_cons, pow_succ]
    ring

theorem value_lt {l : List UInt32} (h : Reduced l) : value l < 256 ^ l.length := by
  induction l with
  | nil => simp
  | cons x xs ih =>
    have hx := h x List.mem_cons_self
    have hxs := ih fun y hy => h y (List.mem_cons_of_mem _ hy)
    simp only [value_cons, List.length_cons, pow_succ]
    omega

/-- A word is its low byte and the rest. -/
theorem word_split (w : UInt32) : (w &&& 255).toNat + 256 * (w >>> 8).toNat = w.toNat := by
  rw [UInt32.toNat_and, UInt32.toNat_shiftRight]
  have h255 : (255 : UInt32).toNat = 2 ^ 8 - 1 := rfl
  have h8 : (8 : UInt32).toNat % 32 = 8 := rfl
  rw [h255, Nat.and_two_pow_sub_one_eq_mod, h8, Nat.shiftRight_eq_div_pow]
  omega

theorem word_low (w : UInt32) : (w &&& 255).toNat < 256 := by
  rw [UInt32.toNat_and]
  exact Nat.lt_of_le_of_lt Nat.and_le_right (by decide)


theorem addLimbs_length (u : UInt32) (h c : List UInt32) :
    (addLimbs u h c).length = min h.length c.length := by
  induction h generalizing u c with
  | nil => simp [addLimbs]
  | cons x h ih =>
    cases c with
    | nil => simp [addLimbs]
    | cons y c => simp [addLimbs, ih, Nat.succ_min_succ]

theorem addLimbs_reduced (u : UInt32) (h c : List UInt32) : Reduced (addLimbs u h c) := by
  induction h generalizing u c with
  | nil => exact fun _ hx => nomatch hx
  | cons x h ih =>
    cases c with
    | nil => exact fun _ hx => nomatch hx
    | cons y c =>
      intro z hz
      cases List.mem_cons.mp hz with
      | inl he =>
        rw [he]
        exact word_low _
      | inr hmem => exact ih _ c z hmem

/-- The limbs of a sum, modulo what they can hold. -/
theorem value_addLimbs {u : UInt32} {h c : List UInt32} (hu : u.toNat < 256) (hh : Reduced h)
    (hc : Reduced c) (hlen : h.length = c.length) :
    value (addLimbs u h c) = (u.toNat + value h + value c) % 256 ^ h.length := by
  induction h generalizing u c with
  | nil => simp [addLimbs, Nat.mod_one]
  | cons x h ih =>
    cases c with
    | nil => cases hlen
    | cons y c =>
      have hx := hh x List.mem_cons_self
      have hy := hc y List.mem_cons_self
      have hw : (u + (x + y)).toNat = u.toNat + (x.toNat + y.toNat) := by
        rw [UInt32.toNat_add, UInt32.toNat_add]
        omega
      have hsplit := word_split (u + (x + y))
      have hlow := word_low (u + (x + y))
      have hih := ih (u := (u + (x + y)) >>> 8) (c := c) (by omega)
        (fun z hz => hh z (List.mem_cons_of_mem _ hz)) (fun z hz => hc z (List.mem_cons_of_mem _ hz))
        (Nat.succ.inj hlen)
      rw [addLimbs, value_cons, hih, List.length_cons, pow_succ, Nat.mul_comm _ 256, Nat.mod_mul]
      simp only [value_cons]
      have hmod : (u.toNat + (x.toNat + 256 * value h) + (y.toNat + 256 * value c)) % 256 =
          ((u + (x + y)) &&& 255).toNat := by omega
      have hdiv : (u.toNat + (x.toNat + 256 * value h) + (y.toNat + 256 * value c)) / 256 =
          ((u + (x + y)) >>> 8).toNat + value h + value c := by omega
      rw [hmod, hdiv]

theorem add1305_length {h c : List UInt32} (hh : h.length = 17) (hc : c.length = 17) :
    (add1305 h c).length = 17 := by
  rw [add1305, addLimbs_length, hh, hc, Nat.min_self]

theorem add1305_reduced (h c : List UInt32) : Reduced (add1305 h c) := addLimbs_reduced 0 h c

theorem value_add1305 {h c : List UInt32} (hh : Reduced h) (hc : Reduced c) (hl : h.length = 17)
    (hl' : c.length = 17) : value (add1305 h c) = (value h + value c) % 2 ^ 136 := by
  rw [add1305, value_addLimbs (by decide) hh hc (hl.trans hl'.symm), hl]
  norm_num

theorem carry_length (u : UInt32) (l : List UInt32) : (carry u l).1.length = l.length := by
  induction l generalizing u with
  | nil => rfl
  | cons x l ih => simp [carry, ih]

theorem carry_reduced (u : UInt32) (l : List UInt32) : Reduced (carry u l).1 := by
  induction l generalizing u with
  | nil => exact fun _ hx => nomatch hx
  | cons x l ih =>
    intro z hz
    cases List.mem_cons.mp hz with
    | inl he =>
      rw [he]
      exact word_low _
    | inr hmem => exact ih _ z hmem

/-- A carry pass moves value upwards and loses none, as long as limbs up to `b` on top of
a carry up to `v` fit a word. -/
theorem value_carry {b v : Nat} (hfit : b + v < 2 ^ 32) (hdown : (b + v) / 256 ≤ v) {u : UInt32}
    {l : List UInt32} (hu : u.toNat ≤ v) (hl : ∀ x ∈ l, x.toNat ≤ b) :
    value (carry u l).1 + 256 ^ l.length * (carry u l).2.toNat = u.toNat + value l ∧
      (carry u l).2.toNat ≤ v := by
  induction l generalizing u with
  | nil => simp [carry, hu]
  | cons x l ih =>
    have hx := hl x List.mem_cons_self
    have hw : (u + x).toNat = u.toNat + x.toNat := by
      rw [UInt32.toNat_add]
      omega
    have hsplit := word_split (u + x)
    have hlow := word_low (u + x)
    obtain ⟨hval, hout⟩ := ih (u := (u + x) >>> 8) (by omega)
      fun z hz => hl z (List.mem_cons_of_mem _ hz)
    simp only [carry, value_cons, List.length_cons, pow_succ]
    constructor
    · calc ((u + x) &&& 255).toNat + 256 * value (carry ((u + x) >>> 8) l).1 +
            256 ^ l.length * 256 * (carry ((u + x) >>> 8) l).2.toNat
          = ((u + x) &&& 255).toNat + 256 * (value (carry ((u + x) >>> 8) l).1 +
            256 ^ l.length * (carry ((u + x) >>> 8) l).2.toNat) := by ring
        _ = u.toNat + (x.toNat + 256 * value l) := by
          rw [hval]
          omega
    · exact hout


open Finset in
theorem value_eq_sum (l : List UInt32) :
    value l = ∑ i ∈ range l.length, (l.getD i 0).toNat * 256 ^ i := by
  induction l with
  | nil => simp
  | cons x l ih =>
    rw [value_cons, ih, List.length_cons, sum_range_succ', mul_sum, Nat.add_comm]
    congr 1
    · apply sum_congr rfl
      intro i _
      rw [List.getD_cons_succ, pow_succ]
      ring
    · simp

theorem getD_lt {l : List UInt32} (h : Reduced l) (i : Nat) : (l.getD i 0).toNat < 256 := by
  rw [List.getD_eq_getElem?_getD]
  cases hi : l[i]? with
  | none => decide
  | some x => exact h x (List.mem_of_getElem? hi)

/-- The terms of a product limb as numbers. -/
def mulNat (h r : List UInt32) (i j : Nat) : Nat :=
  (h.getD j 0).toNat *
    (if j ≤ i then (r.getD (i - j) 0).toNat else 320 * (r.getD (i + 17 - j) 0).toNat)

theorem mulTerm_eq (h r : List UInt32) (i j : Nat) : mulTerm h r i j = .ofNat (mulNat h r i j) := by
  rw [mulTerm, mulNat, UInt32.ofNat_mul, UInt32.ofNat_toNat]
  split
  · rw [UInt32.ofNat_toNat]
  · rw [UInt32.ofNat_mul, UInt32.ofNat_toNat]
    rfl

theorem mulNat_le {h r : List UInt32} (hh : Reduced h) (hr : Reduced r) (i j : Nat) :
    mulNat h r i j ≤ 255 * (320 * 255) := by
  have hj := getD_lt hh j
  have h1 := getD_lt hr (i - j)
  have h2 := getD_lt hr (i + 17 - j)
  rw [mulNat]
  apply Nat.mul_le_mul (by omega)
  split <;> omega

open Finset in
theorem foldl_mulTerm (h r : List UInt32) (i n : Nat) :
    (List.range n).foldl (fun x j => x + mulTerm h r i j) 0 =
      .ofNat (∑ j ∈ range n, mulNat h r i j) := by
  induction n with
  | zero => rfl
  | succ n ih =>
    rw [List.range_succ, List.foldl_append, ih, sum_range_succ, UInt32.ofNat_add, ← mulTerm_eq]
    rfl

/-- The largest limb before the carry passes. -/
def mulBound : Nat := 17 * (255 * (320 * 255))

open Finset in
theorem sum_mulNat_le {h r : List UInt32} (hh : Reduced h) (hr : Reduced r) (i : Nat) :
    ∑ j ∈ range 17, mulNat h r i j ≤ mulBound := by
  have hb := sum_le_card_nsmul (range 17) (mulNat h r i) _ fun j _ => mulNat_le hh hr i j
  simpa [mulBound] using hb

open Finset in
/-- No product limb overflows. -/
theorem mulLimb_toNat {h r : List UInt32} (hh : Reduced h) (hr : Reduced r) (i : Nat) :
    (mulLimb h r i).toNat = ∑ j ∈ range 17, mulNat h r i j := by
  have hle := sum_mulNat_le hh hr i
  simp only [mulBound] at hle
  rw [mulLimb, foldl_mulTerm, UInt32.toNat_ofNat']
  exact Nat.mod_eq_of_lt (by omega)

open Finset in
/-- One column of the schoolbook product, with what passed the top limb brought back. -/
theorem column_cast (r : Nat → Nat) (p : Nat) (hp : ((256 ^ 17 : Nat) : ZMod p) = (320 : Nat)) {j : Nat}
    (hj : j ≤ 17) :
    ∑ i ∈ range 17, ((256 ^ i * (if j ≤ i then r (i - j) else 320 * r (i + 17 - j)) : Nat) : ZMod p) =
      ((256 ^ j * ∑ k ∈ range 17, r k * 256 ^ k : Nat) : ZMod p) := by
  obtain ⟨n, hn⟩ := Nat.exists_eq_add_of_le hj
  have hlow : ∑ i ∈ range j, ((256 ^ i * (if j ≤ i then r (i - j) else 320 * r (i + 17 - j)) : Nat) : ZMod p) =
      ((256 ^ j * ∑ i ∈ range j, r (n + i) * 256 ^ (n + i) : Nat) : ZMod p) := by
    rw [mul_sum, Nat.cast_sum]
    apply sum_congr rfl
    intro i hi
    have hi' := mem_range.mp hi
    have hidx : i + 17 - j = n + i := by omega
    have hpow : 256 ^ j * (r (n + i) * 256 ^ (n + i)) = 256 ^ i * r (n + i) * 256 ^ 17 := by
      rw [hn, pow_add, pow_add]
      ring
    rw [if_neg (by omega), hidx, hpow, Nat.cast_mul _ (256 ^ 17), hp]
    push_cast
    ring
  have hhigh : ∑ i ∈ range n, ((256 ^ (j + i) *
      (if j ≤ j + i then r (j + i - j) else 320 * r (j + i + 17 - j)) : Nat) : ZMod p) =
      ((256 ^ j * ∑ i ∈ range n, r i * 256 ^ i : Nat) : ZMod p) := by
    rw [mul_sum, Nat.cast_sum]
    apply sum_congr rfl
    intro i _
    rw [if_pos (by omega), Nat.add_sub_cancel_left, pow_add]
    push_cast
    ring
  have hsplit := sum_range_add (fun i =>
    ((256 ^ i * (if j ≤ i then r (i - j) else 320 * r (i + 17 - j)) : Nat) : ZMod p)) j n
  have hwhole := sum_range_add (fun k => r k * 256 ^ k) n j
  have hrange : range 17 = range (j + n) := congrArg range hn
  rw [hrange, hsplit, hlow, hhigh, Nat.add_comm j n, hwhole]
  push_cast
  ring


def p1305 : Nat := 2 ^ 130 - 5

theorem wrap_cast : ((256 ^ 17 : Nat) : ZMod p1305) = (320 : Nat) :=
  (ZMod.natCast_eq_natCast_iff' _ _ _).mpr (by decide)

open Finset in
/-- The multiplication keeps the residue. -/
theorem value_mulLimbs {h r : List UInt32} (hh : Reduced h) (hr : Reduced r) (hl : h.length = 17)
    (hl' : r.length = 17) :
    ((value (mulLimbs h r) : Nat) : ZMod p1305) = ((value h * value r : Nat) : ZMod p1305) := by
  have hlen : (mulLimbs h r).length = 17 := by simp [mulLimbs]
  have hget : ∀ i ∈ range 17, ((mulLimbs h r).getD i 0).toNat * 256 ^ i =
      ∑ j ∈ range 17, mulNat h r i j * 256 ^ i := by
    intro i hi
    have hi' := mem_range.mp hi
    have hg : (mulLimbs h r).getD i 0 = mulLimb h r i := by
      simp [mulLimbs, List.getD_eq_getElem?_getD, hi']
    rw [hg, mulLimb_toNat hh hr, sum_mul]
  have hcol : ∀ j ∈ range 17, ∑ i ∈ range 17, ((mulNat h r i j * 256 ^ i : Nat) : ZMod p1305) =
      (((h.getD j 0).toNat * 256 ^ j * value r : Nat) : ZMod p1305) := by
    intro j hj
    have hj' := mem_range.mp hj
    have hc := column_cast (fun k => (r.getD k 0).toNat) p1305 wrap_cast (Nat.le_of_lt hj')
    rw [value_eq_sum r, hl', Nat.mul_assoc, Nat.cast_mul, ← hc, mul_sum]
    apply sum_congr rfl
    intro i _
    rw [mulNat]
    push_cast
    ring
  rw [value_eq_sum (mulLimbs h r), hlen, sum_congr rfl hget, sum_comm, Nat.cast_sum]
  calc ∑ j ∈ range 17, ((∑ i ∈ range 17, mulNat h r i j * 256 ^ i : Nat) : ZMod p1305)
      = ∑ j ∈ range 17, (((h.getD j 0).toNat * 256 ^ j * value r : Nat) : ZMod p1305) := by
        apply sum_congr rfl
        intro j hj
        rw [Nat.cast_sum]
        exact hcol j hj
    _ = ((value h * value r : Nat) : ZMod p1305) := by
        rw [value_eq_sum h, hl, sum_mul, Nat.cast_sum]

/-- Limbs between two blocks. -/
structure Loose (h : List UInt32) : Prop where
  length : h.length = 17
  reduced : Reduced h
  value_lt : value h < 5 * 2 ^ 128

theorem loose_zero : Loose (List.replicate 17 0) where
  length := rfl
  reduced := by
    intro x hx
    rw [List.eq_of_mem_replicate hx]
    decide
  value_lt := by decide

/-- The first sixteen limbs and the last one. -/
theorem value_take_top {x : List UInt32} (h : x.length = 17) :
    value x = value (x.take 16) + 2 ^ 128 * (x.getD 16 0).toNat := by
  have hd : x.drop 16 = [x.getD 16 0] := by
    rw [List.drop_eq_getElem_cons (by omega), List.drop_eq_nil_of_le (by omega)]
    simp [List.getD_eq_getElem?_getD, h]
  have happ := value_append (x.take 16) (x.drop 16)
  rw [List.take_append_drop, hd, List.length_take, h] at happ
  simpa using happ

theorem shift_two (w : UInt32) : 4 * (w >>> 2).toNat + (w &&& 3).toNat = w.toNat ∧ (w &&& 3).toNat < 4 := by
  rw [UInt32.toNat_and, UInt32.toNat_shiftRight]
  have h3 : (3 : UInt32).toNat = 2 ^ 2 - 1 := rfl
  have h2 : (2 : UInt32).toNat % 32 = 2 := rfl
  rw [h3, Nat.and_two_pow_sub_one_eq_mod, h2, Nat.shiftRight_eq_div_pow]
  omega

theorem fold_cast (a b : Nat) : ((a + 2 ^ 130 * b : Nat) : ZMod p1305) = ((a + 5 * b : Nat) : ZMod p1305) := by
  have h : ((2 ^ 130 : Nat) : ZMod p1305) = (5 : Nat) :=
    (ZMod.natCast_eq_natCast_iff' _ _ _).mpr (by decide)
  rw [Nat.cast_add, Nat.cast_mul, h]
  push_cast
  ring

theorem word_mul_five {w : UInt32} (h : w.toNat < 2 ^ 29) : ((5 : UInt32) * w).toNat = 5 * w.toNat := by
  have h5 : (5 : UInt32).toNat = 5 := rfl
  rw [UInt32.toNat_mul, h5, Nat.mod_eq_of_lt (by omega)]

/-- The second carry pass: the bits from 2^130 on come back five-fold at the bottom. -/
theorem foldTop_loose {low : List UInt32} {w : UInt32} (hl : low.length = 16) (hr : Reduced low)
    (hw : w.toNat < 2 ^ 29) :
    Loose ((carry ((5 : UInt32) * (w >>> 2)) low).1 ++
        [(carry ((5 : UInt32) * (w >>> 2)) low).2 + (w &&& 3)]) ∧
      ((value ((carry ((5 : UInt32) * (w >>> 2)) low).1 ++
          [(carry ((5 : UInt32) * (w >>> 2)) low).2 + (w &&& 3)]) : Nat) : ZMod p1305) =
        ((value low + 2 ^ 128 * w.toNat : Nat) : ZMod p1305) := by
  obtain ⟨hshift, htop⟩ := shift_two w
  have h5 := word_mul_five (w := w >>> 2) (by omega)
  have hlow := value_lt hr
  obtain ⟨hv, -⟩ := value_carry (b := 255) (v := 2 ^ 30) (by decide) (by decide)
    (u := (5 : UInt32) * (w >>> 2)) (by omega) fun y hy => Nat.le_of_lt_succ (hr y hy)
  have hlen := carry_length ((5 : UInt32) * (w >>> 2)) low
  have hred := carry_reduced ((5 : UInt32) * (w >>> 2)) low
  revert hv hlen hred
  generalize (carry ((5 : UInt32) * (w >>> 2)) low).1 = low', (carry ((5 : UInt32) * (w >>> 2)) low).2 = u
  intro hv hlen hred
  have hpow : (256 : Nat) ^ 16 = 2 ^ 128 := by norm_num
  rw [hl, hpow] at hv hlow
  rw [hl] at hlen
  have hu : u.toNat ≤ 1 := by omega
  have hsum : (u + (w &&& 3)).toNat = u.toNat + (w &&& 3).toNat := by
    rw [UInt32.toNat_add]
    omega
  have hval : value (low' ++ [u + (w &&& 3)]) = value low' + 2 ^ 128 * (u.toNat + (w &&& 3).toNat) := by
    rw [value_append, hlen, hpow, value_cons, hsum, value_nil]
    ring
  have hlow' := value_lt hred
  rw [hlen, hpow] at hlow'
  constructor
  · constructor
    · simp [hlen]
    · intro y hy
      cases List.mem_append.mp hy with
      | inl hmem => exact hred y hmem
      | inr hmem =>
        rw [List.mem_singleton.mp hmem, hsum]
        omega
    · rw [hval]
      omega
  · have hval' : value (low' ++ [u + (w &&& 3)]) =
        value low + 2 ^ 128 * (w &&& 3).toNat + 5 * (w >>> 2).toNat := by
      rw [hval]
      omega
    have hw' : value low + 2 ^ 128 * w.toNat =
        value low + 2 ^ 128 * (w &&& 3).toNat + 2 ^ 130 * (w >>> 2).toNat := by omega
    rw [hval', hw', fold_cast]

/-- The carry passes keep the residue and leave limbs for the next block. -/
theorem squeeze_loose {x : List UInt32} (hl : x.length = 17) (hb : ∀ y ∈ x, y.toNat ≤ mulBound) :
    Loose (squeeze x) ∧ ((value (squeeze x) : Nat) : ZMod p1305) = ((value x : Nat) : ZMod p1305) := by
  have htake : (x.take 16).length = 16 := by simp [hl]
  obtain ⟨hv, ho⟩ := value_carry (b := mulBound) (v := 2000000) (by decide) (by decide) (u := 0)
    (l := x.take 16) (by decide) fun y hy => hb y (List.mem_of_mem_take hy)
  have hx16 : (x.getD 16 0).toNat ≤ 353736000 := by
    rw [List.getD_eq_getElem?_getD]
    cases hi : x[16]? with
    | none => decide
    | some y => exact hb y (List.mem_of_getElem? hi)
  have hu : ((carry 0 (x.take 16)).2 + x.getD 16 0).toNat =
      (carry 0 (x.take 16)).2.toNat + (x.getD 16 0).toNat := by
    rw [UInt32.toNat_add]
    omega
  have hfold := foldTop_loose (w := (carry 0 (x.take 16)).2 + x.getD 16 0)
    ((carry_length 0 (x.take 16)).trans htake) (carry_reduced 0 (x.take 16)) (by omega)
  have hx : value (carry 0 (x.take 16)).1 + 2 ^ 128 * ((carry 0 (x.take 16)).2 + x.getD 16 0).toNat =
      value x := by
    rw [htake] at hv
    have h0 : (0 : UInt32).toNat = 0 := rfl
    rw [value_take_top hl, hu, Nat.mul_add, ← Nat.add_assoc]
    norm_num at hv ⊢
    omega
  rw [hx] at hfold
  exact hfold


theorem reduced_bytes (b : Bytes) : Reduced (b.map UInt8.toUInt32) := by
  intro x hx
  obtain ⟨y, -, rfl⟩ := List.mem_map.mp hx
  exact y.toNat_lt

theorem value_bytes (b : Bytes) : value (b.map UInt8.toUInt32) = Py.fromBytesLittle b := by
  induction b with
  | nil => rfl
  | cons x b ih => simp [Py.fromBytesLittle, ih]

theorem fromBytesLittle_append (b c : Bytes) :
    Py.fromBytesLittle (b ++ c) = Py.fromBytesLittle b + 256 ^ b.length * Py.fromBytesLittle c := by
  rw [← value_bytes, List.map_append, value_append, value_bytes, value_bytes, List.length_map]

theorem fromBytesLittle_lt (b : Bytes) : Py.fromBytesLittle b < 256 ^ b.length := by
  have h := value_lt (reduced_bytes b)
  rwa [value_bytes, List.length_map] at h

theorem value_takeD {l : List UInt32} {n : Nat} (h : l.length ≤ n) : value (l.takeD n 0) = value l := by
  induction n generalizing l with
  | zero => rw [List.length_eq_zero_iff.mp (Nat.le_zero.mp h), List.takeD_zero]
  | succ n ih =>
    cases l with
    | nil =>
      have hz := ih (l := []) (Nat.zero_le _)
      rw [List.takeD_succ, value_cons]
      simpa using hz
    | cons x l =>
      rw [List.takeD_succ, value_cons, value_cons]
      simpa using ih (l := l) (Nat.le_of_succ_le_succ h)

theorem reduced_takeD {l : List UInt32} (h : Reduced l) (n : Nat) : Reduced (l.takeD n 0) := by
  induction n generalizing l with
  | zero => exact fun _ hx => nomatch hx
  | succ n ih =>
    cases l with
    | nil =>
      intro x hx
      rw [List.takeD_succ] at hx
      cases List.mem_cons.mp hx with
      | inl he => subst he; decide
      | inr hmem => exact ih (l := []) (fun _ hy => nomatch hy) x hmem
    | cons y l =>
      intro x hx
      rw [List.takeD_succ] at hx
      cases List.mem_cons.mp hx with
      | inl he => exact he ▸ h y List.mem_cons_self
      | inr hmem => exact ih (fun z hz => h z (List.mem_cons_of_mem _ hz)) x hmem

theorem loadBlock_length (m : Bytes) : (loadBlock m).length = 17 := List.takeD_length _ _ _

theorem loadBlock_reduced (m : Bytes) : Reduced (loadBlock m) := by
  apply reduced_takeD
  intro x hx
  cases List.mem_append.mp hx with
  | inl hmem => exact reduced_bytes _ x hmem
  | inr hmem =>
    rw [List.mem_singleton.mp hmem]
    decide

/-- A loaded block is the integer the other implementation adds. -/
theorem value_loadBlock (m : Bytes) :
    value (loadBlock m) = Py.fromBytesLittle (m.take 16 ++ [1]) ∧ value (loadBlock m) < 2 * 2 ^ 128 := by
  have hlen : (m.take 16).length ≤ 16 := by simp
  have hval : value (loadBlock m) = Py.fromBytesLittle (m.take 16 ++ [1]) := by
    rw [loadBlock, value_takeD (by simp), value_append, value_bytes, fromBytesLittle_append,
      List.length_map]
    rfl
  have hlt := fromBytesLittle_lt (m.take 16)
  have hpow : (256 : Nat) ^ (m.take 16).length ≤ 256 ^ 16 := Nat.pow_le_pow_right (by decide) hlen
  have h1 : Py.fromBytesLittle [1] = 1 := rfl
  have h16 : (256 : Nat) ^ 16 = 2 ^ 128 := by norm_num
  constructor
  · exact hval
  · rw [hval, fromBytesLittle_append, h1, Nat.mul_one]
    omega

/-- Masking limb by limb is masking the value. -/
theorem and_limb (x m a b : Nat) (hx : x < 256) (hm : m < 256) :
    (x + 256 * a) &&& (m + 256 * b) = (x &&& m) + 256 * (a &&& b) := by
  have hlow : ((x + 256 * a) &&& (m + 256 * b)) % 2 ^ 8 = x &&& m := by
    rw [Nat.and_mod_two_pow]
    congr 1 <;> omega
  have hhigh : ((x + 256 * a) &&& (m + 256 * b)) / 2 ^ 8 = a &&& b := by
    rw [Nat.and_div_two_pow]
    congr 1 <;> omega
  omega

theorem value_and (l m : List UInt32) (hl : Reduced l) (hm : Reduced m) (hlen : l.length = m.length) :
    value (List.zipWith (· &&& ·) l m) = value l &&& value m := by
  induction l generalizing m with
  | nil => simp
  | cons x l ih =>
    cases m with
    | nil => cases hlen
    | cons y m =>
      have hih := ih m (fun z hz => hl z (List.mem_cons_of_mem _ hz))
        (fun z hz => hm z (List.mem_cons_of_mem _ hz)) (Nat.succ.inj hlen)
      rw [List.zipWith_cons_cons, value_cons, value_cons, value_cons, hih, UInt32.toNat_and,
        and_limb _ _ _ _ (hl x List.mem_cons_self) (hm y List.mem_cons_self)]

theorem clampMask_reduced : Reduced clampMask := by
  intro x hx
  have : x = 255 ∨ x = 15 ∨ x = 252 := by
    simp only [clampMask, List.mem_cons, List.not_mem_nil, or_false] at hx
    tauto
  rcases this with rfl | rfl | rfl <;> decide

theorem loadR_length {k : Bytes} (h : 16 ≤ k.length) : (loadR k).length = 17 := by
  simp [loadR, clampMask, h]

theorem loadR_reduced (k : Bytes) : Reduced (loadR k) := by
  intro x hx
  cases List.mem_append.mp hx with
  | inl hmem =>
    rw [List.zipWith_eq_zipWith_take_min] at hmem
    obtain ⟨i, hi, rfl⟩ := List.getElem_of_mem hmem
    rw [List.getElem_zipWith, UInt32.toNat_and]
    have hb : Reduced ((k.take 16).map UInt8.toUInt32) := reduced_bytes _
    exact Nat.lt_of_le_of_lt Nat.and_le_left (hb _ (List.mem_of_mem_take (List.getElem_mem _)))
  | inr hmem =>
    rw [List.mem_singleton.mp hmem]
    decide

/-- The clamped multiplier is the masked integer. -/
theorem value_loadR {k : Bytes} (h : 16 ≤ k.length) :
    value (loadR k) = Py.fromBytesLittle (k.take 16) &&& 0x0FFFFFFC0FFFFFFC0FFFFFFC0FFFFFFF := by
  have hlen : ((k.take 16).map UInt8.toUInt32).length = clampMask.length := by simp [clampMask, h]
  have hmask : value clampMask = 0x0FFFFFFC0FFFFFFC0FFFFFFC0FFFFFFF := by decide
  rw [loadR, value_append, value_and _ _ (reduced_bytes _) clampMask_reduced hlen, value_bytes, hmask]
  simp


/-- The range over the message takes its first block, then those of the rest. -/
theorem blocks_cons {m : Bytes} (h : m ≠ []) : Py.blocks m = m.take 16 :: Py.blocks (m.drop 16) := by
  have hlen := List.length_pos_iff.mpr h
  have hcount : (m.length + 15) / 16 = ((m.drop 16).length + 15) / 16 + 1 := by
    rw [List.length_drop]
    omega
  rw [Py.blocks, hcount, List.range_succ_eq_map, List.map_cons, List.map_map]
  congr 1
  · apply List.map_congr_left
    intro i _
    simp only [Function.comp_apply, Py.cut, List.take_drop, List.drop_drop]
    congr 2 <;> omega

/-- A round of the limb loop, and of the integer loop. -/
theorem round_loose {r h m : List UInt32} (hr : Reduced r) (hrl : r.length = 17) (hh : Loose h)
    (hm : Reduced m) (hml : m.length = 17) (hmv : value m < 2 * 2 ^ 128) :
    Loose (squeeze (mulLimbs (add1305 h m) r)) ∧
      ((value (squeeze (mulLimbs (add1305 h m) r)) : Nat) : ZMod p1305) =
        (((value h + value m) * value r : Nat) : ZMod p1305) := by
  have hsum : Reduced (add1305 h m) := add1305_reduced h m
  have hlen := add1305_length hh.length hml
  have hval : value (add1305 h m) = value h + value m := by
    rw [value_add1305 hh.reduced hm hh.length hml]
    have := hh.value_lt
    exact Nat.mod_eq_of_lt (by omega)
  have hb : ∀ y ∈ mulLimbs (add1305 h m) r, y.toNat ≤ mulBound := by
    intro y hy
    obtain ⟨i, -, rfl⟩ := List.mem_map.mp hy
    rw [mulLimb_toNat hsum hr]
    exact sum_mulNat_le hsum hr i
  obtain ⟨hloose, hcast⟩ := squeeze_loose (by simp [mulLimbs]) hb
  constructor
  · exact hloose
  · rw [hcast, value_mulLimbs hsum hr hlen hrl, hval]

/-- One turn of the loop in `poly1305`. -/
def pyRound (r acc : Nat) (block : Bytes) : Nat := (acc + Py.fromBytesLittle (block ++ [1])) * r % Py.p1305

/-- Both loops keep the same residue. -/
theorem absorb_loose {r : List UInt32} (hr : Reduced r) (hrl : r.length = 17) {fuel : Nat} {m : Bytes}
    {h : List UInt32} {a : Nat} (hfuel : m.length ≤ fuel) (hh : Loose h)
    (hacc : ((value h : Nat) : ZMod p1305) = ((a : Nat) : ZMod p1305)) :
    Loose (absorb r fuel m h) ∧ ((value (absorb r fuel m h) : Nat) : ZMod p1305) =
      (((Py.blocks m).foldl (pyRound (value r)) a : Nat) : ZMod p1305) := by
  induction fuel generalizing m h a with
  | zero =>
    obtain rfl := List.length_eq_zero_iff.mp (Nat.le_zero.mp hfuel)
    exact ⟨hh, hacc⟩
  | succ fuel ih =>
    rw [absorb]
    split
    · rename_i hm
      subst hm
      exact ⟨hh, hacc⟩
    · rename_i hm
      obtain ⟨hmv, hmlt⟩ := value_loadBlock m
      obtain ⟨hloose, hcast⟩ := round_loose hr hrl hh (loadBlock_reduced m) (loadBlock_length m) hmlt
      have hpos := List.length_pos_iff.mpr hm
      rw [blocks_cons hm, List.foldl_cons]
      apply ih
      · rw [List.length_drop]
        omega
      · exact hloose
      · have hmod : ((pyRound (value r) a (m.take 16) : Nat) : ZMod p1305) =
            (((a + Py.fromBytesLittle (m.take 16 ++ [1])) * value r : Nat) : ZMod p1305) :=
          ZMod.natCast_mod _ _
        rw [hcast, hmod, hmv]
        push_cast
        rw [hacc]

theorem foldl_pyRound_lt (r : Nat) (bs : List Bytes) {a : Nat} (h : a < Py.p1305) :
    bs.foldl (pyRound r) a < Py.p1305 := by
  induction bs generalizing a with
  | nil => exact h
  | cons b bs ih => exact ih (Nat.mod_lt _ (by decide))

theorem minusp_reduced : Reduced minusp := by
  intro x hx
  have : x = 5 ∨ x = 0 ∨ x = 252 := by
    simp only [minusp, List.mem_cons, List.not_mem_nil, or_false] at hx
    tauto
  rcases this with rfl | rfl | rfl <;> decide

theorem value_minusp : value minusp = 2 ^ 136 - p1305 := by decide

theorem zipWith_select_left (d g : List UInt32) (h : d.length = g.length) :
    List.zipWith (fun d g => d ^^^ ((0 : UInt32) &&& (g ^^^ d))) d g = d := by
  induction d generalizing g with
  | nil => rfl
  | cons x d ih =>
    cases g with
    | nil => cases h
    | cons y g =>
      rw [List.zipWith_cons_cons, ih g (Nat.succ.inj h)]
      simp

theorem zipWith_select_right (d g : List UInt32) (h : d.length = g.length) :
    List.zipWith (fun d g => d ^^^ ((-1 : UInt32) &&& (g ^^^ d))) d g = g := by
  induction d generalizing g with
  | nil =>
    cases g with
    | nil => rfl
    | cons y g => cases h
  | cons x d ih =>
    cases g with
    | nil => cases h
    | cons y g =>
      have hx : x ^^^ ((-1 : UInt32) &&& (y ^^^ x)) = y := by
        rw [UInt32.neg_one_and, UInt32.xor_comm y x, ← UInt32.xor_assoc, UInt32.xor_self, UInt32.zero_xor]
      rw [List.zipWith_cons_cons, ih g (Nat.succ.inj h), hx]

/-- `freeze` subtracts the modulus exactly when that leaves something. -/
theorem freeze_spec {h : List UInt32} (hh : Loose h) :
    value (freeze h) = value h % p1305 ∧ Reduced (freeze h) ∧ (freeze h).length = 17 := by
  have hlt := hh.value_lt
  have hd := value_add1305 hh.reduced minusp_reduced hh.length rfl
  have hdr : Reduced (add1305 h minusp) := add1305_reduced h minusp
  have hdl : (add1305 h minusp).length = 17 := add1305_length hh.length rfl
  have htop := value_take_top hdl
  have hlow := value_lt (l := (add1305 h minusp).take 16) fun y hy => hdr y (List.mem_of_mem_take hy)
  have hpow : (256 : Nat) ^ ((add1305 h minusp).take 16).length = 2 ^ 128 := by simp [hdl]
  have hp : p1305 = 2 ^ 130 - 5 := rfl
  have hshift : ((add1305 h minusp).getD 16 0 >>> 7).toNat = ((add1305 h minusp).getD 16 0).toNat / 128 := by
    rw [UInt32.toNat_shiftRight]
    have h7 : (7 : UInt32).toNat % 32 = 7 := rfl
    rw [h7, Nat.shiftRight_eq_div_pow]
  rw [value_minusp] at hd
  rw [hpow] at hlow
  by_cases hge : p1305 ≤ value h
  · have hval : value (add1305 h minusp) = value h - p1305 := by omega
    have hzero : (add1305 h minusp).getD 16 0 >>> 7 = 0 := by
      apply UInt32.toNat.inj
      rw [hshift, UInt32.toNat_zero]
      omega
    have hf : freeze h = add1305 h minusp := by
      rw [freeze, hzero]
      exact zipWith_select_left _ _ (hdl.trans hh.length.symm)
    have hmod : value h % p1305 = value h - p1305 := by
      rw [Nat.mod_eq_sub_mod hge, Nat.mod_eq_of_lt (by omega)]
    rw [hf, hmod]
    exact ⟨hval, hdr, hdl⟩
  · have hval : value (add1305 h minusp) = value h + (2 ^ 136 - p1305) := by omega
    have hone : (add1305 h minusp).getD 16 0 >>> 7 = 1 := by
      apply UInt32.toNat.inj
      have h1 : (1 : UInt32).toNat = 1 := rfl
      have hbyte := getD_lt hdr 16
      rw [hshift, h1]
      omega
    have hf : freeze h = h := by
      rw [freeze, hone]
      exact zipWith_select_right _ _ (hdl.trans hh.length.symm)
    rw [hf]
    exact ⟨(Nat.mod_eq_of_lt (by omega)).symm, hh.reduced, hh.length⟩

theorem littleEndian_mod (v n : Nat) : Py.littleEndian (v % 256 ^ n) n = Py.littleEndian v n := by
  induction n generalizing v with
  | zero => rfl
  | succ n ih =>
    have hhead : UInt8.ofNat (v % 256 ^ (n + 1)) = .ofNat v := by
      apply UInt8.toNat.inj
      rw [UInt8.toNat_ofNat', UInt8.toNat_ofNat', pow_succ]
      exact Nat.mod_mul_left_mod _ _ _
    have htail : v % 256 ^ (n + 1) / 256 = v / 256 % 256 ^ n := by
      rw [pow_succ, Nat.mul_comm, Nat.mod_mul_right_div_self]
    rw [Py.littleEndian, Py.littleEndian, hhead, htail, ih]

/-- Reduced limbs are the little-endian digits of their value. -/
theorem bytes_take {l : List UInt32} {n : Nat} (h : Reduced l) (hn : n ≤ l.length) :
    (l.map UInt32.toUInt8).take n = Py.littleEndian (value l) n := by
  induction n generalizing l with
  | zero => rfl
  | succ n ih =>
    cases l with
    | nil => simp at hn
    | cons x l =>
      have hx := h x List.mem_cons_self
      have hhead : UInt8.ofNat (value (x :: l)) = x.toUInt8 := by
        apply UInt8.toNat.inj
        rw [UInt8.toNat_ofNat', UInt32.toNat_toUInt8, value_cons]
        omega
      have htail : value (x :: l) / 256 = value l := by
        rw [value_cons]
        omega
      rw [List.map_cons, List.take_succ_cons, Py.littleEndian, hhead, htail,
        ih (fun z hz => h z (List.mem_cons_of_mem _ hz)) (Nat.le_of_succ_le_succ hn)]

theorem bytes_takeD {l : List UInt32} (h : Reduced l) (hl : l.length = 17) :
    (l.map UInt32.toUInt8).takeD 16 0 = Py.littleEndian (value l) 16 := by
  have hmap : (l.map UInt32.toUInt8).length = 17 := (List.length_map ..).trans hl
  rw [List.takeD_eq_take _ (by omega), bytes_take h (by omega)]

/-- TweetNaCl and `crypto.py` compute the same tag of every message under every key. -/
theorem cryptoOnetimeauth_eq (m : Bytes) (k : Arr 32) :
    (cryptoOnetimeauth m k).val = Py.poly1305 m k := by
  have hk := k.length
  have hrl : (loadR k.val).length = 17 := loadR_length (by omega)
  obtain ⟨hloose, hcast⟩ := absorb_loose (loadR_reduced k.val) hrl (Nat.le_refl m.length) loose_zero
    (a := 0) (by decide)
  have hfold := foldl_pyRound_lt (value (loadR k.val)) (Py.blocks m) (a := 0) (by decide)
  have hres := (ZMod.natCast_eq_natCast_iff' _ _ _).mp hcast
  obtain ⟨hfv, hfr, hfl⟩ := freeze_spec hloose
  have hp : Py.p1305 = p1305 := rfl
  have hcr : Reduced ((k.val.drop 16).map UInt8.toUInt32 ++ [0]) := by
    intro x hx
    cases List.mem_append.mp hx with
    | inl hmem => exact reduced_bytes _ x hmem
    | inr hmem =>
      rw [List.mem_singleton.mp hmem]
      decide
  have hcl : ((k.val.drop 16).map UInt8.toUInt32 ++ [0]).length = 17 := by simp
  have hcv : value ((k.val.drop 16).map UInt8.toUInt32 ++ [0]) = Py.fromBytesLittle (k.val.drop 16) := by
    rw [value_append, value_bytes]
    simp
  have hs := fromBytesLittle_lt (k.val.drop 16)
  have hsum := value_add1305 hfr hcr hfl hcl
  have hsl := add1305_length hfl hcl
  have hpow : (2 : Nat) ^ 128 = 256 ^ 16 := by norm_num
  rw [hp] at hfold
  rw [Nat.mod_eq_of_lt hfold] at hres
  have htag : (cryptoOnetimeauth m k).val =
      ((add1305 (freeze (absorb (loadR k.val) m.length m (List.replicate 17 0)))
        ((k.val.drop 16).map UInt8.toUInt32 ++ [0])).map UInt32.toUInt8).takeD 16 0 := rfl
  rw [Py.poly1305, hpow, littleEndian_mod, htag, bytes_takeD (add1305_reduced _ _) hsl, hsum, hfv, hres,
    hcv, Nat.mod_eq_of_lt, value_loadR (by omega)]
  · rfl
  · have h16 : (k.val.drop 16).length = 16 := by simp
    rw [h16, ← hpow] at hs
    have hp' : p1305 = 2 ^ 130 - 5 := rfl
    omega

end Poly1305
