import Mathlib

/-!
# Reflected cyclic redundancy checks

The register shifts right and takes the polynomial in when a one leaves it. All its steps respect
exclusive or, so a changed byte changes the register by a run on the difference alone. What the low bits
of the register keep of a byte's difference is then a question about eight vectors.
-/
namespace Crc

def Linear (f : ℕ → ℕ) : Prop := ∀ a b, f (a ^^^ b) = f a ^^^ f b

variable {f g : ℕ → ℕ}

theorem Linear.zero (hf : Linear f) : f 0 = 0 := by
  have h := hf 0 0
  rwa [Nat.xor_self, Nat.xor_self] at h

theorem Linear.comp (hf : Linear f) (hg : Linear g) : Linear fun a => f (g a) := by
  intro a b
  show f (g (a ^^^ b)) = _
  rw [hg, hf]

theorem Linear.iterate (hf : Linear f) (n : ℕ) : Linear f^[n] := by
  induction n with
  | zero => exact fun _ _ => rfl
  | succ n ih =>
    rw [Function.iterate_succ]
    exact ih.comp hf

theorem linear_mod (n : ℕ) : Linear fun a => a % 2 ^ n := fun _ _ => Nat.xor_mod_two_pow

theorem linear_double : Linear fun a => 2 * a := by
  intro a b
  apply Nat.eq_of_testBit_eq
  intro i
  cases i with
  | zero => simp
  | succ i => simp [Nat.testBit_succ, Nat.xor_div_two]

theorem linear_bit (w : ℕ) : Linear fun a => w * (a % 2) := by
  intro a b
  have hxor : (a ^^^ b) % 2 = (a % 2 ^^^ b % 2) := Nat.xor_mod_two_pow (n := 1)
  show w * ((a ^^^ b) % 2) = w * (a % 2) ^^^ w * (b % 2)
  rw [hxor]
  rcases Nat.mod_two_eq_zero_or_one a with ha | ha
  · rw [ha, Nat.zero_xor, Nat.mul_zero, Nat.zero_xor]
  · rcases Nat.mod_two_eq_zero_or_one b with hb | hb
    · rw [ha, hb, Nat.xor_zero, Nat.mul_zero, Nat.xor_zero]
    · rw [ha, hb, Nat.xor_self, Nat.mul_zero, Nat.xor_self]

variable (poly : ℕ)

/-- One bit of the register. -/
def shift (c : ℕ) : ℕ := c / 2 ^^^ poly * (c % 2)

/-- The register over bytes. -/
def run (c : ℕ) (bs : List ℕ) : ℕ := bs.foldl (fun c b => (shift poly)^[8] (c ^^^ b)) c

variable {poly}

theorem linear_shift : Linear (shift poly) := by
  intro a b
  have hbit := linear_bit poly a b
  simp only at hbit
  rw [shift, shift, shift, Nat.xor_div_two, hbit]
  ac_rfl

@[simp] theorem shift_double (c : ℕ) : shift poly (2 * c) = c := by
  rw [shift, Nat.mul_div_cancel_left _ (by decide), Nat.mul_mod_right, Nat.mul_zero, Nat.xor_zero]

theorem shift_iterate_pow (n c : ℕ) : (shift poly)^[n] (2 ^ n * c) = c := by
  induction n generalizing c with
  | zero => rw [pow_zero, one_mul, Function.iterate_zero_apply]
  | succ n ih =>
    rw [Function.iterate_succ_apply, pow_succ', mul_assoc, shift_double, ih]

theorem xor_split (n c : ℕ) : c % 2 ^ n ^^^ 2 ^ n * (c / 2 ^ n) = c := by
  apply Nat.eq_of_testBit_eq
  intro i
  rw [Nat.testBit_xor, Nat.testBit_mod_two_pow, Nat.testBit_two_pow_mul, Nat.testBit_div_two_pow]
  by_cases hi : i < n
  · have hnot : ¬ n ≤ i := Nat.not_le.mpr hi
    simp [hi, hnot]
  · have hle : n ≤ i := Nat.le_of_not_lt hi
    simp [hi, hle, Nat.sub_add_cancel hle]

/-- The step of a table with `2 ^ n` entries. -/
theorem shift_iterate_split (n c : ℕ) :
    (shift poly)^[n] c = (shift poly)^[n] (c % 2 ^ n) ^^^ c / 2 ^ n := by
  have h := (linear_shift : Linear (shift poly)).iterate n (c % 2 ^ n) (2 ^ n * (c / 2 ^ n))
  rwa [xor_split, shift_iterate_pow] at h

theorem run_xor (c d : ℕ) (bs : List ℕ) :
    run poly (c ^^^ d) bs = run poly c bs ^^^ (shift poly)^[8 * bs.length] d := by
  induction bs generalizing c d with
  | nil => rfl
  | cons b bs ih =>
    have hstep : (shift poly)^[8] (c ^^^ d ^^^ b) = (shift poly)^[8] (c ^^^ b) ^^^ (shift poly)^[8] d := by
      rw [← linear_shift.iterate]
      congr 1
      ac_rfl
    have hlen : 8 * (b :: bs).length = 8 * bs.length + 8 := by rw [List.length_cons, Nat.mul_succ]
    show run poly ((shift poly)^[8] (c ^^^ d ^^^ b)) bs = _
    rw [hstep, ih, hlen, Function.iterate_add_apply]
    rfl

/-- What changing one byte does to the register. -/
theorem run_change (c v b : ℕ) (pre post : List ℕ) :
    run poly c (pre ++ (b ^^^ v) :: post) =
      run poly c (pre ++ b :: post) ^^^ (shift poly)^[8 * (post.length + 1)] v := by
  have hcons : ∀ x, run poly c (pre ++ x :: post) = run poly ((shift poly)^[8] (run poly c pre ^^^ x)) post := by
    intro x
    rw [run, List.foldl_append]
    rfl
  rw [hcons, hcons, ← Nat.xor_assoc, linear_shift.iterate, run_xor, Nat.mul_add, Function.iterate_add_apply]

/-- The register takes in one bit of the message. -/
def bitStep (poly c : ℕ) (bit : Bool) : ℕ := if c.testBit 0 != bit then c / 2 ^^^ poly else c / 2

/-- The `n` low bits of a word, lowest first. -/
def bits : ℕ → ℕ → List Bool
  | 0, _ => []
  | n + 1, b => b.testBit 0 :: bits n (b / 2)

/-- The register over bytes, one bit after the other. -/
def serial (poly c : ℕ) (bs : List ℕ) : ℕ := (bs.flatMap (bits 8)).foldl (bitStep poly) c

theorem bitStep_eq (c b : ℕ) : bitStep poly c (b.testBit 0) = shift poly (c ^^^ b % 2) := by
  have hhalf : (c ^^^ b % 2) / 2 = c / 2 := by
    have hb : b % 2 / 2 = 0 := Nat.div_eq_of_lt (Nat.mod_lt b (by decide))
    rw [Nat.xor_div_two, hb, Nat.xor_zero]
  have hlow : (c ^^^ b % 2) % 2 = c % 2 ^^^ b % 2 := by
    have h : (c ^^^ b % 2) % 2 ^ 1 = c % 2 ^ 1 ^^^ b % 2 % 2 ^ 1 := Nat.xor_mod_two_pow
    rwa [pow_one, Nat.mod_mod] at h
  rw [bitStep, shift, hhalf, hlow, Nat.testBit_zero, Nat.testBit_zero]
  rcases Nat.mod_two_eq_zero_or_one c with hc | hc
  · rcases Nat.mod_two_eq_zero_or_one b with hb | hb
    · simp [hc, hb]
    · simp [hc, hb]
  · rcases Nat.mod_two_eq_zero_or_one b with hb | hb
    · simp [hc, hb]
    · simp [hc, hb]

/-- The bits of a word may go into the register at once. -/
theorem foldl_bits (n c b : ℕ) :
    (bits n b).foldl (bitStep poly) c = (shift poly)^[n] (c ^^^ b % 2 ^ n) := by
  induction n generalizing c b with
  | zero =>
    rw [pow_zero, Nat.mod_one, Nat.xor_zero]
    rfl
  | succ n ih =>
    have hsplit : b % 2 ^ (n + 1) = b % 2 ^^^ 2 * (b / 2 % 2 ^ n) := by
      have h := xor_split 1 (b % 2 ^ (n + 1))
      rw [pow_one, Nat.mod_mod_of_dvd _ (dvd_pow_self 2 n.succ_ne_zero), pow_succ', Nat.mod_mul_right_div_self] at h
      rw [pow_succ', h]
    have hstep : shift poly (c ^^^ b % 2) ^^^ b / 2 % 2 ^ n = shift poly (c ^^^ b % 2 ^ (n + 1)) := by
      rw [hsplit, ← Nat.xor_assoc, linear_shift (c ^^^ b % 2), shift_double]
    rw [bits, List.foldl_cons, bitStep_eq, ih, hstep, ← Function.iterate_succ_apply]

/-- Eight rounds a byte are the bits of the byte one after the other. -/
theorem serial_eq_run (c : ℕ) {bs : List ℕ} (hbs : ∀ b ∈ bs, b < 2 ^ 8) : serial poly c bs = run poly c bs := by
  induction bs generalizing c with
  | nil => rfl
  | cons b bs ih =>
    have hb := @foldl_bits poly 8 c b
    rw [Nat.mod_eq_of_lt (hbs b List.mem_cons_self)] at hb
    have htail := ih ((shift poly)^[8] (c ^^^ b)) fun x hx => hbs x (List.mem_cons_of_mem _ hx)
    rw [serial] at htail ⊢
    rw [List.flatMap_cons, List.foldl_append, hb, htail]
    rfl

/-- The exclusive or of the vectors that the bits of `d` choose. -/
def combine : List ℕ → ℕ → ℕ
  | [], _ => 0
  | w :: ws, d => w * (d % 2) ^^^ combine ws (d / 2)

@[simp] theorem combine_zero (ws : List ℕ) : combine ws 0 = 0 := by
  induction ws with
  | nil => rfl
  | cons w ws ih => rw [combine, Nat.zero_mod, Nat.mul_zero, Nat.zero_div, ih, Nat.xor_self]

/-- A map that respects exclusive or is given by what it makes of the powers of two. -/
theorem Linear.combine_pow (hf : Linear f) {n d : ℕ} (hd : d < 2 ^ n) :
    combine ((List.range n).map fun i => f (2 ^ i)) d = f d := by
  induction n generalizing f d with
  | zero =>
    obtain rfl : d = 0 := Nat.lt_one_iff.mp hd
    rw [combine_zero, hf.zero]
  | succ n ih =>
    have hd' : d / 2 < 2 ^ n := by
      rw [pow_succ] at hd
      omega
    have htail := ih (hf.comp linear_double) hd'
    have hbit : f 1 * (d % 2) = f (d % 2) := by
      rcases Nat.mod_two_eq_zero_or_one d with h | h
      · rw [h, Nat.mul_zero, hf.zero]
      · rw [h, Nat.mul_one]
    have hsplit := xor_split 1 d
    rw [pow_one] at hsplit
    rw [List.range_succ_eq_map, List.map_cons, List.map_map, combine, pow_zero, hbit]
    simp only [Function.comp_def, Nat.succ_eq_add_one, pow_succ']
    rw [htail, ← hf, hsplit]

/-- `v` without the leading bit of `w`. -/
def clear (w v : ℕ) : ℕ := v ^^^ w * (v >>> w.log2 % 2)

theorem testBit_clear {w : ℕ} (hw : w ≠ 0) (v : ℕ) : (clear w v).testBit w.log2 = false := by
  have hlead := Nat.testBit_log2 hw
  have hbit : v.testBit w.log2 = decide (v >>> w.log2 % 2 = 1) := by
    rw [Nat.testBit_eq_decide_div_mod_eq, Nat.shiftRight_eq_div_pow]
  rw [clear, Nat.testBit_xor, hbit]
  rcases Nat.mod_two_eq_zero_or_one (v >>> w.log2) with h | h
  · simp [h]
  · simp [h, hlead]

theorem testBit_combine {ws : List ℕ} {i : ℕ} (h : ∀ w ∈ ws, w.testBit i = false) (d : ℕ) :
    (combine ws d).testBit i = false := by
  induction ws generalizing d with
  | nil => exact Nat.zero_testBit i
  | cons w ws ih =>
    have hw : (w * (d % 2)).testBit i = false := by
      rcases Nat.mod_two_eq_zero_or_one d with hd | hd
      · rw [hd, Nat.mul_zero, Nat.zero_testBit]
      · rw [hd, Nat.mul_one]
        exact h w (List.mem_cons_self ..)
    rw [combine, Nat.testBit_xor, hw, ih fun v hv => h v (List.mem_cons_of_mem _ hv)]
    rfl

/-- Clearing a bit with `w` adds `w` to a combination or leaves it. -/
theorem combine_clear (w : ℕ) (ws : List ℕ) (d : ℕ) :
    ∃ t, combine (ws.map (clear w)) d = combine ws d ^^^ w * (t % 2) := by
  induction ws generalizing d with
  | nil => exact ⟨0, by rw [Nat.zero_mod, Nat.mul_zero, Nat.xor_zero, List.map_nil]⟩
  | cons v ws ih =>
    obtain ⟨t, ht⟩ := ih (d / 2)
    refine ⟨v >>> w.log2 % 2 * (d % 2) ^^^ t, ?_⟩
    have hsum : w * ((v >>> w.log2 % 2 * (d % 2) ^^^ t) % 2) =
        w * (v >>> w.log2 % 2 * (d % 2)) ^^^ w * (t % 2) := by
      have h := linear_bit w (v >>> w.log2 % 2 * (d % 2)) t
      simp only at h
      have hone : v >>> w.log2 % 2 * (d % 2) % 2 = v >>> w.log2 % 2 * (d % 2) := by
        rcases Nat.mod_two_eq_zero_or_one d with hd | hd
        · rw [hd, Nat.mul_zero]
        · rw [hd, Nat.mul_one, Nat.mod_mod]
      rwa [hone] at h
    have hhead : clear w v * (d % 2) = v * (d % 2) ^^^ w * (v >>> w.log2 % 2 * (d % 2)) := by
      rcases Nat.mod_two_eq_zero_or_one d with hd | hd
      · simp only [hd, Nat.mul_zero, Nat.xor_self]
      · simp only [hd, Nat.mul_one]
        rfl
    rw [List.map_cons, combine, combine, ht, hsum, hhead]
    ac_rfl

section Elimination

variable {α : Type}

/-- `k n`, with `n` evaluated first. -/
def keep (n : ℕ) (k : ℕ → α) : α :=
  match n with
  | 0 => k 0
  | n + 1 => k (n + 1)

@[simp] theorem keep_eq (n : ℕ) (k : ℕ → α) : keep n k = k n := by
  cases n with
  | zero => rfl
  | succ n => rfl

def clearAll (w : ℕ) : List ℕ → (List ℕ → α) → α
  | [], k => k []
  | v :: vs, k => keep (clear w v) fun v' => clearAll w vs fun vs' => k (v' :: vs')

@[simp] theorem clearAll_eq (w : ℕ) (vs : List ℕ) (k : List ℕ → α) :
    clearAll w vs k = k (vs.map (clear w)) := by
  induction vs generalizing k with
  | nil => rfl
  | cons v vs ih => rw [clearAll, keep_eq, ih, List.map_cons]

/-- No combination of the vectors vanishes but the empty one. -/
def independent : ℕ → List ℕ → Bool
  | 0, ws => ws.isEmpty
  | _ + 1, [] => true
  | n + 1, w :: ws => w != 0 && clearAll w ws (independent n)

theorem independent_sound {n : ℕ} {ws : List ℕ} (h : independent n ws = true) {d : ℕ}
    (hd : d < 2 ^ ws.length) (hz : combine ws d = 0) : d = 0 := by
  induction n generalizing ws d with
  | zero =>
    obtain rfl := List.isEmpty_iff.mp h
    exact Nat.lt_one_iff.mp hd
  | succ n ih =>
    cases ws with
    | nil => exact Nat.lt_one_iff.mp hd
    | cons w ws =>
      rw [independent, clearAll_eq, Bool.and_eq_true, bne_iff_ne] at h
      obtain ⟨hw, hrest⟩ := h
      obtain ⟨t, ht⟩ := combine_clear w ws (d / 2)
      have heq : w * (d % 2) = combine ws (d / 2) := Nat.eq_of_xor_eq_zero hz
      -- the cleared vectors combine to 0 or to `w`, and `w` has the bit that they lack
      have hbit : (combine (ws.map (clear w)) (d / 2)).testBit w.log2 = false := by
        refine testBit_combine (fun v hv => ?_) _
        obtain ⟨u, -, rfl⟩ := List.mem_map.mp hv
        exact testBit_clear hw u
      have hsum : combine (ws.map (clear w)) (d / 2) = w * ((d ^^^ t) % 2) := by
        have hlin := linear_bit w d t
        simp only at hlin
        rw [ht, ← heq, hlin]
      have hzero : combine (ws.map (clear w)) (d / 2) = 0 := by
        rcases Nat.mod_two_eq_zero_or_one (d ^^^ t) with hp | hp
        · rw [hsum, hp, Nat.mul_zero]
        · rw [hsum, hp, Nat.mul_one, Nat.testBit_log2 hw] at hbit
          cases hbit
      have hhalf : d / 2 = 0 := by
        refine ih hrest ?_ hzero
        rw [List.length_map]
        rw [List.length_cons, pow_succ] at hd
        omega
      rw [hhalf, combine_zero] at heq
      rcases Nat.mod_two_eq_zero_or_one d with hp | hp
      · omega
      · rw [hp, Nat.mul_one] at heq
        exact absurd heq hw

/-- What `m` shifts leave in the low bits of each bit of a byte. -/
def column (poly low m : ℕ) : List ℕ := (List.range 8).map fun i => (shift poly)^[m] (2 ^ i) % 2 ^ low

theorem combine_column {poly low m d : ℕ} (hd : d < 256) :
    combine (column poly low m) d = (shift poly)^[m] d % 2 ^ low :=
  ((linear_mod low).comp (linear_shift.iterate m)).combine_pow hd

/-- `n` shifts of `c` with the low bits of each, the last one first. -/
def window (poly low : ℕ) : ℕ → ℕ → List ℕ → (ℕ → List ℕ → α) → α
  | 0, c, acc, k => k c acc
  | n + 1, c, acc, k =>
    keep (shift poly c) fun c' => keep (c' % 2 ^ low) fun w => window poly low n c' (w :: acc) k

theorem window_eq (poly low n c : ℕ) (acc : List ℕ) (k : ℕ → List ℕ → α) :
    window poly low n c acc k = k ((shift poly)^[n] c)
      (((List.range n).map fun i => (shift poly)^[n - i] c % 2 ^ low) ++ acc) := by
  induction n generalizing c acc with
  | zero => rfl
  | succ n ih =>
    have hcols : ((List.range (n + 1)).map fun i => (shift poly)^[n + 1 - i] c % 2 ^ low) =
        ((List.range n).map fun i => (shift poly)^[n - i] (shift poly c) % 2 ^ low) ++ [shift poly c % 2 ^ low] := by
      rw [List.range_succ, List.map_append, List.map_singleton]
      congr 1
      · refine List.map_congr_left fun i hi => ?_
        have hlt := List.mem_range.mp hi
        rw [← Function.iterate_succ_apply, Nat.succ_sub (Nat.le_of_lt hlt)]
      · rw [Nat.add_sub_cancel_left, Function.iterate_one]
    rw [window, keep_eq, keep_eq, ih, hcols, List.append_assoc]
    rfl

/-- Whether exactly the differences of `lost` vanish among the vectors. -/
def loses (lost ws : List ℕ) : Bool :=
  match lost with
  | [] => independent 8 ws
  | _ => (List.range 256).all fun d => decide (combine ws d = 0 ↔ d = 0 ∨ d ∈ lost)

theorem loses_sound {lost ws : List ℕ} (h : loses lost ws = true) (hlen : ws.length = 8) {d : ℕ} (hd : d < 256)
    (hpos : d ≠ 0) : combine ws d = 0 ↔ d ∈ lost := by
  cases lost with
  | nil =>
    have hlt : d < 2 ^ ws.length := by rwa [hlen]
    exact ⟨fun hz => absurd (independent_sound h hlt hz) hpos, fun hmem => nomatch hmem⟩
  | cons b bs =>
    have hall := List.all_eq_true.mp h d (List.mem_range.mpr hd)
    rw [of_decide_eq_true hall]
    exact or_iff_right hpos

/-- `n` bytes from the `k`th on, each against the differences that it should lose. -/
def scan (poly low : ℕ) (lost : ℕ → List ℕ) : ℕ → ℕ → ℕ → Bool
  | 0, _, _ => true
  | n + 1, k, c => window poly low 8 c [] fun c' ws => loses (lost k) ws && scan poly low lost n (k + 1) c'

theorem scan_sound {poly low : ℕ} {lost : ℕ → List ℕ} {n k : ℕ}
    (h : scan poly low lost n k ((shift poly)^[8 * k] 1) = true) {j d : ℕ} (hkj : k ≤ j) (hj : j < k + n)
    (hd : d < 256) (hpos : d ≠ 0) : (shift poly)^[8 * (j + 1)] d % 2 ^ low = 0 ↔ d ∈ lost j := by
  induction n generalizing k with
  | zero => omega
  | succ n ih =>
    have hnext : (shift poly)^[8] ((shift poly)^[8 * k] 1) = (shift poly)^[8 * (k + 1)] 1 := by
      rw [← Function.iterate_add_apply]
      congr 1
      omega
    have hcol : ((List.range 8).map fun i => (shift poly)^[8 - i] ((shift poly)^[8 * k] 1) % 2 ^ low) =
        column poly low (8 * (k + 1)) := by
      refine List.map_congr_left fun i hi => ?_
      have hlt := List.mem_range.mp hi
      have hpow : (shift poly)^[i] (2 ^ i) = 1 := by
        have h := @shift_iterate_pow poly i 1
        rwa [mul_one] at h
      rw [← Function.iterate_add_apply, ← hpow, ← Function.iterate_add_apply, hpow]
      congr 2
      omega
    rw [scan, window_eq, List.append_nil, hnext, hcol, Bool.and_eq_true] at h
    rcases Nat.eq_or_lt_of_le hkj with rfl | hlt
    · rw [← combine_column hd]
      exact loses_sound h.1 (by rw [column, List.length_map, List.length_range]) hd hpos
    · exact ih h.2 hlt (by omega)

end Elimination

end Crc
