import Mathlib

/-!
# Words of one width as words of another

A list of words of `a` bits is one number, the first word in front, and the number is cut into groups of
`b` bits from the front. A loop that shifts words into an accumulator and takes a group out whenever it
has `b` bits does the same, even if its accumulator forgets the bits that were already taken.
-/
namespace Regroup

/-- The number that the words denote. -/
def number (a : ℕ) (xs : List ℕ) : ℕ := xs.foldl (fun v x => v * 2 ^ a + x) 0

/-- The `j`-th group of `b` bits of a number of `n` bits, from the front. -/
def group (b n x j : ℕ) : ℕ := x / 2 ^ (n - (j + 1) * b) % 2 ^ b

/-- All whole groups. -/
def groups (b n x : ℕ) : List ℕ := (List.range (n / b)).map (group b n x)

/-- The loop: `acc` has `r` bits that were not taken yet. -/
def regroup (a b : ℕ) : ℕ → ℕ → List ℕ → List ℕ
  | _, _, [] => []
  | acc, r, x :: xs => groups b (r + a) (acc * 2 ^ a + x) ++ regroup a b (acc * 2 ^ a + x) ((r + a) % b) xs

variable {a b n m x y : ℕ}

theorem foldl_number (v : ℕ) (xs : List ℕ) :
    xs.foldl (fun v x => v * 2 ^ a + x) v = v * 2 ^ (a * xs.length) + number a xs := by
  induction xs generalizing v with
  | nil => simp [number]
  | cons x xs ih =>
    rw [number, List.foldl_cons, List.foldl_cons, ih, ih (0 * 2 ^ a + x), List.length_cons, Nat.mul_succ, pow_add]
    ring

theorem number_cons (x : ℕ) (xs : List ℕ) : number a (x :: xs) = x * 2 ^ (a * xs.length) + number a xs := by
  rw [number, List.foldl_cons, foldl_number, Nat.zero_mul, Nat.zero_add]

theorem number_append (xs ys : List ℕ) : number a (xs ++ ys) = number a xs * 2 ^ (a * ys.length) + number a ys := by
  rw [number, List.foldl_append, foldl_number]
  rfl

theorem number_lt {xs : List ℕ} (h : ∀ x ∈ xs, x < 2 ^ a) : number a xs < 2 ^ (a * xs.length) := by
  induction xs with
  | nil => simp [number]
  | cons x xs ih =>
    have hx := h x List.mem_cons_self
    have htail := ih fun y hy => h y (List.mem_cons_of_mem _ hy)
    have hmul := Nat.mul_le_mul_right (2 ^ (a * xs.length)) (Nat.succ_le_of_lt hx)
    rw [number_cons, List.length_cons, Nat.mul_succ, Nat.add_comm (a * xs.length), pow_add]
    rw [Nat.succ_mul] at hmul
    omega

/-- The words in front are the quotient. -/
theorem number_take {xs : List ℕ} (h : ∀ x ∈ xs, x < 2 ^ a) (k : ℕ) :
    number a (xs.take k) = number a xs / 2 ^ (a * (xs.length - k)) := by
  have hlt : number a (xs.drop k) < 2 ^ (a * (xs.drop k).length) :=
    number_lt fun x hx => h x (List.mem_of_mem_drop hx)
  have happ := number_append (a := a) (xs.take k) (xs.drop k)
  rw [List.take_append_drop, List.length_drop] at happ
  rw [List.length_drop] at hlt
  rw [happ, Nat.add_comm, Nat.add_mul_div_right _ _ (Nat.two_pow_pos _), Nat.div_eq_of_lt hlt, Nat.zero_add]

theorem group_lt (j : ℕ) : group b n x j < 2 ^ b := Nat.mod_lt _ (Nat.two_pow_pos b)

@[simp] theorem groups_length : (groups b n x).length = n / b := by simp [groups]

theorem groups_lt : ∀ v ∈ groups b n x, v < 2 ^ b := by
  intro v hv
  obtain ⟨j, -, rfl⟩ := List.mem_map.mp hv
  exact group_lt j

theorem groups_nil (h : n < b) : groups b n x = [] := by
  rw [groups, Nat.div_eq_of_lt h]
  rfl

theorem groups_cons (hb : 0 < b) (h : b ≤ n) : groups b n x = x / 2 ^ (n - b) % 2 ^ b :: groups b (n - b) x := by
  have hnext : ∀ j, group b n x (j + 1) = group b (n - b) x j := by
    intro j
    rw [group, group, Nat.sub_sub, Nat.succ_mul (j + 1), Nat.add_comm b]
  rw [groups, Nat.div_eq_sub_div hb h, List.range_succ_eq_map, List.map_cons, List.map_map, groups]
  congr 1
  · rw [group, Nat.zero_add, Nat.one_mul]
  · exact List.map_congr_left fun j _ => hnext j

/-- Only the `n` bits of the number count. -/
theorem groups_mod (x : ℕ) : groups b n (x % 2 ^ n) = groups b n x := by
  rw [groups, groups]
  apply List.map_congr_left
  intro j hj
  have hfits : (j + 1) * b ≤ n :=
    (Nat.mul_le_mul_right b (List.mem_range.mp hj)).trans (Nat.div_mul_le_self n b)
  have hsplit : 2 ^ n = 2 ^ (n - (j + 1) * b) * 2 ^ ((j + 1) * b) := by rw [← pow_add, Nat.sub_add_cancel hfits]
  have hdvd : 2 ^ b ∣ 2 ^ ((j + 1) * b) := pow_dvd_pow 2 (Nat.le_mul_of_pos_left b j.succ_pos)
  rw [group, group, hsplit, Nat.mod_mul_right_div_self, Nat.mod_mod_of_dvd _ hdvd]

/-- Groups that are whole before more bits come are the first ones. -/
theorem groups_append (hb : 0 < b) (n : ℕ) (x : ℕ) (hy : y < 2 ^ m) :
    groups b (n + m) (x * 2 ^ m + y) = groups b n x ++ groups b (n % b + m) (x * 2 ^ m + y) := by
  induction n using Nat.strong_induction_on with
  | _ n ih =>
    rcases Nat.lt_or_ge n b with hlt | hge
    · rw [groups_nil hlt, List.nil_append, Nat.mod_eq_of_lt hlt]
    · have hrest := ih (n - b) (by omega)
      have hless : n + m - b = n - b + m := by omega
      have hhead : (x * 2 ^ m + y) / 2 ^ (n - b + m) = x / 2 ^ (n - b) := by
        rw [Nat.add_comm (n - b), pow_add, ← Nat.div_div_eq_div_mul, Nat.add_comm,
          Nat.add_mul_div_right _ _ (Nat.two_pow_pos m), Nat.div_eq_of_lt hy, Nat.zero_add]
      rw [groups_cons hb (by omega : b ≤ n + m), groups_cons hb hge, hless, hhead, hrest, ← Nat.mod_eq_sub_mod hge]
      rfl

/-- The loop takes out the groups of everything that went in. -/
theorem regroup_eq (hb : 0 < b) {acc r : ℕ} (hr : r < b) {xs : List ℕ} (hxs : ∀ x ∈ xs, x < 2 ^ a) :
    regroup a b acc r xs = groups b (r + a * xs.length) (acc * 2 ^ (a * xs.length) + number a xs) := by
  induction xs generalizing acc r with
  | nil =>
    rw [regroup, List.length_nil, Nat.mul_zero, Nat.add_zero, groups_nil hr]
  | cons x xs ih =>
    have htail := fun y hy => hxs y (List.mem_cons_of_mem x hy)
    have hall : acc * 2 ^ (a * (xs.length + 1)) + number a (x :: xs) =
        (acc * 2 ^ a + x) * 2 ^ (a * xs.length) + number a xs := by
      rw [number_cons, Nat.mul_succ, pow_add]
      ring
    have hbits : r + a * (xs.length + 1) = r + a + a * xs.length := by
      rw [Nat.mul_succ]
      omega
    rw [regroup, ih (Nat.mod_lt _ hb) htail, List.length_cons, hall, hbits,
      groups_append hb (r + a) _ (number_lt htail)]

theorem regroup_start (hb : 0 < b) {xs : List ℕ} (hxs : ∀ x ∈ xs, x < 2 ^ a) :
    regroup a b 0 0 xs = groups b (a * xs.length) (number a xs) := by
  rw [regroup_eq hb hb hxs, Nat.zero_mul, Nat.zero_add, Nat.zero_add]

/-- Bits that were taken may be forgotten. -/
theorem regroup_congr (hb : 0 < b) {acc acc' r : ℕ} (hr : r < b) {xs : List ℕ} (hxs : ∀ x ∈ xs, x < 2 ^ a)
    (hacc : acc % 2 ^ r = acc' % 2 ^ r) : regroup a b acc r xs = regroup a b acc' r xs := by
  have hmod : (acc * 2 ^ (a * xs.length) + number a xs) ≡ (acc' * 2 ^ (a * xs.length) + number a xs)
      [MOD 2 ^ (r + a * xs.length)] := by
    rw [pow_add]
    exact (Nat.ModEq.mul_right' _ hacc).add_right _
  rw [regroup_eq hb hr hxs, regroup_eq hb hr hxs, ← groups_mod, hmod, groups_mod]

theorem groups_number (hb : 0 < b) {xs : List ℕ} (hxs : ∀ x ∈ xs, x < 2 ^ b) :
    groups b (b * xs.length) (number b xs) = xs := by
  induction xs with
  | nil => exact groups_nil hb
  | cons x xs ih =>
    have htail := fun y hy => hxs y (List.mem_cons_of_mem x hy)
    have hlt := number_lt htail
    have hlen : b * (xs.length + 1) - b = b * xs.length := by rw [Nat.mul_succ, Nat.add_sub_cancel]
    have hhead : (x * 2 ^ (b * xs.length) + number b xs) / 2 ^ (b * xs.length) = x := by
      rw [Nat.add_comm, Nat.add_mul_div_right _ _ (Nat.two_pow_pos _), Nat.div_eq_of_lt hlt, Nat.zero_add]
    have hrest : (x * 2 ^ (b * xs.length) + number b xs) % 2 ^ (b * xs.length) = number b xs := by
      rw [Nat.add_comm, Nat.add_mul_mod_self_right, Nat.mod_eq_of_lt hlt]
    rw [List.length_cons, groups_cons hb (Nat.le_mul_of_pos_right b (Nat.succ_pos _)), hlen, number_cons, hhead,
      Nat.mod_eq_of_lt (hxs x List.mem_cons_self), ← groups_mod, hrest, ih htail]

theorem number_groups (hb : 0 < b) (k : ℕ) (hx : x < 2 ^ (b * k)) : number b (groups b (b * k) x) = x := by
  induction k generalizing x with
  | zero =>
    rw [Nat.mul_zero, groups_nil hb]
    rw [Nat.mul_zero, pow_zero] at hx
    exact (Nat.lt_one_iff.mp hx).symm
  | succ k ih =>
    have hlen : b * (k + 1) - b = b * k := by rw [Nat.mul_succ, Nat.add_sub_cancel]
    have hhead : x / 2 ^ (b * k) < 2 ^ b := by
      rw [Nat.div_lt_iff_lt_mul (Nat.two_pow_pos _), ← pow_add, Nat.add_comm, ← Nat.mul_succ]
      exact hx
    have hrest := @ih (x % 2 ^ (b * k)) (Nat.mod_lt _ (Nat.two_pow_pos _))
    rw [groups_mod] at hrest
    rw [groups_cons hb (Nat.le_mul_of_pos_right b k.succ_pos), hlen, number_cons, groups_length,
      Nat.mul_div_cancel_left _ hb, Nat.mod_eq_of_lt hhead, hrest, Nat.div_add_mod']

/-- The first groups are those of the number in front. -/
theorem groups_take (k : ℕ) (hk : k * b ≤ n) (hb : 0 < b) :
    (groups b n x).take k = groups b (k * b) (x / 2 ^ (n - k * b)) := by
  have hcount : k ≤ n / b := (Nat.le_div_iff_mul_le hb).mpr hk
  rw [groups, groups, ← List.map_take, List.take_range, Nat.min_eq_left hcount, Nat.mul_div_cancel _ hb]
  apply List.map_congr_left
  intro j hj
  have hfits : (j + 1) * b ≤ k * b := Nat.mul_le_mul_right b (List.mem_range.mp hj)
  have hexp : n - k * b + (k * b - (j + 1) * b) = n - (j + 1) * b := by omega
  rw [group, group, Nat.div_div_eq_div_mul, ← pow_add, hexp]

end Regroup
