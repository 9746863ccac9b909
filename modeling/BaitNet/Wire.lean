import Mathlib

/-!
# Octet buffers

Byte strings, fixed-length byte arrays and the big-endian accessors of a wire
format. A buffer is read at an offset; past its end a reader sees zeros, so
every read is total and a message shorter than its layout needs no special
case. Nothing here mentions a particular protocol.
-/
namespace Wire

abbrev Bytes := List UInt8

/-- A byte array whose length is part of its type. -/
abbrev Arr (n : Nat) := {b : Bytes // b.length = n}

@[simp] theorem Arr.length (a : Arr n) : a.val.length = n := a.property

def Arr.zero (n : Nat) : Arr n := ⟨List.replicate n 0, by simp⟩

/-- `n` times the byte `x`. -/
def Arr.fill (n : Nat) (x : UInt8) : Arr n := ⟨List.replicate n x, List.length_replicate⟩

instance (x : Bytes) (xs : List Bytes) : Decidable (x ∈ xs) := inferInstance
instance (x : Arr n) (xs : List (Arr n)) : Decidable (x ∈ xs) := inferInstance

/-- `b` cut or zero-filled to exactly `n` bytes. -/
def pad (n : Nat) (b : Bytes) : Arr n := ⟨b.takeD n 0, List.takeD_length n b 0⟩

theorem takeD_eq_append {b : Bytes} {n : Nat} (h : b.length ≤ n) :
    b.takeD n 0 = b ++ List.replicate (n - b.length) 0 := by
  induction b generalizing n with
  | nil => exact List.takeD_nil n 0
  | cons x b ih =>
    cases n with
    | zero => cases h
    | succ n =>
      rw [List.takeD_succ, List.length_cons, Nat.succ_sub_succ]
      exact congrArg (x :: ·) (ih (Nat.le_of_succ_le_succ h))

/-- The bytes of a string constant, without its terminator. -/
def ascii (s : String) : Bytes := s.toList.map fun ch => .ofNat ch.toNat

/-- Subtraction of `size_t` values, which wraps below zero. -/
def sizeSub (x k : Nat) : Nat := if k ≤ x then x - k else x + 2 ^ 64 - k

theorem sizeSub_of_le {x k : Nat} (h : k ≤ x) : sizeSub x k = x - k := if_pos h

def byteAt (b : Bytes) (i : Nat) : UInt8 := b.getD i 0

/-- The `n` bytes of `b` from offset `i` on. -/
def slice (b : Bytes) (i n : Nat) : Bytes := (b.drop i).takeD n 0

@[simp] theorem slice_length (b : Bytes) (i n : Nat) : (slice b i n).length = n := by
  simp [slice]

def arr (b : Bytes) (i n : Nat) : Arr n := ⟨slice b i n, slice_length b i n⟩

@[simp] theorem arr_val (b : Bytes) (i n : Nat) : (arr b i n).val = slice b i n := rfl

/-! The readers split on the buffer first, so that a read from an unknown buffer
does not unfold into arithmetic. -/

def get16 (b : Bytes) (i : Nat) : UInt16 :=
  match b with
  | [] => 0
  | b@(_ :: _) => .ofNat ((byteAt b i).toNat * 256 + (byteAt b (i + 1)).toNat)

def get32 (b : Bytes) (i : Nat) : UInt32 :=
  match b with
  | [] => 0
  | b@(_ :: _) =>
    .ofNat ((byteAt b i).toNat * 2 ^ 24 + (byteAt b (i + 1)).toNat * 2 ^ 16 +
      (byteAt b (i + 2)).toNat * 2 ^ 8 + (byteAt b (i + 3)).toNat)

def get64 (b : Bytes) (i : Nat) : UInt64 :=
  match b with
  | [] => 0
  | b@(_ :: _) => .ofNat ((get32 b i).toNat * 2 ^ 32 + (get32 b (i + 4)).toNat)

/-- A 40-bit address in the low bits of a 64-bit word. -/
def get40 (b : Bytes) (i : Nat) : UInt64 :=
  match b with
  | [] => 0
  | b@(_ :: _) => .ofNat ((byteAt b i).toNat * 2 ^ 32 + (get32 b (i + 1)).toNat)

theorem get16_eq (b : Bytes) (i : Nat) :
    get16 b i = .ofNat ((byteAt b i).toNat * 256 + (byteAt b (i + 1)).toNat) := by
  cases b with
  | nil => simp [get16, byteAt]
  | cons x b => rw [get16]

theorem get32_eq (b : Bytes) (i : Nat) :
    get32 b i = .ofNat ((byteAt b i).toNat * 2 ^ 24 + (byteAt b (i + 1)).toNat * 2 ^ 16 +
      (byteAt b (i + 2)).toNat * 2 ^ 8 + (byteAt b (i + 3)).toNat) := by
  cases b with
  | nil => simp [get32, byteAt]
  | cons x b => rw [get32]

theorem get64_eq (b : Bytes) (i : Nat) :
    get64 b i = .ofNat ((get32 b i).toNat * 2 ^ 32 + (get32 b (i + 4)).toNat) := by
  cases b with
  | nil => simp [get64, byteAt, get32_eq]
  | cons x b => rw [get64]

theorem get40_eq (b : Bytes) (i : Nat) :
    get40 b i = .ofNat ((byteAt b i).toNat * 2 ^ 32 + (get32 b (i + 1)).toNat) := by
  cases b with
  | nil => simp [get40, byteAt, get32_eq]
  | cons x b => rw [get40]

def put16 (v : UInt16) : Bytes := [.ofNat (v.toNat / 256), .ofNat v.toNat]

def put32 (v : UInt32) : Bytes :=
  [.ofNat (v.toNat / 2 ^ 24), .ofNat (v.toNat / 2 ^ 16), .ofNat (v.toNat / 2 ^ 8), .ofNat v.toNat]

def put64 (v : UInt64) : Bytes := put32 (.ofNat (v.toNat / 2 ^ 32)) ++ put32 (.ofNat v.toNat)

def put40 (v : UInt64) : Bytes := .ofNat (v.toNat / 2 ^ 32) :: put32 (.ofNat v.toNat)

@[simp] theorem put16_length (v : UInt16) : (put16 v).length = 2 := rfl
@[simp] theorem put32_length (v : UInt32) : (put32 v).length = 4 := rfl
@[simp] theorem put64_length (v : UInt64) : (put64 v).length = 8 := rfl
@[simp] theorem put40_length (v : UInt64) : (put40 v).length = 5 := rfl

/-- A left fold that splits on each intermediate word, so that a checksum of a
long buffer evaluates in constant depth. -/
def foldWord (f : UInt32 → UInt8 → UInt32) : UInt32 → Bytes → UInt32
  | w, [] => w
  | w, x :: xs =>
    match (f w x).toNat with
    | 0 => foldWord f 0 xs
    | n + 1 => foldWord f (.ofNat (n + 1)) xs

theorem foldWord_eq (f : UInt32 → UInt8 → UInt32) (w : UInt32) (b : Bytes) :
    foldWord f w b = b.foldl f w := by
  induction b generalizing w with
  | nil => rfl
  | cons x xs ih =>
    rw [foldWord, List.foldl_cons]
    cases hn : (f w x).toNat with
    | zero =>
      have hw : f w x = 0 := UInt32.toNat.inj hn
      rw [hw]
      exact ih 0
    | succ n =>
      have hw : UInt32.ofNat (n + 1) = f w x := by rw [← hn, UInt32.ofNat_toNat]
      rw [← hw]
      exact ih _

@[simp] theorem byteAt_cons_zero (x : UInt8) (b : Bytes) : byteAt (x :: b) 0 = x := rfl
@[simp] theorem byteAt_cons_succ (x : UInt8) (b : Bytes) (i : Nat) :
    byteAt (x :: b) (i + 1) = byteAt b i := rfl

theorem byteAt_append_left (p b : Bytes) (i : Nat) (h : i < p.length) :
    byteAt (p ++ b) i = byteAt p i := by
  simp only [byteAt, List.getD_eq_getElem?_getD, List.getElem?_append_left h]

theorem byteAt_append_right (p b : Bytes) (i : Nat) (h : p.length ≤ i) :
    byteAt (p ++ b) i = byteAt b (i - p.length) := by
  simp only [byteAt, List.getD_eq_getElem?_getD, List.getElem?_append_right h]

theorem byteAt_drop (b : Bytes) (k i : Nat) : byteAt (b.drop k) i = byteAt b (k + i) := by
  simp only [byteAt, List.getD_eq_getElem?_getD, List.getElem?_drop]

theorem get16_append_right (p b : Bytes) (i : Nat) (h : p.length ≤ i) :
    get16 (p ++ b) i = get16 b (i - p.length) := by
  simp only [get16_eq, byteAt_append_right p b _ h, byteAt_append_right p b (i + 1) (by omega),
    Nat.sub_add_comm h]

theorem get32_append_right (p b : Bytes) (i : Nat) (h : p.length ≤ i) :
    get32 (p ++ b) i = get32 b (i - p.length) := by
  simp only [get32_eq, byteAt_append_right p b _ h, byteAt_append_right p b (i + 1) (by omega),
    byteAt_append_right p b (i + 2) (by omega), byteAt_append_right p b (i + 3) (by omega),
    Nat.sub_add_comm h]

theorem get64_append_right (p b : Bytes) (i : Nat) (h : p.length ≤ i) :
    get64 (p ++ b) i = get64 b (i - p.length) := by
  simp only [get64_eq, get32_append_right p b _ h, get32_append_right p b (i + 4) (by omega),
    Nat.sub_add_comm h]

theorem get40_append_right (p b : Bytes) (i : Nat) (h : p.length ≤ i) :
    get40 (p ++ b) i = get40 b (i - p.length) := by
  simp only [get40_eq, byteAt_append_right p b _ h, get32_append_right p b (i + 1) (by omega),
    Nat.sub_add_comm h]

theorem slice_append_right (p b : Bytes) (i n : Nat) (h : p.length ≤ i) :
    slice (p ++ b) i n = slice b (i - p.length) n := by
  simp only [slice, List.drop_append, List.drop_eq_nil_of_le h, List.nil_append]

/-- Reading exactly a leading field gives the field back. -/
theorem slice_append_exact (p b : Bytes) : slice (p ++ b) 0 p.length = p := by
  rw [slice, List.drop_zero, List.takeD_eq_take _ (by simp), List.take_left]

theorem slice_zero_append (p b : Bytes) (n : Nat) (h : n ≤ p.length) :
    slice (p ++ b) 0 n = p.take n := by
  rw [slice, List.drop_zero, List.takeD_eq_take _ (by simp; omega), List.take_append_of_le_length h]

theorem arr_append_right (p b : Bytes) (i n : Nat) (h : p.length ≤ i) :
    arr (p ++ b) i n = arr b (i - p.length) n :=
  Subtype.ext (slice_append_right p b i n h)

theorem arr_append_exact (a : Arr n) (b : Bytes) : arr (a.val ++ b) 0 n = a := by
  apply Subtype.ext
  have h := slice_append_exact a.val b
  rwa [a.length] at h

theorem arr_self (a : Arr n) : arr a.val 0 n = a := by
  have h := arr_append_exact a []
  rwa [List.append_nil] at h

theorem byteAt_takeD (b : Bytes) (n j : Nat) (h : j < n) : byteAt (b.takeD n 0) j = byteAt b j := by
  induction n generalizing b j with
  | zero => omega
  | succ n ih =>
    cases b with
    | nil =>
      cases j with
      | zero => rfl
      | succ j => exact (ih [] j (by omega)).trans rfl
    | cons x b =>
      cases j with
      | zero => rfl
      | succ j => exact ih b j (by omega)

/-- Reading inside a slice reads the buffer it was cut from. -/
theorem byteAt_slice (b : Bytes) (i n j : Nat) (h : j < n) :
    byteAt (slice b i n) j = byteAt b (i + j) := by
  rw [slice, byteAt_takeD _ _ _ h, byteAt_drop]

/-- What stands in front of the cut is still there. -/
theorem byteAt_take (b : Bytes) (n j : Nat) (h : j < n) : byteAt (b.take n) j = byteAt b j := by
  simp only [byteAt, List.getD_eq_getElem?_getD, List.getElem?_take_of_lt h]

theorem get40_take (b : Bytes) (n i : Nat) (h : i + 5 ≤ n) : get40 (b.take n) i = get40 b i := by
  simp only [get40_eq, get32_eq]
  rw [byteAt_take _ _ _ (by omega), byteAt_take _ _ _ (by omega), byteAt_take _ _ _ (by omega),
    byteAt_take _ _ _ (by omega), byteAt_take _ _ _ (by omega)]

theorem slice_succ (b : Bytes) (i n : Nat) : slice b i (n + 1) = byteAt b i :: slice b (i + 1) n := by
  rw [slice, List.takeD_succ, slice, ← List.tail_drop]
  simp [byteAt, List.getD_eq_getElem?_getD, List.head?_drop]

theorem slice_zero (b : Bytes) (i : Nat) : slice b i 0 = [] := rfl

theorem get64_slice (b : Bytes) (i n j : Nat) (h : j + 8 ≤ n) :
    get64 (slice b i n) j = get64 b (i + j) := by
  simp only [get64_eq, get32_eq]
  rw [byteAt_slice _ _ _ _ (by omega), byteAt_slice _ _ _ _ (by omega), byteAt_slice _ _ _ _ (by omega),
    byteAt_slice _ _ _ _ (by omega), byteAt_slice _ _ _ _ (by omega), byteAt_slice _ _ _ _ (by omega),
    byteAt_slice _ _ _ _ (by omega), byteAt_slice _ _ _ _ (by omega)]
  rfl

theorem get16_put16 (v : UInt16) (b : Bytes) : get16 (put16 v ++ b) 0 = v := by
  apply UInt16.toNat.inj
  have := v.toNat_lt
  simp [get16_eq, put16]
  omega

theorem get32_put32 (v : UInt32) (b : Bytes) : get32 (put32 v ++ b) 0 = v := by
  apply UInt32.toNat.inj
  have := v.toNat_lt
  simp only [get32_eq, put32, List.cons_append, List.nil_append, zero_add, byteAt,
    List.getD_cons_succ, List.getD_cons_zero, UInt8.toNat_ofNat', UInt32.toNat_ofNat']
  omega

theorem get64_put64 (v : UInt64) (b : Bytes) : get64 (put64 v ++ b) 0 = v := by
  apply UInt64.toNat.inj
  have := v.toNat_lt
  rw [get64_eq, put64, List.append_assoc, get32_put32, get32_append_right _ _ _ (by simp)]
  simp only [put32_length, zero_add, Nat.sub_self, get32_put32, UInt32.toNat_ofNat',
    UInt64.toNat_ofNat']
  omega

theorem get40_put40 (v : UInt64) (b : Bytes) (h : v.toNat < 2 ^ 40) :
    get40 (put40 v ++ b) 0 = v := by
  apply UInt64.toNat.inj
  have hd : get32 (put40 v ++ b) (0 + 1) = .ofNat v.toNat := by
    have h1 := get32_append_right [UInt8.ofNat (v.toNat / 2 ^ 32)] (put32 (.ofNat v.toNat) ++ b) 1
      (by simp)
    rw [List.length_singleton, Nat.sub_self, get32_put32] at h1
    exact h1
  rw [get40_eq, hd]
  simp only [put40, List.cons_append, byteAt_cons_zero, UInt8.toNat_ofNat', UInt32.toNat_ofNat',
    UInt64.toNat_ofNat']
  omega

/-- The value of five bytes. -/
theorem get40_toNat (b : Bytes) (i : Nat) :
    (get40 b i).toNat = (byteAt b i).toNat * 2 ^ 32 + ((byteAt b (i + 1)).toNat * 2 ^ 24 +
      (byteAt b (i + 2)).toNat * 2 ^ 16 + (byteAt b (i + 3)).toNat * 2 ^ 8 + (byteAt b (i + 4)).toNat) := by
  have h0 := (byteAt b i).toNat_lt
  have h1 := (byteAt b (i + 1)).toNat_lt
  have h2 := (byteAt b (i + 2)).toNat_lt
  have h3 := (byteAt b (i + 3)).toNat_lt
  have h4 := (byteAt b (i + 4)).toNat_lt
  rw [get40_eq, get32_eq, UInt64.toNat_ofNat', UInt32.toNat_ofNat']
  simp only [Nat.add_assoc, Nat.reduceAdd]
  omega

theorem get40_lt (b : Bytes) (i : Nat) : (get40 b i).toNat < 2 ^ 40 := by
  have h0 := (byteAt b i).toNat_lt
  have h1 := (byteAt b (i + 1)).toNat_lt
  have h2 := (byteAt b (i + 2)).toNat_lt
  have h3 := (byteAt b (i + 3)).toNat_lt
  have h4 := (byteAt b (i + 4)).toNat_lt
  rw [get40_toNat]
  omega

/-- Writing back what was read. -/
theorem put40_get40 (b : Bytes) (i : Nat) : put40 (get40 b i) = slice b i 5 := by
  have hword := get40_toNat b i
  have h0 := (byteAt b i).toNat_lt
  have h1 := (byteAt b (i + 1)).toNat_lt
  have h2 := (byteAt b (i + 2)).toNat_lt
  have h3 := (byteAt b (i + 3)).toNat_lt
  have h4 := (byteAt b (i + 4)).toNat_lt
  simp only [slice_succ, slice_zero, put40, put32, Nat.add_assoc, Nat.reduceAdd, List.cons.injEq, and_true,
    ← UInt8.toNat_inj, UInt8.toNat_ofNat', UInt32.toNat_ofNat']
  refine ⟨?_, ?_, ?_, ?_, ?_⟩
  all_goals omega

end Wire
