import BaitNet.Wire

/-!
# Numbers and addresses as text

What the C library's `%u`, `%x`, `atoi`, `strrchr`, `inet_ntop` and `inet_pton` do with
byte strings, and that the readers undo the writers.
-/
namespace Text

open Wire

def isDigit (d : UInt8) : Bool := 48 ≤ d ∧ d ≤ 57

def digit (n : Nat) : UInt8 := .ofNat (48 + n)

theorem digit_toNat {n : Nat} (h : n < 10) : (digit n).toNat = 48 + n := by
  rw [digit, UInt8.toNat_ofNat', Nat.mod_eq_of_lt (by omega)]

theorem isDigit_digit {n : Nat} (h : n < 10) : isDigit (digit n) = true := by
  have hn := digit_toNat h
  have h48 : (48 : UInt8).toNat = 48 := rfl
  have h57 : (57 : UInt8).toNat = 57 := rfl
  rw [isDigit, decide_eq_true_eq, UInt8.le_iff_toNat_le, UInt8.le_iff_toNat_le, hn, h48, h57]
  omega

/-- The digits of `n` in base 10 that `fuel` divisions find, the last one at the end. -/
def digits : Nat → Nat → Bytes
  | 0, _ => []
  | fuel + 1, n => if n < 10 then [digit n] else digits fuel (n / 10) ++ [digit (n % 10)]

/-- `%u`. -/
def decimal (n : Nat) : Bytes := digits (n + 1) n

/-- A property of the decimal text, by removing its last digit. -/
theorem digits_ind {P : Nat → Bytes → Prop} (hone : ∀ n, n < 10 → P n [digit n])
    (hmore : ∀ n b, 10 ≤ n → P (n / 10) b → P n (b ++ [digit (n % 10)])) {fuel n : Nat} (h : n < fuel) :
    P n (digits fuel n) := by
  induction fuel generalizing n with
  | zero => omega
  | succ fuel ih =>
    rw [digits]
    split
    · rename_i hn
      exact hone n hn
    · rename_i hn
      exact hmore n _ (by omega) (ih (by omega))

theorem decimal_ind {P : Nat → Bytes → Prop} (hone : ∀ n, n < 10 → P n [digit n])
    (hmore : ∀ n b, 10 ≤ n → P (n / 10) b → P n (b ++ [digit (n % 10)])) (n : Nat) : P n (decimal n) :=
  digits_ind hone hmore (Nat.lt_succ_self n)

theorem decimal_digits (n : Nat) : ∀ d ∈ decimal n, isDigit d = true := by
  refine decimal_ind (P := fun _ b => ∀ d ∈ b, isDigit d = true) ?_ ?_ n
  · intro n hn d hd
    rw [List.mem_singleton.mp hd]
    exact isDigit_digit hn
  · intro n b _ ih d hd
    cases List.mem_append.mp hd with
    | inl hb => exact ih d hb
    | inr hlast =>
      rw [List.mem_singleton.mp hlast]
      exact isDigit_digit (Nat.mod_lt n (by decide))

theorem decimal_ne_nil (n : Nat) : decimal n ≠ [] := by
  refine decimal_ind (P := fun _ b => b ≠ []) ?_ ?_ n
  · exact fun n _ => List.cons_ne_nil _ _
  · exact fun n b _ _ => List.append_ne_nil_of_right_ne_nil b (List.cons_ne_nil _ _)

/-- What is neither NUL, a colon, a point nor a minus sign. -/
theorem isDigit_ne {d : UInt8} (h : isDigit d = true) : d ≠ 0 ∧ d ≠ 58 ∧ d ≠ 46 ∧ d ≠ 45 := by
  refine ⟨?_, ?_, ?_, ?_⟩
  all_goals
    rintro rfl
    cases h

def value (b : Bytes) : Nat := b.foldl (fun v d => 10 * v + (d.toNat - 48)) 0

theorem value_append (b r : Bytes) :
    value (b ++ r) = r.foldl (fun v d => 10 * v + (d.toNat - 48)) (value b) := List.foldl_append

theorem value_decimal (n : Nat) : value (decimal n) = n := by
  refine decimal_ind (P := fun n b => value b = n) ?_ ?_ n
  · intro n hn
    have h := digit_toNat hn
    simp only [value, List.foldl_cons, List.foldl_nil, h]
    omega
  · intro n b hn ih
    have h := digit_toNat (Nat.mod_lt n (show 0 < 10 by decide))
    rw [value_append, ih]
    simp only [List.foldl_cons, List.foldl_nil, h]
    omega

def isSpace (d : UInt8) : Bool := d = 32 ∨ (9 ≤ d ∧ d ≤ 13)

/-- The magnitude that `strtol` reads, which saturates. -/
def magnitude (b : Bytes) : Nat := min (value (b.takeWhile isDigit)) (2 ^ 63 - 1)

/-- Behind a minus sign it saturates one further. -/
def negMagnitude (b : Bytes) : Nat := min (value (b.takeWhile isDigit)) (2 ^ 63)

/-- `atoi`, before its result is cut to the bits of an `int`. -/
def atoi (s : Bytes) : Int :=
  match s.dropWhile isSpace with
  | 45 :: r => -(negMagnitude r : Int)
  | 43 :: r => magnitude r
  | r => magnitude r

theorem takeWhile_isDigit {b r : Bytes} (hb : ∀ d ∈ b, isDigit d = true) :
    (b ++ r).takeWhile isDigit = b ++ r.takeWhile isDigit := List.takeWhile_append_of_pos hb

/-- A number at the front of a text is read with the digits behind it. -/
theorem atoi_decimal (n : Nat) (r : Bytes) :
    atoi (decimal n ++ r) = (min (value (decimal n ++ r.takeWhile isDigit)) (2 ^ 63 - 1) : Nat) := by
  have hdig := decimal_digits n
  have hne := decimal_ne_nil n
  revert hdig hne
  generalize decimal n = b
  intro hdig hne
  cases b with
  | nil => exact absurd rfl hne
  | cons d b =>
    have hd := hdig d List.mem_cons_self
    have hspace : isSpace d = false := by
      revert hd
      simp only [isDigit, isSpace, decide_eq_true_eq, decide_eq_false_iff_not, UInt8.le_iff_toNat_le,
        ← UInt8.toNat_inj]
      intro hd
      have h32 : (32 : UInt8).toNat = 32 := rfl
      have h9 : (9 : UInt8).toNat = 9 := rfl
      have h13 : (13 : UInt8).toNat = 13 := rfl
      have h48 : (48 : UInt8).toNat = 48 := rfl
      omega
    have hdrop : (d :: b ++ r).dropWhile isSpace = d :: b ++ r := by
      rw [List.cons_append, List.dropWhile_cons_of_neg (by simp [hspace])]
    have h45 : d ≠ 45 := (isDigit_ne hd).2.2.2
    have h43 : d ≠ 43 := by
      rintro rfl
      cases hd
    rw [atoi, hdrop]
    rw [← takeWhile_isDigit hdig, ← magnitude]
    split
    · rename_i heq
      exact absurd (List.cons.inj heq).1 h45
    · rename_i heq
      exact absurd (List.cons.inj heq).1 h43
    · rfl

/-- The string at the front of a buffer; `none` when nothing in the buffer ends it. -/
def cstr (b : Bytes) : Option Bytes := if 0 ∈ b then some (b.takeWhile (· ≠ 0)) else none

theorem cstr_append {s : Bytes} (hs : 0 ∉ s) (r : Bytes) : cstr (s ++ r) = (cstr r).map (s ++ ·) := by
  have hall : ∀ x ∈ s, decide (x ≠ 0) = true := by
    intro x hx
    exact decide_eq_true fun h => hs (h ▸ hx)
  by_cases hr : (0 : UInt8) ∈ r
  · rw [cstr, if_pos (List.mem_append_right s hr), cstr, if_pos hr, List.takeWhile_append_of_pos hall]
    rfl
  · have hno : (0 : UInt8) ∉ s ++ r := fun h => (List.mem_append.mp h).elim hs hr
    rw [cstr, if_neg hno, cstr, if_neg hr]
    rfl

/-- `strchr` and `memchr`: what stands in front of the first `x` and behind it. -/
def splitFirst (x : UInt8) (s : Bytes) : Option (Bytes × Bytes) :=
  match s.dropWhile (· ≠ x) with
  | [] => none
  | _ :: r => some (s.takeWhile (· ≠ x), r)

theorem splitFirst_append {x : UInt8} {a : Bytes} (h : x ∉ a) (b : Bytes) :
    splitFirst x (a ++ x :: b) = some (a, b) := by
  have hall : ∀ y ∈ a, decide (y ≠ x) = true := fun y hy => decide_eq_true fun heq => h (heq ▸ hy)
  have hx : ¬ decide (x ≠ x) = true := by simp
  rw [splitFirst, List.dropWhile_append_of_pos hall, List.takeWhile_append_of_pos hall,
    List.dropWhile_cons_of_neg (by exact hx), List.takeWhile_cons_of_neg (by exact hx), List.append_nil]

theorem splitFirst_none {x : UInt8} {s : Bytes} (h : x ∉ s) : splitFirst x s = none := by
  have hall : ∀ y ∈ s, decide (y ≠ x) = true := fun y hy => decide_eq_true fun heq => h (heq ▸ hy)
  rw [splitFirst, List.dropWhile_eq_nil_iff.mpr hall]

/-- `strrchr`: what stands in front of the last `x` and behind it. -/
def splitLast (x : UInt8) : Bytes → Option (Bytes × Bytes)
  | [] => none
  | y :: s =>
    match splitLast x s with
    | some (a, b) => some (y :: a, b)
    | none => if y = x then some ([], s) else none

theorem splitLast_none {x : UInt8} {s : Bytes} (h : x ∉ s) : splitLast x s = none := by
  induction s with
  | nil => rfl
  | cons y s ih =>
    rw [List.mem_cons, not_or] at h
    rw [splitLast, ih h.2]
    exact if_neg (Ne.symm h.1)

theorem splitLast_append {x : UInt8} (a : Bytes) {b : Bytes} (h : x ∉ b) :
    splitLast x (a ++ x :: b) = some (a, b) := by
  induction a with
  | nil =>
    rw [List.nil_append, splitLast, splitLast_none h]
    exact if_pos rfl
  | cons y a ih => rw [List.cons_append, splitLast, ih]

/-- Another `x` behind the first one is found instead. -/
theorem splitLast_later {x : UInt8} (a : Bytes) {b : Bytes} (h : x ∈ b) :
    ∃ d r, splitLast x (a ++ x :: b) = some (a ++ x :: d, r) := by
  have hb : ∃ d r, splitLast x b = some (d, r) := by
    induction b with
    | nil => cases h
    | cons y b ih =>
      rw [splitLast]
      cases hs : splitLast x b with
      | some p => exact ⟨_, _, rfl⟩
      | none =>
        cases List.mem_cons.mp h with
        | inl heq => exact ⟨_, _, if_pos heq.symm⟩
        | inr hmem =>
          obtain ⟨d, r, hdr⟩ := ih hmem
          rw [hs] at hdr
          cases hdr
  obtain ⟨d, r, hdr⟩ := hb
  refine ⟨d, r, ?_⟩
  induction a with
  | nil => rw [List.nil_append, splitLast, hdr, List.nil_append]
  | cons y a ih => rw [List.cons_append, splitLast, ih, List.cons_append]

def octet (ip : Arr 4) (i : Nat) : Nat := (byteAt ip.val i).toNat

/-- `inet_ntop(AF_INET)` and `inet_ntoa`. -/
def inetNtop4 (ip : Arr 4) : Bytes :=
  decimal (octet ip 0) ++ 46 :: (decimal (octet ip 1) ++ 46 :: (decimal (octet ip 2) ++ 46 ::
    decimal (octet ip 3)))

/-- The scan of `inet_pton(AF_INET)`: the octets behind a point and the one being read. -/
def pton4Go : List Nat → Option Nat → Bytes → Option (List Nat)
  | octets, cur, [] =>
    match cur with
    | some v => if octets.length = 3 then some (octets ++ [v]) else none
    | none => none
  | octets, cur, ch :: s =>
    if isDigit ch then
      let d := ch.toNat - 48
      match cur with
      | some v =>
        if v = 0 then none
        else if 255 < 10 * v + d then none
        else pton4Go octets (some (10 * v + d)) s
      | none => if 4 ≤ octets.length then none else pton4Go octets (some d) s
    else
      match cur with
      | some v => if ch = 46 ∧ octets.length < 3 then pton4Go (octets ++ [v]) none s else none
      | none => none

def inetPton4 (s : Bytes) : Option (Arr 4) :=
  (pton4Go [] none s).map fun octets => pad 4 (octets.map UInt8.ofNat)

/-- An octet as `inet_ntop` writes it is read whole. -/
theorem pton4Go_decimal {octets : List Nat} (ho : octets.length < 4) {n : Nat} (hn : n ≤ 255) (r : Bytes) :
    pton4Go octets none (decimal n ++ r) = pton4Go octets (some n) r := by
  have key : ∀ n, n ≤ 255 → ∀ r, pton4Go octets none (decimal n ++ r) = pton4Go octets (some n) r := by
    intro n
    refine decimal_ind (P := fun n b => n ≤ 255 → ∀ r, pton4Go octets none (b ++ r) =
      pton4Go octets (some n) r) ?_ ?_ n
    · intro n hn _ r
      have hval := digit_toNat hn
      simp only [List.singleton_append, pton4Go, isDigit_digit hn, if_true, if_neg (Nat.not_le.mpr ho), hval,
        Nat.add_sub_cancel_left]
    · intro n b hn ih hle r
      have hlt := Nat.mod_lt n (show 0 < 10 by decide)
      have hval := digit_toNat hlt
      have hpos : ¬ n / 10 = 0 := by omega
      have hsum : 10 * (n / 10) + n % 10 = n := Nat.div_add_mod n 10
      rw [List.append_assoc, ih (by omega), List.singleton_append]
      simp only [pton4Go, isDigit_digit hlt, if_true, if_neg hpos, hval, Nat.add_sub_cancel_left, hsum,
        if_neg (Nat.not_lt.mpr hle)]
  exact key n hn r

theorem pton4Go_point {octets : List Nat} (ho : octets.length < 3) (v : Nat) (s : Bytes) :
    pton4Go octets (some v) (46 :: s) = pton4Go (octets ++ [v]) none s := by
  have hdot : isDigit 46 = false := by decide
  simp only [pton4Go, hdot, Bool.false_eq_true, if_false, true_and, if_pos ho]

/-- The four octets of an array, back in place. -/
theorem pad_octets (ip : Arr 4) :
    pad 4 ([octet ip 0, octet ip 1, octet ip 2, octet ip 3].map UInt8.ofNat) = ip := by
  obtain ⟨b, hb⟩ := ip
  obtain ⟨b0, b1, b2, b3, rfl⟩ : ∃ b0 b1 b2 b3, b = [b0, b1, b2, b3] := by
    cases b with
    | nil => cases hb
    | cons b0 b =>
      cases b with
      | nil => cases hb
      | cons b1 b =>
        cases b with
        | nil => cases hb
        | cons b2 b =>
          cases b with
          | nil => cases hb
          | cons b3 b =>
            cases b with
            | nil => exact ⟨b0, b1, b2, b3, rfl⟩
            | cons b4 b => cases hb
  apply Subtype.ext
  simp [octet, pad, byteAt]

theorem octet_le (ip : Arr 4) (i : Nat) : octet ip i ≤ 255 := by
  have h := (byteAt ip.val i).toNat_lt
  rw [octet]
  omega

/-- `inet_pton` reads what `inet_ntop` wrote. -/
theorem inetPton4_ntop4 (ip : Arr 4) : inetPton4 (inetNtop4 ip) = some ip := by
  have hlast := @pton4Go_decimal [octet ip 0, octet ip 1, octet ip 2] (by simp) _ (octet_le ip 3) []
  rw [List.append_nil] at hlast
  have hscan : pton4Go [] none (inetNtop4 ip) =
      some [octet ip 0, octet ip 1, octet ip 2, octet ip 3] := by
    rw [inetNtop4, pton4Go_decimal (by simp) (octet_le ip 0), pton4Go_point (by simp),
      pton4Go_decimal (by simp) (octet_le ip 1), pton4Go_point (by simp),
      pton4Go_decimal (by simp) (octet_le ip 2), pton4Go_point (by simp)]
    exact hlast.trans rfl
  rw [inetPton4, hscan, Option.map_some, pad_octets]

theorem inetNtop4_chars (ip : Arr 4) : ∀ d ∈ inetNtop4 ip, isDigit d = true ∨ d = 46 := by
  intro d hd
  simp only [inetNtop4, List.mem_append, List.mem_cons] at hd
  rcases hd with h | rfl | h | rfl | h | rfl | h
  all_goals first
    | exact .inl (decimal_digits _ d h)
    | exact .inr rfl

/-- A character that `inet_pton` refuses anywhere. -/
theorem pton4Go_bad {x : UInt8} (hx : isDigit x = false) (hdot : x ≠ 46) {s : Bytes} (h : x ∈ s)
    (octets : List Nat) (cur : Option Nat) : pton4Go octets cur s = none := by
  induction s generalizing octets cur with
  | nil => cases h
  | cons ch s ih =>
    unfold pton4Go
    cases List.mem_cons.mp h with
    | inl heq =>
      subst heq
      rw [hx, if_neg Bool.false_ne_true]
      cases cur with
      | none => rfl
      | some v => exact if_neg fun hv => hdot hv.1
    | inr hmem =>
      have hrest := ih hmem
      cases cur with
      | none => simp only [hrest, ite_self]
      | some v => simp only [hrest, ite_self]

theorem inetPton4_bad {x : UInt8} (hx : isDigit x = false) (hdot : x ≠ 46) {s : Bytes} (h : x ∈ s) :
    inetPton4 s = none := by
  rw [inetPton4, pton4Go_bad hx hdot h, Option.map_none]

def hexDigit (n : Nat) : UInt8 := if n < 10 then .ofNat (48 + n) else .ofNat (87 + n)

/-- `%x` of a 16-bit word. -/
def hex (n : Nat) : Bytes :=
  if n < 16 then [hexDigit n]
  else if n < 256 then [hexDigit (n / 16), hexDigit (n % 16)]
  else if n < 4096 then [hexDigit (n / 256), hexDigit (n / 16 % 16), hexDigit (n % 16)]
  else [hexDigit (n / 4096), hexDigit (n / 256 % 16), hexDigit (n / 16 % 16), hexDigit (n % 16)]

/-- Where a run of zero words starts and how long it is. -/
structure ZeroRun where
  base : Nat
  len : Nat

/-- The first longest run of zero words from word `i` on; `cur` is the run being counted. -/
def zeroRun : List Nat → Nat → Option ZeroRun → Option ZeroRun → Option ZeroRun
  | [], _, cur, best => longer cur best
  | w :: ws, i, cur, best =>
    if w = 0 then
      zeroRun ws (i + 1) (some (match cur with
        | none => ⟨i, 1⟩
        | some r => ⟨r.base, r.len + 1⟩)) best
    else zeroRun ws (i + 1) none (longer cur best)
where
  longer (cur best : Option ZeroRun) : Option ZeroRun :=
    match cur, best with
    | some c, some b => if b.len < c.len then some c else some b
    | some c, none => some c
    | none, b => b

/-- The words from `i` on, without those of the run `best`. -/
def words6 (ip : Arr 16) (words : List Nat) (best : Option ZeroRun) : Nat → Nat → Bytes
  | 0, _ => []
  | fuel + 1, i =>
    let word := words.getD i 0
    let inRun := best.any fun r => r.base ≤ i ∧ i < r.base + r.len
    let sep : Bytes := if i ≠ 0 then [58] else []
    if inRun then
      (if best.any fun r => i = r.base then [58] else []) ++ words6 ip words best fuel (i + 1)
    else if i = 6 ∧ (best.any fun r => r.base = 0 ∧ (r.len = 6 ∨ r.len = 5 ∧ words.getD 5 0 = 0xffff)) then
      sep ++ inetNtop4 (arr ip.val 12 4)
    else sep ++ hex word ++ words6 ip words best fuel (i + 1)

/-- `inet_ntop(AF_INET6)`. -/
def inetNtop6 (ip : Arr 16) : Bytes :=
  let words := (List.range 8).map fun i => (get16 ip.val (2 * i)).toNat
  let best := (zeroRun words 0 none none).filter fun r => 2 ≤ r.len
  words6 ip words best 8 0 ++ if best.any fun r => r.base + r.len = 8 then [58] else []

/-- `IN6_IS_ADDR_V4MAPPED`. -/
def v4Mapped (ip : Arr 16) : Bool := slice ip.val 0 12 = [0, 0, 0, 0, 0, 0, 0, 0, 0, 0, 0xff, 0xff]

/-- A mapped address is printed with its IPv4 part in decimal. -/
theorem inetNtop6_mapped {ip : Arr 16} (h : v4Mapped ip = true) :
    inetNtop6 ip = ascii "::ffff:" ++ inetNtop4 (arr ip.val 12 4) := by
  have hs : slice ip.val 0 12 = [0, 0, 0, 0, 0, 0, 0, 0, 0, 0, 0xff, 0xff] := of_decide_eq_true h
  have hbyte : ∀ i < 12, byteAt ip.val i = byteAt [0, 0, 0, 0, 0, 0, 0, 0, 0, 0, 0xff, 0xff] i := by
    intro i hi
    have hb := byteAt_slice ip.val 0 12 i hi
    rw [hs, Nat.zero_add] at hb
    exact hb.symm
  have hwords : (List.range 8).map (fun i => (get16 ip.val (2 * i)).toNat) =
      [0, 0, 0, 0, 0, 0xffff, (get16 ip.val 12).toNat, (get16 ip.val 14).toNat] := by
    simp only [List.range_succ, List.range_zero, List.nil_append, List.cons_append, List.map_cons, List.map_nil,
      get16_eq, hbyte, Nat.reduceMul, Nat.reduceAdd, Nat.reduceLT]
    rfl
  have hrun : ∀ a b : Nat, (zeroRun [0, 0, 0, 0, 0, 0xffff, a, b] 0 none none).filter (fun r => 2 ≤ r.len) =
      some ⟨0, 5⟩ := by
    intro a b
    by_cases ha : a = 0
    · by_cases hb : b = 0
      · simp [zeroRun, zeroRun.longer, ha, hb]
      · simp [zeroRun, zeroRun.longer, ha, hb]
    · by_cases hb : b = 0
      · simp [zeroRun, zeroRun.longer, ha, hb]
      · simp [zeroRun, zeroRun.longer, ha, hb]
  have hhex : hex 0xffff = [102, 102, 102, 102] := by decide
  have hascii : ascii "::ffff:" = [58, 58, 102, 102, 102, 102, 58] := by decide
  simp only [inetNtop6, hwords, hrun]
  simp [words6, hhex, hascii]

end Text
