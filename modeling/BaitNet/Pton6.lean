import BaitNet.Text

/-!
# IPv6 addresses read from text

`inet_pton(AF_INET6)`: groups of up to four hexadecimal digits, one `::`, and an IPv4 address in
place of the last two groups. A text of which another one is the front up to a colon never names the
same address unless it ends in zeros.
-/
namespace Text

open Wire

def pton6Digit (ch : UInt8) : Option Nat :=
  if 48 ≤ ch ∧ ch ≤ 57 then some (ch.toNat - 48)
  else if 65 ≤ ch ∧ ch ≤ 70 then some (ch.toNat - 55)
  else if 97 ≤ ch ∧ ch ≤ 102 then some (ch.toNat - 87)
  else none

/-- The bytes written so far, where `::` was among them, and the group being read. -/
structure Pton6 where
  tp : Bytes
  colonp : Option Nat
  xdigits : Nat
  val : Nat

def group6 (val : Nat) : Bytes := [.ofNat (val / 256), .ofNat val]

/-- The scan of `src`; `curtok` is the text from the last colon on. -/
def pton6Go : Pton6 → Bytes → Bytes → Option Pton6
  | t, _, [] => some t
  | t, curtok, ch :: src =>
    match pton6Digit ch with
    | some digit =>
      if t.xdigits = 4 then none
      else if 0xffff < 16 * t.val + digit then none
      else pton6Go { t with val := 16 * t.val + digit, xdigits := t.xdigits + 1 } curtok src
    | none =>
      if ch = 58 then
        if t.xdigits = 0 then
          if t.colonp.isSome then none else pton6Go { t with colonp := some t.tp.length } src src
        else if src = [] then none
        else if 16 < t.tp.length + 2 then none
        else pton6Go ⟨t.tp ++ group6 t.val, t.colonp, 0, 0⟩ src src
      else if ch = 46 ∧ t.tp.length + 4 ≤ 16 then
        match inetPton4 curtok with
        | some ip => some ⟨t.tp ++ ip.val, t.colonp, 0, t.val⟩
        | none => none
      else none

/-- The last group is written and `::` is filled with zeros. -/
def pton6Finish (t : Pton6) : Option Bytes :=
  if 0 < t.xdigits ∧ 16 < t.tp.length + 2 then none
  else
    let tp := if 0 < t.xdigits then t.tp ++ group6 t.val else t.tp
    match t.colonp with
    | some c => if tp.length = 16 then none else some (tp.take c ++ List.replicate (16 - tp.length) 0 ++ tp.drop c)
    | none => if tp.length = 16 then some tp else none

/-- `inet_pton(AF_INET6)`. -/
def inetPton6 (s : Bytes) : Option Bytes :=
  match s with
  | [] => none
  | 58 :: 58 :: src => (pton6Go ⟨[], none, 0, 0⟩ (58 :: src) (58 :: src)).bind pton6Finish
  | 58 :: _ => none
  | src => (pton6Go ⟨[], none, 0, 0⟩ src src).bind pton6Finish

/-- How many digits an octet can still take. -/
def room4 (cur : Option Nat) : Nat :=
  match cur with
  | none => 3
  | some v => if v = 0 then 0 else if v < 10 then 2 else if v < 100 then 1 else 0

theorem pton4Go_length {octets r : List Nat} {cur : Option Nat} {s : Bytes} (h : pton4Go octets cur s = some r) :
    s.length ≤ room4 cur + 4 * (3 - octets.length) := by
  induction s generalizing octets cur with
  | nil => exact Nat.zero_le _
  | cons ch s ih =>
    rw [pton4Go.eq_def] at h
    dsimp only at h
    rw [List.length_cons]
    by_cases hdigit : isDigit ch = true
    · have hd : ch.toNat - 48 < 10 := by
        have hle := (of_decide_eq_true hdigit).2
        rw [UInt8.le_iff_toNat_le, show (57 : UInt8).toNat = 57 from rfl] at hle
        omega
      rw [if_pos hdigit] at h
      cases cur with
      | none =>
        dsimp only at h
        split at h
        · cases h
        · have hlen := ih h
          have hroom : room4 (some (ch.toNat - 48)) ≤ 2 := by
            rw [room4]
            split
            · omega
            · exact le_rfl
          have hthree : room4 none = 3 := rfl
          omega
      | some v =>
        dsimp only at h
        split at h
        · cases h
        split at h
        · cases h
        · rename_i hv hfits
          have hlen := ih h
          simp only [room4] at hlen ⊢
          rw [if_neg hv]
          rw [if_neg (by omega), if_neg (by omega)] at hlen
          split at hlen
          · split
            · omega
            · omega
          · split
            · omega
            · split
              · omega
              · omega
    · rw [if_neg hdigit] at h
      cases cur with
      | none => cases h
      | some v =>
        dsimp only at h
        split at h
        · rename_i hdot
          have hlen := ih h
          rw [List.length_append, List.length_singleton] at hlen
          simp only [room4] at hlen
          omega
        · cases h

theorem inetPton4_length {s : Bytes} {ip : Arr 4} (h : inetPton4 s = some ip) : s.length ≤ 15 := by
  obtain ⟨octets, hscan, -⟩ := Option.map_eq_some_iff.mp h
  exact pton4Go_length hscan

/-- How many characters the scan can still take. -/
def room6 (t : Pton6) : Nat :=
  4 - t.xdigits + 5 * (8 - t.tp.length / 2) + (if t.colonp.isSome then 0 else 1) + 15

theorem pton6Go_length {t t' : Pton6} {curtok s : Bytes} (hsuf : s <:+ curtok) (hx : t.xdigits ≤ 4)
    (h : pton6Go t curtok s = some t') : s.length ≤ room6 t := by
  induction s generalizing t curtok with
  | nil => exact Nat.zero_le _
  | cons ch src ih =>
    have htail : src <:+ curtok := (List.suffix_cons ch src).trans hsuf
    rw [pton6Go.eq_def] at h
    dsimp only at h
    rw [List.length_cons]
    cases hdigit : pton6Digit ch with
    | some digit =>
      rw [hdigit] at h
      dsimp only at h
      split at h
      · cases h
      split at h
      · cases h
      · rename_i hfour _
        have hlen := ih htail (by simp only; omega) h
        simp only [room6] at hlen ⊢
        omega
    | none =>
      rw [hdigit] at h
      dsimp only at h
      split at h
      · split at h
        · split at h
          · cases h
          · rename_i hzero hnone
            have hlen := ih List.suffix_rfl (show ({ t with colonp := some t.tp.length } : Pton6).xdigits ≤ 4 from hx) h
            simp only [room6, Option.isSome_some, if_true, if_neg hnone] at hlen ⊢
            omega
        · split at h
          · cases h
          split at h
          · cases h
          · rename_i hfits
            have hlen := ih List.suffix_rfl (Nat.zero_le 4) h
            simp only [room6, List.length_append, group6, List.length_cons, List.length_nil] at hlen ⊢
            omega
      · split at h
        · split at h
          · rename_i ip hip
            have hcur := inetPton4_length hip
            have hle := hsuf.length_le
            rw [List.length_cons] at hle
            simp only [room6]
            omega
          · cases h
        · cases h

/-- What is accepted is short. -/
theorem inetPton6_length {s ip : Bytes} (h : inetPton6 s = some ip) : s.length ≤ 61 := by
  have hgo : ∀ {src : Bytes}, (pton6Go ⟨[], none, 0, 0⟩ src src).bind pton6Finish = some ip → src.length ≤ 60 := by
    intro src hsrc
    obtain ⟨t', hscan, -⟩ := Option.bind_eq_some_iff.mp hsrc
    exact pton6Go_length List.suffix_rfl (Nat.zero_le 4) hscan
  rw [inetPton6.eq_def] at h
  split at h
  · cases h
  · have hlen := hgo h
    rw [List.length_cons]
    omega
  · cases h
  · exact (hgo h).trans (by decide)

theorem pton6Go_bad {x : UInt8} (hx : pton6Digit x = none) (hcolon : x ≠ 58) (hdot : x ≠ 46) {t : Pton6}
    {curtok s : Bytes} (hmem : x ∈ s) (hsuf : s <:+ curtok) : pton6Go t curtok s = none := by
  have hdigit : isDigit x = false := by
    rw [← Bool.not_eq_true]
    intro h
    rw [pton6Digit, if_pos (of_decide_eq_true h)] at hx
    cases hx
  induction s generalizing t curtok with
  | nil => cases hmem
  | cons ch src ih =>
    have htail : src <:+ curtok := (List.suffix_cons ch src).trans hsuf
    rw [pton6Go.eq_def]
    dsimp only
    cases hch : pton6Digit ch with
    | some digit =>
      have hmem' : x ∈ src := by
        rcases List.mem_cons.mp hmem with rfl | hmem
        · rw [hx] at hch
          cases hch
        · exact hmem
      dsimp only
      rw [ih hmem' htail, ite_self, ite_self]
    | none =>
      dsimp only
      by_cases h58 : ch = 58
      · have hmem' : x ∈ src := (List.mem_cons.mp hmem).resolve_left fun h => hcolon (h.trans h58)
        rw [if_pos h58, ih hmem' List.suffix_rfl, ih hmem' List.suffix_rfl, ite_self, ite_self, ite_self, ite_self]
      · rw [if_neg h58]
        split
        · rw [inetPton4_bad hdigit hdot (hsuf.subset hmem)]
        · rfl

/-- What is accepted has digits, colons and points only. -/
theorem inetPton6_chars {s ip : Bytes} (h : inetPton6 s = some ip) {x : UInt8} (hx : x ∈ s) :
    x = 58 ∨ x = 46 ∨ (pton6Digit x).isSome = true := by
  by_contra hno
  obtain ⟨hcolon, hdot, hdigit⟩ : x ≠ 58 ∧ x ≠ 46 ∧ pton6Digit x = none := by
    simpa only [not_or, Bool.not_eq_true, Option.isSome_eq_false_iff, Option.isNone_iff_eq_none] using hno
  have hgo : ∀ {src : Bytes}, x ∈ src → (pton6Go ⟨[], none, 0, 0⟩ src src).bind pton6Finish ≠ some ip := by
    intro src hmem
    rw [pton6Go_bad hdigit hcolon hdot hmem List.suffix_rfl]
    exact fun h => nomatch h
  rw [inetPton6.eq_def] at h
  split at h
  · cases hx
  · exact hgo ((List.mem_cons.mp hx).resolve_left hcolon) h
  · cases h
  · exact hgo hx h

/-- Without a colon at most one group is written, or an IPv4 address. -/
theorem pton6Go_colonless {t t' : Pton6} {curtok s : Bytes} (hs : 58 ∉ s) (ht : t.tp = [] ∧ t.colonp = none)
    (h : pton6Go t curtok s = some t') : t'.tp.length ≤ 4 ∧ t'.colonp = none := by
  induction s generalizing t with
  | nil =>
    cases h
    rw [ht.1]
    exact ⟨Nat.zero_le 4, ht.2⟩
  | cons ch src ih =>
    rw [List.mem_cons, not_or] at hs
    rw [pton6Go.eq_def] at h
    dsimp only at h
    split at h
    · split at h
      · cases h
      split at h
      · cases h
      · refine ih hs.2 ?_ h
        exact ht
    · rw [if_neg (Ne.symm hs.1)] at h
      split at h
      · split at h
        · cases h
          rw [ht.1]
          simp [ht.2]
        · cases h
      · cases h

theorem inetPton6_colon {s ip : Bytes} (h : inetPton6 s = some ip) : 58 ∈ s := by
  by_contra hs
  have hgo : (pton6Go ⟨[], none, 0, 0⟩ s s).bind pton6Finish = some ip := by
    rw [inetPton6.eq_def] at h
    split at h
    · cases h
    · exact absurd List.mem_cons_self hs
    · cases h
    · exact h
  obtain ⟨t', hscan, hfinish⟩ := Option.bind_eq_some_iff.mp hgo
  obtain ⟨hshort, hnone⟩ := pton6Go_colonless hs ⟨rfl, rfl⟩ hscan
  have hsix : (if 0 < t'.xdigits then t'.tp ++ group6 t'.val else t'.tp).length ≤ 6 := by
    split
    · rw [List.length_append, group6]
      simp only [List.length_cons, List.length_nil]
      omega
    · omega
  rw [pton6Finish, hnone] at hfinish
  split at hfinish
  · cases hfinish
  dsimp only at hfinish
  generalize (if 0 < t'.xdigits then t'.tp ++ group6 t'.val else t'.tp) = tp at hfinish hsix
  rw [if_neg (by omega)] at hfinish
  cases hfinish

/-- An IPv6 address is no IPv4 address. -/
theorem inetPton4_of_pton6 {s ip : Bytes} (h : inetPton6 s = some ip) : inetPton4 s = none :=
  inetPton4_bad (by decide) (by decide) (inetPton6_colon h)

/-- The sum of the bytes tells addresses apart. -/
def byteSum (b : Bytes) : Nat := (b.map UInt8.toNat).sum

theorem byteSum_append (b r : Bytes) : byteSum (b ++ r) = byteSum b + byteSum r := by
  rw [byteSum, List.map_append, List.sum_append]
  rfl

theorem byteSum_zeros (n : Nat) : byteSum (List.replicate n 0) = 0 := by simp [byteSum]

theorem byteSum_finish {t : Pton6} {ip : Bytes} (h : pton6Finish t = some ip) :
    byteSum ip = byteSum (if 0 < t.xdigits then t.tp ++ group6 t.val else t.tp) := by
  rw [pton6Finish] at h
  split at h
  · cases h
  dsimp only at h
  generalize (if 0 < t.xdigits then t.tp ++ group6 t.val else t.tp) = tp at h ⊢
  split at h
  · rename_i c hc
    split at h
    · cases h
    · cases h
      have hsplit := byteSum_append (tp.take c) (tp.drop c)
      rw [List.take_append_drop] at hsplit
      rw [byteSum_append, byteSum_append, byteSum_zeros, Nat.add_zero, hsplit]
  · split at h
    · cases h
      rfl
    · cases h

/-- A text that goes on with a colon is scanned as far as its front alone. -/
theorem pton6Go_front {t t₁ t₂ : Pton6} {curtok curtok' p q : Bytes} (hsuf : p ++ 58 :: q <:+ curtok)
    (hall : pton6Go t curtok (p ++ 58 :: q) = some t₂) (hp : pton6Go t curtok' p = some t₁) :
    ∃ tok, pton6Go t₁ tok (58 :: q) = some t₂ := by
  induction p generalizing t curtok curtok' with
  | nil =>
    cases hp
    exact ⟨curtok, hall⟩
  | cons ch p ih =>
    have htail : p ++ 58 :: q <:+ curtok := (List.suffix_cons ch _).trans hsuf
    rw [List.cons_append, pton6Go.eq_def] at hall
    rw [pton6Go.eq_def] at hp
    dsimp only at hall hp
    cases hch : pton6Digit ch with
    | some digit =>
      rw [hch] at hall hp
      dsimp only at hall hp
      split at hp
      · cases hp
      split at hp
      · cases hp
      · rename_i hfour hfits
        rw [if_neg hfour, if_neg hfits] at hall
        exact ih htail hall hp
    | none =>
      rw [hch] at hall hp
      dsimp only at hall hp
      by_cases hcolon : ch = 58
      · rw [if_pos hcolon] at hall hp
        split at hp
        · rename_i hzero
          rw [if_pos hzero] at hall
          split at hp
          · cases hp
          · rename_i hnone
            rw [if_neg hnone] at hall
            exact ih List.suffix_rfl hall hp
        · rename_i hzero
          rw [if_neg hzero, if_neg (by simp)] at hall
          split at hp
          · cases hp
          split at hp
          · cases hp
          · rename_i hfits
            rw [if_neg hfits] at hall
            exact ih List.suffix_rfl hall hp
      · -- a point: the rest would have to be an IPv4 address, and it has a colon
        rw [if_neg hcolon] at hall
        have hmem : (58 : UInt8) ∈ curtok := htail.subset (by simp)
        split at hall
        · rw [inetPton4_bad (by decide) (by decide) hmem] at hall
          cases hall
        · cases hall

/-- The number at the front of a text goes on from `v`. -/
def runFrom (v : Nat) (s : Bytes) : Nat := (s.takeWhile isDigit).foldl (fun v d => 10 * v + (d.toNat - 48)) v

theorem runFrom_digit {ch : UInt8} (h : isDigit ch = true) (v : Nat) (s : Bytes) :
    runFrom v (ch :: s) = runFrom (10 * v + (ch.toNat - 48)) s := by
  rw [runFrom, List.takeWhile_cons_of_pos h, List.foldl_cons, runFrom]

theorem runFrom_stop {ch : UInt8} (h : ¬ isDigit ch = true) (v : Nat) (s : Bytes) : runFrom v (ch :: s) = v := by
  rw [runFrom, List.takeWhile_cons_of_neg h, List.foldl_nil]

theorem pton4Go_run {octets r : List Nat} {v : Nat} {s : Bytes} (hv : v ≤ 255)
    (h : pton4Go octets (some v) s = some r) : runFrom v s ≤ 255 := by
  induction s generalizing v with
  | nil => exact hv
  | cons ch s ih =>
    by_cases hdigit : isDigit ch = true
    · rw [pton4Go.eq_def] at h
      dsimp only at h
      rw [if_pos hdigit] at h
      split at h
      · cases h
      split at h
      · cases h
      · rename_i hfits
        rw [runFrom_digit hdigit]
        exact ih (Nat.not_lt.mp hfits) h
    · rw [runFrom_stop hdigit]
      exact hv

/-- An IPv4 address starts with a number up to 255. -/
theorem inetPton4_run {s : Bytes} {ip : Arr 4} (h : inetPton4 s = some ip) : runFrom 0 s ≤ 255 := by
  obtain ⟨octets, hscan, -⟩ := Option.map_eq_some_iff.mp h
  cases s with
  | nil => exact Nat.zero_le _
  | cons ch s =>
    by_cases hdigit : isDigit ch = true
    · have hd : ch.toNat - 48 ≤ 255 := by
        have hlt := ch.toNat_lt
        omega
      rw [pton4Go.eq_def] at hscan
      dsimp only at hscan
      rw [if_pos hdigit] at hscan
      split at hscan
      · cases hscan
      · rw [runFrom_digit hdigit, Nat.mul_zero, Nat.zero_add]
        exact pton4Go_run hd hscan
    · rw [runFrom_stop hdigit]
      exact Nat.zero_le _

theorem pton6Digit_decimal {ch : UInt8} (h : isDigit ch = true) : pton6Digit ch = some (ch.toNat - 48) :=
  if_pos (of_decide_eq_true h)

/-- The last token of a text: digits of one group, or an IPv4 address. -/
theorem pton6Go_last {t t₂ : Pton6} {tok q : Bytes} (hq : 58 ∉ q) (hval : t.val ≤ 0xffff)
    (h : pton6Go t tok q = some t₂) :
    (t₂.tp = t.tp ∧ t₂.colonp = t.colonp ∧ t₂.xdigits = t.xdigits + q.length ∧ t₂.val ≤ 0xffff ∧
        (t.val ≠ 0 → t₂.val ≠ 0) ∧ ∀ v, (v ≠ 0 → t.val ≠ 0) → runFrom v q ≠ 0 → t₂.val ≠ 0) ∨
      t.tp.length + 4 ≤ 16 ∧ ∃ ip, inetPton4 tok = some ip := by
  induction q generalizing t with
  | nil =>
    cases h
    exact .inl ⟨rfl, rfl, rfl, hval, id, fun v hv hrun => hv hrun⟩
  | cons ch q ih =>
    rw [List.mem_cons, not_or] at hq
    rw [pton6Go.eq_def] at h
    dsimp only at h
    cases hch : pton6Digit ch with
    | some digit =>
      rw [hch] at h
      dsimp only at h
      split at h
      · cases h
      split at h
      · cases h
      · rename_i hfits
        have hnext := @ih { t with val := 16 * t.val + digit, xdigits := t.xdigits + 1 } hq.2
          (Nat.not_lt.mp hfits) h
        rcases hnext with ⟨htp, hcolonp, hx, hle, hkeep, hrun⟩ | hip
        · refine .inl ⟨htp, hcolonp, ?_, hle, fun hne => hkeep ?_, fun v hv hne => ?_⟩
          · rw [hx, List.length_cons]
            simp only
            omega
          · simp only
            omega
          · by_cases hdigit : isDigit ch = true
            · rw [pton6Digit_decimal hdigit] at hch
              obtain rfl := Option.some.inj hch
              rw [runFrom_digit hdigit] at hne
              refine hrun _ (fun hsum => ?_) hne
              simp only
              by_cases hv0 : v = 0
              · omega
              · have hne' := hv hv0
                omega
            · rw [runFrom_stop hdigit] at hne
              have hne' := hv hne
              exact hkeep (by simp only; omega)
        · exact .inr hip
    | none =>
      rw [hch] at h
      dsimp only at h
      rw [if_neg (Ne.symm hq.1)] at h
      split at h
      · rename_i hdot
        split at h
        · rename_i ip hip
          exact .inr ⟨hdot.2, ip, hip⟩
        · cases h
      · cases h

theorem byteSum_group6 {val : Nat} (hval : val ≤ 0xffff) (h : val ≠ 0) : byteSum (group6 val) ≠ 0 := by
  simp only [byteSum, group6, List.map_cons, List.map_nil, List.sum_cons, List.sum_nil, UInt8.toNat_ofNat']
  omega

theorem pton6Go_val {t t' : Pton6} {tok s : Bytes} (hval : t.val ≤ 0xffff) (h : pton6Go t tok s = some t') :
    t'.val ≤ 0xffff := by
  induction s generalizing t tok with
  | nil =>
    cases h
    exact hval
  | cons ch src ih =>
    rw [pton6Go.eq_def] at h
    dsimp only at h
    split at h
    · split at h
      · cases h
      split at h
      · cases h
      · rename_i hfits
        exact ih (Nat.not_lt.mp hfits) h
    · split at h
      · split at h
        · split at h
          · cases h
          · refine ih ?_ h
            exact hval
        · split at h
          · cases h
          split at h
          · cases h
          · exact ih (Nat.zero_le _) h
      · split at h
        · split at h
          · cases h
            exact hval
          · cases h
        · cases h

/-- If the front of an address up to its last colon is the same address, then the number behind the colon is an octet
at most. -/
theorem pton6_front {t₁ t₂ : Pton6} {tok q ip : Bytes} (hq : 58 ∉ q) (hval : t₁.val ≤ 0xffff)
    (h : pton6Go t₁ tok (58 :: q) = some t₂) (h₁ : pton6Finish t₁ = some ip) (h₂ : pton6Finish t₂ = some ip) :
    runFrom 0 q ≤ 255 := by
  have hcolon : pton6Digit 58 = none := by decide
  rw [pton6Go.eq_def] at h
  dsimp only at h
  rw [hcolon] at h
  dsimp only at h
  rw [if_pos rfl] at h
  split at h
  · -- the front has written all its bytes, so nothing more has room
    rename_i hzero
    split at h
    · cases h
    · rename_i hnone
      have hnopos : ¬ 0 < t₁.xdigits := by omega
      have hfull : t₁.tp.length = 16 := by
        rw [pton6Finish, if_neg fun hno => hnopos hno.1] at h₁
        cases hc : t₁.colonp with
        | some c => exact absurd (by rw [hc]; rfl) hnone
        | none =>
          rw [hc] at h₁
          dsimp only at h₁
          rw [if_neg hnopos] at h₁
          by_contra hno
          rw [if_neg hno] at h₁
          cases h₁
      exfalso
      have hlast := @pton6Go_last { t₁ with colonp := some t₁.tp.length } t₂ q q hq hval h
      simp only [hfull] at hlast
      rcases hlast with ⟨htp, hcolonp, -⟩ | ⟨hroom, -⟩
      · rw [pton6Finish, htp, hcolonp, hfull] at h₂
        split at h₂
        · cases h₂
        · rename_i hx
          have hnopos₂ : ¬ 0 < t₂.xdigits := fun hpos => hx ⟨hpos, by decide⟩
          dsimp only at h₂
          rw [if_neg hnopos₂, if_pos hfull] at h₂
          cases h₂
      · omega
  · rename_i hpos
    split at h
    · cases h
    split at h
    · cases h
    · rename_i hne hroom
      have hlast := @pton6Go_last ⟨t₁.tp ++ group6 t₁.val, t₁.colonp, 0, 0⟩ t₂ q q hq (Nat.zero_le _) h
      rcases hlast with ⟨htp, -, hx, hle, -, hrun⟩ | ⟨-, ip4, hip4⟩
      · have hsum₁ := byteSum_finish h₁
        have hsum₂ := byteSum_finish h₂
        have hxpos : 0 < t₂.xdigits := by
          rw [hx]
          have hlen := List.length_pos_of_ne_nil hne
          simp only
          omega
        rw [if_pos (Nat.pos_of_ne_zero hpos)] at hsum₁
        rw [if_pos hxpos, htp, byteSum_append, ← hsum₁] at hsum₂
        by_contra hbig
        have hval₂ := hrun 0 (fun hno => absurd rfl hno) (by omega)
        have hsum := byteSum_group6 hle hval₂
        omega
      · exact inetPton4_run hip4

theorem inetPton6_plain {ch : UInt8} (h : ch ≠ 58) (s : Bytes) :
    inetPton6 (ch :: s) = (pton6Go ⟨[], none, 0, 0⟩ (ch :: s) (ch :: s)).bind pton6Finish := by
  rw [inetPton6.eq_def]
  split
  · rename_i heq
    cases heq
  · rename_i heq
    exact absurd (List.cons.inj heq).1 h
  · rename_i heq
    exact absurd (List.cons.inj heq).1 h
  · rfl

theorem inetPton6_colon_other {ch : UInt8} (h : ch ≠ 58) (s : Bytes) : inetPton6 (58 :: ch :: s) = none := by
  rw [inetPton6.eq_def]
  split
  · rfl
  · rename_i heq
    exact absurd (List.cons.inj (List.cons.inj heq).2).1 h
  · rfl
  · rename_i hno
    exact absurd rfl (hno _)

/-- The same of the whole texts. -/
theorem inetPton6_front {p q ip : Bytes} (hq : 58 ∉ q) (hall : inetPton6 (p ++ 58 :: q) = some ip)
    (hfront : inetPton6 p = some ip) : runFrom 0 q ≤ 255 := by
  have hgo : ∀ src, (pton6Go ⟨[], none, 0, 0⟩ (src ++ 58 :: q) (src ++ 58 :: q)).bind pton6Finish = some ip →
      (pton6Go ⟨[], none, 0, 0⟩ src src).bind pton6Finish = some ip → runFrom 0 q ≤ 255 := by
    intro src hall hfront
    obtain ⟨t₂, hscan₂, h₂⟩ := Option.bind_eq_some_iff.mp hall
    obtain ⟨t₁, hscan₁, h₁⟩ := Option.bind_eq_some_iff.mp hfront
    obtain ⟨tok, htok⟩ := pton6Go_front List.suffix_rfl hscan₂ hscan₁
    exact pton6_front hq (pton6Go_val (Nat.zero_le _) hscan₁) htok h₁ h₂
  match p with
  | [] => cases hfront
  | 58 :: [] => cases hfront
  | 58 :: ch :: p =>
    by_cases hch : ch = 58
    · subst hch
      exact hgo (58 :: p) hall hfront
    · rw [inetPton6_colon_other hch] at hfront
      cases hfront
  | ch :: p =>
    by_cases hch : ch = 58
    · subst hch
      cases p with
      | nil => cases hfront
      | cons ch p =>
        by_cases hch : ch = 58
        · subst hch
          exact hgo (58 :: p) hall hfront
        · rw [inetPton6_colon_other hch] at hfront
          cases hfront
    · rw [List.cons_append, inetPton6_plain hch] at hall
      rw [inetPton6_plain hch] at hfront
      exact hgo (ch :: p) hall hfront

end Text
