import Mathlib

/-!
# Fixed-size tables

A table is an array with a count of its entries in use. Three loops occur over such
tables: the longest match among prefix ranges, the removal of an entry by moving the last
one into its place, and the expiry loop made of such removals.
-/
namespace Tables

variable {α : Type*}

/-- The scan from `best` on: a later entry wins only with a longer prefix. -/
def longestFrom (len : α → Nat) (fits : α → Bool) : Option α → List α → Option α
  | best, [] => best
  | best, x :: xs =>
    longestFrom len fits (if fits x ∧ best.all (fun b => len b < len x) then some x else best) xs

def longest (len : α → Nat) (fits : α → Bool) (l : List α) : Option α := longestFrom len fits none l

/-- The result is the entry started from or one that fits. -/
theorem longestFrom_mem {len : α → Nat} {fits : α → Bool} {l : List α} {best : Option α} {x : α}
    (h : longestFrom len fits best l = some x) : best = some x ∨ x ∈ l ∧ fits x = true := by
  induction l generalizing best with
  | nil => exact .inl h
  | cons y ys ih =>
    rw [longestFrom] at h
    cases ih h with
    | inl hbest =>
      split at hbest
      · rename_i hy
        obtain rfl := Option.some.inj hbest
        exact .inr ⟨List.mem_cons_self, hy.1⟩
      · exact .inl hbest
    | inr hmem => exact .inr ⟨List.mem_cons_of_mem y hmem.1, hmem.2⟩

theorem longest_mem {len : α → Nat} {fits : α → Bool} {l : List α} {x : α}
    (h : longest len fits l = some x) : x ∈ l ∧ fits x = true := by
  cases longestFrom_mem h with
  | inl hnone => cases hnone
  | inr hmem => exact hmem

theorem longestFrom_some {len : α → Nat} {fits : α → Bool} (b : α) (l : List α) :
    ∃ x, longestFrom len fits (some b) l = some x ∧ len b ≤ len x := by
  induction l generalizing b with
  | nil => exact ⟨b, rfl, le_rfl⟩
  | cons y ys ih =>
    rw [longestFrom]
    split
    · rename_i hy
      obtain ⟨x, hx, hle⟩ := ih y
      have hlt : len b < len y := by simpa using hy.2
      exact ⟨x, hx, by omega⟩
    · exact ih b

/-- Nothing that fits has a longer prefix. -/
theorem longestFrom_max {len : α → Nat} {fits : α → Bool} {l : List α} {best : Option α} {y : α}
    (hy : y ∈ l) (hfit : fits y = true) :
    ∃ x, longestFrom len fits best l = some x ∧ len y ≤ len x := by
  induction l generalizing best with
  | nil => cases hy
  | cons z zs ih =>
    rw [longestFrom]
    cases List.mem_cons.mp hy with
    | inl heq =>
      subst heq
      cases best with
      | none =>
        rw [if_pos ⟨hfit, rfl⟩]
        exact longestFrom_some y zs
      | some b =>
        by_cases hlt : len b < len y
        · rw [if_pos ⟨hfit, by simpa using hlt⟩]
          exact longestFrom_some y zs
        · rw [if_neg (fun h => hlt (by simpa using h.2))]
          obtain ⟨x, hx, hle⟩ := @longestFrom_some _ len fits b zs
          exact ⟨x, hx, by omega⟩
    | inr hmem => exact ih hmem

theorem longest_max {len : α → Nat} {fits : α → Bool} {l : List α} {x y : α}
    (h : longest len fits l = some x) (hy : y ∈ l) (hfit : fits y = true) : len y ≤ len x := by
  obtain ⟨z, hz, hle⟩ := @longestFrom_max _ len _ _ none _ hy hfit
  rw [longest, hz] at h
  obtain rfl := Option.some.inj h
  exact hle

theorem longest_eq_none {len : α → Nat} {fits : α → Bool} {l : List α} :
    longest len fits l = none ↔ ∀ y ∈ l, fits y = false := by
  constructor
  · intro h y hy
    by_contra hfit
    obtain ⟨x, hx, -⟩ := @longestFrom_max _ len _ _ none _ hy (Bool.not_eq_false _ ▸ hfit)
    rw [longest, hx] at h
    cases h
  · intro h
    cases hl : longest len fits l with
    | none => rfl
    | some x =>
      obtain ⟨hmem, hfit⟩ := longest_mem hl
      rw [h x hmem] at hfit
      cases hfit

/-- The result is the entry started from, or the first of the longest that fit. -/
theorem longestFrom_split {len : α → Nat} {fits : α → Bool} {x : α} {best : Option α} {l : List α}
    (h : longestFrom len fits best l = some x) :
    (best = some x ∧ ∀ y ∈ l, fits y = true → len y ≤ len x) ∨
      (∀ b ∈ best, len b < len x) ∧ ∃ before after, l = before ++ x :: after ∧ fits x = true ∧
        (∀ y ∈ before, fits y = true → len y < len x) ∧ ∀ y ∈ after, fits y = true → len y ≤ len x := by
  induction l generalizing best with
  | nil => exact .inl ⟨h, fun y hy => nomatch hy⟩
  | cons z zs ih =>
    rw [longestFrom] at h
    by_cases hz : fits z = true ∧ (best.all fun b => decide (len b < len z)) = true
    · rw [if_pos hz] at h
      have hbest : ∀ b ∈ best, len b < len z := by
        intro b hb
        have hall := hz.2
        rw [Option.mem_def.mp hb] at hall
        exact of_decide_eq_true hall
      cases ih h with
      | inl hstart =>
        obtain rfl := Option.some.inj hstart.1
        exact .inr ⟨hbest, [], zs, rfl, hz.1, fun y hy => (nomatch hy), hstart.2⟩
      | inr hlater =>
        obtain ⟨hlt, before, after, rfl, hfit, hbefore, hafter⟩ := hlater
        have hzx := hlt z rfl
        refine .inr ⟨fun b hb => (hbest b hb).trans hzx, z :: before, after, rfl, hfit, ?_, hafter⟩
        intro y hy hy'
        cases List.mem_cons.mp hy with
        | inl heq => rwa [heq]
        | inr hmem => exact hbefore y hmem hy'
    · rw [if_neg hz] at h
      have hle : fits z = true → ∃ b ∈ best, len z ≤ len b := by
        intro hfit
        cases best with
        | none => exact absurd ⟨hfit, rfl⟩ hz
        | some b => exact ⟨b, rfl, by simpa [hfit] using hz⟩
      cases ih h with
      | inl hstart =>
        refine .inl ⟨hstart.1, ?_⟩
        intro y hy hfit
        cases List.mem_cons.mp hy with
        | inl heq =>
          obtain ⟨b, hb, hzb⟩ := hle (heq ▸ hfit)
          rw [hstart.1, Option.mem_some_iff] at hb
          rwa [heq, hb]
        | inr hmem => exact hstart.2 y hmem hfit
      | inr hlater =>
        obtain ⟨hlt, before, after, rfl, hfit, hbefore, hafter⟩ := hlater
        refine .inr ⟨hlt, z :: before, after, rfl, hfit, ?_, hafter⟩
        intro y hy hy'
        cases List.mem_cons.mp hy with
        | inl heq =>
          obtain ⟨b, hb, hzb⟩ := hle (heq ▸ hy')
          rw [heq]
          exact lt_of_le_of_lt hzb (hlt b hb)
        | inr hmem => exact hbefore y hmem hy'

theorem longest_split {len : α → Nat} {fits : α → Bool} {x : α} {l : List α}
    (h : longest len fits l = some x) :
    ∃ before after, l = before ++ x :: after ∧ fits x = true ∧
      (∀ y ∈ before, fits y = true → len y < len x) ∧ ∀ y ∈ after, fits y = true → len y ≤ len x := by
  cases longestFrom_split h with
  | inl hstart => cases hstart.1
  | inr hlater => exact hlater.2

/-- `t[i] = t[--n]`. -/
def swapRemove (l : List α) (i : Nat) : List α :=
  match l.getLast? with
  | none => []
  | some x => (l.set i x).dropLast

theorem swapRemove_concat (l : List α) (x : α) (i : Nat) :
    swapRemove (l ++ [x]) i = if i < l.length then l.set i x else l := by
  have hlast : (l ++ [x]).getLast? = some x := List.getLast?_concat
  rw [swapRemove, hlast]
  dsimp only
  split
  · rename_i h
    rw [List.set_append_left _ _ h, List.dropLast_concat]
  · rename_i h
    rw [List.set_append_right _ _ (Nat.le_of_not_lt h)]
    cases hi : i - l.length with
    | zero => rw [List.set_cons_zero, List.dropLast_concat]
    | succ k => rw [List.set_cons_succ, List.set_nil, List.dropLast_concat]

/-- The removed entry and the remaining ones are those that were there. -/
theorem swapRemove_perm {l : List α} {i : Nat} {y : α} (h : l[i]? = some y) :
    (y :: swapRemove l i).Perm l := by
  cases l using List.reverseRecOn with
  | nil => cases h
  | append_singleton l x =>
    rw [swapRemove_concat]
    by_cases hi : i < l.length
    · rw [List.getElem?_append_left hi] at h
      obtain ⟨hi', hget⟩ := List.getElem?_eq_some_iff.mp h
      have hsplit : l = l.take i ++ y :: l.drop (i + 1) := by
        rw [← hget, List.cons_getElem_drop_succ, List.take_append_drop]
      have hset : l.set i x = l.take i ++ x :: l.drop (i + 1) := List.set_eq_take_append_cons_drop.trans
        (if_pos hi)
      rw [if_pos hi, hset]
      conv_rhs => rw [hsplit]
      rw [List.append_assoc, List.cons_append]
      have hx : (l.take i ++ x :: l.drop (i + 1)).Perm (l.take i ++ (l.drop (i + 1) ++ [x])) :=
        (List.perm_append_singleton x (l.drop (i + 1))).symm.append_left _
      exact (hx.cons y).trans List.perm_middle.symm
    · have hlen : i = l.length := by
        obtain ⟨hi', -⟩ := List.getElem?_eq_some_iff.mp h
        rw [List.length_append, List.length_singleton] at hi'
        omega
      subst hlen
      rw [List.getElem?_concat_length] at h
      obtain rfl := Option.some.inj h
      rw [if_neg (Nat.lt_irrefl _)]
      exact (List.perm_append_singleton x l).symm

theorem swapRemove_length {l : List α} {i : Nat} (h : i < l.length) :
    (swapRemove l i).length + 1 = l.length :=
  (swapRemove_perm (List.getElem?_eq_getElem h)).length_eq

theorem swapRemove_take {l : List α} {i : Nat} (h : i < l.length) :
    (swapRemove l i).take i = l.take i := by
  cases l using List.reverseRecOn with
  | nil => cases h
  | append_singleton l x =>
    rw [List.length_append, List.length_singleton] at h
    have hle : i ≤ l.length := by omega
    rw [swapRemove_concat, List.take_append_of_le_length hle]
    split
    · rw [List.take_set_of_le le_rfl]
    · rfl

/-- `for (i = 0; i < n;) if (dead(t[i])) t[i] = t[--n]; else i++;` with `fuel` rounds. -/
def expireFrom (dead : α → Bool) : Nat → Nat → List α → List α
  | 0, _, l => l
  | fuel + 1, i, l =>
    match l[i]? with
    | none => l
    | some x => if dead x then expireFrom dead fuel i (swapRemove l i) else expireFrom dead fuel (i + 1) l

/-- Each round shortens what is left of the table by one, so that its length is fuel
enough. -/
def expire (dead : α → Bool) (l : List α) : List α := expireFrom dead l.length 0 l

theorem expireFrom_perm (dead : α → Bool) (fuel i : Nat) (l : List α) (hi : i ≤ l.length)
    (hfuel : l.length - i ≤ fuel) :
    (expireFrom dead fuel i l).Perm (l.take i ++ (l.drop i).filter (fun x => !dead x)) := by
  induction fuel generalizing i l with
  | zero =>
    have hlen : l.length ≤ i := by omega
    rw [expireFrom, List.take_of_length_le hlen, List.drop_of_length_le hlen]
    simp
  | succ fuel ih =>
    rw [expireFrom]
    cases hget : l[i]? with
    | none =>
      have hlen := List.getElem?_eq_none_iff.mp hget
      rw [List.take_of_length_le hlen, List.drop_of_length_le hlen]
      simp
    | some x =>
      obtain ⟨hlt, hx⟩ := List.getElem?_eq_some_iff.mp hget
      have hdrop : l.drop i = x :: l.drop (i + 1) := by rw [← hx, List.drop_eq_getElem_cons hlt]
      dsimp only
      by_cases hdead : dead x = true
      · rw [if_pos hdead]
        have hlen := swapRemove_length hlt
        have hrest := ih i (swapRemove l i) (by omega) (by omega)
        rw [swapRemove_take hlt] at hrest
        have hperm : ((swapRemove l i).drop i).Perm (l.drop (i + 1)) := by
          have h := swapRemove_perm hget
          rw [← List.take_append_drop i (swapRemove l i), swapRemove_take hlt] at h
          have h' : (x :: (l.take i ++ (swapRemove l i).drop i)).Perm (l.take i ++ x :: l.drop (i + 1)) := by
            rwa [← hdrop, List.take_append_drop]
          have h'' := (h'.trans List.perm_middle).cons_inv
          exact (List.perm_append_left_iff _).mp h''
        rw [hdrop, List.filter_cons_of_neg (by simp [hdead])]
        exact hrest.trans ((hperm.filter _).append_left _)
      · rw [if_neg hdead]
        have hrest := ih (i + 1) l (by omega) (by omega)
        rw [hdrop, List.filter_cons_of_pos (by simp [hdead])]
        rwa [List.take_succ_eq_append_getElem hlt, hx, List.append_assoc, List.singleton_append] at hrest

/-- Exactly the live entries stay. -/
theorem expire_perm (dead : α → Bool) (l : List α) : (expire dead l).Perm (l.filter fun x => !dead x) := by
  have h := expireFrom_perm dead l.length 0 l (Nat.zero_le _) le_rfl
  rwa [List.take_zero, List.drop_zero, List.nil_append] at h

theorem mem_expire {dead : α → Bool} {l : List α} {x : α} : x ∈ expire dead l ↔ x ∈ l ∧ dead x = false := by
  rw [(expire_perm dead l).mem_iff, List.mem_filter, Bool.not_eq_true']

/-- No two places of the table hold entries with `P`. -/
def AtMostOne (P : α → Prop) (l : List α) : Prop :=
  ∀ (i j : Nat) (x y : α), l[i]? = some x → l[j]? = some y → P x → P y → i = j

theorem AtMostOne.mono {P Q : α → Prop} {l : List α} (h : AtMostOne P l) (himp : ∀ x, Q x → P x) :
    AtMostOne Q l :=
  fun i j x y hx hy hQx hQy => h i j x y hx hy (himp x hQx) (himp y hQy)

theorem getElem?_set_elim {l : List α} {i j : Nat} {x y : α} (h : (l.set i x)[j]? = some y) :
    j = i ∧ y = x ∨ j ≠ i ∧ l[j]? = some y := by
  by_cases hij : i = j
  · subst hij
    rw [List.getElem?_set_self'] at h
    cases hi : l[i]? with
    | none =>
      rw [hi] at h
      cases h
    | some z =>
      rw [hi] at h
      exact .inl ⟨rfl, (Option.some.inj h).symm⟩
  · rw [List.getElem?_set_ne hij] at h
    exact .inr ⟨fun heq => hij heq.symm, h⟩

/-- An entry with `P` may be written where all others are without it. -/
theorem AtMostOne.set {P : α → Prop} {l : List α} {i : Nat} {x : α} (h : AtMostOne P l)
    (hx : P x → ∀ (j : Nat) (y : α), l[j]? = some y → P y → j = i) : AtMostOne P (l.set i x) := by
  intro j k y z hy hz hPy hPz
  cases getElem?_set_elim hy with
  | inl hj =>
    obtain ⟨rfl, rfl⟩ := hj
    cases getElem?_set_elim hz with
    | inl hk => exact hk.1.symm
    | inr hk => exact (hx hPy k z hk.2 hPz).symm
  | inr hj =>
    cases getElem?_set_elim hz with
    | inl hk =>
      obtain ⟨rfl, rfl⟩ := hk
      exact hx hPz j y hj.2 hPy
    | inr hk => exact h j k y z hj.2 hk.2 hPy hPz

theorem AtMostOne.of_set {P : α → Prop} {l : List α} {i : Nat} {x : α} (h : AtMostOne P (l.set i x))
    (hi : i < l.length) (hP : P x) {j : Nat} {y : α} (hy : l[j]? = some y) (hPy : P y) : j = i := by
  by_contra hne
  have hset : (l.set i x)[j]? = some y := by rwa [List.getElem?_set_ne (fun heq => hne heq.symm)]
  have hself : (l.set i x)[i]? = some x := List.getElem?_set_self hi
  exact hne (h j i y x hset hself hPy hP)

theorem AtMostOne.map {β : Type*} {P : α → Prop} {Q : β → Prop} {l : List α} (h : AtMostOne P l) (f : α → β)
    (hf : ∀ x, Q (f x) → P x) : AtMostOne Q (l.map f) := by
  intro i j x y hx hy hQx hQy
  rw [List.getElem?_map] at hx hy
  obtain ⟨x', hx', rfl⟩ := Option.map_eq_some_iff.mp hx
  obtain ⟨y', hy', rfl⟩ := Option.map_eq_some_iff.mp hy
  exact h i j x' y' hx' hy' (hf x' hQx) (hf y' hQy)

theorem modify_eq_set {l : List α} {i : Nat} {x : α} (h : l[i]? = some x) (f : α → α) :
    l.modify i f = l.set i (f x) := by
  rw [List.modify_eq_set_getElem?, h]
  rfl

theorem atMostOne_cons {P : α → Prop} {x : α} {l : List α} :
    AtMostOne P (x :: l) ↔ AtMostOne P l ∧ (P x → ∀ y ∈ l, ¬ P y) := by
  constructor
  · intro h
    refine ⟨fun i j y z hy hz hPy hPz => ?_, fun hPx y hy hPy => ?_⟩
    · exact Nat.succ.inj (h (i + 1) (j + 1) y z hy hz hPy hPz)
    · obtain ⟨i, hi⟩ := List.getElem?_of_mem hy
      exact Nat.noConfusion (h 0 (i + 1) x y rfl hi hPx hPy)
  · rintro ⟨hl, hx⟩ i j y z hy hz hPy hPz
    cases i with
    | zero =>
      obtain rfl : x = y := Option.some.inj hy
      cases j with
      | zero => rfl
      | succ j => exact absurd hPz (hx hPy z (List.mem_of_getElem? hz))
    | succ i =>
      cases j with
      | zero =>
        obtain rfl : x = z := Option.some.inj hz
        exact absurd hPy (hx hPz y (List.mem_of_getElem? hy))
      | succ j => rw [hl i j y z hy hz hPy hPz]

theorem atMostOne_iff_countP {P : α → Prop} [DecidablePred P] (l : List α) :
    AtMostOne P l ↔ (l.countP fun x => P x) ≤ 1 := by
  induction l with
  | nil => exact ⟨fun _ => Nat.zero_le _, fun _ i j x y hx => nomatch hx⟩
  | cons x l ih =>
    rw [atMostOne_cons, ih, List.countP_cons]
    by_cases hx : P x
    · have hzero : (∀ y ∈ l, ¬ P y) ↔ (l.countP fun y => P y) = 0 := by
        simp only [List.countP_eq_zero, decide_eq_true_eq]
      rw [if_pos (decide_eq_true hx), hzero]
      constructor
      · rintro ⟨-, h⟩
        rw [h hx]
      · intro h
        exact ⟨by omega, fun _ => by omega⟩
    · rw [if_neg (by simpa using hx), Nat.add_zero]
      exact and_iff_left fun h => absurd h hx

theorem filterMap_range {β : Type*} (f : α → β) (l : List α) :
    (List.range l.length).filterMap (fun i => l[i]?.map f) = l.map f := by
  induction l using List.reverseRecOn with
  | nil => rfl
  | append_singleton l x ih =>
    have hsame : (List.range l.length).filterMap (fun i => (l ++ [x])[i]?.map f) =
        (List.range l.length).filterMap fun i => l[i]?.map f := by
      refine List.filterMap_congr fun i hi => ?_
      rw [List.getElem?_append_left (List.mem_range.mp hi)]
    rw [List.length_append, List.length_singleton, List.range_succ, List.filterMap_append, hsame, ih, List.map_append]
    simp

/-- The entries in use of an array of `cap` slots. -/
structure Table (cap : Nat) (α : Type*) where
  entries : List α
  bound : entries.length ≤ cap

namespace Table

variable {cap : Nat}

def empty : Table cap α := ⟨[], Nat.zero_le cap⟩

def isEmpty (t : Table cap α) : Bool := t.entries.isEmpty

/-- `if (n < cap) t[n++] = x;` -/
def push (t : Table cap α) (x : α) : Table cap α :=
  if h : t.entries.length < cap then
    ⟨t.entries ++ [x], by rw [List.length_append, List.length_singleton]; omega⟩
  else t

theorem push_entries {t : Table cap α} (h : t.entries.length < cap) (x : α) :
    (t.push x).entries = t.entries ++ [x] := by rw [push, dif_pos h]

theorem push_full {t : Table cap α} (h : ¬ t.entries.length < cap) (x : α) : t.push x = t := by
  rw [push, dif_neg h]

theorem mem_push {t : Table cap α} {x y : α} (h : y ∈ (t.push x).entries) : y ∈ t.entries ∨ y = x := by
  by_cases hlt : t.entries.length < cap
  · rw [push_entries hlt, List.mem_append, List.mem_singleton] at h
    exact h
  · rw [push_full hlt] at h
    exact .inl h

/-- The first entry with `P` is changed by `f`. -/
def update (t : Table cap α) (P : α → Bool) (f : α → α) : Table cap α :=
  match t.entries.findIdx? P with
  | none => t
  | some i => ⟨t.entries.modify i f, by rw [List.length_modify]; exact t.bound⟩

/-- The first entry with `P` and the table without it, the last entry in its place. -/
def takeFirst (t : Table cap α) (P : α → Bool) : Option (α × Table cap α) :=
  match h : t.entries.findIdx? P with
  | none => none
  | some i =>
    have hi : i < t.entries.length := (List.findIdx?_eq_some_iff_getElem.mp h).1
    some (t.entries[i], ⟨swapRemove t.entries i, by
      have hlen := swapRemove_length hi
      have hcap := t.bound
      omega⟩)

theorem takeFirst_none {t : Table cap α} {P : α → Bool} :
    t.takeFirst P = none ↔ ∀ x ∈ t.entries, P x = false := by
  rw [takeFirst]
  split
  · rename_i h
    simp only [true_iff]
    exact List.findIdx?_eq_none_iff.mp h
  · rename_i i h
    have hi := List.findIdx?_eq_some_iff_getElem.mp h
    simp only [reduceCtorEq, false_iff]
    intro hall
    have hx := hall _ (List.getElem_mem hi.1)
    rw [hi.2.1] at hx
    cases hx

theorem takeFirst_some {t t' : Table cap α} {P : α → Bool} {x : α} (h : t.takeFirst P = some (x, t')) :
    P x = true ∧ (x :: t'.entries).Perm t.entries := by
  rw [takeFirst] at h
  split at h
  · cases h
  · rename_i i hi
    obtain ⟨hlt, hP, -⟩ := List.findIdx?_eq_some_iff_getElem.mp hi
    obtain ⟨rfl, rfl⟩ := Prod.mk.inj (Option.some.inj h)
    exact ⟨hP, swapRemove_perm (List.getElem?_eq_getElem hlt)⟩

def expire (t : Table cap α) (dead : α → Bool) : Table cap α :=
  ⟨Tables.expire dead t.entries, by
    have h := (expire_perm dead t.entries).length_eq
    have hle := List.length_filter_le (fun x => !dead x) t.entries
    have hcap := t.bound
    omega⟩

theorem expire_entries (t : Table cap α) (dead : α → Bool) :
    (t.expire dead).entries.Perm (t.entries.filter fun x => !dead x) := expire_perm dead t.entries

theorem mem_expire {t : Table cap α} {dead : α → Bool} {x : α} :
    x ∈ (t.expire dead).entries ↔ x ∈ t.entries ∧ dead x = false := Tables.mem_expire

theorem mem_update {t : Table cap α} {P : α → Bool} {f : α → α} {x : α} (h : x ∈ (t.update P f).entries) :
    x ∈ t.entries ∨ ∃ y ∈ t.entries, P y = true ∧ x = f y := by
  rw [update] at h
  split at h
  · exact .inl h
  · rename_i i hi
    obtain ⟨hlt, hP, -⟩ := List.findIdx?_eq_some_iff_getElem.mp hi
    obtain ⟨j, hj, rfl⟩ := List.mem_iff_getElem.mp h
    rw [List.length_modify] at hj
    rw [List.getElem_modify]
    split
    · rename_i hij
      subst hij
      exact .inr ⟨_, List.getElem_mem hlt, hP, rfl⟩
    · exact .inl (List.getElem_mem hj)

/-- Every entry is still there, changed or not. -/
theorem mem_update_of_mem {t : Table cap α} {P : α → Bool} {f : α → α} {y : α} (h : y ∈ t.entries) :
    y ∈ (t.update P f).entries ∨ f y ∈ (t.update P f).entries := by
  rw [update]
  split
  · exact .inl h
  · rename_i i hi
    obtain ⟨j, hj, rfl⟩ := List.mem_iff_getElem.mp h
    have hj' : j < (t.entries.modify i f).length := by rwa [List.length_modify]
    have hmem := List.getElem_mem hj'
    rw [List.getElem_modify] at hmem
    split at hmem
    · exact .inr hmem
    · exact .inl hmem

theorem exists_update {t : Table cap α} {P : α → Bool} {f : α → α} (h : t.entries.any P = true) :
    ∃ y ∈ t.entries, P y = true ∧ f y ∈ (t.update P f).entries := by
  rw [update]
  cases hi : t.entries.findIdx? P with
  | none =>
    obtain ⟨y, hy, hP⟩ := List.any_eq_true.mp h
    rw [List.findIdx?_eq_none_iff.mp hi y hy] at hP
    cases hP
  | some i =>
    obtain ⟨hlt, hP, -⟩ := List.findIdx?_eq_some_iff_getElem.mp hi
    have hlt' : i < (t.entries.modify i f).length := by rwa [List.length_modify]
    have hmem := List.getElem_mem hlt'
    rw [List.getElem_modify, if_pos rfl] at hmem
    exact ⟨_, List.getElem_mem hlt, hP, hmem⟩

end Table

end Tables
