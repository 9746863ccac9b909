import Mathlib.Data.List.Basic

/-!
# Messages with a head

A head is a list of lines with a line end between any two of them; an empty line ends it and
the body follows. A line end is a pair of characters, of which the first one stands in no
line. The readers look for the first occurrence of a needle, or cut at every line end.
-/
namespace Heads

variable {α : Type} [DecidableEq α]

/-- What stands in front of the first occurrence of `needle` and what stands behind it. -/
def cutAt (needle : List α) : List α → Option (List α × List α)
  | [] => if needle = [] then some ([], []) else none
  | x :: s =>
    if needle.isPrefixOf (x :: s) then some ([], (x :: s).drop needle.length)
    else (cutAt needle s).map fun p => (x :: p.1, p.2)

theorem cutAt_here (needle s : List α) : cutAt needle (needle ++ s) = some ([], s) := by
  cases hcase : needle ++ s with
  | nil =>
    obtain ⟨rfl, rfl⟩ := List.append_eq_nil_iff.mp hcase
    simp [cutAt]
  | cons x t =>
    have hpre : needle.isPrefixOf (x :: t) = true := by simp [← hcase]
    rw [cutAt, if_pos hpre, ← hcase, List.drop_left]

theorem cutAt_skip {needle : List α} {x : α} {s : List α} (h : ¬ needle <+: x :: s) :
    cutAt needle (x :: s) = (cutAt needle s).map fun p => (x :: p.1, p.2) := by
  rw [cutAt, if_neg (by simpa using h)]

/-- What is found is there. -/
theorem cutAt_some {needle s a b : List α} (h : cutAt needle s = some (a, b)) : s = a ++ needle ++ b := by
  induction s generalizing a with
  | nil =>
    by_cases hn : needle = [] <;> simp_all [cutAt]
  | cons x s ih =>
    by_cases hpre : needle <+: x :: s
    · obtain ⟨t, ht⟩ := hpre
      rw [← ht, cutAt_here] at h
      obtain ⟨rfl, rfl⟩ := Prod.mk.inj (Option.some.inj h)
      rw [← ht, List.nil_append]
    · rw [cutAt_skip hpre] at h
      obtain ⟨⟨a', b'⟩, hcut, heq⟩ := Option.map_eq_some_iff.mp h
      obtain ⟨rfl, rfl⟩ := Prod.mk.inj heq
      rw [ih hcut]
      simp

theorem cutAt_isSome (needle s : List α) : (cutAt needle s).isSome = true ↔ needle <:+: s := by
  constructor
  · intro h
    obtain ⟨⟨a, b⟩, hcut⟩ := Option.isSome_iff_exists.mp h
    exact ⟨a, b, (cutAt_some hcut).symm⟩
  · rintro ⟨a, b, rfl⟩
    induction a with
    | nil => simp [cutAt_here]
    | cons x a ih =>
      by_cases hpre : needle <+: x :: (a ++ needle ++ b)
      · obtain ⟨t, ht⟩ := hpre
        rw [List.cons_append, List.cons_append, ← ht, cutAt_here]
        rfl
      · rw [List.cons_append, List.cons_append, cutAt_skip hpre, Option.isSome_map]
        exact ih

variable (cr lf : α)

/-- The text at the front of `s` up to the first line end, and so on. -/
def splitLines : List α → List (List α)
  | [] => [[]]
  | [x] => [[x]]
  | x :: y :: s =>
    if x = cr ∧ y = lf then [] :: splitLines s else (splitLines (y :: s)).modifyHead (List.cons x)

/-- Lines with a line end between any two of them. -/
def joinLines (ls : List (List α)) : List α := [cr, lf].intercalate ls

omit [DecidableEq α] in
@[simp] theorem joinLines_single (l : List α) : joinLines cr lf [l] = l := by simp [joinLines]

omit [DecidableEq α] in
@[simp] theorem joinLines_cons (l m : List α) (ls : List (List α)) :
    joinLines cr lf (l :: m :: ls) = l ++ cr :: lf :: joinLines cr lf (m :: ls) := by
  simp [joinLines, List.intercalate]

variable {cr lf}

theorem splitLines_other {x : α} (hx : x ≠ cr) (s : List α) :
    splitLines cr lf (x :: s) = (splitLines cr lf s).modifyHead (List.cons x) := by
  cases s with
  | nil => rfl
  | cons y s => rw [splitLines, if_neg (fun h => hx h.1)]

theorem splitLines_end (s : List α) : splitLines cr lf (cr :: lf :: s) = [] :: splitLines cr lf s := by
  rw [splitLines, if_pos ⟨rfl, rfl⟩]

/-- A line without the first character of a line end is read whole. -/
theorem splitLines_line {l : List α} (hl : cr ∉ l) (s : List α) :
    splitLines cr lf (l ++ s) = (splitLines cr lf s).modifyHead (l ++ ·) := by
  induction l with
  | nil => cases h : splitLines cr lf s <;> simp [h]
  | cons x l ih =>
    obtain ⟨hx, hrest⟩ := not_or.mp (mt List.mem_cons.mpr hl)
    rw [List.cons_append, splitLines_other (Ne.symm hx), ih hrest]
    cases splitLines cr lf s <;> rfl

theorem splitLines_joinLines {ls : List (List α)} (hne : ls ≠ []) (hls : ∀ l ∈ ls, cr ∉ l) :
    splitLines cr lf (joinLines cr lf ls) = ls := by
  induction ls with
  | nil => exact absurd rfl hne
  | cons l ls ih =>
    have hl := hls l List.mem_cons_self
    cases ls with
    | nil =>
      have h := @splitLines_line α _ cr lf l hl []
      simpa [splitLines] using h
    | cons m ls =>
      have hrest := ih (List.cons_ne_nil m ls) (fun l' h => hls l' (List.mem_cons_of_mem l h))
      rw [joinLines_cons, splitLines_line hl, splitLines_end, hrest]
      simp

/-- The first empty line is the one that ends the head. -/
theorem cutAt_head (hne : cr ≠ lf) {ls : List (List α)} (hnil : ls ≠ []) (hls : ∀ l ∈ ls, l ≠ [] ∧ cr ∉ l)
    (body : List α) :
    cutAt [cr, lf, cr, lf] (joinLines cr lf ls ++ cr :: lf :: cr :: lf :: body) =
      some (joinLines cr lf ls, body) := by
  -- past one line, whatever follows it
  have hline : ∀ (l : List α), cr ∉ l → ∀ s, cutAt [cr, lf, cr, lf] (l ++ s) =
      (cutAt [cr, lf, cr, lf] s).map fun p => (l ++ p.1, p.2) := by
    intro l hl s
    induction l with
    | nil => simp
    | cons x l ih =>
      obtain ⟨hx, hrest⟩ := not_or.mp (mt List.mem_cons.mpr hl)
      rw [List.cons_append, cutAt_skip (by simp [hx]), ih hrest, Option.map_map]
      rfl
  induction ls with
  | nil => exact absurd rfl hnil
  | cons l ls ih =>
    have hl := (hls l List.mem_cons_self).2
    cases ls with
    | nil =>
      have hhere := cutAt_here [cr, lf, cr, lf] body
      simp only [List.cons_append, List.nil_append] at hhere
      simp [hline l hl, hhere]
    | cons m ls =>
      have hrest := ih (List.cons_ne_nil m ls) (fun l' h => hls l' (List.mem_cons_of_mem l h))
      obtain ⟨hm, hcr⟩ := hls m (List.mem_cons_of_mem l List.mem_cons_self)
      obtain ⟨y, m', rfl⟩ := List.exists_cons_of_ne_nil hm
      have hy : cr ≠ y := fun h => hcr (h ▸ List.mem_cons_self)
      have hfront : ∃ t, joinLines cr lf ((y :: m') :: ls) = y :: t := by
        cases ls <;> simp
      obtain ⟨t, ht⟩ := hfront
      rw [joinLines_cons, List.append_assoc, hline l hl]
      rw [ht] at hrest ⊢
      simp only [List.cons_append] at hrest ⊢
      rw [cutAt_skip (by simp [hy]), cutAt_skip (by simp [hne]), hrest]
      simp

end Heads
