import Mathlib

/-!
# Sliding windows over a number line

A window remembers the highest number offered to it and, in a bit mask of width
`w`, which of the `w` numbers below were offered. Whatever falls behind the mask
counts as seen. The mask is a natural number below `2 ^ w`.
-/
namespace Window

variable {w : Nat}

/-- Offer `t`: refused when already seen or too old, otherwise recorded. -/
def offer (w top mask t : Nat) : Option (Nat × Nat) :=
  if top < t then some (t, if t - top < w then (mask <<< (t - top) ||| 1) % 2 ^ w else 1)
  else if w ≤ top - t then none
  else if mask.testBit (top - t) then none
  else some (top, mask ||| 1 <<< (top - t))

/-- `t` would be refused: below the mask, or its bit is set. -/
def Seen (w top mask t : Nat) : Prop := t ≤ top ∧ (top - t < w → mask.testBit (top - t) = true)

instance (w top mask t : Nat) : Decidable (Seen w top mask t) :=
  inferInstanceAs (Decidable (_ ∧ (_ → _)))

theorem offer_eq_none_iff (top mask t : Nat) : offer w top mask t = none ↔ Seen w top mask t := by
  unfold offer Seen
  by_cases h : top < t
  · simp [h]
  · by_cases hw : w ≤ top - t
    · have hnw : ¬ top - t < w := by omega
      simp [h, hw, hnw]
      omega
    · have hwn : top - t < w := by omega
      simp only [if_neg h, if_neg hw, hwn, forall_const]
      split <;> rename_i hb
      · exact ⟨fun _ => ⟨by omega, hb⟩, fun _ => rfl⟩
      · exact ⟨fun he => (nomatch he), fun hs => absurd hs.2 hb⟩

/-- The bits of a mask after the window moved up by `s`. -/
theorem testBit_shift (mask s i : Nat) (hi : i < w) :
    ((mask <<< s ||| 1) % 2 ^ w).testBit i = true ↔ i = 0 ∨ (s ≤ i ∧ mask.testBit (i - s) = true) := by
  rw [Nat.testBit_mod_two_pow, Nat.testBit_or, Nat.testBit_shiftLeft]
  have h1 : Nat.testBit 1 i = true ↔ i = 0 := Nat.testBit_one_eq_true_iff_self_eq_zero
  simp [hi, h1, or_comm]

/-- An accepted number is seen from then on, what was seen stays seen, and nothing
else becomes seen but what the window left behind. -/
theorem seen_offer (hw : 0 < w) {top mask t top' mask' : Nat}
    (h : offer w top mask t = some (top', mask')) (u : Nat) :
    Seen w top' mask' u ↔ u = t ∨ Seen w top mask u ∨ (u ≤ top' ∧ w ≤ top' - u) := by
  unfold offer at h
  by_cases ht : top < t
  · rw [if_pos ht] at h
    obtain ⟨rfl, rfl⟩ := Prod.mk.inj (Option.some.inj h)
    by_cases hs : t - top < w
    · rw [if_pos hs]
      by_cases hu : t - u < w
      · have hb := testBit_shift mask (t - top) (t - u) hu
        have he : u ≤ top → t - u - (t - top) = top - u := by omega
        constructor
        · rintro ⟨hle, hbit⟩
          rcases hb.mp (hbit hu) with h0 | ⟨h1, h2⟩
          · exact .inl (by omega)
          · exact .inr (.inl ⟨by omega, fun _ => he (by omega) ▸ h2⟩)
        · rintro (rfl | ⟨hle, hbit⟩ | ⟨_, h2⟩)
          · exact ⟨le_rfl, fun _ => hb.mpr (.inl (by omega))⟩
          · refine ⟨by omega, fun _ => hb.mpr (.inr ⟨by omega, ?_⟩)⟩
            rw [he hle]
            exact hbit (by omega)
          · omega
      · constructor
        · exact fun hseen => .inr (.inr ⟨hseen.1, by omega⟩)
        · rintro (rfl | ⟨hle, _⟩ | ⟨h1, _⟩)
          · omega
          · exact ⟨by omega, fun hlt => absurd hlt hu⟩
          · exact ⟨h1, fun hlt => absurd hlt hu⟩
    · rw [if_neg hs]
      have h1 : Nat.testBit 1 (t - u) = true ↔ t - u = 0 := Nat.testBit_one_eq_true_iff_self_eq_zero
      constructor
      · rintro ⟨hle, hbit⟩
        by_cases hu : t - u < w
        · exact .inl (by have := h1.mp (hbit hu); omega)
        · exact .inr (.inr ⟨hle, by omega⟩)
      · rintro (rfl | ⟨hle, _⟩ | ⟨hle, hfar⟩)
        · exact ⟨le_rfl, fun _ => h1.mpr (by omega)⟩
        · exact ⟨by omega, fun hlt => by omega⟩
        · exact ⟨hle, fun hlt => by omega⟩
  · rw [if_neg ht] at h
    split at h
    · cases h
    split at h
    · cases h
    rename_i hfar hbit
    obtain ⟨rfl, rfl⟩ := Prod.mk.inj (Option.some.inj h)
    have hor : ∀ i, (mask ||| 1 <<< (top - t)).testBit i = true ↔ mask.testBit i = true ∨ i = top - t := by
      intro i
      rw [Nat.testBit_or, Nat.one_shiftLeft, Nat.testBit_two_pow, Bool.or_eq_true, decide_eq_true_iff]
      exact or_congr_right eq_comm
    constructor
    · rintro ⟨hle, hb⟩
      by_cases hu : top - u < w
      · rcases (hor _).mp (hb hu) with h1 | h1
        · exact .inr (.inl ⟨hle, fun _ => h1⟩)
        · exact .inl (by omega)
      · exact .inr (.inr ⟨hle, by omega⟩)
    · rintro (rfl | ⟨hle, hb⟩ | ⟨hle, hu⟩)
      · exact ⟨by omega, fun _ => (hor _).mpr (.inr rfl)⟩
      · exact ⟨hle, fun hlt => (hor _).mpr (.inl (hb hlt))⟩
      · exact ⟨hle, fun hlt => by omega⟩

theorem offer_top {top mask t top' mask' : Nat} (h : offer w top mask t = some (top', mask')) :
    top' = max top t := by
  unfold offer at h
  split at h
  · obtain ⟨rfl, rfl⟩ := Prod.mk.inj (Option.some.inj h)
    omega
  split at h
  · cases h
  split at h
  · cases h
  obtain ⟨rfl, rfl⟩ := Prod.mk.inj (Option.some.inj h)
  omega

section Sequences

variable {σ τ σ' τ' : Type*}

/-- One offer to a filter; what it accepts goes in front of what it accepted before. -/
def offerStep (offer : σ → τ → Option σ) (p : σ × List τ) (t : τ) : σ × List τ :=
  match offer p.1 t with
  | none => p
  | some s => (s, t :: p.2)

/-- The filter after all offers, and what it accepted, newest first. -/
def offerAll (offer : σ → τ → Option σ) (s : σ) (ts : List τ) : σ × List τ :=
  ts.foldl (offerStep offer) (s, [])

theorem foldl_offerStep {offer : σ → τ → Option σ} {offer' : σ' → τ' → Option σ'} {f : σ → σ'} {g : τ → τ'}
    (h : ∀ s t, offer' (f s) (g t) = (offer s t).map f) (p : σ × List τ) (ts : List τ) :
    (ts.map g).foldl (offerStep offer') (f p.1, p.2.map g) =
      (f (ts.foldl (offerStep offer) p).1, (ts.foldl (offerStep offer) p).2.map g) := by
  induction ts generalizing p with
  | nil => rfl
  | cons t ts ih =>
    rw [List.map_cons, List.foldl_cons, List.foldl_cons, ← ih, offerStep, offerStep, h]
    cases offer p.1 t with
    | none => rfl
    | some s => rfl

/-- A filter that makes the same decisions accepts the same things. -/
theorem offerAll_map {offer : σ → τ → Option σ} {offer' : σ' → τ' → Option σ'} {f : σ → σ'} {g : τ → τ'}
    (h : ∀ s t, offer' (f s) (g t) = (offer s t).map f) (s : σ) (ts : List τ) :
    offerAll offer' (f s) (ts.map g) = (f (offerAll offer s ts).1, (offerAll offer s ts).2.map g) :=
  foldl_offerStep h (s, []) ts

/-- The largest number of a list, and 0 for the empty one. -/
def highest (acc : List ℕ) : ℕ := acc.foldr max 0

/-- What a window of width `w` has to accept after it accepted `acc`. -/
def Fresh (w : ℕ) (acc : List ℕ) (t : ℕ) : Prop := t ∉ acc ∧ (highest acc < t ∨ highest acc - t < w)

instance (acc : List ℕ) (t : ℕ) : Decidable (Fresh w acc t) := inferInstanceAs (Decidable (_ ∧ _))

theorem le_highest {acc : List ℕ} {t : ℕ} (h : t ∈ acc) : t ≤ highest acc := by
  induction acc with
  | nil => cases h
  | cons u acc ih =>
    rcases List.mem_cons.mp h with rfl | hmem
    · exact le_max_left ..
    · exact (ih hmem).trans (le_max_right ..)

/-- The window stands for the set of the numbers that it accepted. -/
structure Tracks (w : ℕ) (p : ℕ × ℕ) (acc : List ℕ) : Prop where
  top : p.1 = highest acc
  seen : ∀ t, Seen w p.1 p.2 t ↔ t ∈ acc ∨ (t ≤ p.1 ∧ w ≤ p.1 - t)
  nodup : acc.Nodup

theorem tracks_empty (hw : 0 < w) : Tracks w (0, 0) [] := by
  refine ⟨rfl, fun t => ?_, List.nodup_nil⟩
  constructor
  · rintro ⟨hle, hbit⟩
    have hzero : (0 : ℕ).testBit (0 - t) = true := hbit (by omega)
    rw [Nat.zero_testBit] at hzero
    cases hzero
  · rintro (hmem | ⟨hle, hfar⟩)
    · cases hmem
    · simp only at hle hfar
      omega

theorem Tracks.fresh_iff {p : ℕ × ℕ} {acc : List ℕ} (h : Tracks w p acc) (t : ℕ) :
    (offer w p.1 p.2 t).isSome = true ↔ Fresh w acc t := by
  rw [Option.isSome_iff_ne_none, ne_eq, offer_eq_none_iff, h.seen, Fresh, h.top, not_or]
  refine and_congr_right fun _ => ?_
  omega

theorem Tracks.step (hw : 0 < w) {p p' : ℕ × ℕ} {acc : List ℕ} {t : ℕ} (h : Tracks w p acc)
    (ho : offer w p.1 p.2 t = some p') : Tracks w p' (t :: acc) := by
  have hfresh : Fresh w acc t := (h.fresh_iff t).mp (by rw [ho, Option.isSome_some])
  have htop := offer_top ho
  refine ⟨?_, fun u => ?_, List.nodup_cons.mpr ⟨hfresh.1, h.nodup⟩⟩
  · rw [htop, h.top, max_comm]
    rfl
  · rw [seen_offer hw ho u, h.seen, List.mem_cons]
    constructor
    · rintro (hu | (hmem | ⟨hle, hfar⟩) | hbehind)
      · exact .inl (.inl hu)
      · exact .inl (.inr hmem)
      · exact .inr ⟨by omega, by omega⟩
      · exact .inr hbehind
    · rintro ((hu | hmem) | hbehind)
      · exact .inl hu
      · exact .inr (.inl (.inl hmem))
      · exact .inr (.inr hbehind)

/-- Two sets for which the same numbers are fresh, whatever is added to both. -/
structure Alike (w : ℕ) (acc pre : List ℕ) : Prop where
  highest : highest acc = highest pre
  fresh : ∀ t, Fresh w acc t ↔ Fresh w pre t

theorem Alike.refl (acc : List ℕ) : Alike w acc acc := ⟨rfl, fun _ => Iff.rfl⟩

/-- A number that is not fresh leaves no trace. -/
theorem Alike.stale {acc pre : List ℕ} {t : ℕ} (h : Alike w acc pre) (hstale : ¬ Fresh w pre t) :
    Alike w acc (t :: pre) := by
  have hle : t ≤ Window.highest pre := by
    by_contra hgt
    have hnot : t ∉ pre := fun hmem => hgt (le_highest hmem)
    exact hstale ⟨hnot, .inl (by omega)⟩
  have htop : Window.highest (t :: pre) = Window.highest pre := max_eq_right hle
  refine ⟨h.highest.trans htop.symm, fun u => ?_⟩
  rw [h.fresh, Fresh, Fresh, htop, List.mem_cons, not_or]
  constructor
  · rintro ⟨hnot, hnear⟩
    refine ⟨⟨?_, hnot⟩, hnear⟩
    rintro rfl
    exact hstale ⟨hnot, hnear⟩
  · rintro ⟨⟨-, hnot⟩, hnear⟩
    exact ⟨hnot, hnear⟩

theorem Alike.fresh_cons {acc pre : List ℕ} (h : Alike w acc pre) (t : ℕ) : Alike w (t :: acc) (t :: pre) := by
  have htop : Window.highest (t :: acc) = max t (Window.highest acc) := rfl
  have htop' : Window.highest (t :: pre) = max t (Window.highest acc) := by
    rw [h.highest]
    rfl
  refine ⟨htop.trans htop'.symm, fun u => ?_⟩
  have hu := h.fresh u
  rw [Fresh, Fresh, ← h.highest] at hu
  rw [Fresh, Fresh, htop, htop', List.mem_cons, List.mem_cons, not_or, not_or]
  refine and_congr_left fun hnear => and_congr_right fun _ => ?_
  -- what is near the new top is near the old one
  have hold : Window.highest acc < u ∨ Window.highest acc - u < w := by omega
  exact ⟨fun hnot => (hu.mp ⟨hnot, hold⟩).1, fun hnot => (hu.mpr ⟨hnot, hold⟩).1⟩

/-- The set specification of the window: it accepts what is fresh, and nothing twice. -/
theorem tracks_offerAll (hw : 0 < w) (ts : List ℕ) :
    Tracks w (offerAll (fun p => offer w p.1 p.2) (0, 0) ts).1
      (offerAll (fun p => offer w p.1 p.2) (0, 0) ts).2 := by
  have hall : ∀ (q : (ℕ × ℕ) × List ℕ), Tracks w q.1 q.2 →
      Tracks w (ts.foldl (offerStep fun p => offer w p.1 p.2) q).1
        (ts.foldl (offerStep fun p => offer w p.1 p.2) q).2 := by
    induction ts with
    | nil => exact fun _ h => h
    | cons t ts ih =>
      intro q hq
      rw [List.foldl_cons]
      apply ih
      rw [offerStep]
      cases ho : offer w q.1.1 q.1.2 t with
      | none => exact hq
      | some p' => exact hq.step hw ho
  exact hall ((0, 0), []) (tracks_empty hw)

end Sequences

end Window
