import Mathlib.Algebra.Order.Field.Basic
import Mathlib.Algebra.Order.BigOperators.Group.List
import Mathlib.Tactic.Linarith
import Mathlib.Tactic.Ring

/-!
# The ideal token bucket

A bucket over an ordered field fills at a steady rate up to its burst. A sequence of costs
conforms to it if every cost is there when it is asked for; what conforms is bounded in every
window of time.
-/
namespace TokenBucket

variable {K : Type*} [Field K] [LinearOrder K]

/-- The bucket after `elapsed` without a call. -/
def refill (rate burst level elapsed : K) : K := min burst (level + rate * elapsed)

/-- Costs with their times, in order, each of which the bucket holds when it is due. The
bucket was at `level` at the time `last`. -/
def Conforms (rate burst : K) : K → K → List (K × K) → Prop
  | _, _, [] => True
  | level, last, (t, cost) :: calls =>
    last ≤ t ∧ 0 ≤ cost ∧ cost ≤ refill rate burst level (t - last) ∧
      Conforms rate burst (refill rate burst level (t - last) - cost) t calls

/-- What is spent from `lo` to `hi`. -/
def spent (lo hi : K) (calls : List (K × K)) : K := ((calls.filter fun c => lo ≤ c.1 ∧ c.1 ≤ hi).map Prod.snd).sum

theorem refill_le_burst (rate burst level elapsed : K) : refill rate burst level elapsed ≤ burst := min_le_left _ _

theorem refill_le (rate burst level elapsed : K) : refill rate burst level elapsed ≤ level + rate * elapsed :=
  min_le_right _ _

theorem spent_nil (lo hi : K) : spent lo hi [] = 0 := rfl

theorem spent_cons (lo hi t cost : K) (calls : List (K × K)) :
    spent lo hi ((t, cost) :: calls) = (if lo ≤ t ∧ t ≤ hi then cost else 0) + spent lo hi calls := by
  rw [spent, List.filter_cons]
  by_cases hin : lo ≤ t ∧ t ≤ hi
  · rw [if_pos (decide_eq_true hin), if_pos hin]
    rfl
  · rw [if_neg (by simpa using hin), if_neg hin, zero_add]
    rfl

/-- Behind the end of the window nothing is spent in it. -/
theorem Conforms.spent_late {rate burst level last lo hi : K} {calls : List (K × K)}
    (h : Conforms rate burst level last calls) (hlate : hi < last) : spent lo hi calls = 0 := by
  induction calls generalizing level last with
  | nil => rfl
  | cons c calls ih =>
    obtain ⟨t, cost⟩ := c
    obtain ⟨htime, -, -, hrest⟩ := h
    have ht : hi < t := lt_of_lt_of_le hlate htime
    rw [spent_cons, if_neg (fun hin => absurd hin.2 (not_le.mpr ht)), zero_add]
    exact ih hrest ht

variable [IsStrictOrderedRing K]

theorem refill_mono {rate burst level level' elapsed : K} (h : level ≤ level') :
    refill rate burst level elapsed ≤ refill rate burst level' elapsed :=
  min_le_min_left burst (add_le_add_left h _)

/-- A sequence that conforms to a bucket conforms to a fuller one. -/
theorem Conforms.mono {rate burst level level' last : K} {calls : List (K × K)}
    (h : Conforms rate burst level last calls) (hle : level ≤ level') : Conforms rate burst level' last calls := by
  induction calls generalizing level level' last with
  | nil => trivial
  | cons c calls ih =>
    obtain ⟨t, cost⟩ := c
    obtain ⟨htime, hcost, henough, hrest⟩ := h
    have hmore : refill rate burst level (t - last) ≤ refill rate burst level' (t - last) := refill_mono hle
    exact ⟨htime, hcost, henough.trans hmore, ih hrest (by linarith)⟩

/-- From now until `hi`, no more is spent than the bucket holds and gains. The induction is
on the calls: what a call spends is taken off the level. -/
theorem Conforms.spent_le_level {rate burst level last lo hi : K} {calls : List (K × K)}
    (h : Conforms rate burst level last calls) (hrate : 0 ≤ rate) (hlevel : 0 ≤ level) (hlast : last ≤ hi) :
    spent lo hi calls ≤ level + rate * (hi - last) := by
  induction calls generalizing level last with
  | nil =>
    have hgain := mul_nonneg hrate (sub_nonneg.mpr hlast)
    rw [spent_nil]
    linarith
  | cons c calls ih =>
    obtain ⟨t, cost⟩ := c
    obtain ⟨htime, hcost, henough, hrest⟩ := h
    have hgain := mul_nonneg hrate (sub_nonneg.mpr hlast)
    rw [spent_cons]
    rcases le_or_gt t hi with hin | hlate
    · have hrefill := refill_le rate burst level (t - last)
      have hih := ih hrest (by linarith) hin
      have hsplit : rate * (hi - last) = rate * (t - last) + rate * (hi - t) := by ring
      have hone : (if lo ≤ t ∧ t ≤ hi then cost else 0) ≤ cost := by
        split
        · exact le_refl cost
        · exact hcost
      linarith
    · rw [if_neg (fun hin => absurd hin.2 (not_le.mpr hlate)), hrest.spent_late hlate]
      linarith

/-- In a window of any length, no more is spent than the burst and what the window gains. -/
theorem Conforms.spent_le {rate burst level last lo hi : K} {calls : List (K × K)}
    (h : Conforms rate burst level last calls) (hrate : 0 ≤ rate) (hburst : 0 ≤ burst) (hlohi : lo ≤ hi) :
    spent lo hi calls ≤ burst + rate * (hi - lo) := by
  have hgain := mul_nonneg hrate (sub_nonneg.mpr hlohi)
  induction calls generalizing level last with
  | nil =>
    rw [spent_nil]
    linarith
  | cons c calls ih =>
    obtain ⟨t, cost⟩ := c
    obtain ⟨htime, hcost, henough, hrest⟩ := h
    rw [spent_cons]
    by_cases hin : lo ≤ t ∧ t ≤ hi
    · have hcap := refill_le_burst rate burst level (t - last)
      have hafter : spent lo hi calls ≤ refill rate burst level (t - last) - cost + rate * (hi - t) :=
        hrest.spent_le_level hrate (by linarith) hin.2
      have hshorter : rate * (hi - t) ≤ rate * (hi - lo) := mul_le_mul_of_nonneg_left (by linarith [hin.1]) hrate
      rw [if_pos hin]
      linarith
    · rw [if_neg hin, zero_add]
      exact ih hrest

end TokenBucket
