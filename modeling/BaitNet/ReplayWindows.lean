import BaitNet.DataSpec
import BaitNet.PyReceive

/-!
# The replay windows of both implementations

The window of `icsp_data_handle` on 32-bit words and that of `_handle_data`, whose mask keeps
growing, against the set of the TSNs accepted so far.
-/
namespace Py

/-- Above bit 31 the mask is never looked at. -/
theorem replayWindow_offer (rwTsn rwMask tsn : Nat) :
    Window.offer 32 rwTsn (rwMask % 2 ^ 32) tsn =
      (replayWindow rwTsn rwMask tsn).map fun p => (p.1, p.2 % 2 ^ 32) := by
  by_cases h : rwTsn < tsn
  · simp only [Window.offer, replayWindow, if_pos h, Option.map_some]
    split
    · rename_i hs
      have hmask : ((rwMask % 2 ^ 32) <<< (tsn - rwTsn) ||| 1) % 2 ^ 32 =
          (rwMask <<< (tsn - rwTsn) ||| 1) % 2 ^ 32 := by
        apply Nat.eq_of_testBit_eq
        intro i
        simp only [Nat.testBit_mod_two_pow, Nat.testBit_or, Nat.testBit_shiftLeft]
        by_cases hi : i < 32
        · have hsub : i - (tsn - rwTsn) < 32 := by omega
          simp only [hi, hsub, decide_true, Bool.true_and]
        · simp only [hi, decide_false, Bool.false_and]
      rw [hmask]
    · rfl
  · by_cases hfar : 32 ≤ rwTsn - tsn
    · simp only [Window.offer, replayWindow, if_neg h, if_pos hfar, Option.map_none]
    · have hbit : rwMask >>> (rwTsn - tsn) &&& 1 ≠ 0 ↔ (rwMask % 2 ^ 32).testBit (rwTsn - tsn) = true := by
        have hlt : rwTsn - tsn < 32 := by omega
        rw [Nat.testBit_mod_two_pow, decide_eq_true hlt, Bool.true_and, Nat.testBit, Nat.and_comm]
        simp
      have hmask : rwMask % 2 ^ 32 ||| 1 <<< (rwTsn - tsn) = (rwMask ||| 1 <<< (rwTsn - tsn)) % 2 ^ 32 := by
        have hpow : 1 <<< (rwTsn - tsn) < 2 ^ 32 := by
          rw [Nat.one_shiftLeft]
          exact Nat.pow_lt_pow_right (by decide) (by omega)
        rw [Nat.or_mod_two_pow, Nat.mod_eq_of_lt hpow]
      simp only [Window.offer, replayWindow, if_neg h, if_neg hfar, hbit, hmask]
      split
      · rfl
      · rfl

end Py

namespace Icsp

open Window

/-- The window of `icsp_data_handle` and the TSNs that it accepted. -/
def cWindow (ts : List UInt32) : (UInt32 × UInt32) × List UInt32 :=
  offerAll (fun p => replayWindow p.1 p.2) (0, 0) ts

/-- The window of `_handle_data` and the TSNs that it accepted. -/
def pyWindow (ts : List UInt32) : (ℕ × ℕ) × List ℕ :=
  offerAll (fun p => Py.replayWindow p.1 p.2) (0, 0) (ts.map UInt32.toNat)

theorem cWindow_offer (ts : List UInt32) :
    offerAll (fun p => offer 32 p.1 p.2) (0, 0) (ts.map UInt32.toNat) =
      (windowNat (cWindow ts).1, (cWindow ts).2.map UInt32.toNat) := by
  have h : ∀ (p : UInt32 × UInt32) (t : UInt32),
      (fun q : ℕ × ℕ => offer 32 q.1 q.2) (windowNat p) t.toNat =
        ((fun q : UInt32 × UInt32 => replayWindow q.1 q.2) p t).map windowNat :=
    fun p t => (replayWindow_offer p.1 p.2 t).symm
  exact offerAll_map (f := windowNat) (g := UInt32.toNat) h ((0, 0) : UInt32 × UInt32) ts

theorem pyWindow_offer (ts : List UInt32) :
    offerAll (fun p => offer 32 p.1 p.2) (0, 0) (ts.map UInt32.toNat) =
      (((pyWindow ts).1.1, (pyWindow ts).1.2 % 2 ^ 32), (pyWindow ts).2) := by
  let low (q : ℕ × ℕ) : ℕ × ℕ := (q.1, q.2 % 2 ^ 32)
  have h : ∀ (p : ℕ × ℕ) (t : ℕ),
      (fun q : ℕ × ℕ => offer 32 q.1 q.2) (low p) (id t) =
        ((fun q : ℕ × ℕ => Py.replayWindow q.1 q.2) p t).map low :=
    fun p t => Py.replayWindow_offer p.1 p.2 t
  have hall := @offerAll_map _ _ _ _ _ (fun q => offer 32 q.1 q.2) low id h (0, 0) (ts.map UInt32.toNat)
  rw [List.map_id, List.map_id] at hall
  exact hall

/-- After any TSNs, both windows accept exactly those that are fresh for the set accepted so far;
they have accepted the same ones, and none twice. -/
theorem windows_track_accepted (ts : List UInt32) :
    (∀ t, (replayWindow (cWindow ts).1.1 (cWindow ts).1.2 t).isSome = true ↔
        Fresh 32 ((cWindow ts).2.map UInt32.toNat) t.toNat) ∧
      (∀ t : UInt32, (Py.replayWindow (pyWindow ts).1.1 (pyWindow ts).1.2 t.toNat).isSome = true ↔
        Fresh 32 (pyWindow ts).2 t.toNat) ∧
      (pyWindow ts).2 = (cWindow ts).2.map UInt32.toNat ∧ (cWindow ts).2.Nodup := by
  have hc := cWindow_offer ts
  have hpy := pyWindow_offer ts
  have htrack := tracks_offerAll (by decide : 0 < 32) (ts.map UInt32.toNat)
  have hacc : (pyWindow ts).2 = (cWindow ts).2.map UInt32.toNat := by
    rw [hc] at hpy
    exact (congrArg Prod.snd hpy).symm
  refine ⟨fun t => ?_, fun t => ?_, hacc, ?_⟩
  · rw [hc] at htrack
    rw [← htrack.fresh_iff]
    change _ ↔ (offer 32 (cWindow ts).1.1.toNat (cWindow ts).1.2.toNat t.toNat).isSome = true
    rw [← replayWindow_offer, Option.isSome_map]
  · rw [hpy] at htrack
    rw [← htrack.fresh_iff]
    change _ ↔ (offer 32 (pyWindow ts).1.1 ((pyWindow ts).1.2 % 2 ^ 32) t.toNat).isSome = true
    rw [Py.replayWindow_offer, Option.isSome_map]
  · rw [hc] at htrack
    exact htrack.nodup.of_map _

end Icsp
