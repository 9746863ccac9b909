import Mathlib

/-!
# Sequence-number gates

A sender numbers the entries of a growing list 0, 1, 2, ... modulo `M`. A
receiver takes an entry only if its number is the count of entries taken so far,
modulo `M`, and if it has not taken that entry before. Whatever arrives, what it
has taken is a prefix of the list, as long as the list has at most `M` entries.
-/
namespace SeqGate

variable {α : Type*} {M : Nat} {seq : α → Nat} {l : List α}

/-- Every entry carries its position modulo `M`. -/
def Numbered (M : Nat) (seq : α → Nat) (l : List α) : Prop :=
  ∀ i (h : i < l.length), seq l[i] = i % M

theorem numbered_nil (M : Nat) (seq : α → Nat) : Numbered M seq [] := by
  intro i h
  exact absurd h (Nat.not_lt_zero i)

theorem numbered_append (hl : Numbered M seq l) {e : α} (he : seq e = l.length % M) :
    Numbered M seq (l ++ [e]) := by
  intro i h
  by_cases hi : i < l.length
  · rw [List.getElem_append_left hi]
    exact hl i hi
  · have hlen : i = l.length := by
      rw [List.length_append, List.length_singleton] at h
      omega
    subst hlen
    simpa using he

/-- The gate: an entry with the awaited number that was not taken yet is the next
one of the list. -/
theorem take_next (hl : Numbered M seq l) (hM : l.length ≤ M) {e : α} (he : e ∈ l) {k : Nat}
    (hk : k ≤ l.length) (hseq : seq e = k % M) (hnew : e ∉ l.take k) :
    k < l.length ∧ l.take (k + 1) = l.take k ++ [e] := by
  obtain ⟨j, hj, rfl⟩ := List.mem_iff_getElem.mp he
  have hkj : k ≤ j := by
    by_contra hlt
    refine hnew (List.mem_iff_getElem.mpr ⟨j, ?_, ?_⟩)
    · rw [List.length_take]
      omega
    · rw [List.getElem_take]
  have hnum := hl j hj
  rw [hseq, Nat.mod_eq_of_lt (by omega : j < M), Nat.mod_eq_of_lt (by omega : k < M)] at hnum
  subst hnum
  exact ⟨hj, List.take_succ_eq_append_getElem hj⟩

/-- What was taken, seen through a filter that it passes, is a prefix of the
filtered list. -/
theorem take_prefix_filter (p : α → Bool) (l : List α) (k : Nat) (h : ∀ e ∈ l.take k, p e = true) :
    l.take k <+: l.filter p := by
  have hpre : (l.take k).filter p <+: l.filter p := (List.take_prefix k l).filter p
  rwa [List.filter_eq_self.mpr h] at hpre

end SeqGate
