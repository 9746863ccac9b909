import BaitNet.Runs

/-!
# Schedules

A schedule names an event for every moment. It is fair to an event that comes again and again;
what the event brings nearer, and no other event takes further away, is reached.
-/
namespace Runs

variable {σ ε : Type*} {step : σ → ε → σ} {s : σ} {es : ℕ → ε}

/-- The state after the first `n` events of a schedule. -/
def after (step : σ → ε → σ) (s : σ) (es : ℕ → ε) (n : ℕ) : σ := run step s ((List.range n).map es)

@[simp] theorem after_zero : after step s es 0 = s := rfl

theorem after_succ (n : ℕ) : after step s es (n + 1) = step (after step s es n) (es n) := by
  rw [after, List.range_succ, List.map_append, run_append]
  rfl

/-- The event comes again and again. -/
def Recurs (es : ℕ → ε) (e : ε) : Prop := ∀ n, ∃ m, n ≤ m ∧ es m = e

/-- What every step keeps is kept from then on. -/
theorem after_keeps {P : σ → Prop} (hstep : ∀ s e, P s → P (step s e)) {n m : ℕ} (hle : n ≤ m)
    (h : P (after step s es n)) : P (after step s es m) := by
  induction m, hle using Nat.le_induction with
  | base => exact h
  | succ m hle ih =>
    rw [after_succ]
    exact hstep _ _ ih

section Progress

variable {e : ε} {P : ℕ → σ → Prop} {Q : σ → Prop}

/-- `P` stays within its bound until `Q` holds, and below it once the event came. -/
def Nears (step : σ → ε → σ) (e : ε) (P : ℕ → σ → Prop) (Q : σ → Prop) : Prop :=
  ∀ d s x, P d s → Q (step s x) ∨ ∃ d' ≤ d, P d' (step s x) ∧ (x = e → d' < d)

/-- Up to the next event that counts. -/
theorem Nears.next (hstep : Nears step e P Q) {gap : ℕ} :
    ∀ {n d : ℕ}, P d (after step s es n) → es (n + gap) = e →
      ∃ m, n ≤ m ∧ (Q (after step s es m) ∨ ∃ d' < d, P d' (after step s es m)) := by
  induction gap with
  | zero =>
    intro n d h he
    refine ⟨n + 1, Nat.le_succ n, ?_⟩
    rw [after_succ]
    rcases hstep d _ (es n) h with hq | ⟨d', -, hp, hlt⟩
    · exact .inl hq
    · exact .inr ⟨d', hlt he, hp⟩
  | succ gap ih =>
    intro n d h he
    have hone : Q (after step s es (n + 1)) ∨
        ∃ d' ≤ d, P d' (after step s es (n + 1)) ∧ (es n = e → d' < d) := by
      rw [after_succ]
      exact hstep d _ (es n) h
    rcases hone with hq | ⟨d', hle, hp, -⟩
    · exact ⟨n + 1, Nat.le_succ n, .inl hq⟩
    · obtain ⟨m, hm, hend⟩ := ih hp (by rw [← he]; congr 1; omega)
      refine ⟨m, (Nat.le_succ n).trans hm, hend.imp_right ?_⟩
      rintro ⟨d'', hlt, hp'⟩
      exact ⟨d'', hlt.trans_le hle, hp'⟩

/-- What comes nearer again and again is reached. -/
theorem Nears.reaches (hstep : Nears step e P Q) (hfair : Recurs es e) {n d : ℕ} (h : P d (after step s es n)) :
    ∃ m, n ≤ m ∧ Q (after step s es m) := by
  induction d using Nat.strong_induction_on generalizing n with
  | _ d ih =>
    obtain ⟨m, hm, he⟩ := hfair n
    obtain ⟨k, hk, hend⟩ := hstep.next h  (by rw [Nat.add_sub_cancel' hm]; exact he)
    rcases hend with hq | ⟨d', hlt, hp⟩
    · exact ⟨k, hk, hq⟩
    · obtain ⟨j, hj, hq⟩ := ih d' hlt hp
      exact ⟨j, hk.trans hj, hq⟩

end Progress

end Runs
