import Mathlib

/-!
# Runs of an event-driven machine

A machine is a total step function; everything the environment decides is in
the event. A property of "every reachable state" is a property of the final
state of every run, since each prefix of a run is a run. Side conditions on the
steps are carried along the run by `Along`.
-/
namespace Runs

variable {σ ε : Type*}

def run (step : σ → ε → σ) (s : σ) (es : List ε) : σ := es.foldl step s

@[simp] theorem run_nil (step : σ → ε → σ) (s : σ) : run step s [] = s := rfl
@[simp] theorem run_cons (step : σ → ε → σ) (s : σ) (e : ε) (es : List ε) :
    run step s (e :: es) = run step (step s e) es := rfl

theorem run_append (step : σ → ε → σ) (s : σ) (es fs : List ε) :
    run step s (es ++ fs) = run step (run step s es) fs := List.foldl_append

/-- Each event meets `ok` in the state in which it is taken. -/
def Along (step : σ → ε → σ) (ok : σ → ε → Prop) : σ → List ε → Prop
  | _, [] => True
  | s, e :: es => ok s e ∧ Along step ok (step s e) es

@[simp] theorem along_nil (step : σ → ε → σ) (ok : σ → ε → Prop) (s : σ) :
    Along step ok s [] := trivial
@[simp] theorem along_cons (step : σ → ε → σ) (ok : σ → ε → Prop) (s : σ) (e : ε) (es : List ε) :
    Along step ok s (e :: es) ↔ ok s e ∧ Along step ok (step s e) es := Iff.rfl

instance decidableAlong (step : σ → ε → σ) (ok : σ → ε → Prop) [∀ s e, Decidable (ok s e)] :
    ∀ s es, Decidable (Along step ok s es)
  | _, [] => .isTrue trivial
  | s, e :: es =>
    have := decidableAlong step ok (step s e) es
    inferInstanceAs (Decidable (ok s e ∧ Along step ok (step s e) es))

theorem along_append (step : σ → ε → σ) (ok : σ → ε → Prop) (s : σ) (es fs : List ε) :
    Along step ok s (es ++ fs) ↔ Along step ok s es ∧ Along step ok (run step s es) fs := by
  induction es generalizing s with
  | nil => simp
  | cons e es ih => simp [ih, and_assoc]

theorem along_and {step : σ → ε → σ} {ok ok' : σ → ε → Prop} {s : σ} {es : List ε} (h : Along step ok s es)
    (h' : Along step ok' s es) : Along step (fun s e => ok s e ∧ ok' s e) s es := by
  induction es generalizing s with
  | nil => trivial
  | cons e es ih => exact ⟨⟨h.1, h'.1⟩, ih h.2 h'.2⟩

/-- The invariant rule: what every permitted step keeps holds after every
permitted run. -/
theorem inv_run {step : σ → ε → σ} {ok : σ → ε → Prop} {I : σ → Prop}
    (hstep : ∀ s e, I s → ok s e → I (step s e)) :
    ∀ s es, I s → Along step ok s es → I (run step s es) := by
  intro s es
  induction es generalizing s with
  | nil => exact fun h _ => h
  | cons e es ih => exact fun h ha => ih _ (hstep s e h ha.1) ha.2

/-- What every step keeps without a side condition holds after every run. -/
theorem inv_run_all {step : σ → ε → σ} {I : σ → Prop} (hstep : ∀ s e, I s → I (step s e))
    (s : σ) (es : List ε) (h : I s) : I (run step s es) := by
  induction es generalizing s with
  | nil => exact h
  | cons e es ih => exact ih _ (hstep s e h)

/-- `P` holds in every state a run passes through, the first and the last
included. -/
def Throughout (step : σ → ε → σ) (P : σ → Prop) : σ → List ε → Prop
  | s, [] => P s
  | s, e :: es => P s ∧ Throughout step P (step s e) es

theorem throughout_iff (step : σ → ε → σ) (P : σ → Prop) (s : σ) (es : List ε) :
    Throughout step P s es ↔ ∀ k, P (run step s (es.take k)) := by
  induction es generalizing s with
  | nil => simp [Throughout]
  | cons e es ih =>
    rw [Throughout, ih]
    constructor
    · rintro ⟨h0, h⟩ k
      cases k with
      | zero => exact h0
      | succ k => exact h k
    · exact fun h => ⟨h 0, fun k => h (k + 1)⟩

/-- What an invariant implies holds all along a permitted run. -/
theorem throughout_of_inv {step : σ → ε → σ} {ok : σ → ε → Prop} {I P : σ → Prop}
    (hstep : ∀ s e, I s → ok s e → I (step s e)) (himp : ∀ s, I s → P s) (s : σ) (es : List ε) (h : I s)
    (ha : Along step ok s es) : Throughout step P s es := by
  induction es generalizing s with
  | nil => exact himp s h
  | cons e es ih => exact ⟨himp s h, ih _ (hstep s e h ha.1) ha.2⟩

/-- A step condition that is exact for one step under `given`, on top of an invariant that
holds wherever the property does, is exact for whole runs. -/
theorem throughout_iff_along_given {step : σ → ε → σ} {given ok : σ → ε → Prop} {P I : σ → Prop}
    (hinv : ∀ s e, I s → P s → given s e → P (step s e) → I (step s e))
    (hexact : ∀ s e, I s → P s → given s e → (P (step s e) ↔ ok s e)) (s : σ) (es : List ε)
    (hI : I s) (hP : P s) (hgiven : Along step given s es) :
    Throughout step P s es ↔ Along step ok s es := by
  induction es generalizing s with
  | nil => simp [Throughout, hP]
  | cons e es ih =>
    obtain ⟨hnow, hlater⟩ := hgiven
    simp only [Throughout, along_cons, hP, true_and]
    constructor
    · intro h
      have hnext : P (step s e) := by
        cases es with
        | nil => exact h
        | cons e' es => exact h.1
      exact ⟨(hexact s e hI hP hnow).mp hnext, (ih _ (hinv s e hI hP hnow hnext) hnext hlater).mp h⟩
    · rintro ⟨he, h⟩
      have hnext := (hexact s e hI hP hnow).mpr he
      exact (ih _ (hinv s e hI hP hnow hnext) hnext hlater).mpr h

theorem along_true (step : σ → ε → σ) (s : σ) (es : List ε) : Along step (fun _ _ => True) s es := by
  induction es generalizing s with
  | nil => trivial
  | cons e es ih => exact ⟨trivial, ih _⟩

theorem throughout_iff_along {step : σ → ε → σ} {ok : σ → ε → Prop} {P I : σ → Prop}
    (hinv : ∀ s e, I s → P s → P (step s e) → I (step s e))
    (hexact : ∀ s e, I s → P s → (P (step s e) ↔ ok s e)) (s : σ) (es : List ε)
    (hI : I s) (hP : P s) : Throughout step P s es ↔ Along step ok s es :=
  throughout_iff_along_given (fun s e hI hP _ => hinv s e hI hP) (fun s e hI hP _ => hexact s e hI hP) s es
    hI hP (along_true step s es)

end Runs
