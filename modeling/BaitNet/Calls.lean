import BaitNet.Runs

/-!
# Programs that call what lies below them

A program as the calls that it makes and what it does with each result. A handler gives the
calls a meaning over some state; where one handler answers as another does, the program does the
same over both.
-/

/-- The calls of an interface and what each returns. -/
structure Interface where
  Op : Type
  Ret : Op → Type

/-- A program over an interface. -/
inductive Calls (S : Interface) (α : Type) where
  | ret (a : α)
  | call (op : S.Op) (next : S.Ret op → Calls S α)

/-- What each call makes of a state, and what it returns. -/
abbrev Handler (S : Interface) (σ : Type) : Type := ∀ op : S.Op, σ → S.Ret op × σ

namespace Calls

variable {S : Interface} {α β : Type} {σ τ : Type}

def bind : Calls S α → (α → Calls S β) → Calls S β
  | .ret a, f => f a
  | .call op next, f => .call op fun r => (next r).bind f

instance : Monad (Calls S) where
  pure := .ret
  bind := .bind

/-- One call, for its result. -/
def op (x : S.Op) : Calls S (S.Ret x) := .call x .ret

def run (h : Handler S σ) : Calls S α → σ → α × σ
  | .ret a, s => (a, s)
  | .call x next, s => (next (h x s).1).run h (h x s).2

variable (h : Handler S σ)

@[simp] theorem run_pure (a : α) (s : σ) : (pure a : Calls S α).run h s = (a, s) := rfl

@[simp] theorem run_op (x : S.Op) (s : σ) : (op x).run h s = h x s := rfl

@[simp] theorem run_bind (m : Calls S α) (f : α → Calls S β) (s : σ) :
    (m >>= f).run h s = (f (m.run h s).1).run h (m.run h s).2 := by
  induction m generalizing s with
  | ret a => rfl
  | call x next ih => exact ih (h x s).1 (h x s).2

@[simp] theorem run_ite {p : Prop} [Decidable p] (m n : Calls S α) (s : σ) :
    (if p then m else n).run h s = if p then m.run h s else n.run h s := by
  split
  · rfl
  · rfl

/-- What every call keeps, the program keeps. -/
theorem run_keeps {P : σ → Prop} (hstep : ∀ x s, P s → P (h x s).2) (m : Calls S α) {s : σ} (hs : P s) :
    P (m.run h s).2 := by
  induction m generalizing s with
  | ret a => exact hs
  | call x next ih => exact ih (h x s).1 (hstep x s hs)

variable {h} {g : Handler S τ} {R : σ → τ → Prop} {F : τ → Prop}

/-- As long as the lower run stays within bounds that it does not come back to, the upper
handler's answers are the lower one's. -/
theorem run_refines (hback : ∀ x t, F (g x t).2 → F t)
    (hstep : ∀ x s t, R s t → F (g x t).2 → (h x s).1 = (g x t).1 ∧ R (h x s).2 (g x t).2)
    (m : Calls S α) {s : σ} {t : τ} (hr : R s t) (hfits : F (m.run g t).2) :
    (m.run h s).1 = (m.run g t).1 ∧ R (m.run h s).2 (m.run g t).2 := by
  induction m generalizing s t with
  | ret a => exact ⟨rfl, hr⟩
  | call x next ih =>
    have hone : F (g x t).2 := by
      by_contra hno
      have hkeep := run_keeps g (P := fun t' => ¬ F t') (fun y t' hn hf => hn (hback y t' hf))
        (next (g x t).1) hno
      exact hkeep hfits
    obtain ⟨hret, hrel⟩ := hstep x s t hr hone
    have hrest := ih (g x t).1 hrel hfits
    rw [run, run, hret]
    exact hrest

end Calls
