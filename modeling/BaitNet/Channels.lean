import Mathlib

/-!
# Two processes and the channels between them

Each process takes the first item that is on its way to it and puts what it answers behind the
items that are on their way to the other. Which process goes first when both can makes no
difference: a move that is possible is one of those on the way to the end.
-/
namespace Channels

variable {α : Type}

/-- What a process becomes when it takes an item, and the items that it answers with. -/
structure Proc (α : Type) where
  State : Type
  take : State → α → State × List α

/-- Both processes, the items on their way to each, and all that were ever sent to each. -/
structure Pair (procs : Bool → Proc α) where
  st : ∀ i, (procs i).State
  queue : Bool → List α
  log : Bool → List α

variable {procs : Bool → Proc α}

/-- Process `i` takes its next item, if there is one. -/
def Pair.step (n : Pair procs) (i : Bool) : Pair procs :=
  match n.queue i with
  | [] => n
  | x :: rest =>
    let r := (procs i).take (n.st i) x
    { st := Function.update n.st i r.1
      queue := Function.update (Function.update n.queue i rest) (!i) (n.queue (!i) ++ r.2)
      log := Function.update n.log (!i) (n.log (!i) ++ r.2) }

def Pair.Quiet (n : Pair procs) : Prop := ∀ i, n.queue i = []

instance (n : Pair procs) [DecidableEq α] : Decidable n.Quiet :=
  inferInstanceAs (Decidable (∀ i, n.queue i = []))

theorem Pair.step_idle {n : Pair procs} {i : Bool} (h : n.queue i = []) : n.step i = n := by
  rw [Pair.step, h]

theorem Pair.step_cons {n : Pair procs} {i : Bool} {x : α} {rest : List α} (h : n.queue i = x :: rest) :
    n.step i =
      { st := Function.update n.st i ((procs i).take (n.st i) x).1
        queue := Function.update (Function.update n.queue i rest) (!i) (n.queue (!i) ++ ((procs i).take (n.st i) x).2)
        log := Function.update n.log (!i) (n.log (!i) ++ ((procs i).take (n.st i) x).2) } := by
  rw [Pair.step, h]

/-- What is on its way to the other process stays in front. -/
theorem Pair.step_other {n : Pair procs} (i : Bool) : ∃ out, (n.step i).queue (!i) = n.queue (!i) ++ out := by
  cases h : n.queue i with
  | nil => exact ⟨[], by rw [Pair.step_idle h, List.append_nil]⟩
  | cons x rest => exact ⟨((procs i).take (n.st i) x).2, by simp [Pair.step_cons h]⟩

theorem Pair.step_ready {n : Pair procs} {i : Bool} (h : n.queue (!i) ≠ []) : (n.step i).queue (!i) ≠ [] := by
  obtain ⟨out, hout⟩ := n.step_other i
  rw [hout]
  simp [h]

/-- Two processes that can both go may go in either order. -/
theorem Pair.step_comm {n : Pair procs} {i : Bool} (h : n.queue i ≠ []) (h' : n.queue (!i) ≠ []) :
    (n.step i).step (!i) = (n.step (!i)).step i := by
  obtain ⟨x, rest, hx⟩ := List.exists_cons_of_ne_nil h
  obtain ⟨y, rest', hy⟩ := List.exists_cons_of_ne_nil h'
  have hni := Bool.not_ne_self i
  have hfirst : (n.step i).queue (!i) = y :: (rest' ++ ((procs i).take (n.st i) x).2) := by
    simp [Pair.step_cons hx, hy]
  have hsecond : (n.step (!i)).queue i = x :: (rest ++ ((procs (!i)).take (n.st (!i)) y).2) := by
    simp [Pair.step_cons hy, hx]
  rw [Pair.step_cons hfirst, Pair.step_cons hsecond, Pair.step_cons hx, Pair.step_cons hy]
  simp only [Bool.not_not, Function.update_self, Function.update_of_ne hni, Function.update_of_ne hni.symm]
  congr 1
  · exact Function.update_comm hni.symm _ _ _
  · funext j
    rcases Bool.eq_or_eq_not j i with rfl | rfl
    · simp
    · simp
  · exact Function.update_comm hni _ _ _

theorem Pair.step_log (n : Pair procs) (i j : Bool) : n.log j <+: (n.step i).log j := by
  cases h : n.queue i with
  | nil => rw [Pair.step_idle h]
  | cons x rest =>
    rw [Pair.step_cons h]
    rcases Bool.eq_or_eq_not j i with rfl | rfl
    · simp
    · simp

/-- What is on its way is the end of what was sent. -/
def Pair.Logged (n : Pair procs) : Prop := ∀ i, n.queue i <:+ n.log i

theorem Pair.Logged.step {n : Pair procs} (h : n.Logged) (i : Bool) : (n.step i).Logged := by
  cases hq : n.queue i with
  | nil => rwa [Pair.step_idle hq]
  | cons x rest =>
    intro j
    rw [Pair.step_cons hq]
    rcases Bool.eq_or_eq_not j i with rfl | rfl
    · have hrest : rest <:+ n.log j := (List.suffix_cons x rest).trans (hq ▸ h j)
      simpa using hrest
    · obtain ⟨pre, hpre⟩ := h (!i)
      refine ⟨pre, ?_⟩
      simp [← hpre]

/-- A pair from its components, those of process `false` first. -/
def Pair.of (x : (procs false).State) (y : (procs true).State) (q q' l l' : List α) : Pair procs where
  st := fun
    | false => x
    | true => y
  queue := fun
    | false => q
    | true => q'
  log := fun
    | false => l
    | true => l'

theorem Pair.step_false {x : (procs false).State} {y : (procs true).State} {a : α} {q q' l l' : List α} :
    (Pair.of x y (a :: q) q' l l').step false =
      Pair.of ((procs false).take x a).1 y q (q' ++ ((procs false).take x a).2) l
        (l' ++ ((procs false).take x a).2) := by
  rw [Pair.step_cons rfl]
  simp only [Pair.of, Bool.not_false, Pair.mk.injEq]
  refine ⟨?_, ?_, ?_⟩
  all_goals
    funext j
    cases j <;> simp

theorem Pair.step_true {x : (procs false).State} {y : (procs true).State} {a : α} {q q' l l' : List α} :
    (Pair.of x y q (a :: q') l l').step true =
      Pair.of x ((procs true).take y a).1 (q ++ ((procs true).take y a).2) q'
        (l ++ ((procs true).take y a).2) l' := by
  rw [Pair.step_cons rfl]
  simp only [Pair.of, Bool.not_true, Pair.mk.injEq]
  refine ⟨?_, ?_, ?_⟩
  all_goals
    funext j
    cases j <;> simp

/-- From `n` to `m` in so many moves. -/
inductive Leads : Nat → Pair procs → Pair procs → Prop where
  | here (n : Pair procs) : Leads 0 n n
  | move {k : Nat} {n m : Pair procs} (i : Bool) (h : n.queue i ≠ []) (rest : Leads k (n.step i) m) : Leads (k + 1) n m

variable {n m : Pair procs} {k : Nat}

theorem Leads.of_quiet (h : Leads k n m) (hn : n.Quiet) : n = m := by
  cases h with
  | here => rfl
  | move i hi => exact absurd (hn i) hi

/-- A move that is possible is one of those on the way. -/
theorem Leads.strip (h : Leads k n m) (hm : m.Quiet) {i : Bool} (hi : n.queue i ≠ []) :
    ∃ k', k = k' + 1 ∧ Leads k' (n.step i) m := by
  induction h with
  | here => exact absurd (hm i) hi
  | move j hj rest ih =>
    rename_i k n m
    rcases Bool.eq_or_eq_not i j with rfl | rfl
    · exact ⟨k, rfl, rest⟩
    · obtain ⟨k', rfl, hrest⟩ := ih hm (Pair.step_ready hi)
      refine ⟨k' + 1, rfl, .move j ?_ ?_⟩
      · have hready := Pair.step_ready (n := n) (i := !j) (by rwa [Bool.not_not])
        rwa [Bool.not_not] at hready
      · rw [← Pair.step_comm hj hi]
        exact hrest

theorem Leads.trans {k' : Nat} {m' : Pair procs} (h : Leads k n m) (h' : Leads k' m m') : Leads (k + k') n m' := by
  induction h with
  | here n => rwa [Nat.zero_add]
  | move i hi rest ih =>
    rw [Nat.add_right_comm]
    exact .move i hi (ih h')

theorem Leads.move_false {x x' : (procs false).State} {y : (procs true).State} {a : α} {out q q' l l' : List α}
    (h : (procs false).take x a = (x', out)) :
    Leads 1 (Pair.of x y (a :: q) q' l l') (Pair.of x' y q (q' ++ out) l (l' ++ out)) := by
  refine .move false (List.cons_ne_nil a q) ?_
  rw [Pair.step_false, h]
  exact .here _

theorem Leads.move_true {x : (procs false).State} {y y' : (procs true).State} {a : α} {out q q' l l' : List α}
    (h : (procs true).take y a = (y', out)) :
    Leads 1 (Pair.of x y q (a :: q') l l') (Pair.of x y' (q ++ out) q' (l ++ out) l') := by
  refine .move true (List.cons_ne_nil a q') ?_
  rw [Pair.step_true, h]
  exact .here _

/-- What every move keeps holds at the end. -/
theorem Leads.keeps {P : Pair procs → Prop} (hstep : ∀ n i, P n → P (n.step i)) (h : Leads k n m) (hn : P n) : P m := by
  induction h with
  | here n => exact hn
  | move i hi rest ih => exact ih (hstep _ i hn)

/-- All that was sent so far is the beginning of all that is sent. -/
theorem Leads.log (h : Leads k n m) (j : Bool) : n.log j <+: m.log j :=
  h.keeps (P := fun n' => n.log j <+: n'.log j) (fun n' i hpre => hpre.trans (n'.step_log i j)) List.prefix_rfl

end Channels
