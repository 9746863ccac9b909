import BaitNet.Runs

/-!
# Floods

Copies on their way along the arcs of a graph: the receiver of the copy on `a` sends it on
along some of `next a`. Without a cycle every copy has a weight, the number of copies that
can still come of it; with a cycle a machine that passes every copy on never ends.
-/
namespace Flood

open Relation

variable {α : Type*} (next : α → List α)

def Next (a b : α) : Prop := b ∈ next a

/-- One copy is delivered and its receiver sends `sent`. -/
inductive Delivery : List α → List α → List α → Prop
  | deliver (before : List α) (a : α) (after sent : List α) (h : sent.Sublist (next a)) :
    Delivery (before ++ a :: after) sent (before ++ after ++ sent)

variable {next}

/-- Finitely many arcs without a cycle. -/
theorem wellFounded_of_acyclic [Finite α] (h : ∀ a, ¬ TransGen (Next next) a a) :
    WellFounded fun b a => Next next a b := by
  have hirrefl : Std.Irrefl fun b a => TransGen (Next next) a b := ⟨h⟩
  have htrans : IsTrans α fun b a => TransGen (Next next) a b := ⟨fun _ _ _ hab hbc => hbc.trans hab⟩
  have hwf := Finite.wellFounded_of_trans_of_irrefl fun b a => TransGen (Next next) a b
  exact Subrelation.wf (fun hab => TransGen.single hab) hwf

/-- A number that goes down along every arc rules out cycles. -/
theorem acyclic_of_rank (rank : α → Nat) (h : ∀ a b, Next next a b → rank b < rank a) (a : α) :
    ¬ TransGen (Next next) a a := by
  have hlt : ∀ b, TransGen (Next next) a b → rank b < rank a := by
    intro b hab
    induction hab with
    | single hb => exact h a _ hb
    | tail _ hbc ih => exact (h _ _ hbc).trans ih
  exact fun hcycle => lt_irrefl _ (hlt a hcycle)

/-- The copies that can come of one on `a`. -/
noncomputable def weight (hwf : WellFounded fun b a => Next next a b) : α → Nat :=
  hwf.fix fun a ih => ((next a).attach.map fun b => 1 + ih b.1 b.2).sum

variable (hwf : WellFounded fun b a => Next next a b)

theorem weight_eq (a : α) : weight hwf a = ((next a).map fun b => 1 + weight hwf b).sum := by
  rw [weight, hwf.fix_eq]
  simp only [List.map_attach_eq_pmap, List.pmap_eq_map]

/-- The copies that can come of all on their way. -/
noncomputable def load (flight : List α) : Nat := (flight.map (weight hwf)).sum

theorem load_append (l₁ l₂ : List α) : load hwf (l₁ ++ l₂) = load hwf l₁ + load hwf l₂ := by
  rw [load, List.map_append, List.sum_append, load, load]

theorem load_sent (sent : List α) : sent.length + load hwf sent = (sent.map fun b => 1 + weight hwf b).sum := by
  induction sent with
  | nil => rfl
  | cons b sent ih =>
    rw [List.map_cons, List.sum_cons, ← ih, load, List.map_cons, List.sum_cons, List.length_cons, ← load]
    omega

/-- A delivery pays for what it sends. -/
theorem Delivery.load_le {flight sent flight' : List α} (h : Delivery next flight sent flight') :
    sent.length + load hwf flight' ≤ load hwf flight := by
  cases h with
  | deliver before a after sent hsub =>
    have hpaid : sent.length + load hwf sent ≤ weight hwf a := by
      rw [load_sent, weight_eq]
      exact (hsub.map _).sum_le_sum fun _ _ => Nat.zero_le _
    have hcons : load hwf (a :: after) = weight hwf a + load hwf after := by
      rw [load, List.map_cons, List.sum_cons, load]
    rw [load_append, load_append, load_append, hcons]
    omega

section Runs

variable {σ ε : Type*} {step : σ → ε → σ} {flight used : σ → List α}

/-- An event delivers a copy or leaves all on their way. -/
def Delivers (next : α → List α) (flight used : σ → List α) (s s' : σ) : Prop :=
  (flight s' = flight s ∧ used s' = used s) ∨
    ∃ sent, Delivery next (flight s) sent (flight s') ∧ used s' = used s ++ sent

/-- Without a cycle the weight of the first copies bounds all forwardings. -/
theorem used_le {I : σ → Prop} (hstep : ∀ s e, I s → I (step s e) ∧ Delivers next flight used s (step s e))
    (s : σ) (es : List ε) (h : I s) :
    (used (Runs.run step s es)).length + load hwf (flight (Runs.run step s es)) ≤
      (used s).length + load hwf (flight s) := by
  induction es generalizing s with
  | nil => exact le_rfl
  | cons e es ih =>
    obtain ⟨hkept, hdeliver⟩ := hstep s e h
    refine (ih (step s e) hkept).trans ?_
    rcases hdeliver with ⟨hflight, hused⟩ | ⟨sent, hsent, hused⟩
    · rw [hflight, hused]
    · have hle := hsent.load_le hwf
      rw [hused, List.length_append]
      omega

variable {P : σ → α → Prop}
  (hpass : ∀ s a b, P s a → Next next a b → ∃ es, P (Runs.run step s es) b ∧
    (used s).length < (used (Runs.run step s es)).length)
include hpass

/-- A copy that is always passed on gets along every path. -/
theorem pass_along {s : σ} {a b : α} (h : P s a) (hpath : TransGen (Next next) a b) :
    ∃ es, P (Runs.run step s es) b ∧ (used s).length < (used (Runs.run step s es)).length := by
  induction hpath with
  | single hab => exact hpass s a _ h hab
  | tail _ hbc ih =>
    obtain ⟨es, hb, hlt⟩ := ih
    obtain ⟨fs, hc, hlt'⟩ := hpass _ _ _ hb hbc
    refine ⟨es ++ fs, ?_, ?_⟩
    · rwa [Runs.run_append]
    · rw [Runs.run_append]
      exact hlt.trans hlt'

/-- Around a cycle it is forwarded without a bound. -/
theorem unbounded_of_cycle {s : σ} {a : α} (h : P s a) (hcycle : TransGen (Next next) a a) (N : Nat) :
    ∃ es, N ≤ (used (Runs.run step s es)).length := by
  have hround : ∃ es, P (Runs.run step s es) a ∧ N ≤ (used (Runs.run step s es)).length := by
    induction N with
    | zero => exact ⟨[], h, Nat.zero_le _⟩
    | succ N ih =>
      obtain ⟨es, ha, hle⟩ := ih
      obtain ⟨fs, ha', hlt⟩ := pass_along hpass ha hcycle
      refine ⟨es ++ fs, ?_, ?_⟩
      · rwa [Runs.run_append]
      · rw [Runs.run_append]
        omega
  obtain ⟨es, -, hle⟩ := hround
  exact ⟨es, hle⟩

end Runs

end Flood
