import BaitNet.BiteSchedules

/-!
# Deadlines

Either loop of a fetch runs for so many seconds only, and leaves in silence when they are over: to
the other process that is no different from a process that does not poll any more. What the
server does afterwards, which is to wait for the next association, is left out.
-/
namespace Bite

open Wire Link Crypto Interop Channels Runs

/-- A poll, or the end of the time that process `i` has. -/
inductive TimedEv where
  | poll (ev : SegmentEv)
  | deadline (i : Bool)
  deriving DecidableEq

variable {g : Bool → Program}

/-- Process `i` leaves its loop, if it is still in it. -/
def Segment.expire (n : Segment g) (i : Bool) : Segment g :=
  if (g i).left (n.proc i).app then n
  else { n with proc := Function.update n.proc i { n.proc i with app := (g i).late (n.proc i).app } }

def Segment.timed (c : TweetNaCl) (e : Bool → Circumstances) (n : Segment g) : TimedEv → Segment g
  | .poll ev => n.step c e ev
  | .deadline i => n.expire i

section Timed

variable {c : TweetNaCl} {e : Bool → Circumstances} {s s' : Segment g}

theorem Segment.round_left {i : Bool} (rx : Icsp.Rx) (h : (g i).left (s.proc i).app = true) : s.round c e i rx = s := by
  rw [Segment.round, Process.round_left c (e i) rx h]
  simp

/-- A process that has left its loop stays as it is. -/
theorem Segment.timed_left {j : Bool} (h : (g j).left (s.proc j).app = true) (ev : TimedEv) :
    (s.timed c e ev).proc j = s.proc j := by
  have hround : ∀ (n : Segment g) (i : Bool) (rx : Icsp.Rx), (g j).left (n.proc j).app = true →
      (n.round c e i rx).proc j = n.proc j := by
    intro n i rx hn
    rcases Bool.eq_or_eq_not j i with rfl | rfl
    · rw [Segment.round_left rx hn]
    · exact Function.update_of_ne (Bool.not_ne_self i) _ _
  cases ev with
  | poll ev =>
    cases ev with
    | timeout i => exact hround s i .timedOut h
    | frame i =>
      rw [Segment.timed, Segment.step]
      split
      · rfl
      · exact hround _ i _ h
  | deadline i =>
    rw [Segment.timed, Segment.expire]
    split
    · rfl
    · rename_i hin
      refine Function.update_of_ne ?_ _ _
      rintro rfl
      exact hin h

/-- Until either process's time is over, the segment is as the polls make it. -/
theorem Segment.after_polls {es : ℕ → SegmentEv} {ts : ℕ → TimedEv} {n : ℕ} (h : ∀ m < n, ts m = .poll (es m)) :
    after (Segment.timed c e) s ts n = after (Segment.step c e) s es n := by
  induction n with
  | zero => rfl
  | succ n ih =>
    rw [after_succ, after_succ, ih fun m hm => h m (Nat.lt_succ_of_lt hm), h n (Nat.lt_succ_self n)]
    rfl

/-- Apart from the processes whose time is over, which have left, `s` is `s'`. -/
structure Shadow (gone : Bool → Bool) (s s' : Segment g) : Prop where
  proc : ∀ i, gone i = false → s.proc i = s'.proc i
  wire : ∀ i, gone i = false → s.wire i = s'.wire i
  left : ∀ i, gone i = true → (g i).left (s.proc i).app = true

theorem Shadow.refl (s : Segment g) : Shadow (fun _ => false) s s :=
  ⟨fun _ _ => rfl, fun _ _ => rfl, fun _ h => nomatch h⟩

variable {gone : Bool → Bool}

theorem Shadow.round (h : Shadow gone s s') {i : Bool} (hi : gone i = false) (rx : Icsp.Rx) :
    Shadow gone (s.round c e i rx) (s'.round c e i rx) := by
  have hni := Bool.not_ne_self i
  constructor
  · intro j hj
    rcases Bool.eq_or_eq_not j i with rfl | rfl
    · simp [Segment.round, h.proc j hj]
    · simp [Segment.round, h.proc _ hj]
  · intro j hj
    rcases Bool.eq_or_eq_not j i with rfl | rfl
    · simp [Segment.round, h.wire j hj]
    · simp [Segment.round, h.wire _ hj, h.proc i hi]
  · intro j hj
    have hne : j ≠ i := by
      rintro rfl
      rw [hi] at hj
      cases hj
    simpa [Segment.round, hne] using h.left j hj

/-- A frame that a process takes notice of or not. -/
theorem Shadow.taken (h : Shadow gone s s') {i : Bool} (hi : gone i = false) (rest : List Bytes) :
    Shadow gone (s.taken i rest) (s'.taken i rest) := by
  refine ⟨h.proc, fun j hj => ?_, h.left⟩
  rcases Bool.eq_or_eq_not j i with rfl | rfl
  · simp [Segment.taken]
  · simp [Segment.taken, h.wire _ hj]

/-- A frame that comes too late. -/
theorem Shadow.dropped (h : Shadow gone s s') {i : Bool} (hi : gone i = true) (rest : List Bytes) :
    Shadow gone (s.taken i rest) s' := by
  refine ⟨h.proc, fun j hj => ?_, h.left⟩
  have hne : j ≠ i := by
    rintro rfl
    rw [hi] at hj
    cases hj
  simp [Segment.taken, hne, h.wire j hj]

/-- A poll is one for the shadow too, unless it comes too late. -/
theorem Shadow.poll (h : Shadow gone s s') (ev : SegmentEv) :
    ∃ evs, Shadow gone (s.step c e ev) (run (Segment.step c e) s' evs) := by
  have hlate : ∀ (n : Segment g) (i : Bool) (rx : Icsp.Rx), Shadow gone n s' → gone i = true →
      Shadow gone (n.round c e i rx) s' := by
    intro n i rx hn hi
    rwa [Segment.round_left rx (hn.left i hi)]
  cases ev with
  | timeout i =>
    cases hi : gone i with
    | true => exact ⟨[], hlate s i .timedOut h hi⟩
    | false => exact ⟨[.timeout i], h.round hi .timedOut⟩
  | frame i =>
    cases hi : gone i with
    | true =>
      refine ⟨[], ?_⟩
      rw [Segment.step]
      split
      · exact h
      · exact hlate _ i _ (h.dropped hi _) hi
    | false =>
      refine ⟨[.frame i], ?_⟩
      rw [run_cons, run_nil, Segment.step, Segment.step, ← h.wire i hi]
      split
      · exact h
      · rw [← h.proc i hi]
        exact (h.taken hi _).round hi _

theorem Segment.expire_left {i : Bool} (h : (g i).left (s.proc i).app = true) : s.expire i = s := if_pos h

theorem Segment.expire_in {i : Bool} (h : ¬ (g i).left (s.proc i).app = true) :
    s.expire i =
      { s with proc := Function.update s.proc i { s.proc i with app := (g i).late (s.proc i).app } } := if_neg h

/-- Process `i` is not polled any more. -/
theorem Shadow.expire (h : Shadow gone s s') {i : Bool} (hin : ¬ (g i).left (s.proc i).app = true)
    (hlate : ∀ st, (g i).left ((g i).late st) = true) : Shadow (Function.update gone i true) (s.expire i) s' := by
  have hothers : ∀ j, Function.update gone i true j = false → j ≠ i ∧ gone j = false := by
    intro j hj
    by_cases hne : j = i
    · subst hne
      simp at hj
    · exact ⟨hne, by simpa [hne] using hj⟩
  rw [Segment.expire_in hin]
  refine ⟨fun j hj => ?_, fun j hj => h.wire j (hothers j hj).2, fun j hj => ?_⟩
  · obtain ⟨hne, hstays⟩ := hothers j hj
    simp [hne, h.proc j hstays]
  · by_cases hne : j = i
    · subst hne
      simpa using hlate _
    · simpa [hne] using h.left j (by simpa [hne] using hj)

end Timed

namespace Visit

variable {c : TweetNaCl} (v : Visit c)

theorem late_left (i : Bool) (st : (v.programs i).State) : (v.programs i).left ((v.programs i).late st) = true := by
  cases i with
  | false => rfl
  | true => rfl

/-- What the client can be after these events. -/
def Outcome (evs : List TimedEv) (st : Fetching) : Prop :=
  st.exit = none ∧ st.got = none ∧ .deadline false ∉ evs ∨
    st.exit = some 0 ∧ st.got = some v.response ∧ v.response.length ≤ 979 ∨
      st.exit = some 1 ∧ st.got = none ∧ .deadline false ∈ evs

/-- The segment as polls alone would have made it, and when the client's time was over before it had
the response. -/
structure Traced (e : Bool → Circumstances) (s₀ s : Segment v.programs) (evs : List TimedEv) (gone : Bool → Bool)
    (polls : List SegmentEv) : Prop where
  shadow : Shadow gone s (run (Segment.step c e) s₀ polls)
  late : gone false = true → (v.client s).exit = some 1 ∧ (v.client s).got = none ∧ .deadline false ∈ evs
  ended : .deadline false ∈ evs → (v.client s).exit.isSome = true

/-- A client that has left is as it was, whatever happens. -/
theorem client_left {s : Segment v.programs} (e : Bool → Circumstances) (ev : TimedEv)
    (h : (v.client s).exit.isSome = true) : v.client (s.timed c e ev) = v.client s :=
  congrArg (Process.app ·) (Segment.timed_left (j := false) h ev)

variable {v} {e : Bool → Circumstances} {s₀ s : Segment v.programs} {evs : List TimedEv} {gone : Bool → Bool}
variable {polls : List SegmentEv}

theorem Traced.poll (h : v.Traced e s₀ s evs gone polls) (ev : SegmentEv) :
    ∃ polls', v.Traced e s₀ (s.timed c e (.poll ev)) (evs ++ [.poll ev]) gone polls' := by
  obtain ⟨more, hmore⟩ := h.shadow.poll (c := c) (e := e) ev
  have hmem : .deadline false ∈ evs ++ [.poll ev] ↔ .deadline false ∈ evs := by simp
  refine ⟨polls ++ more, ?_, fun hgone => ?_, fun hin => ?_⟩
  · rw [run_append]
    exact hmore
  · obtain ⟨hexit, hgot, hin⟩ := h.late hgone
    rw [v.client_left e _ (by rw [hexit]; rfl)]
    exact ⟨hexit, hgot, hmem.mpr hin⟩
  · have hleft := h.ended (hmem.mp hin)
    rwa [v.client_left e _ hleft]

/-- The other process's time is over. -/
theorem Traced.deadline_server (h : v.Traced e s₀ s evs gone polls) :
    ∃ gone', v.Traced e s₀ (s.timed c e (.deadline true)) (evs ++ [.deadline true]) gone' polls := by
  have hmem : .deadline false ∈ evs ++ [.deadline true] ↔ .deadline false ∈ evs := by simp
  by_cases hleft : (v.programs true).left (s.proc true).app = true
  · refine ⟨gone, ?_⟩
    rw [Segment.timed, Segment.expire_left hleft]
    exact ⟨h.shadow, fun hgone => by simpa using h.late hgone, fun hin => h.ended (hmem.mp hin)⟩
  · have hsame : v.client (s.expire true) = v.client s := by
      rw [Segment.expire_in hleft]
      rfl
    refine ⟨Function.update gone true true, h.shadow.expire hleft (v.late_left true), fun hgone => ?_, fun hin => ?_⟩
    · rw [Segment.timed, hsame]
      simpa using h.late (by simpa using hgone)
    · rw [Segment.timed, hsame]
      exact h.ended (hmem.mp hin)

/-- A client whose time is over before it left has nothing. -/
theorem Traced.deadline_client (h : v.Traced e s₀ s evs gone polls)
    (hwaits : (v.client (run (Segment.step c e) s₀ polls)).exit = none →
      (v.client (run (Segment.step c e) s₀ polls)).got = none) :
    ∃ gone', v.Traced e s₀ (s.timed c e (.deadline false)) (evs ++ [.deadline false]) gone' polls := by
  by_cases hleft : (v.programs false).left (s.proc false).app = true
  · refine ⟨gone, ?_⟩
    rw [Segment.timed, Segment.expire_left hleft]
    refine ⟨h.shadow, fun hgone => ?_, fun _ => hleft⟩
    obtain ⟨hexit, hgot, hin⟩ := h.late hgone
    exact ⟨hexit, hgot, List.mem_append_left _ hin⟩
  · have hstays : gone false = false := by
      by_contra hgone
      exact hleft (h.shadow.left false (by simpa using hgone))
    have hsame : v.client s = v.client (run (Segment.step c e) s₀ polls) :=
      congrArg (Process.app ·) (h.shadow.proc false hstays)
    have hexit : (v.client s).exit = none := Option.not_isSome_iff_eq_none.mp hleft
    have hgot : (v.client s).got = none := by
      rw [hsame] at hexit ⊢
      exact hwaits hexit
    have hnow : v.client (s.timed c e (.deadline false)) = { v.client s with exit := some 1 } := by
      rw [Segment.timed, Segment.expire_in hleft]
      rfl
    refine ⟨Function.update gone false true, h.shadow.expire hleft (v.late_left false), fun _ => ?_, fun _ => ?_⟩
    · rw [hnow]
      exact ⟨rfl, hgot, by simp⟩
    · rw [hnow]
      rfl

variable (v)

theorem run_traced {l : Line} {k : Bool → Conn} (hfresh : ∀ i, Fresh l i (k i).host.assoc)
    (hfirst : ∀ i, l.first i + 208 < 2 ^ 32) (evs : List TimedEv) :
    ∃ gone polls, v.Traced e (v.segment e k) (run (Segment.timed c e) (v.segment e k) evs) evs gone polls := by
  induction evs using List.reverseRecOn with
  | nil => exact ⟨fun _ => false, [], .refl _, (fun h => nomatch h), (fun h => nomatch h)⟩
  | append_singleton evs ev ih =>
    obtain ⟨gone, polls, htraced⟩ := ih
    rw [run_append]
    cases ev with
    | poll ev =>
      obtain ⟨polls', h⟩ := htraced.poll ev
      exact ⟨gone, polls', h⟩
    | deadline i =>
      have hended : ∃ gone', v.Traced e (v.segment e k)
          ((run (Segment.timed c e) (v.segment e k) evs).timed c e (.deadline i)) (evs ++ [.deadline i]) gone'
            polls := by
        cases i with
        | true => exact htraced.deadline_server
        | false =>
          refine htraced.deadline_client fun hexit => ?_
          rcases v.client_polls l e k hfresh hfirst polls with ⟨-, hgot⟩ | ⟨hzero, -⟩
          · exact hgot
          · rw [hexit] at hzero
            cases hzero
      obtain ⟨gone', h⟩ := hended
      exact ⟨gone', polls, h⟩

/-- A page of two bytes, and the association that it is fetched over. -/
def page : Visit toy where
  setup := toySetup
  rnd := .zero 32
  fs := fun path => if path = ascii "./a" then some ⟨some 2, [104, 105]⟩ else none
  root := ascii "."
  meth := ascii "BITE"
  path := ascii "/a"
  meth_short := by decide
  path_short := by decide
  readable := by decide

def pageLine : Line where
  assocId := 5
  mac := fun i => if i then pad 6 [3] else pad 6 [4]
  addr := fun i => if i then 3 else 4
  key := fun _ => .zero 32
  mac_ne := by decide
  addr_lt := by decide
  first := fun _ => 1000

def pageConn (i : Bool) : Conn := ⟨0, ⟨pageLine.opened i, .zero⟩⟩

/-- The client has the response and the server has heard the goodbye. -/
def Fetched (s : Segment v.programs) : Prop :=
  (v.client s).exit = some 0 ∧ (v.client s).got = some v.response ∧ (v.server s).left = true

instance (s : Segment v.programs) : Decidable (v.Fetched s) := inferInstanceAs (Decidable (_ ∧ _ ∧ _))

theorem Fetched.timed {v : Visit c} {s : Segment v.programs} (h : v.Fetched s) (e : Bool → Circumstances)
    (ev : TimedEv) : v.Fetched (s.timed c e ev) := by
  obtain ⟨hexit, hgot, hleft⟩ := h
  have hserver : v.server (s.timed c e ev) = v.server s :=
    congrArg (Process.app ·) (Segment.timed_left (j := true) hleft ev)
  have hclient := v.client_left e ev (by rw [hexit]; rfl)
  exact ⟨by rw [hclient, hexit], by rw [hclient, hgot], by rw [hserver, hleft]⟩

end Visit

end Bite
