import Mathlib.Data.List.Basic

/-!
# Lexical paths

A path is a text over some alphabet with two distinguished characters, the separator and
the dot. It is cut at its separators, and its segments are followed from a directory, which
is given by its own segments, innermost first: a segment of two dots goes up, and the top
is its own parent. What is behind a symbolic link is not followed.
-/
namespace Paths

variable {α : Type} [DecidableEq α] (sep dot : α)

def segments (path : List α) : List (List α) := path.splitOn sep

/-- One segment followed: none at all and a single dot stay where they are. -/
def enter (dir : List (List α)) (s : List α) : List (List α) :=
  if s = [] ∨ s = [dot] then dir else if s = [dot, dot] then dir.tail else s :: dir

/-- Where a path leads to from `dir`; one that begins with a separator starts at the top. -/
def resolve (dir : List (List α)) (path : List α) : List (List α) :=
  (segments sep path).foldl (enter dot) (if path.head? = some sep then [] else dir)

/-- From everywhere the path leads to something at or below what `root` leads to. -/
def Below (root path : List α) : Prop :=
  ∀ dir, ∃ names, resolve sep dot dir path = names ++ resolve sep dot dir root

@[simp] theorem enter_nil (dir : List (List α)) : enter dot dir [] = dir := by simp [enter]

@[simp] theorem enter_up (dir : List (List α)) : enter dot dir [dot, dot] = dir.tail := by simp [enter]

/-- Only two dots leave a directory. -/
theorem enter_below {s : List α} (h : s ≠ [dot, dot]) (dir : List (List α)) :
    ∃ names, enter dot dir s = names ++ dir := by
  rw [enter, if_neg h]
  split
  · exact ⟨[], rfl⟩
  · exact ⟨[s], rfl⟩

theorem walk_below {ss : List (List α)} (h : [dot, dot] ∉ ss) (dir : List (List α)) :
    ∃ names, ss.foldl (enter dot) dir = names ++ dir := by
  induction ss generalizing dir with
  | nil => exact ⟨[], rfl⟩
  | cons s ss ih =>
    obtain ⟨hs, hss⟩ := not_or.mp (mt List.mem_cons.mpr h)
    obtain ⟨first, hfirst⟩ := enter_below dot (Ne.symm hs) dir
    obtain ⟨names, hnames⟩ := ih hss (first ++ dir)
    refine ⟨names ++ first, ?_⟩
    rw [List.foldl_cons, hfirst, hnames, List.append_assoc]

theorem segments_append (a b : List α) : segments sep (a ++ sep :: b) = segments sep a ++ segments sep b :=
  List.splitOn_append_cons_self a b

theorem segments_ne_nil (s : List α) : segments sep s ≠ [] := List.splitOn_ne_nil sep s

theorem resolve_append {root : List α} (hroot : root ≠ []) (dir : List (List α)) (path : List α) :
    resolve sep dot dir (root ++ sep :: path) =
      (segments sep path).foldl (enter dot) (resolve sep dot dir root) := by
  have hhead : (root ++ sep :: path).head? = root.head? := by
    cases root with
    | nil => exact absurd rfl hroot
    | cons x root => rfl
  rw [resolve, segments_append, List.foldl_append, hhead, ← resolve]

/-- A path put behind a root does not leave it, unless one of its segments goes up. -/
theorem below_append {root : List α} (hroot : root ≠ []) {path : List α}
    (h : [dot, dot] ∉ segments sep path) : Below sep dot root (root ++ sep :: path) := by
  intro dir
  rw [resolve_append sep dot hroot]
  exact walk_below dot h (resolve sep dot dir root)

/-- Two dots at the end or before a separator. -/
def upHere (s : List α) : Bool :=
  match s with
  | a :: b :: r => a = dot ∧ b = dot ∧ r.head?.all (· = sep)
  | _ => false

/-- Two dots between a separator and a separator or the end. -/
def climbs : List α → Bool
  | [] => false
  | x :: s => (x = sep ∧ upHere sep dot s) || climbs s

variable {sep dot}

theorem segments_cons (x : α) (s : List α) :
    segments sep (x :: s) =
      if x = sep then [] :: segments sep s else (segments sep s).modifyHead (List.cons x) := by
  have h := List.splitOn_cons_eq_if_modifyHead (a := sep) x s
  simpa [segments] using h

theorem upHere_iff (hne : sep ≠ dot) (s : List α) :
    upHere sep dot s = true ↔ (segments sep s).head? = some [dot, dot] := by
  match s with
  | [] => simp [upHere, segments]
  | [a] =>
    rw [segments_cons]
    by_cases ha : a = sep <;> simp [upHere, ha, segments]
  | a :: b :: r =>
    rw [segments_cons, segments_cons]
    by_cases ha : a = sep
    · simp [upHere, ha, hne]
    · by_cases hb : b = sep
      · simp [upHere, ha, hb, hne]
      · cases r with
        | nil => simp [upHere, ha, hb, segments]
        | cons x r =>
          rw [segments_cons]
          obtain ⟨y, ys, hy⟩ := List.exists_cons_of_ne_nil (segments_ne_nil sep r)
          by_cases hx : x = sep <;> simp [upHere, ha, hb, hx, hy]

/-- Behind the first segment, a segment of two dots is where the scan finds one. -/
theorem climbs_iff (hne : sep ≠ dot) (s : List α) :
    climbs sep dot s = true ↔ [dot, dot] ∈ (segments sep s).tail := by
  induction s with
  | nil => simp [climbs, segments]
  | cons x s ih =>
    obtain ⟨y, ys, hy⟩ := List.exists_cons_of_ne_nil (segments_ne_nil sep s)
    have hup := upHere_iff hne s
    rw [climbs, Bool.or_eq_true, ih, segments_cons]
    rw [hy] at hup ⊢
    by_cases hx : x = sep
    · simp [hx, hup, eq_comm]
    · simp [hx]

/-- Cutting at a character and renaming the characters commute. -/
theorem splitOn_map {β : Type} [DecidableEq β] {f : α → β} (hf : Function.Injective f)
    (a : α) (s : List α) : (s.map f).splitOn (f a) = (s.splitOn a).map (List.map f) := by
  induction s with
  | nil => simp
  | cons x s ih =>
    rw [List.map_cons, List.splitOn_cons_eq_if_modifyHead, List.splitOn_cons_eq_if_modifyHead, ih]
    have heq : (f x == f a) = (x == a) := by
      rw [Bool.eq_iff_iff]
      simp [hf.eq_iff]
    rw [heq]
    split
    · rfl
    · cases s.splitOn a <;> rfl

theorem enter_map {β : Type} [DecidableEq β] {f : α → β} (hf : Function.Injective f) (dir : List (List α)) (s : List α) :
    enter (f dot) (dir.map (List.map f)) (s.map f) = (enter dot dir s).map (List.map f) := by
  have hinj : ∀ a b : List α, a.map f = b.map f ↔ a = b := fun a b => (List.map_injective_iff.mpr hf).eq_iff
  have hone := hinj s [dot]
  have htwo := hinj s [dot, dot]
  simp only [List.map_cons, List.map_nil] at hone htwo
  simp only [enter, hone, htwo, List.map_eq_nil_iff]
  split
  · rfl
  · split
    · exact List.map_tail.symm
    · rfl

theorem resolve_map {β : Type} [DecidableEq β] {f : α → β} (hf : Function.Injective f) (dir : List (List α))
    (path : List α) :
    resolve (f sep) (f dot) (dir.map (List.map f)) (path.map f) = (resolve sep dot dir path).map (List.map f) := by
  have hwalk : ∀ (ss dir : List (List α)), (ss.map (List.map f)).foldl (enter (f dot)) (dir.map (List.map f)) =
      (ss.foldl (enter dot) dir).map (List.map f) := by
    intro ss
    induction ss with
    | nil => exact fun dir => rfl
    | cons s ss ih =>
      intro dir
      rw [List.map_cons, List.foldl_cons, List.foldl_cons, enter_map hf, ih]
  have hhead : (path.map f).head? = some (f sep) ↔ path.head? = some sep := by
    cases path with
    | nil => simp
    | cons x path => simpa using hf.eq_iff
  rw [resolve, resolve, segments, splitOn_map hf, ← segments]
  by_cases habs : path.head? = some sep
  · rw [if_pos (hhead.mpr habs), if_pos habs]
    exact hwalk _ []
  · rw [if_neg (fun h => habs (hhead.mp h)), if_neg habs]
    exact hwalk _ dir

/-- More separators in a row mean no more than one. -/
theorem walk_dropWhile (dir : List (List α)) (path : List α) :
    (segments sep (path.dropWhile (· = sep))).foldl (enter dot) dir = (segments sep path).foldl (enter dot) dir := by
  induction path with
  | nil => rfl
  | cons x path ih =>
    by_cases hx : x = sep
    · rw [List.dropWhile_cons_of_pos (by simp [hx]), ih, segments_cons, if_pos hx, List.foldl_cons, enter_nil]
    · rw [List.dropWhile_cons_of_neg (by simp [hx])]

/-- What a path leads to is made of its own segments and those of the directory. -/
theorem resolve_mem {dir : List (List α)} {path s : List α} (h : s ∈ resolve sep dot dir path) :
    s ∈ dir ∨ s ∈ segments sep path := by
  have hwalk : ∀ (ss : List (List α)) (dir : List (List α)), s ∈ ss.foldl (enter dot) dir → s ∈ dir ∨ s ∈ ss := by
    intro ss
    induction ss with
    | nil => exact fun dir h => .inl h
    | cons x ss ih =>
      intro dir h
      rcases ih _ h with hdir | hss
      · rw [enter] at hdir
        split at hdir
        · exact .inl hdir
        · split at hdir
          · exact .inl (List.mem_of_mem_tail hdir)
          · rcases List.mem_cons.mp hdir with rfl | hdir
            · exact .inr List.mem_cons_self
            · exact .inl hdir
      · exact .inr (List.mem_cons_of_mem x hss)
  rcases hwalk _ _ h with hstart | hseg
  · split at hstart
    · cases hstart
    · exact .inl hstart
  · exact .inr hseg

/-- A segment has no characters but those of the path. -/
theorem segments_subset {path s : List α} (h : s ∈ segments sep path) : s ⊆ path := by
  induction path generalizing s with
  | nil => simp_all [segments]
  | cons x path ih =>
    obtain ⟨y, ys, hy⟩ := List.exists_cons_of_ne_nil (segments_ne_nil sep path)
    rw [segments_cons] at h
    split at h
    · rcases List.mem_cons.mp h with rfl | h
      · exact List.nil_subset _
      · exact fun c hc => List.mem_cons_of_mem x (ih h hc)
    · rw [hy, List.modifyHead_cons] at h
      rcases List.mem_cons.mp h with rfl | h
      · intro c hc
        rcases List.mem_cons.mp hc with rfl | hc
        · exact List.mem_cons_self
        · exact List.mem_cons_of_mem x (ih (hy ▸ List.mem_cons_self) hc)
      · exact fun c hc => List.mem_cons_of_mem x (ih (hy ▸ List.mem_cons_of_mem y h) hc)

end Paths
