import BaitNet.Paths

/-!
# Disks without links

What the segments of a path lead to on a disk of files and directories. A segment is followed
from a directory only, so the walk fails at the first one that is missing, that stands behind a
file, or that no directory can hold.
-/
namespace Paths

/-- `γ` is what a file holds and `δ` what is known of a directory. -/
inductive Node (γ δ : Type) where
  | file (content : γ)
  | directory (info : δ)

/-- Why nothing is found. -/
inductive Errno where
  | enoent | enotdir | enametoolong
  deriving DecidableEq

/-- The longest name of a directory entry. -/
def nameMax : Nat := 255

/-- What the segments, innermost first, lead to. What is there has a name and is in a directory. -/
structure Tree (α γ δ : Type) (dot : α) where
  node : List (List α) → Option (Node γ δ)
  named : ∀ name dir, (node (name :: dir)).isSome = true →
    (name ≠ [] ∧ name ≠ [dot] ∧ name ≠ [dot, dot]) ∧ name.length ≤ nameMax
  inside : ∀ name dir, (node (name :: dir)).isSome = true → ∃ info, node dir = some (.directory info)

variable {α γ δ : Type} [DecidableEq α] {dot : α}

/-- Where the segments lead to from `dir`. -/
def Tree.walk (t : Tree α γ δ dot) : List (List α) → List (List α) → Except Errno (Node γ δ)
  | dir, [] =>
    match t.node dir with
    | some x => .ok x
    | none => .error .enoent
  | dir, s :: rest =>
    match t.node dir with
    | some (.directory _) => if nameMax < s.length then .error .enametoolong else t.walk (enter dot dir s) rest
    | some (.file _) => .error .enotdir
    | none => .error .enoent

namespace Tree

variable {t : Tree α γ δ dot} {dir : List (List α)}

theorem walk_nil : t.walk dir [] = match t.node dir with
    | some x => .ok x
    | none => .error .enoent := rfl

/-- From a directory the next segment is followed. -/
theorem walk_cons {info : δ} (h : t.node dir = some (.directory info)) (s : List α) (rest : List (List α)) :
    t.walk dir (s :: rest) =
      if nameMax < s.length then .error .enametoolong else t.walk (enter dot dir s) rest := by
  rw [walk, h]

/-- What is found is where the segments lead to. -/
theorem walk_ok {ss : List (List α)} {x : Node γ δ} (h : t.walk dir ss = .ok x) :
    t.node (ss.foldl (enter dot) dir) = some x := by
  induction ss generalizing dir with
  | nil =>
    rw [walk] at h
    split at h
    · rename_i y hy
      exact hy.trans (congrArg some (Except.ok.inj h))
    · cases h
  | cons s ss ih =>
    rw [walk] at h
    split at h
    · split at h
      · cases h
      · exact ih h
    · cases h
    · cases h

/-- Behind a directory the walk starts afresh. -/
theorem walk_append {ss : List (List α)} {info : δ} (h : t.walk dir ss = .ok (.directory info)) (rest : List (List α)) :
    t.walk dir (ss ++ rest) = t.walk (ss.foldl (enter dot) dir) rest := by
  induction ss generalizing dir with
  | nil => rfl
  | cons s ss ih =>
    rw [walk] at h
    split at h
    · rename_i info' hdir
      split at h
      · cases h
      · rename_i hlen
        rw [List.cons_append, walk_cons hdir, if_neg hlen, List.foldl_cons]
        exact ih h
    · cases h
    · cases h

/-- A segment that stays where it is makes no difference in front of another one. -/
theorem walk_stay {s : List α} (hs : s = [] ∨ s = [dot]) {rest : List (List α)} (hrest : rest ≠ []) :
    t.walk dir (s :: rest) = t.walk dir rest := by
  obtain ⟨s', rest', rfl⟩ := List.exists_cons_of_ne_nil hrest
  have hlen : ¬ nameMax < s.length := by
    rcases hs with rfl | rfl
    · exact Nat.not_lt_zero _
    · exact (by decide : ¬ 255 < 1)
  have henter : enter dot dir s = dir := if_pos hs
  rw [walk]
  split
  · rw [if_neg hlen, henter]
  · rename_i hfile
    rw [walk, hfile]
  · rename_i hnone
    rw [walk, hnone]

/-- The segments that a path leads through, without those that stay. -/
def names (dot : α) (ss : List (List α)) : List (List α) := ss.filter fun s => s ≠ [] ∧ s ≠ [dot]

theorem names_stay {s : List α} (h : s = [] ∨ s = [dot]) (ss : List (List α)) : names dot (s :: ss) = names dot ss :=
  List.filter_cons_of_neg (by simpa [or_iff_not_imp_left] using h)

theorem names_keep {s : List α} (h : ¬ (s = [] ∨ s = [dot])) (ss : List (List α)) :
    names dot (s :: ss) = s :: names dot ss :=
  List.filter_cons_of_pos (by simpa [not_or] using h)

/-- In front of another segment those that stay make no difference. -/
theorem walk_names (ss : List (List α)) (name : List α) :
    t.walk dir (ss ++ [name]) = t.walk dir (names dot ss ++ [name]) := by
  induction ss generalizing dir with
  | nil => rfl
  | cons s ss ih =>
    have hne : ∀ xs : List (List α), xs ++ [name] ≠ [] := fun xs => by simp
    by_cases hs : s = [] ∨ s = [dot]
    · rw [List.cons_append, walk_stay hs (hne ss), names_stay hs, ih]
    · rw [names_keep hs, List.cons_append, List.cons_append, walk, walk]
      simp only [ih]

/-- Without two dots the walk only goes down. -/
theorem foldl_names {ss : List (List α)} (h : [dot, dot] ∉ ss) :
    ss.foldl (enter dot) dir = (names dot ss).reverse ++ dir := by
  induction ss generalizing dir with
  | nil => rfl
  | cons s ss ih =>
    obtain ⟨hs, hss⟩ := not_or.mp (mt List.mem_cons.mpr h)
    rw [List.foldl_cons, ih hss, enter, if_neg (Ne.symm hs)]
    by_cases hstay : s = [] ∨ s = [dot]
    · rw [if_pos hstay, names_stay hstay]
    · rw [if_neg hstay, names_keep hstay, List.reverse_cons, List.append_assoc]
      rfl

/-- A directory is reached from the top by its own segments. -/
theorem walk_top {info : δ} (h : t.node dir = some (.directory info)) :
    t.walk [] dir.reverse = .ok (.directory info) ∧ dir.reverse.foldl (enter dot) [] = dir := by
  induction dir generalizing info with
  | nil => exact ⟨by rw [List.reverse_nil, walk_nil, h], rfl⟩
  | cons name dir ih =>
    have hsome : (t.node (name :: dir)).isSome = true := by rw [h]; rfl
    obtain ⟨info', hdir⟩ := t.inside name dir hsome
    obtain ⟨hname, hlen⟩ := t.named name dir hsome
    obtain ⟨hwalk, hfold⟩ := ih hdir
    have henter : enter dot dir name = name :: dir := by
      rw [enter, if_neg (not_or.mpr ⟨hname.1, hname.2.1⟩), if_neg hname.2.2]
    rw [List.reverse_cons]
    constructor
    · rw [walk_append hwalk, hfold, walk_cons hdir, if_neg (Nat.not_lt.mpr hlen), henter, walk_nil, h]
    · rw [List.foldl_append, hfold]
      exact henter

/-- Short names are not refused for their length. -/
theorem walk_short {ss : List (List α)} (h : ∀ s ∈ ss, s.length ≤ nameMax) : t.walk dir ss ≠ .error .enametoolong := by
  induction ss generalizing dir with
  | nil =>
    rw [walk]
    split
    · exact fun h => nomatch h
    · exact fun h => nomatch h
  | cons s ss ih =>
    rw [walk]
    split
    · rw [if_neg (Nat.not_lt.mpr (h s List.mem_cons_self))]
      exact ih fun s' hs' => h s' (List.mem_cons_of_mem s hs')
    · exact fun h => nomatch h
    · exact fun h => nomatch h

end Tree

end Paths
