import BaitNet.BiteAgree
import BaitNet.FileTree

/-!
# The two servers on the same disk

On a disk of files and directories without links, all of which can be read, both servers answer
a request with the same bytes, as long as the last segment of the path is an ordinary file name
in lower case. A directory is where they differ, since `fopen` opens one, and so is a name that is
too long, which Python takes for an error.
-/
namespace Bite

open Wire Text Paths
open Py (Ascii chars cText encode parseRequest upper)

/-- The bytes of a file, and where `fseek` finds the end of a directory. -/
abbrev Tree : Type := Paths.Tree UInt8 Bytes (Option Nat) 46

/-- The longest name of a path with the byte behind it. -/
def pathMax : Nat := 4096

namespace Tree

/-- What the system finds under a name. -/
def namei (t : Tree) (cwd : List Bytes) (name : Bytes) : Except Errno (Node Bytes (Option Nat)) :=
  if pathMax ≤ name.length then .error .enametoolong
  else if name = [] then .error .enoent
  else t.walk (if name.head? = some 47 then [] else cwd) (segments 47 name)

/-- `fopen`; of a directory nothing can be read. -/
def fopen (t : Tree) (cwd : List Bytes) (name : Bytes) : Option Stream :=
  match t.namei cwd name with
  | .ok (.file bytes) => some ⟨some bytes.length, bytes⟩
  | .ok (.directory stop) => some ⟨stop, []⟩
  | .error _ => none

/-- What the system finds under an absolute path. -/
def stat (t : Tree) (parts : List (List Char)) : Except Errno (Node Bytes (Option Nat)) :=
  if pathMax ≤ (encode (Py.pathText parts)).length then .error .enametoolong else t.walk [] (parts.map encode)

/-- `is_file` and `read_bytes`: a missing file is no file, any other error is raised. -/
def disk (t : Tree) (cwd : List Bytes) : Py.Disk where
  resolve path :=
    if Char.ofNat 0 ∈ path then .error (.valueError "embedded null byte")
    else .ok (resolve '/' '.' (cwd.map chars) path).reverse
  isFile parts :=
    match t.stat parts with
    | .ok (.file _) => .ok true
    | .ok (.directory _) | .error .enoent | .error .enotdir => .ok false
    | .error .enametoolong => .error .osError
  readBytes parts :=
    match t.stat parts with
    | .ok (.file bytes) => .ok bytes
    | .error .enoent => .error .fileNotFoundError
    | .ok (.directory _) | .error _ => .error .osError

end Tree

variable {cwd : List Bytes} {root path front name : Bytes}

/-- Where the path leads to below the root. -/
theorem resolve_path (hne : root ≠ []) (habs : path.head? = some 47) :
    resolve 47 46 cwd (root ++ 47 :: path.dropWhile (· = 47)) = resolve 47 46 cwd (root ++ path) ∧
      resolve 47 46 cwd (root ++ path) = (segments 47 path).foldl (enter 46) (resolve 47 46 cwd root) := by
  cases path with
  | nil => cases habs
  | cons x path =>
    obtain rfl : x = 47 := by simpa using habs
    have hdrop := @walk_dropWhile _ _ 47 46 (resolve 47 46 cwd root) (47 :: path)
    have hsegs : (segments 47 (47 :: path)).foldl (enter 46) (resolve 47 46 cwd root) =
        (segments 47 path).foldl (enter 46) (resolve 47 46 cwd root) := by
      rw [segments_cons, if_pos rfl, List.foldl_cons, enter_nil]
    rw [resolve_append 47 46 hne, resolve_append 47 46 hne, hdrop, hsegs]
    exact ⟨rfl, rfl⟩

theorem relative_path (hpath : path = front ++ 47 :: name) (hname : FileName name) :
    Py.relative (chars path) = chars (path.dropWhile (· = 47)) := by
  have hdrop : (chars path).dropWhile (· = '/') = chars (path.dropWhile (· = 47)) := by
    rw [chars, chars, List.dropWhile_map]
    congr 1
    apply congrArg (List.dropWhile · path)
    funext x
    have hx : Char.ofNat x.toNat = '/' ↔ x = 47 := Py.char_inj (x := x) (y := 47)
    simp [hx]
  -- the name is what is left at the end
  have hlast : ∃ rest, path.dropWhile (· = 47) = rest ++ name := by
    have hhead : name.dropWhile (· = 47) = name := by
      cases name with
      | nil => rfl
      | cons x name =>
        have hx : x ≠ 47 := fun h => hname.noSlash (h ▸ List.mem_cons_self)
        rw [List.dropWhile_cons_of_neg (by simp [hx])]
    rw [hpath]
    clear hdrop hpath
    induction front with
    | nil => exact ⟨[], by rw [List.nil_append, List.dropWhile_cons_of_pos (by simp), hhead, List.nil_append]⟩
    | cons x front ih =>
      by_cases hx : x = 47
      · rw [List.cons_append, List.dropWhile_cons_of_pos (by simp [hx])]
        exact ih
      · rw [List.cons_append, List.dropWhile_cons_of_neg (by simp [hx])]
        exact ⟨x :: front ++ [47], by simp⟩
  obtain ⟨rest, hrest⟩ := hlast
  have hne : chars (path.dropWhile (· = 47)) ≠ [] := by
    rw [hrest]
    exact fun h => hname.nonempty (List.append_eq_nil_iff.mp (chars_inj.mp (h.trans rfl))).2
  have hend : (chars (path.dropWhile (· = 47))).getLast? ≠ some '/' := by
    rw [hrest, Py.chars_append, List.getLast?_append_of_ne_nil _ (fun h => hname.nonempty (chars_inj.mp (h.trans rfl)))]
    exact fun h => hname.noSlashChar (List.mem_of_getLast? h)
  simp only [Py.relative, hdrop, if_neg hne, if_neg hend]

theorem segments_last (front name : Bytes) (h : 47 ∉ name) : (segments 47 (front ++ 47 :: name)).getLast? = some name := by
  have hone : segments 47 name = [name] := List.splitOn_eq_singleton h
  rw [segments_append, hone]
  simp

theorem pathText_last (parts : List (List Char)) (last : List Char) :
    ∃ front, Py.pathText (parts ++ [last]) = front ++ '/' :: last := by
  induction parts with
  | nil => exact ⟨[], by simp [Py.pathText]⟩
  | cons part parts ih =>
    obtain ⟨front, hfront⟩ := ih
    rw [Py.pathText] at hfront
    refine ⟨'/' :: part ++ front, ?_⟩
    rw [Py.pathText, List.cons_append, List.intercalate_cons_of_ne_nil (by simp)]
    simp [hfront]

/-- The segments that a path leads to are ASCII, where the texts are. -/
theorem resolve_ascii (hcwd : ∀ s ∈ cwd, Ascii s) (hascii : Ascii path) :
    (resolve 47 46 cwd path).map (encode ∘ chars) = resolve 47 46 cwd path := by
  conv_rhs => rw [← List.map_id (resolve 47 46 cwd path)]
  apply List.map_congr_left
  intro s hs
  have hs' : Ascii s := by
    rcases resolve_mem hs with hdir | hseg
    · exact hcwd s hdir
    · exact fun x hx => hascii x (segments_subset hseg hx)
  exact Py.encode_chars hs'

/-- A directory to serve, under a name in ASCII that `open_doc` has room for. -/
structure Root (t : Tree) (cwd : List Bytes) (root : Bytes) : Prop where
  inside : ∀ s ∈ cwd, Ascii s
  ascii : Ascii root
  noNul : 0 ∉ root
  nonempty : root ≠ []
  short : root.length ≤ 512
  directory : ∃ stop, t.namei cwd root = .ok (.directory stop)

/-- The absolute path that a path below the root leads to. -/
def lookedUp (cwd : List Bytes) (root path : Bytes) : List (List Char) :=
  ((resolve 47 46 cwd (root ++ path)).map chars).reverse

/-- A path that the system can look up and that does not lead to a directory. -/
structure Ordinary (t : Tree) (cwd : List Bytes) (root path : Bytes) : Prop where
  names : ∀ s ∈ segments 47 path, s.length ≤ nameMax
  whole : (encode (Py.pathText (lookedUp cwd root path))).length < pathMax
  file : ∀ stop, t.node (resolve 47 46 cwd (root ++ path)) ≠ some (.directory stop)

variable {t : Tree}

theorem Root.node (h : Root t cwd root) : ∃ stop, t.node (resolve 47 46 cwd root) = some (.directory stop) ∧
    t.walk (if root.head? = some 47 then [] else cwd) (segments 47 root) = .ok (.directory stop) := by
  obtain ⟨stop, hdir⟩ := h.directory
  rw [Tree.namei] at hdir
  split at hdir
  · cases hdir
  · split at hdir
    · cases hdir
    · exact ⟨stop, Tree.walk_ok hdir, hdir⟩

/-- The segments of an absolute path, the last one apart. -/
theorem segments_path (habs : path.head? = some 47) (hpath : path = front ++ 47 :: name) (hname : 47 ∉ name) :
    ∃ ss, segments 47 path = [] :: (ss ++ [name]) := by
  cases path with
  | nil => cases habs
  | cons x p =>
    obtain rfl : x = 47 := by simpa using habs
    have hlast := segments_last front name hname
    obtain ⟨s, ss, hss⟩ := List.exists_cons_of_ne_nil (segments_ne_nil 47 p)
    rw [← hpath, segments_cons, if_pos rfl, hss, List.getLast?_cons_cons] at hlast
    refine ⟨(s :: ss).dropLast, ?_⟩
    rw [segments_cons, if_pos rfl, hss, List.dropLast_append_getLast? name hlast]

/-- `open_doc` has room for the whole name. -/
theorem docName_whole (hpath : path = front ++ 47 :: name) (hname : FileName name) (hlen : root.length ≤ 512)
    (hshort : path.length ≤ 511) : docName root path = root ++ path := by
  have hslash : path ≠ ascii "/" := by
    intro h
    have hone := congrArg List.length (hpath.symm.trans h)
    have hpos := List.length_pos_of_ne_nil hname.nonempty
    simp [ascii] at hone
    omega
  rw [docName, if_neg hslash]
  apply List.take_of_length_le
  rw [List.length_append]
  omega

section Below

variable (hroot : Root t cwd root) (habs : path.head? = some 47) {ss : List Bytes}
  (hss : segments 47 path = [] :: (ss ++ [name]))
include hroot habs hss

/-- Both look the same names up from the root. -/
theorem namei_below (hshort : path.length ≤ 511) : t.namei cwd (root ++ path) =
    t.walk (resolve 47 46 cwd root) (Tree.names 46 ss ++ [name]) := by
  obtain ⟨stop, -, hwalk⟩ := hroot.node
  have hlen : ¬ pathMax ≤ (root ++ path).length := by
    have hlong := hroot.short
    rw [pathMax, List.length_append]
    omega
  have hne : root ++ path ≠ [] := fun h => hroot.nonempty (List.append_eq_nil_iff.mp h).1
  have hhead : (root ++ path).head? = root.head? := by
    obtain ⟨x, rest, rfl⟩ := List.exists_cons_of_ne_nil hroot.nonempty
    rfl
  have hcut : segments 47 (root ++ path) = segments 47 root ++ (ss ++ [name]) := by
    cases path with
    | nil => cases habs
    | cons x p =>
      obtain rfl : x = 47 := by simpa using habs
      rw [segments_cons, if_pos rfl] at hss
      rw [segments_append, (List.cons.inj hss).2]
  rw [Tree.namei, if_neg hlen, if_neg hne, hhead, hcut, Tree.walk_append hwalk]
  exact Tree.walk_names ss name

variable (hstays : [46, 46] ∉ segments 47 path) (hname : name ≠ [] ∧ name ≠ [46] ∧ name ≠ [46, 46])
include hstays hname

theorem resolve_below : resolve 47 46 cwd (root ++ path) =
    name :: ((Tree.names 46 ss).reverse ++ resolve 47 46 cwd root) := by
  obtain ⟨-, hwalk⟩ := @resolve_path cwd root path hroot.nonempty habs
  have hup : [46, 46] ∉ ss ++ [name] := fun h => hstays (hss ▸ List.mem_cons_of_mem [] h)
  have hstay : ¬ (name = [] ∨ name = [46]) := not_or.mpr ⟨hname.1, hname.2.1⟩
  have hnames : Tree.names 46 (ss ++ [name]) = Tree.names 46 ss ++ [name] := by
    have hone : Tree.names 46 [name] = [name] := Tree.names_keep hstay []
    rw [Tree.names, List.filter_append, ← Tree.names, ← Tree.names, hone]
  rw [hwalk, hss, List.foldl_cons, enter_nil, Tree.foldl_names hup, hnames, List.reverse_append]
  rfl

theorem stat_below (hascii : Ascii path) (hwhole : (encode (Py.pathText (lookedUp cwd root path))).length < pathMax) :
    t.stat (lookedUp cwd root path) = t.walk (resolve 47 46 cwd root) (Tree.names 46 ss ++ [name]) := by
  obtain ⟨stop, hnode, -⟩ := hroot.node
  obtain ⟨htop, hfold⟩ := Tree.walk_top hnode
  have hbytes : (lookedUp cwd root path).map encode = (resolve 47 46 cwd (root ++ path)).reverse := by
    rw [lookedUp, List.map_reverse, List.map_map, resolve_ascii hroot.inside (hroot.ascii.append hascii)]
  rw [Tree.stat, if_neg (Nat.not_le.mpr hwhole), hbytes, resolve_below hroot habs hss hstays hname, List.reverse_cons,
    List.reverse_append, List.reverse_reverse, List.append_assoc, Tree.walk_append htop, hfold]

/-- The last part is the file name. -/
theorem lookedUp_last : ∃ front', Py.pathText (lookedUp cwd root path) = front' ++ '/' :: chars name := by
  rw [lookedUp, resolve_below hroot habs hss hstays hname, List.map_cons, List.reverse_cons]
  exact pathText_last _ (chars name)

end Below

theorem resolve_disk (t : Tree) {p : Bytes} (h : 0 ∉ p) :
    (t.disk cwd).resolve (chars p) = .ok ((resolve 47 46 cwd p).map chars).reverse := by
  have hnul : Char.ofNat 0 ∉ chars p := not_mem_chars (x := 0) h
  have hsame := @resolve_map _ _ 47 46 _ _ _ Py.char_injective cwd p
  change (if Char.ofNat 0 ∈ chars p then _ else _) = _
  rw [if_neg hnul]
  exact congrArg (fun parts => Except.ok (List.reverse parts)) hsame

section Documents

variable (hroot : Root t cwd root) (hpath : path = front ++ 47 :: name) (hname : FileName name) (hvis : Visible path)
  (habs : path.head? = some 47) (hstays : [46, 46] ∉ segments 47 path)
include hroot hpath hname hvis habs hstays

/-- The Python server asks for the file that the path leads to. -/
theorem resolveDocument_disk : Py.resolveDocument (t.disk cwd) (chars root) (chars path) = (do
    let found ← (t.disk cwd).isFile (lookedUp cwd root path)
    if found then return lookedUp cwd root path else throw .fileNotFoundError) := by
  obtain ⟨hsame, hwalk⟩ := @resolve_path cwd root path hroot.nonempty habs
  have hnul : (0 : UInt8) ∉ root ++ 47 :: path.dropWhile (· = 47) := by
    intro h
    rcases List.mem_append.mp h with h | h
    · exact hroot.noNul h
    · rcases List.mem_cons.mp h with h | h
      · cases h
      · exact hvis.not_mem (by decide) ((List.dropWhile_suffix _).subset h)
  have hjoin : chars root ++ '/' :: Py.relative (chars path) = chars (root ++ 47 :: path.dropWhile (· = 47)) := by
    rw [relative_path hpath hname, Py.chars_append, Py.chars_cons]
    rfl
  have hunder : ((resolve 47 46 cwd root).map chars).reverse <+: lookedUp cwd root path := by
    obtain ⟨names, hnames⟩ := walk_below 46 hstays (resolve 47 46 cwd root)
    rw [lookedUp, hwalk, hnames, List.map_append, List.reverse_append]
    exact List.prefix_append _ _
  rw [lookedUp] at hunder ⊢
  rw [Py.resolveDocument, hjoin, resolve_disk t hnul, resolve_disk t hroot.noNul, hsame]
  simp only [Py.ok_bind]
  rw [if_neg (not_not.mpr hunder)]

/-- Both find the same file, or neither does. -/
theorem document_found (hlook : Ordinary t cwd root path) (hshort : path.length ≤ 511) :
    (∃ bytes, openDoc (t.fopen cwd) root path = some (bytes.length, bytes) ∧
      Py.resolveDocument (t.disk cwd) (chars root) (chars path) = .ok (lookedUp cwd root path) ∧
        (t.disk cwd).readBytes (lookedUp cwd root path) = .ok bytes) ∨
    openDoc (t.fopen cwd) root path = none ∧
      Py.resolveDocument (t.disk cwd) (chars root) (chars path) = .error .fileNotFoundError := by
  obtain ⟨ss, hss⟩ := segments_path habs hpath hname.noSlash
  have hnamei := namei_below hroot habs hss hshort
  have hstat := stat_below hroot habs hss hstays hname.enters hvis.ascii hlook.whole
  have hdoc := resolveDocument_disk hroot hpath hname hvis habs hstays
  have hsegs : ∀ s ∈ ss ++ [name], s.length ≤ nameMax := fun s hs => hlook.names s (hss ▸ List.mem_cons_of_mem [] hs)
  have hkept : t.walk (resolve 47 46 cwd root) (ss ++ [name]) =
      t.walk (resolve 47 46 cwd root) (Tree.names 46 ss ++ [name]) :=
    Tree.walk_names ss name
  have hfold : (ss ++ [name]).foldl (enter 46) (resolve 47 46 cwd root) = resolve 47 46 cwd (root ++ path) := by
    rw [(@resolve_path cwd root path hroot.nonempty habs).2, hss, List.foldl_cons, enter_nil]
  have hopen : openDoc (t.fopen cwd) root path = (t.fopen cwd (root ++ path)).bind fun f => f.size.map (·, f.bytes) := by
    rw [openDoc, docName_whole hpath hname hroot.short hshort]
  rw [← hkept] at hnamei hstat
  rw [hopen, hdoc, Tree.fopen, hnamei]
  simp only [Tree.disk, hstat]
  cases hwalk : Tree.walk t (resolve 47 46 cwd root) (ss ++ [name]) with
  | ok x =>
    cases x with
    | file bytes => exact .inl ⟨bytes, rfl, rfl, rfl⟩
    | directory stop => exact absurd (hfold ▸ Tree.walk_ok hwalk) (hlook.file stop)
  | error e =>
    cases e with
    | enoent => exact .inr ⟨rfl, rfl⟩
    | enotdir => exact .inr ⟨rfl, rfl⟩
    | enametoolong => exact absurd hwalk (Tree.walk_short hsegs)

end Documents

/-- The requests that the two servers are asked alike. -/
structure Shared (meth target : Bytes) : Prop where
  method : Visible meth ∧ Upper meth ∧ meth ≠ [] ∧ meth.length ≤ 7
  target : Visible target ∧ 37 ∉ target ∧ target ≠ [] ∧ target.length ≤ 511

theorem verb_agree {meth : Bytes} (hm : Visible meth) (hup : Upper meth) :
    (upper (chars meth) ∈ Py.readVerbs ↔ meth ∈ [ascii "BITE", ascii "GET", ascii "HEAD"]) ∧
      (decide (upper (chars meth) = "HEAD".toList) = decide (meth = ascii "HEAD")) := by
  have hverbs : Py.readVerbs = [ascii "BITE", ascii "GET", ascii "HEAD"].map chars := rfl
  have hhead : "HEAD".toList = chars (ascii "HEAD") := rfl
  rw [upper_chars hm.ascii hup, hverbs, hhead]
  exact ⟨List.mem_map_of_injective (List.map_injective_iff.mpr Py.char_injective), by simp only [chars_inj]⟩

/-- A directory with a page. -/
def pageTree : Tree where
  node path :=
    if path = [ascii "a.html", ascii "srv"] then some (.file [60, 62])
    else if path = [ascii "srv"] ∨ path = [] then some (.directory none)
    else none
  named name dir h := by
    by_cases hfile : name :: dir = [ascii "a.html", ascii "srv"]
    · obtain ⟨rfl, -⟩ := List.cons.inj hfile
      decide
    · rw [if_neg hfile] at h
      by_cases hdir : name :: dir = [ascii "srv"]
      · obtain ⟨rfl, -⟩ := List.cons.inj hdir
        decide
      · simp [hdir] at h
  inside name dir h := by
    by_cases hfile : name :: dir = [ascii "a.html", ascii "srv"]
    · obtain ⟨-, rfl⟩ := List.cons.inj hfile
      exact ⟨none, rfl⟩
    · rw [if_neg hfile] at h
      by_cases hdir : name :: dir = [ascii "srv"]
      · obtain ⟨-, rfl⟩ := List.cons.inj hdir
        exact ⟨none, rfl⟩
      · simp [hdir] at h

end Bite
