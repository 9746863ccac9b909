import BaitNet.BiteServed

/-!
# The same request to both servers

A request in visible characters without a percent sign means the same to both servers, and a
file with a name in lower case has the same type.
-/
namespace Bite

open Wire Text Paths
open Py (Ascii chars cText encode parseRequest upper)

def Visible (b : Bytes) : Prop := ∀ x ∈ b, 33 ≤ x ∧ x ≤ 126

/-- The part of a target in front of the query. -/
def pathPart (target : Bytes) : Bytes := target.takeWhile (· ≠ 63)

theorem Visible.ascii {b : Bytes} (h : Visible b) : Ascii b := by
  intro x hx
  have hx' := UInt8.le_iff_toNat_le.mp (h x hx).2
  have h126 : (126 : UInt8).toNat = 126 := rfl
  have h128 : (128 : UInt8).toNat = 128 := rfl
  rw [UInt8.lt_iff_toNat_lt]
  omega

/-- No control character, no blank. -/
theorem Visible.not_mem {b : Bytes} (h : Visible b) {x : UInt8} (hx : x ≤ 32) : x ∉ b := by
  intro hmem
  have hle := UInt8.le_iff_toNat_le.mp (h x hmem).1
  have hle' := UInt8.le_iff_toNat_le.mp hx
  have h33 : (33 : UInt8).toNat = 33 := rfl
  have h32 : (32 : UInt8).toNat = 32 := rfl
  omega

theorem decodeTarget_plain {target : Bytes} (hno : 37 ∉ target) {room : Nat} (hroom : target.length ≤ room) :
    decodeTarget room target = some (pathPart target) := by
  induction target generalizing room with
  | nil => cases room <;> rfl
  | cons ch target ih =>
    obtain ⟨hch, hrest⟩ := not_or.mp (mt List.mem_cons.mpr hno)
    cases room with
    | zero => simp at hroom
    | succ room =>
      have hdecode := ih hrest (show target.length ≤ room by simpa using hroom)
      by_cases hq : ch = 63
      · simp [decodeTarget, hq, pathPart]
      · rw [decodeTarget, if_neg hq, if_neg (fun h => hch h.1.symm), hdecode]
        simp [pathPart, hq]

theorem pathPart_noNul {target : Bytes} (h : Visible target) : (0 : UInt8) ∉ pathPart target := fun hmem =>
  h.not_mem (by decide) (List.takeWhile_prefix _ |>.subset hmem)

theorem pathPart_head (target : Bytes) : (pathPart target).head? = some 47 ↔ target.head? = some 47 := by
  cases target with
  | nil => simp [pathPart]
  | cons x target => by_cases hx : x = 63 <;> simp [pathPart, hx]

/-- The path is taken as it stands, unless it is relative or climbs. -/
theorem reqTarget_plain {target : Bytes} (hvis : Visible target) (hno : 37 ∉ target) (hlen : target.length ≤ 511) :
    reqTarget target 512 =
      if target.head? = some 47 ∧ [46, 46] ∉ segments 47 (pathPart target) then some (pathPart target)
      else none := by
  have hnul := pathPart_noNul hvis
  have hhead := pathPart_head target
  rw [reqTarget, decodeTarget_plain hno hlen]
  simp only [Option.bind_eq_bind, Option.bind_some, cstring_eq hnul]
  by_cases habs : target.head? = some 47
  · have hdots := dotdot_segments hnul (hhead.mpr habs)
    by_cases hup : [46, 46] ∈ segments 47 (pathPart target)
    · simp [hhead.mpr habs, hdots.mpr hup, hup]
    · have hfalse : dotdot 47 (pathPart target) = false := by
        rw [Bool.eq_false_iff]
        exact fun h => hup (hdots.mp h)
      simp [habs, hhead.mpr habs, hfalse, hup]
  · simp [habs, mt hhead.mp habs]

/-- No lower-case letters. -/
def Upper (b : Bytes) : Prop := ∀ x ∈ b, ¬ (97 ≤ x ∧ x ≤ 122)

theorem upper_chars {b : Bytes} (ha : Ascii b) (h : Upper b) : upper (chars b) = chars b := by
  have hbyte : ∀ n < 128, ¬ (97 ≤ n ∧ n ≤ 122) → (if Char.ofNat n = Char.ofNat 0x131 then 'I' else
      if Char.ofNat n = Char.ofNat 0x17F then 'S' else (Char.ofNat n).toUpper) = Char.ofNat n := by
    decide
  rw [upper, chars, List.map_map]
  apply List.map_congr_left
  intro x hx
  have hlt := UInt8.lt_iff_toNat_lt.mp (ha x hx)
  have hcase := h x hx
  rw [UInt8.le_iff_toNat_le, UInt8.le_iff_toNat_le] at hcase
  exact hbyte x.toNat hlt hcase

/-- Both clients send the same message. -/
theorem buildRequest_eq {meth target : Bytes} (hm : Ascii meth) (ht : Ascii target) :
    Py.buildRequest (chars meth) (chars target) = requestText meth target := by
  have htail : Ascii (ascii " BITE/1.0\r\n\r\n") := by decide
  have htext : Ascii (requestText meth target) := (hm.append (ht.cons (by decide))).append htail
  have hchars : chars (requestText meth target) = chars meth ++ ' ' :: chars target ++ " BITE/1.0\r\n\r\n".toList := by
    rw [requestText, Py.chars_append, Py.chars_append, Py.chars_cons]
    rfl
  rw [Py.buildRequest, ← hchars, Py.encode_chars htext]

theorem chars_head {b : Bytes} : (chars b).head? = b.head?.map fun x => .ofNat x.toNat := List.head?_map

theorem chars_inj {a b : Bytes} : chars a = chars b ↔ a = b := (List.map_injective_iff.mpr Py.char_injective).eq_iff

theorem chars_dots {p : Bytes} : ((chars p).splitOn '/').any (fun s => decide (s = "..".toList)) = true ↔
    [46, 46] ∈ segments 47 p := by
  have hcut : (chars p).splitOn '/' = (segments 47 p).map chars := Py.chars_splitOn 47 p
  have hup : "..".toList = chars [46, 46] := rfl
  rw [hcut, hup, List.any_map, List.any_eq_true]
  constructor
  · rintro ⟨s, hs, heq⟩
    exact chars_inj.mp (of_decide_eq_true heq) ▸ hs
  · exact fun h => ⟨_, h, by simp⟩

theorem not_mem_chars {b : Bytes} {x : UInt8} (h : x ∉ b) : Char.ofNat x.toNat ∉ chars b :=
  fun hmem => h (Reply.mem_chars.mp hmem)

theorem pathPart_chars (target : Bytes) : ((chars target).splitOn '?').headD [] = chars (pathPart target) := by
  have hcut : (chars target).splitOn '?' = (target.splitOn 63).map chars := Py.chars_splitOn 63 target
  have hhead : ∀ t : Bytes, ∃ rest, t.splitOn 63 = pathPart t :: rest := by
    intro t
    induction t with
    | nil => exact ⟨[], rfl⟩
    | cons x t ih =>
      obtain ⟨rest, hrest⟩ := ih
      rw [List.splitOn_cons_eq_if_modifyHead, hrest]
      by_cases hx : x = 63
      · exact ⟨pathPart t :: rest, by simp [hx, pathPart]⟩
      · exact ⟨rest, by simp [hx, pathPart]⟩
  obtain ⟨rest, hrest⟩ := hhead target
  rw [hcut, hrest, List.map_cons, List.headD_cons]

/-- The line of a request in visible characters. -/
theorem parseLine_text {meth target : Bytes} (hm : Visible meth) (ht : Visible target) :
    Py.parseLine (chars meth ++ ' ' :: (chars target ++ ' ' :: "BITE/1.0".toList)) =
      if target.head? = some 47 then
        if [46, 46] ∈ segments 47 (pathPart target) then .error (.valueError "BITE: path traversal")
        else .ok (upper (chars meth), chars (pathPart target))
      else .error (.valueError "BITE: target must start with '/'") := by
  have hmblank : ' ' ∉ chars meth := not_mem_chars (hm.not_mem (x := 32) (by decide))
  have htblank : ' ' ∉ chars target := not_mem_chars (ht.not_mem (x := 32) (by decide))
  have hversion : ' ' ∉ "BITE/1.0".toList := by decide
  have hslash : (chars target).head? = some '/' ↔ target.head? = some 47 := by
    rw [chars_head]
    cases target with
    | nil => simp
    | cons x target => simpa using Py.char_inj (x := x) (y := 47)
  rw [Py.parseLine, List.splitOn_append_cons_self_of_not_mem hmblank, List.splitOn_append_cons_self_of_not_mem htblank,
    List.splitOn_eq_singleton hversion]
  simp only [pathPart_chars, ne_eq, not_true_eq_false, if_false]
  by_cases habs : target.head? = some 47
  · rw [if_neg (not_not.mpr (hslash.mpr habs)), if_pos habs]
    by_cases hup : [46, 46] ∈ segments 47 (pathPart target)
    · rw [if_pos (chars_dots.mpr hup), if_pos hup]
    · rw [if_neg (fun h => hup (chars_dots.mp h)), if_neg hup]
  · rw [if_pos (fun h => habs (hslash.mp h)), if_neg habs]

/-- The Python server on the same requests. -/
theorem parseRequest_text {meth target : Bytes} (hm : Visible meth) (ht : Visible target)
    (hfits : meth.length + target.length ≤ 2000) :
    parseRequest (requestText meth target) =
      Py.parseLine (chars meth ++ ' ' :: (chars target ++ ' ' :: "BITE/1.0".toList)) := by
  have htail : Ascii (ascii " BITE/1.0\r\n\r\n") := by decide
  have htext : Ascii (requestText meth target) := (hm.ascii.append (ht.ascii.cons (by decide))).append htail
  have hlen : (requestText meth target).length ≤ Py.hdrMax := by
    rw [requestText, Py.hdrMax]
    simp [ascii]
    omega
  have hlines : chars (requestText meth target) = Heads.joinLines '\r' '\n'
      [chars meth ++ ' ' :: (chars target ++ ' ' :: "BITE/1.0".toList), [], []] := by
    rw [requestText, Py.chars_append, Py.chars_append, Py.chars_cons]
    simp [ascii]
  have hcr : '\r' ∉ chars meth ++ ' ' :: (chars target ++ ' ' :: "BITE/1.0".toList) := by
    have hmcr : '\r' ∉ chars meth := not_mem_chars (hm.not_mem (x := 13) (by decide))
    have htcr : '\r' ∉ chars target := not_mem_chars (ht.not_mem (x := 13) (by decide))
    simp [hmcr, htcr]
  have hend : (Heads.cutAt "\r\n\r\n".toList (chars (requestText meth target))).isSome = true := by
    rw [Heads.cutAt_isSome, hlines]
    exact ⟨chars meth ++ ' ' :: (chars target ++ ' ' :: "BITE/1.0".toList), [], by simp⟩
  have hsplit := @Heads.splitLines_joinLines _ _ '\r' '\n'
    [chars meth ++ ' ' :: (chars target ++ ' ' :: "BITE/1.0".toList), [], []] (by simp) (by simpa using hcr)
  have hfound : ¬ (Heads.cutAt "\r\n\r\n".toList (chars (requestText meth target))).isNone = true := by
    rw [Option.isNone_iff_eq_none, ← Option.not_isSome_iff_eq_none, hend]
    simp
  rw [parseRequest, List.take_of_length_le hlen, Py.decodeReplace_ascii htext, if_neg hfound, hlines, hsplit,
    List.headD_cons]

/-- Both servers take a request the same way, or both refuse it. -/
theorem requests_agree {meth target : Bytes} (hm : Visible meth) (hup : Upper meth) (hne : meth ≠ [])
    (hshort : meth.length ≤ 7) (ht : Visible target) (hno : 37 ∉ target) (htne : target ≠ [])
    (hlen : target.length ≤ 511) :
    Py.buildRequest (chars meth) (chars target) = requestText meth target ∧
      ((∃ rq, reqParse (requestText meth target) = some rq ∧
          parseRequest (requestText meth target) = .ok (chars rq.method, chars rq.path)) ∨
        (reqParse (requestText meth target) = none ∧ ∃ e, parseRequest (requestText meth target) = .error e)) := by
  have hmeth : ∀ b ∈ meth, b ≠ 0 ∧ b ≠ 10 ∧ b ≠ 32 := fun b hb =>
    ⟨fun h => hm.not_mem (x := 0) (by decide) (h ▸ hb), fun h => hm.not_mem (x := 10) (by decide) (h ▸ hb),
      fun h => hm.not_mem (x := 32) (by decide) (h ▸ hb)⟩
  have htarget : ∀ b ∈ target, b ≠ 10 ∧ b ≠ 32 := fun b hb =>
    ⟨fun h => ht.not_mem (x := 10) (by decide) (h ▸ hb), fun h => ht.not_mem (x := 32) (by decide) (h ▸ hb)⟩
  refine ⟨buildRequest_eq hm.ascii ht.ascii, ?_⟩
  rw [reqParse_requestText meth hmeth hne hshort htarget htne (by omega), parseRequest_text hm ht (by omega),
    parseLine_text hm ht, reqTarget_plain ht hno hlen, upper_chars hm.ascii hup]
  by_cases habs : target.head? = some 47
  · by_cases hdots : [46, 46] ∈ segments 47 (pathPart target)
    · exact .inr ⟨by simp [hdots], by simp [habs, hdots]⟩
    · exact .inl ⟨⟨meth, pathPart target, meth = ascii "HEAD"⟩, by simp [habs, hdots], by simp [habs, hdots]⟩
  · exact .inr ⟨by simp [habs], by simp [habs]⟩

/-- A file name in lower case that does not begin with a point. -/
structure FileName (name : Bytes) : Prop where
  visible : Visible name
  noSlash : 47 ∉ name
  nonempty : name ≠ []
  shown : name.head? ≠ some 46
  lower : ∀ x ∈ name, ¬ (65 ≤ x ∧ x ≤ 90)

namespace FileName

variable {name : Bytes} (h : FileName name)
include h

theorem enters : name ≠ [] ∧ name ≠ [46] ∧ name ≠ [46, 46] :=
  ⟨h.nonempty, fun heq => h.shown (heq ▸ rfl), fun heq => h.shown (heq ▸ rfl)⟩

theorem noSlashChar : '/' ∉ chars name := not_mem_chars h.noSlash

end FileName

/-- The two tables are one table. -/
theorem mimeTypes_eq : Py.mimeTypes = mimeTypes.map fun e => ('.' :: chars e.1, chars e.2) := by decide

theorem lookup_mimeTypes (ext : Bytes) :
    Py.mimeTypes.lookup ('.' :: chars ext) = (mimeTypes.lookup ext).map chars := by
  rw [mimeTypes_eq]
  induction mimeTypes with
  | nil => rfl
  | cons e table ih =>
    obtain ⟨k, v⟩ := e
    rw [List.map_cons, List.lookup_cons, List.lookup_cons, ih]
    by_cases hk : ext = k
    · simp [hk]
    · have hkey : (ext == k) = false := beq_false_of_ne hk
      have hkey' : ('.' :: chars ext == '.' :: chars k) = false :=
        beq_false_of_ne fun heq => hk (chars_inj.mp (List.cons.inj heq).2)
      rw [hkey, hkey']

theorem lower_chars {b : Bytes} (ha : Ascii b) (h : ∀ x ∈ b, ¬ (65 ≤ x ∧ x ≤ 90)) :
    (chars b).map Char.toLower = chars b := by
  have hbyte : ∀ n < 128, ¬ (65 ≤ n ∧ n ≤ 90) → (Char.ofNat n).toLower = Char.ofNat n := by decide
  rw [chars, List.map_map]
  apply List.map_congr_left
  intro x hx
  have hlt := UInt8.lt_iff_toNat_lt.mp (ha x hx)
  have hcase := h x hx
  rw [UInt8.le_iff_toNat_le, UInt8.le_iff_toNat_le] at hcase
  exact hbyte x.toNat hlt hcase

/-- The last point of a text, where there is one. -/
theorem last_point {b : Bytes} (h : 46 ∈ b) : ∃ front ext, b = front ++ 46 :: ext ∧ 46 ∉ ext := by
  induction b with
  | nil => cases h
  | cons x b ih =>
    by_cases hb : 46 ∈ b
    · obtain ⟨front, ext, rfl, hext⟩ := ih hb
      exact ⟨x :: front, ext, rfl, hext⟩
    · obtain rfl : x = 46 := by simpa [hb, eq_comm] using h
      exact ⟨[], b, rfl, hb⟩

theorem pathName_file {name : Bytes} (h : FileName name) (front : List Char) :
    Py.pathName (front ++ '/' :: chars name) = chars name := by
  have hkeep : (decide (chars name ≠ [] ∧ chars name ≠ ['.'])) = true := by
    have hdot : chars name ≠ ['.'] := fun heq => h.enters.2.1 (chars_inj.mp (heq.trans rfl))
    have hnil : chars name ≠ [] := fun heq => h.enters.1 (chars_inj.mp (heq.trans rfl))
    simp [hdot, hnil]
  have hcut : (front ++ '/' :: chars name).splitOn '/' = front.splitOn '/' ++ [chars name] := by
    rw [List.splitOn_append_cons_self, List.splitOn_eq_singleton h.noSlashChar]
  rw [Py.pathName, hcut, List.filter_append, List.filter_cons, if_pos hkeep]
  simp

/-- Both servers give a file the same type. -/
theorem mimeOf_agree {name : Bytes} (h : FileName name) (front : Bytes) (front' : List Char) :
    cText (Py.mimeOf (front' ++ '/' :: chars name)) = mimeOf (front ++ 47 :: name) := by
  have hoctet : cText "application/octet-stream".toList = octetStream := rfl
  have hnone : mimeTypes.lookup [] = none := rfl
  have hnone' : Py.mimeTypes.lookup [] = none := rfl
  by_cases hpoint : 46 ∈ name
  · obtain ⟨a, ext, rfl, hext⟩ := last_point hpoint
    have ha : a ≠ [] := fun hnil => h.shown (by simp [hnil])
    have hlower : (chars ext).map Char.toLower = chars ext :=
      lower_chars (fun x hx => h.visible.ascii x (by simp [hx])) fun x hx => h.lower x (by simp [hx])
    have hrev : (chars (a ++ 46 :: ext)).reverse = (chars ext).reverse ++ '.' :: (chars a).reverse := by
      rw [Py.chars_append, Py.chars_cons, List.reverse_append, List.reverse_cons, List.append_assoc]
      rfl
    have hno : ∀ ch ∈ (chars ext).reverse, decide (ch ≠ '.') = true := by
      intro ch hch
      exact decide_eq_true fun heq => not_mem_chars hext (heq ▸ List.mem_reverse.mp hch)
    have htail : ((chars (a ++ 46 :: ext)).reverse.takeWhile (· ≠ '.')).reverse = chars ext := by
      rw [hrev, List.takeWhile_append_of_pos hno, List.takeWhile_cons_of_neg (by simp), List.append_nil,
        List.reverse_reverse]
    have hsplit : splitLast 46 (front ++ 47 :: (a ++ 46 :: ext)) = some (front ++ 47 :: a, ext) := by
      rw [← List.cons_append, ← List.append_assoc]
      exact splitLast_append _ hext
    rw [Py.mimeOf, Py.suffix, pathName_file h, htail, mimeOf, hsplit]
    by_cases hnil : ext = []
    · subst hnil
      simp only [Py.chars_nil, ne_eq, not_true_eq_false, false_and, if_false, List.map_nil, hnone, hnone',
        Option.getD_none, hoctet]
    · have hlong : chars ext ≠ [] ∧ (chars ext).length + 1 < (chars (a ++ 46 :: ext)).length := by
        have hpos := List.length_pos_of_ne_nil ha
        refine ⟨fun heq => hnil (chars_inj.mp (heq.trans rfl)), ?_⟩
        simp
        omega
      simp only [if_pos hlong, List.map_cons, hlower]
      rw [show ('.' : Char).toLower = '.' from rfl, lookup_mimeTypes]
      cases mimeTypes.lookup ext with
      | none => exact hoctet
      | some ctype => simp
  · have hplain : '.' ∉ chars name := not_mem_chars hpoint
    have htail : ((chars name).reverse.takeWhile (· ≠ '.')).reverse = chars name := by
      have hall : (chars name).reverse.takeWhile (· ≠ '.') = (chars name).reverse := by
        rw [List.takeWhile_eq_self_iff]
        intro ch hch
        exact decide_eq_true fun heq => hplain (heq ▸ List.mem_reverse.mp hch)
      rw [hall, List.reverse_reverse]
    have hc : mimeOf (front ++ 47 :: name) = octetStream := by
      have hkeys : ∀ e ∈ mimeTypes, 47 ∉ e.1 := by decide
      rw [mimeOf]
      by_cases hfront : 46 ∈ front
      · obtain ⟨a, b, rfl, hb⟩ := last_point hfront
        have hsplit : splitLast 46 (a ++ 46 :: b ++ 47 :: name) = some (a, b ++ 47 :: name) := by
          rw [List.append_assoc, List.cons_append]
          exact splitLast_append a (by simp [hb, hpoint])
        rw [hsplit]
        cases hlook : mimeTypes.lookup (b ++ 47 :: name) with
        | none => exact congrArg (Option.getD · octetStream) hlook
        | some ctype =>
          obtain ⟨l₁, l₂, hmem, -⟩ := List.lookup_eq_some_iff.mp hlook
          exact absurd (by simp) (hkeys (b ++ 47 :: name, ctype) (by simp [hmem]))
      · rw [splitLast_none (by simp [hfront, hpoint])]
    have hshort : ¬ (chars name ≠ [] ∧ (chars name).length + 1 < (chars name).length) := fun hlt => by omega
    rw [hc, Py.mimeOf, Py.suffix, pathName_file h, htail]
    simp only [if_neg hshort, List.map_nil, hnone', Option.getD_none, hoctet]

end Bite
