import BaitNet.AsciiText
import BaitNet.BiteFetch

/-!
# Responses

What the servers answer as a value, its text, and that either client reads the text as the
value again. The C server and the Python server are two ways to choose the value.
-/
namespace Bite

open Wire Text
open Py (Ascii chars strip encode cText)

/-- A response: the fields of its head in their order, and the body. -/
structure Reply where
  status : Nat
  reason : Bytes
  fields : List (Bytes × Bytes)
  body : Bytes
  deriving DecidableEq

namespace Reply

def fieldLine (f : Bytes × Bytes) : Bytes := f.1 ++ ascii ": " ++ f.2

def statusLine (r : Reply) : Bytes := ascii "BITE/1.0 " ++ decimal r.status ++ 32 :: r.reason

def lines (r : Reply) : List Bytes := r.statusLine :: r.fields.map fieldLine

def text (r : Reply) : Bytes := Heads.joinLines 13 10 r.lines ++ emptyLine ++ r.body

/-- What a Python client makes of it. -/
def parsed (r : Reply) : Py.Response :=
  ⟨r.status, r.fields.map fun f => ((chars f.1).map Char.toLower, chars f.2), r.body⟩

/-- Text that stands in a line and is not touched by `strip`. -/
structure Plain (b : Bytes) : Prop where
  ascii : Ascii b
  noCr : 13 ∉ b
  bare : strip (chars b) = chars b

/-- Plain text everywhere, no colon in a key, and every key once. -/
structure Good (r : Reply) : Prop where
  status : r.status < 2 ^ 31
  reason : Plain r.reason
  keys : ∀ f ∈ r.fields, Plain f.1 ∧ 58 ∉ f.1
  values : ∀ f ∈ r.fields, Plain f.2
  distinct : (r.fields.map fun f => (chars f.1).map Char.toLower).Nodup

theorem decimal_plain (n : Nat) : Plain (decimal n) := by
  have hdigits := decimal_digits n
  refine ⟨?_, ?_, ?_⟩
  · intro x hx
    have h := hdigits x hx
    simp only [isDigit, decide_eq_true_eq, UInt8.le_iff_toNat_le, UInt8.lt_iff_toNat_lt] at h ⊢
    have h57 : (57 : UInt8).toNat = 57 := rfl
    have h128 : (128 : UInt8).toNat = 128 := rfl
    omega
  · exact fun h => absurd (hdigits 13 h) (by decide)
  · rw [Py.chars_decimal]
    exact Py.strip_digits (Py.toDigits_digits n)

variable {r : Reply}

theorem Good.statusLine (h : Good r) : Ascii r.statusLine ∧ 13 ∉ r.statusLine := by
  have hv : Ascii (ascii "BITE/1.0 ") ∧ 13 ∉ ascii "BITE/1.0 " := by decide
  have hn := decimal_plain r.status
  constructor
  · exact (hv.1.append hn.ascii).append (h.reason.ascii.cons (by decide))
  · simp only [Reply.statusLine, List.mem_append, List.mem_cons, not_or]
    exact ⟨⟨hv.2, hn.noCr⟩, by decide, h.reason.noCr⟩

theorem Good.fieldLine (h : Good r) {f : Bytes × Bytes} (hf : f ∈ r.fields) :
    Ascii (fieldLine f) ∧ 13 ∉ fieldLine f := by
  have hsep : Ascii (ascii ": ") ∧ 13 ∉ ascii ": " := by decide
  have hk := (h.keys f hf).1
  have hv := h.values f hf
  constructor
  · exact (hk.ascii.append hsep.1).append hv.ascii
  · simp only [Reply.fieldLine, List.mem_append, not_or]
    exact ⟨⟨hk.noCr, hsep.2⟩, hv.noCr⟩

theorem Good.lines (h : Good r) : ∀ l ∈ r.lines, Ascii l ∧ l ≠ [] ∧ 13 ∉ l := by
  intro l hl
  rcases List.mem_cons.mp hl with rfl | hl
  · have hs := h.statusLine
    exact ⟨hs.1, by simp [Reply.statusLine, ascii], hs.2⟩
  · obtain ⟨f, hf, rfl⟩ := List.mem_map.mp hl
    have hline := h.fieldLine hf
    exact ⟨hline.1, by simp [Reply.fieldLine, ascii], hline.2⟩

/-- The body is found behind the head. -/
theorem Good.cut (h : Good r) : Heads.cutAt emptyLine r.text = some (Heads.joinLines 13 10 r.lines, r.body) := by
  have hcut := Heads.cutAt_head (show (13 : UInt8) ≠ 10 by decide) (List.cons_ne_nil _ _)
    (fun l hl => (h.lines l hl).2) r.body
  rw [text, emptyLine, List.append_assoc]
  exact hcut

theorem Good.bodyOf (h : Good r) : bodyOf r.text = r.body := by rw [Bite.bodyOf, h.cut]

theorem atoi_blank (s : Bytes) : atoi (32 :: s) = atoi s := by
  rw [atoi, atoi, List.dropWhile_cons_of_pos (by decide)]

/-- A number in front of a blank is read as it is. -/
theorem atoiInt_decimal {n : Nat} (hn : n < 2 ^ 31) (s : Bytes) :
    Gwfile.atoiInt (32 :: (decimal n ++ 32 :: s)) = n := by
  have hstop : (32 :: s).takeWhile isDigit = [] := by
    rw [List.takeWhile_cons_of_neg (by decide)]
  rw [Gwfile.atoiInt, atoi_blank, atoi_decimal, hstop, List.append_nil, value_decimal]
  rw [Nat.min_eq_left (by omega)]
  exact Int.bmod_eq_of_le (by omega) (by omega)

theorem front (r : Reply) : ∃ s, r.text = ascii "BITE/1.0" ++ 32 :: (decimal r.status ++ 32 :: s) := by
  have hjoin : ∃ t, Heads.joinLines 13 10 r.lines = r.statusLine ++ t := by
    rw [lines]
    cases r.fields.map fieldLine with
    | nil => exact ⟨[], by simp⟩
    | cons l ls => exact ⟨_, by rw [Heads.joinLines_cons]⟩
  obtain ⟨t, ht⟩ := hjoin
  exact ⟨r.reason ++ (t ++ (emptyLine ++ r.body)), by simp [text, ht, statusLine, ascii]⟩

theorem Good.statusOf (h : Good r) : statusOf r.text = r.status := by
  obtain ⟨s, hs⟩ := r.front
  have hpre : (ascii "BITE/1.0").isPrefixOf (ascii "BITE/1.0" ++ 32 :: (decimal r.status ++ 32 :: s)) = true := by
    simp
  rw [Bite.statusOf, hs, if_pos hpre, show 8 = (ascii "BITE/1.0").length from rfl, List.drop_left]
  exact atoiInt_decimal h.status s

theorem chars_joinLines (ls : List Bytes) :
    chars (Heads.joinLines 13 10 ls) = Heads.joinLines '\r' '\n' (ls.map chars) := by
  induction ls with
  | nil => rfl
  | cons l ls ih =>
    cases ls with
    | nil => simp
    | cons m ls =>
      rw [Heads.joinLines_cons, Py.chars_append, Py.chars_cons, Py.chars_cons, ih]
      simp only [List.map_cons, Heads.joinLines_cons]
      rfl

theorem mem_chars {x : UInt8} {b : Bytes} : Char.ofNat x.toNat ∈ chars b ↔ x ∈ b :=
  List.mem_map_of_injective Py.char_injective

theorem strip_blank (s : List Char) : strip (' ' :: s) = strip s := by
  rw [strip, strip, List.dropWhile_cons_of_pos (by decide)]

/-- A line of the head adds its field to the dictionary. -/
theorem addHeader_line {f : Bytes × Bytes} (hk : Plain f.1) (hcolon : 58 ∉ f.1) (hv : Plain f.2)
    {headers : List (List Char × List Char)} (hnew : (chars f.1).map Char.toLower ∉ headers.map Prod.fst) :
    Py.addHeader headers (chars (fieldLine f)) = headers ++ [((chars f.1).map Char.toLower, chars f.2)] := by
  have hline : chars (fieldLine f) = chars f.1 ++ ':' :: ' ' :: chars f.2 := by
    rw [fieldLine, Py.chars_append, Py.chars_append, List.append_assoc]
    rfl
  have hno : ∀ ch ∈ chars f.1, decide (ch ≠ ':') = true := by
    intro ch hch
    have hmem : ':' ∉ chars f.1 := fun h => hcolon (mem_chars.mp h)
    exact decide_eq_true fun heq => hmem (heq ▸ hch)
  have hfresh : headers.any (fun e => e.1 = (chars f.1).map Char.toLower) = false := by
    rw [List.any_eq_false]
    intro e he heq
    exact hnew (List.mem_map.mpr ⟨e, he, of_decide_eq_true heq⟩)
  rw [Py.addHeader, hline, List.dropWhile_append_of_pos hno, List.takeWhile_append_of_pos hno,
    List.dropWhile_cons_of_neg (by simp), List.takeWhile_cons_of_neg (by simp), List.append_nil]
  simp only [hk.bare, strip_blank, hv.bare]
  rw [Py.setHeader, if_neg (by simp [hfresh])]

theorem addHeader_lines {fields : List (Bytes × Bytes)} (hk : ∀ f ∈ fields, Plain f.1 ∧ 58 ∉ f.1)
    (hv : ∀ f ∈ fields, Plain f.2) (headers : List (List Char × List Char))
    (hnodup : (headers.map Prod.fst ++ fields.map fun f => (chars f.1).map Char.toLower).Nodup) :
    (fields.map (chars ∘ fieldLine)).foldl Py.addHeader headers =
      headers ++ fields.map fun f => ((chars f.1).map Char.toLower, chars f.2) := by
  induction fields generalizing headers with
  | nil => simp
  | cons f fields ih =>
    obtain ⟨hplain, hcolon⟩ := hk f List.mem_cons_self
    have hnew : (chars f.1).map Char.toLower ∉ headers.map Prod.fst := by
      rw [List.map_cons] at hnodup
      exact fun hmem => List.disjoint_of_nodup_append hnodup hmem List.mem_cons_self
    rw [List.map_cons, List.foldl_cons, Function.comp_apply,
      addHeader_line hplain hcolon (hv f List.mem_cons_self) hnew]
    rw [ih (fun g hg => hk g (List.mem_cons_of_mem f hg)) (fun g hg => hv g (List.mem_cons_of_mem f hg))]
    · simp
    · simpa using hnodup

theorem Good.parse (h : Good r) : Py.parseResponse r.text = .ok r.parsed := by
  have hascii : Ascii (Heads.joinLines 13 10 r.lines) := by
    have hall : ∀ ls : List Bytes, (∀ l ∈ ls, Ascii l) → Ascii (Heads.joinLines 13 10 ls) := by
      intro ls hls
      induction ls with
      | nil => exact fun x hx => by cases hx
      | cons l ls ih =>
        have hrest := ih fun m hm => hls m (List.mem_cons_of_mem l hm)
        cases ls with
        | nil => simpa using hls l List.mem_cons_self
        | cons m ls =>
          rw [Heads.joinLines_cons]
          exact (hls l List.mem_cons_self).append ((hrest.cons (by decide)).cons (by decide))
    exact hall r.lines fun l hl => (h.lines l hl).1
  have hsplit : Heads.splitLines '\r' '\n' (Py.decodeReplace (Heads.joinLines 13 10 r.lines)) = r.lines.map chars := by
    rw [Py.decodeReplace_ascii hascii, chars_joinLines]
    apply Heads.splitLines_joinLines (by simp [Reply.lines])
    intro l hl
    obtain ⟨b, hb, rfl⟩ := List.mem_map.mp hl
    exact fun hcr => (h.lines b hb).2.2 (mem_chars.mp hcr)
  have hversion : ' ' ∉ "BITE/1.0".toList := by decide
  have hdigits : ' ' ∉ Nat.toDigits 10 r.status := fun hmem => absurd (Py.toDigits_digits _ _ hmem) (by decide)
  have hstatus : (chars r.statusLine).splitOn ' ' =
      "BITE/1.0".toList :: Nat.toDigits 10 r.status :: (chars r.reason).splitOn ' ' := by
    have hline : chars r.statusLine =
        "BITE/1.0".toList ++ ' ' :: (Nat.toDigits 10 r.status ++ ' ' :: chars r.reason) := by
      rw [Reply.statusLine, Py.chars_append, Py.chars_append, Py.chars_decimal]
      simp [ascii]
    rw [hline, List.splitOn_append_cons_self_of_not_mem hversion, List.splitOn_append_cons_self_of_not_mem hdigits]
  have hfields := addHeader_lines h.keys h.values [] (by simpa using h.distinct)
  rw [Py.parseResponse, show [13, 10, 13, 10] = emptyLine from rfl, h.cut, Option.getD_some]
  simp only [hsplit]
  rw [Py.parseHead, Reply.lines, List.map_cons, List.headD_cons, hstatus]
  simp only [ne_eq, not_true_eq_false, if_false, Py.int_toDigits, Py.ok_bind, List.tail_cons, List.map_map, hfields]
  rfl

end Reply

end Bite
