import BaitNet.AsciiText
import BaitNet.BiteFetch

/-!
# What a URL means

The port of a URL with a name is the one behind the colon, in both implementations. Behind a
numeric address it is not: the C client cuts the port off before it reads the address, and the
reader of the address, which finds none, sets it to the default. The Python client forgets the
name instead: with a port behind it the certificate is not compared with anything.
-/
namespace Bite

open Wire Text
open Py (chars)
open Dhcp (isHex sign dropPrefix strtoull16 octets parseIpv69Addr)
open Parse (parseIpv69AddrPort)

/-- A text is cut where its first part ends. -/
theorem span_front {α : Type} {p : α → Bool} {front rest : List α} (hall : ∀ x ∈ front, p x = true)
    (hstop : ∀ x ∈ rest.head?, p x = false) :
    (front ++ rest).takeWhile p = front ∧ (front ++ rest).dropWhile p = rest := by
  rw [List.takeWhile_append_of_pos hall, List.dropWhile_append_of_pos hall]
  cases rest with
  | nil => simp
  | cons x rest => simp [hstop x rfl]

/-- What may follow the host: a port, and a path from the first slash on. -/
structure UrlTail where
  port : Option Bytes
  path : Bytes
  portText : ∀ p ∈ port, 47 ∉ p
  pathText : path = [] ∨ path.head? = some 47

namespace UrlTail

def portPart (u : UrlTail) : Bytes := (u.port.map (58 :: ·)).getD []

/-- A URL, with or without the scheme. -/
def text (u : UrlTail) (scheme : Bool) (host : Bytes) : Bytes :=
  (if scheme then ascii "bite://" else []) ++ (host ++ (u.portPart ++ u.path))

def portNumber (u : UrlTail) : UInt16 :=
  match u.port with
  | some p => if UInt16.ofInt (Gwfile.atoiInt p) = 0 then bitePort else .ofInt (Gwfile.atoiInt p)
  | none => bitePort

def target (u : UrlTail) : Bytes := (if u.path = [] then [47] else u.path).take 511

variable (u : UrlTail)

theorem portPart_noSlash : 47 ∉ u.portPart := by
  rw [portPart]
  cases hp : u.port with
  | none => simp
  | some p =>
    have hno := u.portText p (hp ▸ rfl)
    simp [hno]

theorem tail_start : ∀ x ∈ (u.portPart ++ u.path).head?, x = 58 ∨ x = 47 := by
  intro x hx
  rw [portPart] at hx
  cases hp : u.port with
  | some p =>
    rw [hp] at hx
    exact .inl (Option.some.inj hx).symm
  | none =>
    rw [hp] at hx
    rcases u.pathText with h | h
    · rw [h] at hx
      cases hx
    · exact .inr (Option.some.inj (hx.symm.trans h))

theorem path_start : ∀ x ∈ u.path.head?, x = 47 := by
  intro x hx
  rcases u.pathText with h | h
  · rw [h] at hx
    cases hx
  · exact Option.some.inj (hx.symm.trans h)

/-- What a URL begins with up to its first colon or slash is its host. -/
theorem host_front {host : Bytes} (hcolon : 58 ∉ host) (hslash : 47 ∉ host) :
    (host ++ (u.portPart ++ u.path)).takeWhile (fun x => decide (x ≠ 58 ∧ x ≠ 47)) = host := by
  have hall : ∀ x ∈ host, decide (x ≠ 58 ∧ x ≠ 47) = true := by
    intro x hx
    refine decide_eq_true ⟨?_, ?_⟩
    · rintro rfl
      exact hcolon hx
    · rintro rfl
      exact hslash hx
  refine (span_front hall fun x hx => ?_).1
  rcases u.tail_start x hx with rfl | rfl
  · rfl
  · rfl

/-- A URL is split where it was put together. -/
theorem splitUrl_text (scheme : Bool) {host : Bytes} (hcolon : 58 ∉ host) (hslash : 47 ∉ host)
    (hbite : host ≠ ascii "bite") : splitUrl (u.text scheme host) = (host, u.portNumber, u.target) := by
  have hstrip : (if (ascii "bite://").isPrefixOf (u.text scheme host) then (u.text scheme host).drop 7
      else u.text scheme host) = host ++ (u.portPart ++ u.path) := by
    cases scheme with
    | true =>
      have hpre : (ascii "bite://").isPrefixOf (u.text true host) = true := by simp [text]
      rw [if_pos hpre, text, if_pos rfl, show 7 = (ascii "bite://").length from rfl, List.drop_left]
    | false =>
      have hpre : ¬ (ascii "bite://").isPrefixOf (u.text false host) = true := by
        rw [List.isPrefixOf_iff_prefix]
        rintro ⟨t, ht⟩
        -- the host would end at the colon of the scheme
        have hfront := u.host_front hcolon hslash
        rw [text, if_neg (by simp), List.nil_append] at ht
        rw [← ht] at hfront
        exact hbite (hfront.symm.trans rfl)
      rw [if_neg hpre, text, if_neg (by simp), List.nil_append]
  have hno : ∀ x ∈ host ++ u.portPart, decide (x ≠ 47) = true := by
    intro x hx
    refine decide_eq_true ?_
    rintro rfl
    exact (List.mem_append.mp hx).elim hslash u.portPart_noSlash
  have hstop : ∀ x ∈ u.path.head?, decide (x ≠ 47) = false := fun x hx => by simp [u.path_start x hx]
  obtain ⟨hfront, hback⟩ := span_front hno hstop
  rw [List.append_assoc] at hfront hback
  have hpath : (if 47 ∈ host ++ (u.portPart ++ u.path) then u.path else [47]) = if u.path = [] then [47] else u.path := by
    have hpart := u.portPart_noSlash
    rcases u.pathText with h | h
    · simp [h, hslash, hpart]
    · obtain ⟨t, ht⟩ := List.head?_eq_some_iff.mp h
      simp [ht]
  unfold splitUrl
  simp only [hstrip, hfront, hback, hpath]
  cases hp : u.port with
  | none =>
    have hpart : u.portPart = [] := by simp [portPart, hp]
    rw [hpart, List.append_nil, splitFirst_none hcolon]
    simp [portNumber, hp, target]
  | some p =>
    have hpart : u.portPart = 58 :: p := by simp [portPart, hp]
    rw [hpart, splitFirst_append hcolon]
    simp [portNumber, hp, target]

end UrlTail

/-- The characters of an octet. -/
def inNumeral (x : UInt8) : Bool := isSpace x ∨ x = 43 ∨ x = 45 ∨ x = 88 ∨ x = 120 ∨ isHex x

theorem sign_mem {s : Bytes} {x : UInt8} (h : x ∈ s) : x ∈ (sign s).2 ∨ inNumeral x = true := by
  unfold sign
  split
  · rcases List.mem_cons.mp h with rfl | h
    · exact .inr rfl
    · exact .inl h
  · rcases List.mem_cons.mp h with rfl | h
    · exact .inr rfl
    · exact .inl h
  · exact .inl h

theorem dropPrefix_mem {s : Bytes} {x : UInt8} (h : x ∈ s) : x ∈ dropPrefix s ∨ inNumeral x = true := by
  unfold dropPrefix
  split
  · rename_i y d r
    split
    · rename_i hpre
      rcases List.mem_cons.mp h with rfl | h
      · exact .inr rfl
      · rcases List.mem_cons.mp h with rfl | h
        · rcases hpre.1 with rfl | rfl
          · exact .inr rfl
          · exact .inr rfl
        · exact .inl h
    · exact .inl h
  · exact .inl h

theorem dropWhile_mem {p : UInt8 → Bool} {s : Bytes} {x : UInt8} (h : x ∈ s) : x ∈ s.dropWhile p ∨ p x = true := by
  rw [← List.takeWhile_append_dropWhile (p := p) (l := s)] at h
  exact (List.mem_append.mp h).symm.imp_right List.mem_takeWhile_imp

/-- What is read as a number has the characters of one. -/
theorem strtoull16_mem {s rest : Bytes} {v : UInt64} {x : UInt8} (h : strtoull16 s = some (v, rest)) (hx : x ∈ s) :
    x ∈ rest ∨ inNumeral x = true := by
  have hread : rest = (dropPrefix (sign (s.dropWhile isSpace)).2).dropWhile isHex := by
    rw [strtoull16] at h
    simp only at h
    split at h
    · cases h
    · exact (congrArg Prod.snd (Option.some.inj h)).symm
  rcases dropWhile_mem (p := isSpace) hx with hx | hspace
  · rcases sign_mem hx with hx | hsign
    · rcases dropPrefix_mem hx with hx | hprefix
      · rcases dropWhile_mem (p := isHex) hx with hx | hhex
        · exact .inl (hread ▸ hx)
        · exact .inr (by simp [inNumeral, hhex])
      · exact .inr hprefix
    · exact .inr hsign
  · exact .inr (by simp [inNumeral, hspace])

theorem octets_mem {s : Bytes} {v w : UInt64} {left : Nat} {x : UInt8} (h : octets s v (left + 1) = some w)
    (hx : x ∈ s) : x = 46 ∨ inNumeral x = true := by
  induction left generalizing s v with
  | zero =>
    rw [octets] at h
    split at h
    · cases h
    · rename_i o rest hread
      split at h
      · cases h
      · split at h
        · exact .inr ((strtoull16_mem hread hx).resolve_left List.not_mem_nil)
        · omega
        · cases h
  | succ left ih =>
    rw [octets] at h
    split at h
    · cases h
    · rename_i o rest hread
      split at h
      · cases h
      · split at h
        · omega
        · rename_i n r hleft
          obtain rfl := Nat.succ.inj hleft
          rcases strtoull16_mem hread hx with hx | hnum
          · rcases List.mem_cons.mp hx with rfl | hx
            · exact .inl rfl
            · exact ih h hx
          · exact .inr hnum
        · cases h

/-- What is read as an address has the characters of one. -/
theorem parseIpv69Addr_mem {s : Bytes} {v : UInt64} {x : UInt8} (h : parseIpv69Addr s = some v) (hx : x ∈ s) :
    x = 46 ∨ inNumeral x = true := by
  rw [parseIpv69Addr] at h
  split at h
  · exact octets_mem h hx
  · split at h
    · rename_i hread
      exact .inr ((strtoull16_mem hread hx).resolve_left List.not_mem_nil)
    · cases h

/-- Behind a numeric address, in whatever form, the port is not heeded. -/
theorem fetchUrl_numeric {host : Bytes} {v : UInt64} (hread : parseIpv69Addr host = some v) (hne : v ≠ 0)
    (hfits : host.length < 128) (u : UrlTail) (scheme : Bool) :
    fetchUrl (u.text scheme host) = some ⟨[], v, bitePort, u.target⟩ := by
  have hno : ∀ x ∈ host, x ≠ 58 ∧ x ≠ 47 ∧ x ≠ 116 := by
    intro x hx
    rcases parseIpv69Addr_mem hread hx with rfl | hnum
    · decide
    · refine ⟨?_, ?_, ?_⟩
      all_goals
        rintro rfl
        revert hnum
        decide
  have hcolon : 58 ∉ host := fun h => (hno _ h).1 rfl
  have hbait : ¬ (5 < host.length ∧ dotBait.isSuffixOf host = true) := by
    rintro ⟨-, hsuffix⟩
    have hmem := (List.isSuffixOf_iff_suffix.mp hsuffix).subset (show (116 : UInt8) ∈ dotBait by simp [dotBait, ascii])
    exact (hno _ hmem).2.2 rfl
  have hbite : host ≠ ascii "bite" := by
    rintro rfl
    exact (hno 116 (by simp [ascii])).2.2 rfl
  have hhost : ¬ (host = [] ∨ 128 ≤ host.length) := by
    rintro (rfl | h)
    · cases hread
    · omega
  have hport : parseIpv69AddrPort host = some (v, 0) := by
    rw [parseIpv69AddrPort, splitLast_none hcolon, hread]
    rfl
  rw [fetchUrl, u.splitUrl_text scheme hcolon (fun h => (hno _ h).2.1 rfl) hbite]
  simp only [fetchHost, if_neg hhost, if_neg hbait, hport, if_neg hne, if_true]

/-- `10.20.30.40.50:9000/x` -/
theorem fetchUrl_numeric_port :
    fetchUrl ((⟨some (ascii "9000"), ascii "/x", by simp [ascii], by simp [ascii]⟩ : UrlTail).text false
      (ascii "10.20.30.40.50")) = some ⟨[], 0x1020304050, 8080, ascii "/x"⟩ :=
  (fetchUrl_numeric (v := 0x1020304050) (by decide) (by decide) (by decide) _ false).trans
    (by simp [bitePort, UrlTail.target, ascii])

/-- A character of a label is a letter or one of six digits. -/
theorem b32v_bytes {x : UInt8} (h : (b32v x).isSome = true) : x ≠ 58 ∧ x ≠ 47 ∧ x ≠ 46 := by
  refine ⟨?_, ?_, ?_⟩
  all_goals
    rintro rfl
    revert h
    decide

/-- A URL with a name, and a port that is a number. -/
def namedTail (port : Option Nat) (path : Bytes) (h : path = [] ∨ path.head? = some 47) : UrlTail where
  port := port.map decimal
  path := path
  portText := by
    intro p hp hmem
    obtain ⟨n, -, rfl⟩ := Option.mem_map.mp hp
    exact absurd (decimal_digits n 47 hmem) (by decide)
  pathText := h

theorem namedTail_number {port : Option Nat} (hport : ∀ n ∈ port, 0 < n ∧ n < 2 ^ 16) {path : Bytes}
    (h : path = [] ∨ path.head? = some 47) :
    (namedTail port path h).portNumber = (port.map UInt16.ofNat).getD bitePort := by
  cases port with
  | none => rfl
  | some n =>
    obtain ⟨hpos, hlt⟩ := hport n rfl
    have hread : Gwfile.atoiInt (decimal n) = n := by
      have hatoi := atoi_decimal n []
      rw [List.append_nil, List.takeWhile_nil, List.append_nil, value_decimal, Nat.min_eq_left (by omega)] at hatoi
      rw [Gwfile.atoiInt, hatoi]
      exact Int.bmod_eq_of_le (by omega) (by omega)
    have hof : UInt16.ofInt (n : Int) = UInt16.ofNat n := by
      rw [UInt16.ofInt]
      congr 1
      omega
    have hne : UInt16.ofNat n ≠ 0 := by
      rw [Ne, ← UInt16.toNat_inj, UInt16.toNat_ofNat', Nat.mod_eq_of_lt hlt]
      exact Nat.ne_of_gt hpos
    simp only [UrlTail.portNumber, namedTail, Option.map_some, hread, hof, if_neg hne, Option.getD_some]

/-- The C client goes to the address of the name, and wants its certificate. -/
theorem fetchUrl_named {label : List Char} (hs : Py.IsAscii label) (hvalid : Py.labelValid label = true) {port : Option Nat}
    (hport : ∀ n ∈ port, 0 < n ∧ n < 2 ^ 16) {path : Bytes} (h : path = [] ∨ path.head? = some 47) (scheme : Bool) :
    ∃ a5, baitLabelToAddr (Py.cText label) = some a5 ∧ Py.labelToAddr label = .ok (get40 a5 0).toNat ∧
      fetchUrl ((namedTail port path h).text scheme (Py.cText label ++ dotBait)) =
        some ⟨Py.cText label, get40 a5 0, (port.map UInt16.ofNat).getD bitePort, (namedTail port path h).target⟩ := by
  obtain ⟨a5, ha5, haddr⟩ := Py.labelToAddr_eq hs hvalid
  have hlabel : baitLabelValid (Py.cText label) = true := by rwa [← Py.labelValid_eq hs]
  have hparts : (Py.cText label).length = baitLabelLen ∧ ∀ x ∈ Py.cText label, (b32v x).isSome = true := by
    rw [baitLabelValid] at hlabel
    split at hlabel
    · cases hlabel
    · rename_i hlen
      exact ⟨not_not.mp hlen, List.all_eq_true.mp hlabel⟩
  have hlen : (Py.cText label ++ dotBait).length = baitLabelLen + 5 := by
    rw [List.length_append, hparts.1]
    rfl
  have hcolon : (58 : UInt8) ∉ Py.cText label ++ dotBait := by
    intro hmem
    rcases List.mem_append.mp hmem with hl | hb
    · exact (b32v_bytes (hparts.2 58 hl)).1 rfl
    · revert hb
      simp [dotBait, ascii]
  have hslash : (47 : UInt8) ∉ Py.cText label ++ dotBait := by
    intro hmem
    rcases List.mem_append.mp hmem with hl | hb
    · exact (b32v_bytes (hparts.2 47 hl)).2.1 rfl
    · revert hb
      simp [dotBait, ascii]
  have hbite : Py.cText label ++ dotBait ≠ ascii "bite" := by
    intro h
    rw [h] at hlen
    revert hlen
    decide
  have hhost : ¬ (Py.cText label ++ dotBait = [] ∨ 128 ≤ (Py.cText label ++ dotBait).length) := by
    rw [hlen]
    rintro (hnil | hbig)
    · rw [hnil] at hlen
      cases hlen
    · revert hbig
      decide
  have hbait : 5 < (Py.cText label ++ dotBait).length ∧ dotBait.isSuffixOf (Py.cText label ++ dotBait) = true := by
    rw [hlen]
    exact ⟨by decide, List.isSuffixOf_iff_suffix.mpr (List.suffix_append _ _)⟩
  have htake : (Py.cText label ++ dotBait).take baitLabelLen = Py.cText label := by
    rw [← hparts.1, List.take_left]
  have hvalid' : ¬ baitLabelValid (Py.cText label) = false := by simp [hlabel]
  refine ⟨a5, ha5, haddr, ?_⟩
  rw [fetchUrl, UrlTail.splitUrl_text _ scheme hcolon hslash hbite]
  simp only
  rw [fetchHost, if_neg hhost, if_pos hbait, if_neg (not_not.mpr hlen)]
  simp only [htake, if_neg hvalid', ha5, Option.map_some, namedTail_number hport]

end Bite

namespace Py

open Wire
open Bite (namedTail dotBait)

/-- What the URL has behind the name, as characters. -/
def portChars (port : Option Nat) : List Char := (port.map fun n => ':' :: Nat.toDigits 10 n).getD []

theorem label_chars {label : List Char} (hs : IsAscii label) (hvalid : labelValid label = true) :
    label.length = 32 ∧ '/' ∉ label ∧ ':' ∉ label ∧ '.' ∉ label := by
  have hvalid' := labelValid_eq hs
  rw [hvalid, eq_comm, Bite.baitLabelValid] at hvalid'
  split at hvalid'
  · cases hvalid'
  · rename_i hlen
    have hall := List.all_eq_true.mp hvalid'
    have hbyte : ∀ ch ∈ label, (Bite.b32v (.ofNat ch.toNat)).isSome = true :=
      fun ch hch => hall _ (List.mem_map.mpr ⟨ch, hch, rfl⟩)
    have hlen' : (cText label).length = 32 := not_not.mp hlen
    refine ⟨by simpa [cText] using hlen', ?_, ?_, ?_⟩
    · exact fun hmem => (Bite.b32v_bytes (hbyte _ hmem)).2.1 rfl
    · exact fun hmem => (Bite.b32v_bytes (hbyte _ hmem)).1 rfl
    · exact fun hmem => (Bite.b32v_bytes (hbyte _ hmem)).2.2 rfl

theorem digits_no {n : Nat} {ch : Char} (h : ch.isDigit = false) : ch ∉ Nat.toDigits 10 n := fun hmem => by
  rw [toDigits_digits n ch hmem] at h
  cases h

theorem host_noSlash {label : List Char} (hslash : '/' ∉ label) (port : Option Nat) :
    ∀ ch ∈ label ++ ".bait".toList ++ portChars port, decide (ch ≠ '/') = true := by
  intro ch hch
  refine decide_eq_true fun heq => ?_
  subst heq
  rcases List.mem_append.mp hch with hfront | hport
  · exact (List.mem_append.mp hfront).elim hslash (by decide)
  · cases port with
    | none => cases hport
    | some n =>
      rcases List.mem_cons.mp hport with heq | hdigit
      · exact absurd heq (by decide)
      · exact digits_no (by decide) hdigit

theorem bait_cut (label : List Char) : ".bait".toList.isSuffixOf (label ++ ".bait".toList) = true ∧
    (label ++ ".bait".toList).take ((label ++ ".bait".toList).length - 5) = label := by
  constructor
  · exact List.isSuffixOf_iff_suffix.mpr (List.suffix_append _ _)
  · rw [List.length_append, show ".bait".toList.length = 5 from rfl, Nat.add_sub_cancel, List.take_left]

/-- The name is found again behind whatever port. -/
theorem resolveName_named {label : List Char} (hs : IsAscii label) (hvalid : labelValid label = true) (port : Option Nat)
    (default : Int) :
    resolveName (label ++ ".bait".toList ++ portChars port) default = (do
      let addr ← labelToAddr label
      return (addr, (port.map Int.ofNat).getD default)) := by
  obtain ⟨hlen, hslash, hcolon, hdot⟩ := label_chars hs hvalid
  have hbait : ':' ∉ ".bait".toList := by decide
  have hhost := host_noSlash hslash port
  obtain ⟨hsuffix, hcut⟩ := bait_cut label
  have hplain : ¬ ".bait".toList.isSuffixOf label = true := by
    rw [List.isSuffixOf_iff_suffix]
    exact fun hsuf => hdot (hsuf.subset (by decide))
  have hname : nameToAddr label = labelToAddr label := by rw [nameToAddr, if_neg hplain]
  rw [resolveName, List.takeWhile_eq_self_iff.mpr hhost]
  cases port with
  | none =>
    have htext : label ++ ".bait".toList ++ portChars none = label ++ ".bait".toList := List.append_nil _
    have hno : ':' ∉ label ++ ".bait".toList := fun hmem => (List.mem_append.mp hmem).elim hcolon hbait
    rw [htext]
    simp only [if_neg hno, pure_eq_ok, ok_bind, hsuffix, if_true, hcut, hname]
    rfl
  | some n =>
    have hdigits : ':' ∉ Nat.toDigits 10 n := digits_no (by decide)
    have htext : label ++ ".bait".toList ++ portChars (some n) = label ++ ".bait".toList ++ ':' :: Nat.toDigits 10 n := rfl
    have hyes : ':' ∈ label ++ ".bait".toList ++ ':' :: Nat.toDigits 10 n := by simp
    have hlast : ((label ++ ".bait".toList ++ ':' :: Nat.toDigits 10 n).reverse.takeWhile (· ≠ ':')).reverse =
        Nat.toDigits 10 n := by
      have hall : ∀ ch ∈ (Nat.toDigits 10 n).reverse, decide (ch ≠ ':') = true := fun ch hch =>
        decide_eq_true fun heq => hdigits (heq ▸ List.mem_reverse.mp hch)
      rw [List.reverse_append, List.reverse_cons, List.append_assoc, List.takeWhile_append_of_pos hall]
      simp
    have hfront : (label ++ ".bait".toList ++ ':' :: Nat.toDigits 10 n).take
        ((label ++ ".bait".toList ++ ':' :: Nat.toDigits 10 n).length - ((Nat.toDigits 10 n).length + 1)) =
          label ++ ".bait".toList := by
      rw [List.length_append, List.length_cons, Nat.add_sub_cancel, List.take_left]
    rw [htext]
    simp only [if_pos hyes, hlast, int_toDigits, ok_bind, hfront, pure_eq_ok, hsuffix, if_true, hcut, hname]
    rfl

/-- The Python client goes to the same address, and checks the certificate of a name without a port. -/
theorem cmdBite_named {label : List Char} (hs : IsAscii label) (hvalid : labelValid label = true) (port : Option Nat)
    {path : Bytes} (h : path = [] ∨ path.head? = some 47) (default : Int) {addr : Nat}
    (haddr : labelToAddr label = .ok addr) :
    cmdBite (label ++ ".bait".toList ++ portChars port ++ chars path) default false =
      .ok ⟨addr, (port.map Int.ofNat).getD default, if port.isSome then none else some label,
        if path = [] then ['/'] else chars path⟩ := by
  obtain ⟨hlen, hslash, hcolon, hdot⟩ := label_chars hs hvalid
  have hhost := host_noSlash hslash port
  obtain ⟨hsuffix, hcut⟩ := bait_cut label
  have hexpect : (if ".bait".toList.isSuffixOf (label ++ ".bait".toList ++ portChars port) then
      some ((label ++ ".bait".toList ++ portChars port).take ((label ++ ".bait".toList ++ portChars port).length - 5))
      else none) = if port.isSome then none else some label := by
    cases port with
    | none =>
      have htext : label ++ ".bait".toList ++ portChars none = label ++ ".bait".toList := List.append_nil _
      rw [htext, if_pos hsuffix, hcut]
      rfl
    | some n =>
      -- the last character is a digit
      have hno : ¬ ".bait".toList.isSuffixOf (label ++ ".bait".toList ++ portChars (some n)) = true := by
        rw [List.isSuffixOf_iff_suffix]
        rintro ⟨t, ht⟩
        have hlast := congrArg List.getLast? ht
        have hne : Nat.toDigits 10 n ≠ [] := Nat.toDigits_ne_nil
        obtain ⟨d, hd⟩ : ∃ d, (Nat.toDigits 10 n).getLast? = some d := ⟨_, List.getLast?_eq_some_getLast hne⟩
        have hdigit := toDigits_digits n d (List.mem_of_getLast? hd)
        have hport : (portChars (some n)).getLast? = some d := by
          rw [portChars, Option.map_some, Option.getD_some, List.getLast?_cons_of_ne_nil hne, hd]
        rw [List.getLast?_append, List.getLast?_append, hport] at hlast
        have hteq : 't' = d := by simpa using hlast
        rw [← hteq] at hdigit
        revert hdigit
        decide
      rw [if_neg hno]
      rfl
  have hfront : (label ++ ".bait".toList ++ portChars port ++ chars path).takeWhile (· ≠ '/') =
      label ++ ".bait".toList ++ portChars port ∧
        (label ++ ".bait".toList ++ portChars port ++ chars path).dropWhile (· ≠ '/') = chars path := by
    refine Bite.span_front hhost fun ch hch => ?_
    rcases h with rfl | h
    · cases hch
    · obtain ⟨t, rfl⟩ := List.head?_eq_some_iff.mp h
      rw [← Option.some.inj hch]
      decide
  have htarget : (if (chars path).drop 1 = [] then ['/'] else '/' :: (chars path).drop 1) =
      if path = [] then ['/'] else chars path := by
    rcases h with rfl | h
    · rfl
    · obtain ⟨t, rfl⟩ := List.head?_eq_some_iff.mp h
      cases t with
      | nil => rfl
      | cons x t => rfl
  rw [cmdBite]
  simp only [hfront.1, hfront.2, resolveName_named hs hvalid, haddr, ok_bind, pure_eq_ok, hexpect, htarget]
  rfl

/-- The scheme is read as a host with a port that is no number. -/
theorem cmdBite_scheme (rest : List Char) (default : Int) (noCheck : Bool) :
    cmdBite ("bite://".toList ++ rest) default noCheck =
      .error (.valueError "invalid literal for int() with base 10") := rfl

end Py

namespace Bite

open Wire Text

end Bite
