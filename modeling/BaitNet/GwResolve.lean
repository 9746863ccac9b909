import BaitNet.Pton6
import BaitNet.QueryAnswer

/-!
# Gateways as text

`gwfile.c`: `gwfile_resolve`, up to the DNS query. A host and a port come apart at a colon, and an
IPv6 address is full of colons.
-/
namespace Gwfile

open Wire Text

inductive Resolved where
  /-- `return -1` -/
  | fail
  | inet (ip : Arr 4) (port : Nat)
  | inet6 (ip : Bytes) (port : Nat)
  /-- neither `inet_pton` takes the host: what DNS says of it decides -/
  | lookup (host : Bytes) (port : Nat)
  deriving DecidableEq

def defaultPort : Int := 6969

/-- `atoi`, as an `int`. -/
def atoiInt (s : Bytes) : Int := (atoi s).bmod (2 ^ 32)

/-- Behind a bracket: what the brackets hold and the port behind them. -/
def unbracket (host : Bytes) (port : Int) : Bytes × Int :=
  match host with
  | 91 :: host =>
    match splitFirst 93 host with
    | some (inner, behind) =>
      match splitFirst 58 behind with
      | some (_, p2) => (inner, atoiInt p2)
      | none => (inner, port)
    | none => (host, port)
  | host => (host, port)

/-- The end of the function: the range of the port and the two kinds of literals. -/
def resolveHost (host : Bytes) (port : Int) : Resolved :=
  if port ≤ 0 ∨ 65535 < port then .fail
  else
    match inetPton4 host with
    | some ip => .inet ip port.toNat
    | none =>
      match inetPton6 host with
      | some ip => .inet6 ip port.toNat
      | none => .lookup host port.toNat

/-- `gwfile_resolve`. -/
def gwfileResolve (hostport : Bytes) : Resolved :=
  let hp := hostport.take 255
  match splitLast 58 hp with
  | some (front, behind) =>
    if front = [] then .fail
    else if front.getLast? = some 93 then
      let (host, port) := unbracket hp defaultPort
      resolveHost host port
    else
      let (host, port) := unbracket front (atoiInt behind)
      resolveHost host port
  | none =>
    let (host, port) := unbracket hp defaultPort
    resolveHost host port

structure V4Literal where
  text : Bytes
  ip : Arr 4
  accepted : inetPton4 text = some ip

structure V6Literal where
  text : Bytes
  ip : Bytes
  accepted : inetPton6 text = some ip

structure Port where
  number : Nat
  pos : 0 < number
  le : number ≤ 65535

def Port.default : Port := ⟨6969, by decide, by decide⟩

/-- The four ways to write a gateway as a literal. -/
inductive GatewayText where
  | v6Port (l : V6Literal) (p : Port)
  | v6 (l : V6Literal)
  | v4Port (l : V4Literal) (p : Port)
  | v4 (l : V4Literal)

namespace GatewayText

def text : GatewayText → Bytes
  | v6Port l p => 91 :: l.text ++ 93 :: 58 :: decimal p.number
  | v6 l => 91 :: l.text ++ [93]
  | v4Port l p => l.text ++ 58 :: decimal p.number
  | v4 l => l.text

/-- The address and the port that it means. -/
def meaning : GatewayText → Resolved
  | v6Port l p => .inet6 l.ip p.number
  | v6 l => .inet6 l.ip Port.default.number
  | v4Port l p => .inet l.ip p.number
  | v4 l => .inet l.ip Port.default.number

/-- An IPv6 address in brackets with nothing behind them. -/
def bareBrackets : GatewayText → Bool
  | v6 _ => true
  | _ => false

end GatewayText

theorem V6Literal.noBracket (l : V6Literal) : (91 : UInt8) ∉ l.text ∧ (93 : UInt8) ∉ l.text :=
  ⟨fun h => absurd (inetPton6_chars l.accepted h) (by decide),
    fun h => absurd (inetPton6_chars l.accepted h) (by decide)⟩

theorem V4Literal.not_mem (l : V4Literal) {x : UInt8} (hx : isDigit x = false) (hdot : x ≠ 46) : x ∉ l.text := by
  intro h
  have hbad := inetPton4_bad hx hdot h
  rw [l.accepted] at hbad
  cases hbad

theorem V4Literal.text_ne_nil (l : V4Literal) : l.text ≠ [] := by
  intro h
  have hacc := l.accepted
  rw [h] at hacc
  cases hacc

theorem Port.text_length (p : Port) : (decimal p.number).length ≤ 5 :=
  Gw.decimal_length (by decide) (Nat.lt_of_le_of_lt p.le (by decide))

theorem Port.colonless (p : Port) : (58 : UInt8) ∉ decimal p.number :=
  fun h => (isDigit_ne (decimal_digits _ _ h)).2.1 rfl

theorem Port.atoi (p : Port) : atoiInt (decimal p.number) = p.number := by
  have hread := atoi_decimal p.number []
  rw [List.append_nil, List.takeWhile_nil, List.append_nil, value_decimal] at hread
  have hle := p.le
  rw [atoiInt, hread, Nat.min_eq_left (by omega)]
  exact Int.bmod_eq_of_le (by omega) (by omega)

theorem GatewayText.text_length (t : GatewayText) : t.text.length ≤ 255 := by
  cases t with
  | v6Port l p =>
    have hl := inetPton6_length l.accepted
    have hp := p.text_length
    simp only [GatewayText.text, List.length_append, List.length_cons]
    omega
  | v6 l =>
    have hl := inetPton6_length l.accepted
    simp only [GatewayText.text, List.length_append, List.length_cons, List.length_nil]
    omega
  | v4Port l p =>
    have hl := inetPton4_length l.accepted
    have hp := p.text_length
    simp only [GatewayText.text, List.length_append, List.length_cons]
    omega
  | v4 l =>
    have hl := inetPton4_length l.accepted
    simp only [GatewayText.text]
    omega

theorem resolveHost_inet (l : V4Literal) (p : Port) : resolveHost l.text p.number = .inet l.ip p.number := by
  have hpos := p.pos
  have hle := p.le
  rw [resolveHost, if_neg (by omega), l.accepted]
  rfl

theorem resolveHost_inet6 (l : V6Literal) (p : Port) : resolveHost l.text p.number = .inet6 l.ip p.number := by
  have hpos := p.pos
  have hle := p.le
  rw [resolveHost, if_neg (by omega), inetPton4_of_pton6 l.accepted, l.accepted]
  rfl

theorem resolveHost_eq_inet6 {host ip : Bytes} {port : Int} {n : Nat} (h : resolveHost host port = .inet6 ip n) :
    inetPton6 host = some ip ∧ port.toNat = n := by
  rw [resolveHost] at h
  split at h
  · cases h
  split at h
  · cases h
  split at h
  · rename_i hip
    cases h
    exact ⟨hip, rfl⟩
  · cases h

theorem unbracket_plain {host : Bytes} (h : 91 ∉ host) (port : Int) : unbracket host port = (host, port) := by
  rw [unbracket.eq_def]
  split
  · exact absurd List.mem_cons_self h
  · rfl

theorem unbracket_open {host : Bytes} (h : 93 ∉ host) (port : Int) : unbracket (91 :: host) port = (host, port) := by
  simp only [unbracket, splitFirst_none h]

theorem unbracket_port {host : Bytes} (h : 93 ∉ host) (p2 : Bytes) (port : Int) :
    unbracket (91 :: host ++ 93 :: 58 :: p2) port = (host, atoiInt p2) := by
  have hbehind : splitFirst 58 (58 :: p2) = some ([], p2) := splitFirst_append List.not_mem_nil p2
  simp only [List.cons_append, unbracket, splitFirst_append h, hbehind]

theorem gwfileResolve_v4Port (l : V4Literal) (p : Port) :
    gwfileResolve (GatewayText.v4Port l p).text = (GatewayText.v4Port l p).meaning := by
  have hlast : l.text.getLast? ≠ some 93 :=
    fun h => l.not_mem (by decide) (by decide) (List.mem_of_getLast? h)
  rw [gwfileResolve, List.take_of_length_le (GatewayText.text_length _), GatewayText.text,
    splitLast_append _ p.colonless]
  simp only [if_neg l.text_ne_nil, if_neg hlast, unbracket_plain (l.not_mem (x := 91) (by decide) (by decide)), p.atoi,
    resolveHost_inet]
  rfl

theorem gwfileResolve_v4 (l : V4Literal) : gwfileResolve (GatewayText.v4 l).text = (GatewayText.v4 l).meaning := by
  rw [gwfileResolve, List.take_of_length_le (GatewayText.text_length _), GatewayText.text,
    splitLast_none (l.not_mem (by decide) (by decide))]
  simp only [unbracket_plain (l.not_mem (x := 91) (by decide) (by decide))]
  exact resolveHost_inet l Port.default

theorem gwfileResolve_v6Port (l : V6Literal) (p : Port) :
    gwfileResolve (GatewayText.v6Port l p).text = (GatewayText.v6Port l p).meaning := by
  have hsplit : splitLast 58 (91 :: l.text ++ 93 :: 58 :: decimal p.number) =
      some (91 :: l.text ++ [93], decimal p.number) := by
    have happend := splitLast_append (91 :: l.text ++ [93]) p.colonless
    rwa [List.append_assoc] at happend
  have hne : 91 :: l.text ++ [93] ≠ [] := List.cons_ne_nil _ _
  have hlast : (91 :: l.text ++ [93]).getLast? = some 93 := List.getLast?_concat
  rw [gwfileResolve, List.take_of_length_le (GatewayText.text_length _), GatewayText.text, hsplit]
  simp only [if_neg hne, if_pos hlast, unbracket_port l.noBracket.2, p.atoi, resolveHost_inet6]
  rfl

/-- A text without blanks or a sign in front is read as its digits. -/
theorem atoi_plain {ch : UInt8} {s : Bytes} (hspace : isSpace ch = false) (hplus : ch ≠ 43) (hminus : ch ≠ 45) :
    atoi (ch :: s) = magnitude (ch :: s) := by
  rw [atoi, List.dropWhile_cons_of_neg (by rw [hspace]; exact Bool.false_ne_true)]
  split
  · rename_i heq
    exact absurd (List.cons.inj heq).1 hminus
  · rename_i heq
    exact absurd (List.cons.inj heq).1 hplus
  · rfl

theorem pton6Digit_range {ch : UInt8} (h : (pton6Digit ch).isSome = true) :
    48 ≤ ch ∧ ch ≤ 57 ∨ 65 ≤ ch ∧ ch ≤ 70 ∨ 97 ≤ ch ∧ ch ≤ 102 := by
  rw [pton6Digit] at h
  split at h
  · exact .inl ‹_›
  split at h
  · exact .inr (.inl ‹_›)
  split at h
  · exact .inr (.inr ‹_›)
  · cases h

/-- No character of an address, and no bracket, is a blank or a sign. -/
theorem address_char {ch : UInt8} (h : ch = 46 ∨ ch = 93 ∨ (pton6Digit ch).isSome = true) :
    isSpace ch = false ∧ ch ≠ 43 ∧ ch ≠ 45 := by
  rcases h with rfl | rfl | h
  · decide
  · decide
  · have hrange := pton6Digit_range h
    refine ⟨decide_eq_false ?_, ?_, ?_⟩
    · grind
    · grind
    · grind

/-- What stands behind the last colon of an address is read as the number in front of it. -/
theorem atoi_tail {q : Bytes} (hq : ∀ x ∈ q, x = 46 ∨ (pton6Digit x).isSome = true) :
    atoi (q ++ [93]) = (min (runFrom 0 q) (2 ^ 63 - 1) : Nat) := by
  have hplain : atoi (q ++ [93]) = magnitude (q ++ [93]) := by
    cases q with
    | nil => rfl
    | cons ch q =>
      obtain ⟨hspace, hplus, hminus⟩ := address_char ((hq ch List.mem_cons_self).imp_right .inr)
      exact atoi_plain hspace hplus hminus
  have hrun : (q ++ [93]).takeWhile isDigit = q.takeWhile isDigit := by
    clear hplain hq
    induction q with
    | nil => rfl
    | cons ch q ih =>
      rw [List.cons_append, List.takeWhile_cons, List.takeWhile_cons, ih]
  rw [hplain, magnitude, hrun]
  rfl

theorem exists_last {x : UInt8} {s : Bytes} (h : x ∈ s) : ∃ a b, s = a ++ x :: b ∧ x ∉ b := by
  induction s with
  | nil => cases h
  | cons y s ih =>
    by_cases hs : x ∈ s
    · obtain ⟨a, b, rfl, hb⟩ := ih hs
      exact ⟨y :: a, b, rfl, hb⟩
    · obtain rfl := (List.mem_cons.mp h).resolve_right hs
      exact ⟨[], s, rfl, hs⟩

/-- Without a port the address is cut at its last colon. -/
theorem gwfileResolve_v6 (l : V6Literal) : gwfileResolve (GatewayText.v6 l).text ≠ (GatewayText.v6 l).meaning := by
  obtain ⟨p, q, htext, hq⟩ := exists_last (inetPton6_colon l.accepted)
  have hchars : ∀ x ∈ q, x = 46 ∨ (pton6Digit x).isSome = true := by
    intro x hx
    have hin : x ∈ l.text := by simp [htext, hx]
    refine (inetPton6_chars l.accepted hin).resolve_left ?_
    rintro rfl
    exact hq hx
  have hsplit : splitLast 58 (91 :: l.text ++ [93]) = some (91 :: p, q ++ [93]) := by
    have happend := @splitLast_append 58 (91 :: p) (q ++ [93]) (by simp [hq])
    rwa [← List.cons_append, ← List.append_assoc, List.cons_append, ← htext] at happend
  have hclose : 93 ∉ p := fun h => l.noBracket.2 (by simp [htext, h])
  have hlast : (91 :: p).getLast? ≠ some 93 := by
    intro h
    rcases List.mem_cons.mp (List.mem_of_getLast? h) with h | h
    · cases h
    · exact hclose h
  rw [gwfileResolve, List.take_of_length_le (GatewayText.text_length _), GatewayText.text, hsplit]
  simp only [List.cons_ne_nil, if_false, if_neg hlast, unbracket_open hclose]
  intro h
  obtain ⟨hfront, hport⟩ := resolveHost_eq_inet6 h
  have hall := l.accepted
  rw [htext] at hall
  have hle := inetPton6_front hq hall hfront
  -- The number behind the colon is an octet at most, so it is no default port.
  rw [atoiInt, atoi_tail hchars, Nat.min_eq_left (by omega), Int.bmod_eq_of_le (by omega) (by omega)] at hport
  have hdefault : Port.default.number = 6969 := rfl
  omega

/-- A literal is resolved to what it means exactly when it is not a bare address in brackets. -/
theorem gwfileResolve_literal_iff (t : GatewayText) : gwfileResolve t.text = t.meaning ↔ t.bareBrackets = false := by
  cases t with
  | v6Port l p => exact iff_of_true (gwfileResolve_v6Port l p) rfl
  | v6 l => exact iff_of_false (gwfileResolve_v6 l) (Bool.noConfusion)
  | v4Port l p => exact iff_of_true (gwfileResolve_v4Port l p) rfl
  | v4 l => exact iff_of_true (gwfileResolve_v4 l) rfl

/-- `[::1]` becomes a question for the name `:`, and `[1::2:3]` another address on port 3. -/
theorem gwfileResolve_cuts_address :
    inetPton6 (ascii "::1") = some [0, 0, 0, 0, 0, 0, 0, 0, 0, 0, 0, 0, 0, 0, 0, 1] ∧
      gwfileResolve (ascii "[::1]") = .lookup (ascii ":") 1 ∧
      inetPton6 (ascii "1::2:3") = some [0, 1, 0, 0, 0, 0, 0, 0, 0, 0, 0, 0, 0, 2, 0, 3] ∧
      gwfileResolve (ascii "[1::2:3]") = .inet6 [0, 1, 0, 0, 0, 0, 0, 0, 0, 0, 0, 0, 0, 0, 0, 2] 3 ∧
      ¬ ∀ t : GatewayText, gwfileResolve t.text = t.meaning := by
  have hone : inetPton6 (ascii "::1") = some [0, 0, 0, 0, 0, 0, 0, 0, 0, 0, 0, 0, 0, 0, 0, 1] := by decide
  exact ⟨hone, by decide, by decide, by decide, fun hall => gwfileResolve_v6 ⟨_, _, hone⟩ (hall (.v6 ⟨_, _, hone⟩))⟩

end Gwfile
