import BaitNet.Keyring
import BaitNet.StreamReset

/-!
# The keyring of the Python implementation

`core/keyring.py`: the same key files, with a text that is decoded, stripped and split into
lines the Python way. A `str` is a list of characters that UTF-8 can encode; the file mode
and the directories are left out.
-/
namespace Py

open Wire

def encode (s : List Char) : Bytes := s.flatMap String.utf8EncodeChar

/-- `bytes.decode()`; where and why it fails is not in the error. -/
def decode (b : Bytes) : Except Exn (List Char) :=
  match b.toByteArray.utf8Decode? with
  | some s => .ok s.toList
  | none => .error (.valueError "UnicodeDecodeError")

/-- Universal newlines. -/
def newlines : List Char → List Char
  | [] => []
  | '\r' :: '\n' :: s => '\n' :: newlines s
  | '\r' :: s => '\n' :: newlines s
  | ch :: s => ch :: newlines s

def readText (file : Bytes) : Except Exn (List Char) := do
  let s ← decode file
  return newlines s

/-- `str.isspace` of one character. -/
def isSpace (ch : Char) : Bool :=
  let n := ch.toNat
  (9 ≤ n ∧ n ≤ 13) ∨ (28 ≤ n ∧ n ≤ 32) ∨ n = 0x85 ∨ n = 0xA0 ∨ n = 0x1680 ∨ (0x2000 ≤ n ∧ n ≤ 0x200A) ∨
    n = 0x2028 ∨ n = 0x2029 ∨ n = 0x202F ∨ n = 0x205F ∨ n = 0x3000

def strip (s : List Char) : List Char := ((s.dropWhile isSpace).reverse.dropWhile isSpace).reverse

/-- Where `splitlines` ends a line. -/
def isBreak (ch : Char) : Bool :=
  let n := ch.toNat
  (10 ≤ n ∧ n ≤ 13) ∨ (28 ≤ n ∧ n ≤ 30) ∨ n = 0x85 ∨ n = 0x2028 ∨ n = 0x2029

def splitlines : List Char → List (List Char)
  | [] => []
  | '\r' :: '\n' :: s => [] :: splitlines s
  | ch :: s =>
    if isBreak ch then [] :: splitlines s
    else
      match splitlines s with
      | [] => [[ch]]
      | line :: lines => (ch :: line) :: lines

/-- `hexlify(b).decode()`. -/
def hexlify (b : Bytes) : List Char := b.flatMap fun x => [Nat.digitChar (x.toNat / 16), Nat.digitChar (x.toNat % 16)]

def hexValue (ch : Char) : Option Nat :=
  if '0' ≤ ch ∧ ch ≤ '9' then some (ch.toNat - 48)
  else if 'a' ≤ ch ∧ ch ≤ 'f' then some (ch.toNat - 87)
  else if 'A' ≤ ch ∧ ch ≤ 'F' then some (ch.toNat - 55)
  else none

def unhexPairs : List Char → Except Exn Bytes
  | hi :: lo :: s =>
    match hexValue hi, hexValue lo with
    | some h, some l => do
      let b ← unhexPairs s
      return .ofNat (16 * h + l) :: b
    | _, _ => throw (.valueError "Non-hexadecimal digit found")
  | [] => return []
  | [_] => throw (.valueError "Odd-length string")

def unhexlify (s : List Char) : Except Exn Bytes :=
  if s.any (127 < ·.toNat) then throw (.valueError "string argument should contain only ASCII characters")
  else if s.length % 2 = 1 then throw (.valueError "Odd-length string")
  else unhexPairs s

def keyMagic : List Char := "H69E1".toList

variable (nb : PyBox)

def deriveKey (salt : Bytes) (passphrase : List Char) : Bytes :=
  (List.zipWith (· ^^^ ·) (nb.sha512 salt).val (nb.sha512 (encode passphrase)).val).take 32

/-- The lines of a key file that have something on them. -/
def keyLines (text : List Char) : List (List Char) := ((splitlines (strip text)).map strip).filter (· ≠ [])

/-- `lines[i]`. -/
def line (lines : List (List Char)) (i : Nat) : Except Exn (List Char) :=
  match lines[i]? with
  | some s => .ok s
  | none => .error .indexError

/-- `load_keyfile` of a file with these bytes. -/
def loadKeyfile (path : String) (file : Bytes) (passphrase : Option (List Char)) : Except Exn Bytes := do
  let text ← readText file
  let lines := keyLines text
  match lines with
  | [] => throw (.valueError ("empty key file: " ++ path))
  | first :: _ =>
    if first = keyMagic then
      match passphrase with
      | none => throw (.valueError "encrypted key: a passphrase is required")
      | some passphrase =>
        let salt ← line lines 1 >>= unhexlify
        let nonce ← line lines 2 >>= unhexlify
        let box ← line lines 3 >>= unhexlify
        if salt.length ≠ 16 ∨ nonce.length ≠ 24 then throw (.valueError "malformed key file")
        let seed ← openBlob nb (deriveKey nb salt passphrase) nonce box
        if seed.length ≠ 32 then throw (.valueError "malformed seed")
        return seed
    else
      let seed ← unhexlify first
      if seed.length ≠ 32 then throw (.valueError "malformed seed")
      return seed

/-- The files that `save_keyfile` writes. -/
structure Saved where
  key : Bytes
  pubFile : Bytes
  pub : Bytes

/-- `save_keyfile`, with the salt and the nonce that `os.urandom` gives it. -/
def saveKeyfile (seed : Bytes) (passphrase : Option (List Char)) (comment : List Char) (salt : Arr 16) (nonce : Arr 24) :
    Except Exn Saved := do
  if seed.length ≠ 32 then throw (.valueError "seed must be 32 bytes")
  let pub ← seedToPub nb.toPyNaCl seed
  let pubFile := encode (hexlify pub ++ ' ' :: comment ++ ['\n'])
  match passphrase.getD [] with
  | [] => return ⟨encode (hexlify seed ++ ['\n']), pubFile, pub⟩
  | passphrase =>
    let box ← sealBlob nb.toPyNaCl (deriveKey nb salt.val passphrase) nonce.val seed
    return ⟨encode (keyMagic ++ '\n' :: hexlify salt.val ++ '\n' :: hexlify nonce.val ++ '\n' :: hexlify box ++ ['\n']),
      pubFile, pub⟩

theorem decode_encode (s : List Char) : decode (encode s) = .ok s := by
  rw [decode, encode, show (s.flatMap String.utf8EncodeChar).toByteArray = s.utf8Encode from rfl,
    List.utf8Decode?_utf8Encode]

/-- UTF-8 tells two texts apart. -/
theorem encode_inj {s t : List Char} (h : encode s = encode t) : s = t := by
  have hdec := decode_encode s
  rw [h, decode_encode] at hdec
  exact (Except.ok.inj hdec).symm

theorem encode_append (s t : List Char) : encode (s ++ t) = encode s ++ encode t := List.flatMap_append

theorem encode_eq_nil {s : List Char} : encode s = [] ↔ s = [] := by
  constructor
  · exact fun h => encode_inj (h.trans rfl)
  · rintro rfl
    rfl

theorem newlines_same {s : List Char} (h : ∀ ch ∈ s, ch ≠ '\r') : newlines s = s := by
  induction s with
  | nil => rfl
  | cons ch s ih =>
    rw [newlines, ih fun d hd => h d (List.mem_cons_of_mem ch hd)]
    · exact fun s' hch => absurd hch (h ch List.mem_cons_self)
    · exact fun hch => absurd hch (h ch List.mem_cons_self)

/-- A line with something on it and no white space. -/
def IsWord (w : List Char) : Prop := w ≠ [] ∧ ∀ ch ∈ w, isSpace ch = false

/-- A text with an end of line behind each line. -/
def linesOf (ws : List (List Char)) : List Char := ws.flatMap (· ++ ['\n'])

theorem not_break {ch : Char} (h : isSpace ch = false) : isBreak ch = false ∧ ch ≠ '\r' := by
  constructor
  · simp only [isSpace, isBreak, decide_eq_false_iff_not] at h ⊢
    omega
  · rintro rfl
    cases h

theorem splitlines_cons {ch : Char} (h : isSpace ch = false) (s : List Char) :
    splitlines (ch :: s) = match splitlines s with
      | [] => [[ch]]
      | line :: lines => (ch :: line) :: lines := by
  rw [splitlines, (not_break h).1]
  · rfl
  · exact fun s' hch => absurd hch (not_break h).2

theorem splitlines_line {w : List Char} (h : ∀ ch ∈ w, isSpace ch = false) (s : List Char) :
    splitlines (w ++ '\n' :: s) = w :: splitlines s := by
  induction w with
  | nil => rfl
  | cons ch w ih =>
    rw [List.cons_append, splitlines_cons (h ch List.mem_cons_self),
      ih fun d hd => h d (List.mem_cons_of_mem ch hd)]

theorem splitlines_last {w : List Char} (h : IsWord w) : splitlines w = [w] := by
  obtain ⟨hne, hw⟩ := h
  induction w with
  | nil => exact absurd rfl hne
  | cons ch w ih =>
    rw [splitlines_cons (hw ch List.mem_cons_self)]
    cases w with
    | nil => rfl
    | cons d w => rw [ih (List.cons_ne_nil d w) fun x hx => hw x (List.mem_cons_of_mem ch hx)]

theorem splitlines_linesOf {ws : List (List Char)} (h : ∀ w ∈ ws, IsWord w) {last : List Char} (hlast : IsWord last) :
    splitlines (linesOf ws ++ last) = ws ++ [last] := by
  induction ws with
  | nil => exact splitlines_last hlast
  | cons w ws ih =>
    rw [linesOf, List.flatMap_cons, List.append_assoc, List.append_assoc, List.singleton_append,
      splitlines_line (h w List.mem_cons_self).2]
    exact congrArg (w :: ·) (ih fun x hx => h x (List.mem_cons_of_mem w hx))

/-- A text between two characters that are no white space loses what is behind it. -/
theorem strip_between {s r : List Char} (hhead : ∀ ch ∈ s.head?, isSpace ch = false)
    (hlast : ∀ ch ∈ s.getLast?, isSpace ch = false) (hs : s ≠ []) (hr : ∀ ch ∈ r, isSpace ch = true) :
    strip (s ++ r) = s := by
  cases s with
  | nil => exact absurd rfl hs
  | cons ch s =>
    rw [strip, List.cons_append, List.dropWhile_cons_of_neg (by rw [hhead ch rfl]; exact Bool.false_ne_true),
      ← List.cons_append, List.reverse_append,
      List.dropWhile_append_of_pos fun d hd => hr d (List.mem_reverse.mp hd)]
    cases hrev : (ch :: s).reverse with
    | nil => exact absurd (List.reverse_eq_nil_iff.mp hrev) (List.cons_ne_nil _ _)
    | cons d t =>
      have hd := hlast d (by rw [← List.head?_reverse, hrev]; rfl)
      rw [List.dropWhile_cons_of_neg (by rw [hd]; exact Bool.false_ne_true), ← hrev, List.reverse_reverse]

theorem strip_word {w : List Char} (h : IsWord w) : strip w = w := by
  have hw := strip_between (s := w) (r := []) (fun ch hch => h.2 ch (List.mem_of_head? hch))
    (fun ch hch => h.2 ch (List.mem_of_getLast? hch)) h.1 (fun ch hch => nomatch hch)
  rwa [List.append_nil] at hw

/-- The lines of a key file are the words that were written on them. -/
theorem keyLines_linesOf {ws : List (List Char)} (h : ∀ w ∈ ws, IsWord w) : keyLines (linesOf ws) = ws := by
  obtain rfl | ⟨front, last, rfl⟩ := List.eq_nil_or_concat' ws
  · rfl
  · have hfront : ∀ w ∈ front, IsWord w := fun w hw => h w (List.mem_append_left _ hw)
    have hlast : IsWord last := h last (List.mem_append_right _ List.mem_cons_self)
    have htext : linesOf (front ++ [last]) = (linesOf front ++ last) ++ ['\n'] := by
      rw [linesOf, List.flatMap_append, List.flatMap_singleton, ← List.append_assoc, linesOf]
    have hhead : ∀ ch ∈ (linesOf front ++ last).head?, isSpace ch = false := by
      intro ch hch
      cases front with
      | nil => exact hlast.2 ch (List.mem_of_head? hch)
      | cons w front =>
        have hw := hfront w List.mem_cons_self
        cases w with
        | nil => exact absurd rfl hw.1
        | cons d w =>
          rw [← Option.some.inj hch]
          exact hw.2 d List.mem_cons_self
    have hback : ∀ ch ∈ (linesOf front ++ last).getLast?, isSpace ch = false := by
      intro ch hch
      rw [List.getLast?_append_of_ne_nil _ hlast.1] at hch
      exact hlast.2 ch (List.mem_of_getLast? hch)
    rw [keyLines, htext, strip_between hhead hback (List.append_ne_nil_of_right_ne_nil _ hlast.1)
      (fun ch hch => by rw [List.mem_singleton.mp hch]; rfl), splitlines_linesOf hfront hlast]
    have hstrip : (front ++ [last]).map strip = front ++ [last] := by
      rw [List.map_congr_left fun w hw => strip_word (h w hw), List.map_id']
    rw [hstrip]
    exact List.filter_eq_self.mpr fun w hw => decide_eq_true (h w hw).1

theorem hexlify_cons (x : UInt8) (b : Bytes) :
    hexlify (x :: b) = Nat.digitChar (x.toNat / 16) :: Nat.digitChar (x.toNat % 16) :: hexlify b := rfl

/-- What the digits of a byte are. -/
theorem digitChar_spec {n : Nat} (h : n < 16) :
    isSpace (Nat.digitChar n) = false ∧ (Nat.digitChar n).toNat ≤ 127 ∧ hexValue (Nat.digitChar n) = some n ∧
      String.utf8EncodeChar (Nat.digitChar n) = [Text.hexDigit n] := by
  revert n
  decide

theorem hexlify_length (b : Bytes) : (hexlify b).length = 2 * b.length := by
  induction b with
  | nil => rfl
  | cons x b ih =>
    rw [hexlify_cons, List.length_cons, List.length_cons, List.length_cons, ih]
    omega

/-- A property of the sixteen digits is one of every character of the text. -/
theorem hexlify_all {P : Char → Prop} (h : ∀ n < 16, P (Nat.digitChar n)) (b : Bytes) : ∀ ch ∈ hexlify b, P ch := by
  intro ch hch
  obtain ⟨x, -, hx⟩ := List.mem_flatMap.mp hch
  have hbyte := x.toNat_lt
  rcases List.mem_pair.mp hx with rfl | rfl
  · exact h _ (by omega)
  · exact h _ (by omega)

theorem hexlify_word {b : Bytes} (h : b ≠ []) : IsWord (hexlify b) := by
  constructor
  · intro hnil
    have hlen := hexlify_length b
    rw [hnil, List.length_nil] at hlen
    exact h (List.length_eq_zero_iff.mp (by omega))
  · exact hexlify_all (fun n hn => (digitChar_spec hn).1) b

theorem encode_hexlify (b : Bytes) : encode (hexlify b) = Keyring.hexEncode b := by
  induction b with
  | nil => rfl
  | cons x b ih =>
    have hx := x.toNat_lt
    have hhi := (digitChar_spec (n := x.toNat / 16) (by omega)).2.2.2
    have hlo := (digitChar_spec (n := x.toNat % 16) (by omega)).2.2.2
    rw [hexlify_cons, encode, List.flatMap_cons, List.flatMap_cons, hhi, hlo]
    exact congrArg (fun t => Text.hexDigit (x.toNat / 16) :: Text.hexDigit (x.toNat % 16) :: t) ih

theorem unhexPairs_hexlify (b : Bytes) : unhexPairs (hexlify b) = .ok b := by
  induction b with
  | nil => rfl
  | cons x b ih =>
    have hx := x.toNat_lt
    have hhi := (digitChar_spec (n := x.toNat / 16) (by omega)).2.2.1
    have hlo := (digitChar_spec (n := x.toNat % 16) (by omega)).2.2.1
    rw [hexlify_cons, unhexPairs, hhi, hlo]
    dsimp only
    rw [ih, ok_bind, Nat.div_add_mod, UInt8.ofNat_toNat, pure_eq_ok]

theorem unhexlify_hexlify (b : Bytes) : unhexlify (hexlify b) = .ok b := by
  have hascii : (hexlify b).any (127 < ·.toNat) = false := by
    rw [List.any_eq_false]
    intro ch hch
    have hle := hexlify_all (P := (·.toNat ≤ 127)) (fun n hn => (digitChar_spec hn).2.1) b ch hch
    rw [decide_eq_true_eq]
    omega
  rw [unhexlify, hascii, if_neg Bool.false_ne_true, hexlify_length, Nat.mul_mod_right, if_neg (by decide),
    unhexPairs_hexlify]

theorem hexlify_ne_magic (b : Bytes) : hexlify b ≠ keyMagic := by
  intro h
  have hH := hexlify_all (P := (· ≠ 'H')) (by decide) b 'H' (by rw [h]; decide)
  exact hH rfl

theorem readText_linesOf {ws : List (List Char)} (h : ∀ w ∈ ws, IsWord w) : readText (encode (linesOf ws)) = .ok (linesOf ws) := by
  rw [readText, decode_encode, ok_bind, newlines_same, pure_eq_ok]
  intro ch hch
  obtain ⟨w, hw, hch⟩ := List.mem_flatMap.mp hch
  rcases List.mem_append.mp hch with hch | hch
  · exact (not_break ((h w hw).2 ch hch)).2
  · rw [List.mem_singleton.mp hch]
    decide

theorem loadKeyfile_plain (path : String) {seed : Bytes} (h : seed.length = 32) (passphrase : Option (List Char)) :
    loadKeyfile nb path (encode (linesOf [hexlify seed])) passphrase = .ok seed := by
  have hword : ∀ w ∈ [hexlify seed], IsWord w := by
    intro w hw
    rw [List.mem_singleton.mp hw]
    exact hexlify_word (List.ne_nil_of_length_pos (by omega))
  rw [loadKeyfile, readText_linesOf hword, ok_bind, keyLines_linesOf hword]
  dsimp only
  rw [if_neg (hexlify_ne_magic seed), unhexlify_hexlify, ok_bind, if_neg (fun hne => hne h)]
  rfl

/-- The lines of an encrypted file. -/
def sealedLines (salt : Arr 16) (nonce : Arr 24) (box : Bytes) : List (List Char) :=
  [keyMagic, hexlify salt.val, hexlify nonce.val, hexlify box]

theorem sealedLines_words (salt : Arr 16) (nonce : Arr 24) {box : Bytes} (h : box ≠ []) :
    ∀ w ∈ sealedLines salt nonce box, IsWord w := by
  have hmagic : IsWord keyMagic := by
    refine ⟨by decide, fun ch hch => ?_⟩
    rw [show keyMagic = ['H', '6', '9', 'E', '1'] from rfl] at hch
    simp only [List.mem_cons, List.not_mem_nil, or_false] at hch
    rcases hch with rfl | rfl | rfl | rfl | rfl <;> decide
  have hsalt := hexlify_word (List.ne_nil_of_length_pos (by rw [salt.length]; decide))
  have hnonce := hexlify_word (List.ne_nil_of_length_pos (by rw [nonce.length]; decide))
  simp only [sealedLines, List.forall_mem_cons, List.not_mem_nil, false_imp_iff, implies_true, and_true]
  exact ⟨hmagic, hsalt, hnonce, hexlify_word h⟩

/-- An encrypted file comes down to its box. -/
theorem loadKeyfile_sealed (path : String) (salt : Arr 16) (nonce : Arr 24) {box : Bytes} (h : box ≠ [])
    (passphrase : List Char) :
    loadKeyfile nb path (encode (linesOf (sealedLines salt nonce box))) (some passphrase) =
      openBlob nb (deriveKey nb salt.val passphrase) nonce.val box >>= fun seed =>
        if seed.length ≠ 32 then .error (.valueError "malformed seed") else .ok seed := by
  have hword := sealedLines_words salt nonce h
  rw [loadKeyfile, readText_linesOf hword, ok_bind, keyLines_linesOf hword, sealedLines]
  dsimp only
  rw [if_pos rfl]
  dsimp only [line, List.getElem?_cons_succ, List.getElem?_cons_zero]
  rw [ok_bind, unhexlify_hexlify, ok_bind, ok_bind, unhexlify_hexlify, ok_bind, ok_bind, unhexlify_hexlify, ok_bind,
    if_neg (by rw [salt.length, nonce.length]; decide)]
  rfl

theorem loadKeyfile_noPassphrase (path : String) (salt : Arr 16) (nonce : Arr 24) {box : Bytes} (h : box ≠ []) :
    loadKeyfile nb path (encode (linesOf (sealedLines salt nonce box))) none =
      .error (.valueError "encrypted key: a passphrase is required") := by
  have hword := sealedLines_words salt nonce h
  rw [loadKeyfile, readText_linesOf hword, ok_bind, keyLines_linesOf hword, sealedLines]
  dsimp only
  rw [if_pos rfl]
  rfl

end Py
