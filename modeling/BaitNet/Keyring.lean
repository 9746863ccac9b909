import BaitNet.Tun

/-!
# The keyring

`keyring.c`: the key file with the seed, plain or behind a passphrase, its reader and its
writer, and the call that every tool makes to get its identity. The owner of the files and
the messages are left out.
-/
namespace Keyring

open Wire Crypto

def keyMagic : Bytes := ascii "H69E1"

/-- `%02x` for each byte. -/
def hexEncode : Bytes → Bytes
  | [] => []
  | x :: b => Text.hexDigit (x.toNat / 16) :: Text.hexDigit (x.toNat % 16) :: hexEncode b

/-- The loop of `hex_decode` over so many bytes. -/
def hexBytes : Nat → Bytes → Option Bytes
  | 0, _ => some []
  | n + 1, hex =>
    match Tun.scanHex2 hex with
    | none => none
    | some v => (hexBytes n (hex.drop 2)).map (v :: ·)

def hexDecode (hex : Bytes) (max : Nat) : Option Bytes :=
  if hex.length % 2 ≠ 0 ∨ max < hex.length / 2 then none else hexBytes (hex.length / 2) hex

/-- A field of exactly `n` bytes. -/
def hexField (n : Nat) (hex : Bytes) : Option (Arr n) :=
  match hexDecode hex n with
  | none => none
  | some b => if h : b.length = n then some ⟨b, h⟩ else none

/-- A text without the ends of line behind it. -/
def trimEol (s : Bytes) : Bytes := (s.reverse.dropWhile fun d => d = 10 ∨ d = 13).reverse

/-- `read_line` with a buffer of `size` bytes: the line and the file behind it. -/
def readLine (size : Nat) (f : Bytes) : Option (Bytes × Bytes) :=
  let chunk := f.take (size - 1)
  let line := chunk.takeWhile (· ≠ 10)
  let n := if line.length < chunk.length then line.length + 1 else line.length
  if f = [] then none else some (trimEol ((chunk.take n).takeWhile (· ≠ 0)), f.drop n)

structure Sealed where
  salt : Arr 16
  nonce : Arr 24
  boxed : Arr 64

/-- The lines behind the magic. -/
def readSealed (file : Bytes) : Option Sealed := do
  let (_, f) ← readLine 16 file
  let (saltH, f) ← readLine 64 f
  let (nonceH, f) ← readLine 64 f
  let (boxH, _) ← readLine 160 f
  let salt ← hexField 16 saltH
  let nonce ← hexField 24 nonceH
  let boxed ← hexField 64 boxH
  return ⟨salt, nonce, boxed⟩

/-- Where passphrases come from: the environment, then the terminal, which answers as long
as there is one. -/
structure Passes where
  env : Option Bytes
  tty : List (Option Bytes)

/-- The next passphrase. The one of the environment is tried once, and not if it is empty. -/
def Passes.next (p : Passes) : Option (Bytes × Passes) :=
  match p.env with
  | some (b :: e) => some (b :: e, { p with env := none })
  | _ =>
    match p.tty with
    | some line :: tty => some (line, ⟨none, tty⟩)
    | _ => none

variable (c : TweetNaCl)

def deriveKey (salt : Arr 16) (pass : Bytes) : Arr 32 :=
  ⟨List.zipWith (· ^^^ ·) (slice (ed25519Sha512 c salt.val).val 0 32) (slice (ed25519Sha512 c pass).val 0 32), by simp⟩

/-- The seed in the box, if one of the next `tries` passphrases opens it. -/
def openSealed (s : Sealed) : Nat → Passes → Option (Arr 32)
  | 0, _ => none
  | tries + 1, p =>
    match p.next with
    | none => none
    | some (pass, p) =>
      match ed25519SecretboxOpen c s.boxed.val 32 s.nonce (deriveKey c s.salt pass) with
      | some seed => some (arr seed 0 32)
      | none => openSealed s tries p

def loadEncrypted (file : Bytes) (p : Passes) : Option (Arr 32) :=
  match readSealed file with
  | none => none
  | some s => openSealed c s 3 p

structure Identity where
  seed : Arr 32
  pubkey : Arr 32
  comment : Bytes
  deriving DecidableEq

/-- The two files, and which of them `fopen` opens to read or to write. One that opens takes
what is written. -/
structure Disk where
  key : Option Bytes
  pub : Option Bytes
  keyReadable : Bool
  keyWritable : Bool
  pubWritable : Bool

/-- `read_whole` of the key file with a buffer of 1024 bytes, where it reads anything. -/
def Disk.readKey (d : Disk) : Option Bytes :=
  match d.key with
  | none => none
  | some content => if d.keyReadable = true ∧ content ≠ [] then some (content.take 1023) else none

/-- `load_comment`: what stands behind the first space of the public key file, on its line. -/
def loadComment (pub : Option Bytes) (commentsz : Nat) : Bytes :=
  (((((pub.getD []).take 1023).takeWhile (· ≠ 0)).dropWhile (· ≠ 32)).drop 1).take (commentsz - 1) |>.takeWhile (· ≠ 10)

def Disk.identity (d : Disk) (commentsz : Nat) (seed : Arr 32) : Identity :=
  ⟨seed, c.seedToPk seed, loadComment d.pub commentsz⟩

/-- What the first half of `keyring_load_or_create` comes to: an identity, an error, or no
key that it can read. -/
inductive Loaded where
  | found (id : Identity)
  | failed
  | absent
  deriving DecidableEq

/-- The first line of a plain key file. -/
def firstLine (buf : Bytes) : Bytes := buf.takeWhile fun d => d ≠ 0 ∧ d ≠ 10

def Disk.load (d : Disk) (p : Passes) (commentsz : Nat) : Loaded :=
  match d.readKey with
  | none => .absent
  | some buf =>
    if keyMagic.isPrefixOf buf then
      match loadEncrypted c (d.key.getD []) p with
      | some seed => .found (d.identity c commentsz seed)
      | none => .failed
    else
      match hexField 32 (firstLine buf) with
      | some seed => .found (d.identity c commentsz seed)
      | none => .absent

/-- The private key file that `write_keypair_files` writes. -/
def privateFile (passphrase : Bytes) (seed : Arr 32) (salt : Arr 16) (nonce : Arr 24) : Bytes :=
  if passphrase = [] then hexEncode seed.val ++ [10]
  else
    keyMagic ++ [10] ++ (hexEncode salt.val ++ [10]) ++ (hexEncode nonce.val ++ [10]) ++
      (hexEncode (ed25519Secretbox c seed.val nonce (deriveKey c salt passphrase)) ++ [10])

def publicFile (pk : Arr 32) (comment : Bytes) : Bytes := hexEncode pk.val ++ [32] ++ comment ++ [10]

/-- The files after `write_keypair_files`, whether it wrote the key file, and its verdict. -/
def Disk.writeKeypairFiles (d : Disk) (passphrase comment : Bytes) (seed pk : Arr 32) (salt : Arr 16) (nonce : Arr 24) :
    Disk × Bool × Bool :=
  if !d.keyWritable then (d, false, false)
  else
    let d := { d with key := some (privateFile c passphrase seed salt nonce), keyReadable := true }
    if !d.pubWritable then (d, true, false)
    else ({ d with pub := some (publicFile pk comment) }, true, true)

/-- What `keyring_load_or_create` leaves: the files, whether it wrote the key file, and the
identity unless it fails. -/
structure Outcome where
  disk : Disk
  wrote : Bool
  id : Option Identity

/-- `keyring_load_or_create` with the seed that `ed25519_keypair` would draw. The call it
makes after a creation finds the key just written (`create_writes`), so it goes no deeper. -/
def Disk.keyringLoadOrCreate (d : Disk) (p : Passes) (commentsz : Nat) (drawn : Arr 32) (hostname : Bytes) : Outcome :=
  match d.load c p commentsz with
  | .found id => ⟨d, false, some id⟩
  | .failed => ⟨d, false, none⟩
  | .absent =>
    match d.writeKeypairFiles c [] hostname drawn (c.seedToPk drawn) (.zero 16) (.zero 24) with
    | (d, wrote, false) => ⟨d, wrote, none⟩
    | (d, wrote, true) =>
      match d.load c p commentsz with
      | .found id => ⟨d, wrote, some id⟩
      | _ => ⟨d, wrote, none⟩

/-- The digits of `%x`. -/
def isLowerHex (d : UInt8) : Bool := (48 ≤ d ∧ d ≤ 57) ∨ (97 ≤ d ∧ d ≤ 102)

theorem isLowerHex_hexDigit {n : Nat} (h : n < 16) : isLowerHex (Text.hexDigit n) = true := by
  revert n
  decide

theorem isLowerHex_ne {d : UInt8} (h : isLowerHex d = true) : d ≠ 0 ∧ d ≠ 10 ∧ d ≠ 13 ∧ d ≠ 72 := by
  refine ⟨?_, ?_, ?_, ?_⟩
  all_goals
    rintro rfl
    cases h

theorem hexEncode_length (b : Bytes) : (hexEncode b).length = 2 * b.length := by
  induction b with
  | nil => rfl
  | cons x b ih =>
    rw [hexEncode, List.length_cons, List.length_cons, List.length_cons, ih]
    omega

theorem hexEncode_digits (b : Bytes) : ∀ d ∈ hexEncode b, isLowerHex d = true := by
  induction b with
  | nil => exact fun d hd => (nomatch hd)
  | cons x b ih =>
    have hx := x.toNat_lt
    intro d hd
    rw [hexEncode] at hd
    rcases List.mem_cons.mp hd with rfl | hd
    · exact isLowerHex_hexDigit (by omega)
    rcases List.mem_cons.mp hd with rfl | hd
    · exact isLowerHex_hexDigit (by omega)
    · exact ih d hd

/-- `sscanf` reads the two digits of a byte and nothing behind. -/
theorem scanHex2_byte (x : UInt8) (rest : Bytes) :
    Tun.scanHex2 (Text.hexDigit (x.toNat / 16) :: Text.hexDigit (x.toNat % 16) :: rest) = some x := by
  have hpair : ∀ n < 256, Text.isSpace (Text.hexDigit (n / 16)) = false ∧
      Tun.scanHex2 [Text.hexDigit (n / 16), Text.hexDigit (n % 16)] = some (.ofNat n) := by decide +kernel
  obtain ⟨hspace, hscan⟩ := hpair x.toNat x.toNat_lt
  rw [UInt8.ofNat_toNat] at hscan
  rw [← hscan, Tun.scanHex2, Tun.scanHex2, List.dropWhile_cons_of_neg (by simp [hspace]),
    List.dropWhile_cons_of_neg (by simp [hspace])]
  rfl

theorem hexBytes_encode (b rest : Bytes) : hexBytes b.length (hexEncode b ++ rest) = some b := by
  induction b with
  | nil => rfl
  | cons x b ih =>
    rw [List.length_cons, hexBytes, hexEncode, List.cons_append, List.cons_append, scanHex2_byte]
    dsimp only [List.drop]
    rw [ih]
    rfl

theorem hexDecode_encode {b : Bytes} {max : Nat} (h : b.length ≤ max) : hexDecode (hexEncode b) max = some b := by
  have hread := hexBytes_encode b []
  rw [List.append_nil] at hread
  rw [hexDecode, hexEncode_length, Nat.mul_mod_right, Nat.mul_div_cancel_left _ (by decide), if_neg (by omega), hread]

theorem hexField_encode (a : Arr n) : hexField n (hexEncode a.val) = some a := by
  rw [hexField, hexDecode_encode a.length.le]
  dsimp only
  rw [dif_pos a.length]

/-- A line of text: no end of line in it and no NUL. -/
def IsLine (s : Bytes) : Prop := ∀ d ∈ s, d ≠ 0 ∧ d ≠ 10 ∧ d ≠ 13

theorem isLine_hexEncode (b : Bytes) : IsLine (hexEncode b) := by
  intro d hd
  have hne := isLowerHex_ne (hexEncode_digits b d hd)
  exact ⟨hne.1, hne.2.1, hne.2.2.1⟩

theorem trimEol_line {s : Bytes} (h : IsLine s) : trimEol (s ++ [10]) = s := by
  rw [trimEol, List.reverse_append, List.reverse_singleton, List.singleton_append,
    List.dropWhile_cons_of_pos (by decide)]
  cases hs : s.reverse with
  | nil =>
    rw [List.reverse_eq_nil_iff] at hs
    subst hs
    rfl
  | cons d r =>
    have hd := h d (List.mem_reverse.mp (by rw [hs]; exact List.mem_cons_self))
    rw [List.dropWhile_cons_of_neg (by simp [hd.2.1, hd.2.2]), ← hs, List.reverse_reverse]

/-- A line that fits the buffer is read up to its end. -/
theorem readLine_line {s : Bytes} (h : IsLine s) (rest : Bytes) {size : Nat} (hfits : s.length + 2 ≤ size) :
    readLine size (s ++ 10 :: rest) = some (s, rest) := by
  obtain ⟨m, rfl⟩ : ∃ m, size = s.length + 2 + m := ⟨size - (s.length + 2), by omega⟩
  have hchunk : (s ++ 10 :: rest).take (s.length + 2 + m - 1) = s ++ 10 :: rest.take m := by
    rw [show s.length + 2 + m - 1 = s.length + (m + 1) by omega, List.take_length_add_append, List.take_succ_cons]
  have hline : (s ++ 10 :: rest.take m).takeWhile (· ≠ 10) = s := by
    rw [List.takeWhile_append_of_pos (fun d hd => by simpa using (h d hd).2.1),
      List.takeWhile_cons_of_neg (by decide), List.append_nil]
  have hlonger : s.length < (s ++ 10 :: rest.take m).length := by simp
  have htext : (s ++ 10 :: rest.take m).take (s.length + 1) = s ++ [10] := by
    rw [List.take_length_add_append]
    rfl
  have hnul : (s ++ [10]).takeWhile (· ≠ 0) = s ++ [10] := by
    rw [List.takeWhile_append_of_pos (fun d hd => by simpa using (h d hd).1)]
    rfl
  have hdrop : (s ++ 10 :: rest).drop (s.length + 1) = rest := by
    rw [List.drop_length_add_append]
    rfl
  rw [readLine, hchunk, hline, if_pos hlonger, htext, hnul, trimEol_line h, hdrop, if_neg (by simp)]

theorem hexEncode_not_magic (b rest : Bytes) (h : b ≠ []) : keyMagic.isPrefixOf (hexEncode b ++ rest) = false := by
  cases b with
  | nil => exact absurd rfl h
  | cons x b =>
    have hx := x.toNat_lt
    have hne := (isLowerHex_ne (isLowerHex_hexDigit (n := x.toNat / 16) (by omega))).2.2.2
    rw [hexEncode, List.cons_append, show keyMagic = 72 :: (keyMagic.drop 1) from rfl, List.isPrefixOf_cons_cons,
      beq_eq_false_iff_ne.mpr hne.symm, Bool.false_and]

theorem firstLine_line {s : Bytes} (h : IsLine s) (rest : Bytes) : firstLine (s ++ 10 :: rest) = s := by
  rw [firstLine, List.takeWhile_append_of_pos (fun d hd => by simpa using ⟨(h d hd).1, (h d hd).2.1⟩),
    List.takeWhile_cons_of_neg (by decide), List.append_nil]

/-- A plain file with a seed loads, whatever the passphrases. -/
theorem load_plain {d : Disk} {seed : Arr 32} (hkey : d.key = some (hexEncode seed.val ++ [10]))
    (hread : d.keyReadable = true) (p : Passes) (commentsz : Nat) :
    d.load c p commentsz = .found (d.identity c commentsz seed) := by
  have hlen : (hexEncode seed.val ++ [10]).length = 65 := by
    rw [List.length_append, hexEncode_length, seed.length]
    rfl
  have hseed : seed.val ≠ [] := by
    intro hnil
    have h := seed.length
    rw [hnil] at h
    cases h
  have hbuf : d.readKey = some (hexEncode seed.val ++ [10]) := by
    rw [Disk.readKey, hkey]
    dsimp only
    rw [if_pos ⟨hread, by simp⟩, List.take_of_length_le (by omega)]
  rw [Disk.load, hbuf]
  dsimp only
  rw [hexEncode_not_magic _ _ hseed, if_neg Bool.false_ne_true, firstLine_line (isLine_hexEncode _), hexField_encode]

theorem writeKeypairFiles_locked {d : Disk} (h : d.keyWritable = false) (passphrase comment : Bytes) (seed pk : Arr 32)
    (salt : Arr 16) (nonce : Arr 24) :
    d.writeKeypairFiles c passphrase comment seed pk salt nonce = (d, false, false) := by
  rw [Disk.writeKeypairFiles, h]
  rfl

/-- Where the key file can be written it is, whatever becomes of the public one. -/
theorem writeKeypairFiles_writes {d : Disk} (h : d.keyWritable = true) (passphrase comment : Bytes) (seed pk : Arr 32)
    (salt : Arr 16) (nonce : Arr 24) :
    ∃ d' ok, d.writeKeypairFiles c passphrase comment seed pk salt nonce = (d', true, ok) ∧
      d'.key = some (privateFile c passphrase seed salt nonce) ∧ d'.keyReadable = true := by
  rw [Disk.writeKeypairFiles, h]
  cases hpub : d.pubWritable with
  | false => exact ⟨_, false, rfl, rfl, rfl⟩
  | true => exact ⟨_, true, rfl, rfl, rfl⟩

theorem privateFile_sealed {passphrase : Bytes} (h : passphrase ≠ []) (seed : Arr 32) (salt : Arr 16) (nonce : Arr 24) :
    privateFile c passphrase seed salt nonce =
      keyMagic ++ 10 :: (hexEncode salt.val ++ 10 :: (hexEncode nonce.val ++ 10 ::
        (hexEncode (ed25519Secretbox c seed.val nonce (deriveKey c salt passphrase)) ++ [10]))) := by
  rw [privateFile, if_neg h]
  simp only [List.append_assoc, List.cons_append, List.nil_append]

/-- The box of a seed, as the file holds it. -/
def seedBox (passphrase : Bytes) (seed : Arr 32) (salt : Arr 16) (nonce : Arr 24) : Arr 64 :=
  ⟨ed25519Secretbox c seed.val nonce (deriveKey c salt passphrase), by rw [ed25519Secretbox_length, seed.length]⟩

theorem readSealed_privateFile {passphrase : Bytes} (h : passphrase ≠ []) (seed : Arr 32) (salt : Arr 16) (nonce : Arr 24) :
    readSealed (privateFile c passphrase seed salt nonce) = some ⟨salt, nonce, seedBox c passphrase seed salt nonce⟩ := by
  have hmagic : IsLine keyMagic := by
    intro d hd
    rw [show keyMagic = [72, 54, 57, 69, 49] by decide] at hd
    simp only [List.mem_cons, List.not_mem_nil, or_false] at hd
    rcases hd with rfl | rfl | rfl | rfl | rfl <;> decide
  have hline : ∀ {k} (a : Arr k), (hexEncode a.val).length = 2 * k := fun a => by rw [hexEncode_length, a.length]
  rw [privateFile_sealed c h, show ed25519Secretbox c seed.val nonce (deriveKey c salt passphrase) =
    (seedBox c passphrase seed salt nonce).val from rfl, readSealed, readLine_line hmagic _ (by decide)]
  dsimp only [Option.bind_eq_bind, Option.bind_some]
  rw [readLine_line (isLine_hexEncode _) _ (by rw [hline]; decide)]
  dsimp only [Option.bind_some]
  rw [readLine_line (isLine_hexEncode _) _ (by rw [hline]; decide)]
  dsimp only [Option.bind_some]
  rw [readLine_line (isLine_hexEncode _) _ (by rw [hline]; decide)]
  dsimp only [Option.bind_some]
  rw [hexField_encode, hexField_encode, hexField_encode]
  rfl

/-- The passphrases that so many tries come to. -/
def Passes.tried : Nat → Passes → List Bytes
  | 0, _ => []
  | tries + 1, p =>
    match p.next with
    | none => []
    | some (pass, p) => pass :: p.tried tries

/-- The passphrase that opens the box gives the seed if it is tried; no other does. -/
theorem openSealed_eq {s : Sealed} {pass : Bytes} {seed : Arr 32} (tries : Nat) (p : Passes)
    (hright : ed25519SecretboxOpen c s.boxed.val 32 s.nonce (deriveKey c s.salt pass) = some seed.val)
    (hwrong : ∀ q ∈ p.tried tries, q ≠ pass → ed25519SecretboxOpen c s.boxed.val 32 s.nonce (deriveKey c s.salt q) = none) :
    openSealed c s tries p = if pass ∈ p.tried tries then some seed else none := by
  induction tries generalizing p with
  | zero => rfl
  | succ tries ih =>
    rw [openSealed]
    rw [Passes.tried] at hwrong ⊢
    cases hnext : p.next with
    | none => rfl
    | some next =>
      obtain ⟨q, p'⟩ := next
      rw [hnext] at hwrong
      dsimp only at hwrong ⊢
      by_cases hq : q = pass
      · rw [hq, hright, if_pos List.mem_cons_self]
        exact congrArg some (arr_self seed)
      · rw [hwrong q List.mem_cons_self hq]
        dsimp only
        rw [ih p' fun q' hq' => hwrong q' (List.mem_cons_of_mem q hq')]
        simp only [List.mem_cons, Ne.symm hq, false_or]

theorem open_seedBox (passphrase : Bytes) (seed : Arr 32) (salt : Arr 16) (nonce : Arr 24) :
    ed25519SecretboxOpen c (seedBox c passphrase seed salt nonce).val 32 nonce (deriveKey c salt passphrase) =
      some seed.val := by
  have hopen := open_ed25519Secretbox c seed.val [] nonce (deriveKey c salt passphrase) (by rw [seed.length]; decide)
  rw [List.append_nil, seed.length] at hopen
  exact hopen

/-- A written file that can be read loads with the passphrase it was written with, and fails
where that is not among those tried. -/
theorem load_sealed {d : Disk} {pass : Bytes} {seed : Arr 32} {salt : Arr 16} {nonce : Arr 24} (hpass : pass ≠ [])
    (hkey : d.key = some (privateFile c pass seed salt nonce)) (hread : d.keyReadable = true) (p : Passes) (commentsz : Nat)
    (hwrong : ∀ q ∈ p.tried 3, q ≠ pass →
      ed25519SecretboxOpen c (seedBox c pass seed salt nonce).val 32 nonce (deriveKey c salt q) = none) :
    d.load c p commentsz = if pass ∈ p.tried 3 then .found (d.identity c commentsz seed) else .failed := by
  have hsealed := privateFile_sealed c hpass seed salt nonce
  have hmagic : keyMagic.isPrefixOf ((privateFile c pass seed salt nonce).take 1023) = true := by
    rw [hsealed]
    rfl
  have hbuf : d.readKey = some ((privateFile c pass seed salt nonce).take 1023) := by
    rw [Disk.readKey, hkey]
    dsimp only
    rw [if_pos ⟨hread, by rw [hsealed]; exact List.cons_ne_nil _ _⟩]
  rw [Disk.load, hbuf, hkey]
  dsimp only [Option.getD_some]
  rw [if_pos hmagic, loadEncrypted, readSealed_privateFile c hpass]
  dsimp only
  rw [openSealed_eq c 3 p (open_seedBox c pass seed salt nonce) hwrong]
  by_cases htried : pass ∈ p.tried 3
  · rw [if_pos htried, if_pos htried]
  · rw [if_neg htried, if_neg htried]

/-- What the loader takes the file for: one with the magic, or a seed on the first line. -/
def Recognised (content : Bytes) : Prop :=
  keyMagic.isPrefixOf (content.take 1023) = true ∨ (hexField 32 (firstLine (content.take 1023))).isSome = true

/-- The seed that a file stores: on its first line, or in a box that a passphrase opens. -/
def Stores (content : Bytes) (seed : Arr 32) : Prop :=
  hexField 32 (firstLine (content.take 1023)) = some seed ∨
    ∃ s pass m, readSealed content = some s ∧
      ed25519SecretboxOpen c s.boxed.val 32 s.nonce (deriveKey c s.salt pass) = some m ∧ seed = arr m 0 32

/-- Where there was a file, it stays as it is, and an identity is the one stored in it. -/
def IdentityKept (d : Disk) (o : Outcome) : Prop :=
  ∀ content, d.key = some content →
    o.wrote = false ∧ o.disk.key = some content ∧ ∀ id, o.id = some id → Stores c content id.seed

theorem openSealed_opens {s : Sealed} {seed : Arr 32} {tries : Nat} {p : Passes} (h : openSealed c s tries p = some seed) :
    ∃ pass m, ed25519SecretboxOpen c s.boxed.val 32 s.nonce (deriveKey c s.salt pass) = some m ∧ seed = arr m 0 32 := by
  induction tries generalizing p with
  | zero => cases h
  | succ tries ih =>
    rw [openSealed] at h
    cases hnext : p.next with
    | none =>
      rw [hnext] at h
      cases h
    | some next =>
      obtain ⟨pass, p'⟩ := next
      rw [hnext] at h
      dsimp only at h
      cases hopen : ed25519SecretboxOpen c s.boxed.val 32 s.nonce (deriveKey c s.salt pass) with
      | none =>
        rw [hopen] at h
        exact ih h
      | some m =>
        rw [hopen] at h
        exact ⟨pass, m, hopen, (Option.some.inj h).symm⟩

/-- An identity that loads is stored in the file. -/
theorem load_stores {d : Disk} {content : Bytes} (hkey : d.key = some content) {p : Passes} {commentsz : Nat} {id : Identity}
    (h : d.load c p commentsz = .found id) : Stores c content id.seed := by
  rw [Disk.load] at h
  cases hbuf : d.readKey with
  | none =>
    rw [hbuf] at h
    cases h
  | some buf =>
    have htake : buf = content.take 1023 := by
      rw [Disk.readKey, hkey] at hbuf
      dsimp only at hbuf
      split at hbuf
      · exact (Option.some.inj hbuf).symm
      · cases hbuf
    rw [hbuf, hkey] at h
    dsimp only [Option.getD_some] at h
    split at h
    · -- The file has the magic.
      rw [loadEncrypted] at h
      cases hsealed : readSealed content with
      | none =>
        rw [hsealed] at h
        cases h
      | some s =>
        rw [hsealed] at h
        dsimp only at h
        cases hopen : openSealed c s 3 p with
        | none =>
          rw [hopen] at h
          cases h
        | some seed =>
          rw [hopen] at h
          obtain ⟨pass, m, hbox, hm⟩ := openSealed_opens c hopen
          rw [← Loaded.found.inj h]
          exact .inr ⟨s, pass, m, hsealed, hbox, hm⟩
    · cases hseed : hexField 32 (firstLine buf) with
      | none =>
        rw [hseed] at h
        cases h
      | some seed =>
        rw [hseed] at h
        rw [← Loaded.found.inj h, Stores, ← htake, hseed]
        exact .inl rfl

/-- The loader takes a file for absent if it cannot read it or does not recognise it. -/
theorem load_absent_iff {d : Disk} {content : Bytes} (hkey : d.key = some content) (p : Passes) (commentsz : Nat) :
    d.load c p commentsz = .absent ↔ ¬ (d.keyReadable = true ∧ Recognised content) := by
  have hempty : ¬ Recognised [] := by
    rw [Recognised]
    decide
  rw [Disk.load, Disk.readKey, hkey]
  dsimp only [Option.getD_some]
  by_cases hread : d.keyReadable = true ∧ content ≠ []
  · rw [if_pos hread]
    dsimp only
    rw [and_iff_right hread.1, Recognised]
    cases hmagic : keyMagic.isPrefixOf (content.take 1023) with
    | true =>
      rw [if_pos rfl]
      cases loadEncrypted c content p with
      | none => simp
      | some seed => simp
    | false =>
      rw [if_neg Bool.false_ne_true]
      cases hexField 32 (firstLine (content.take 1023)) with
      | none => simp
      | some seed => simp
  · rw [if_neg hread]
    refine iff_of_true rfl ?_
    rintro ⟨hr, hc⟩
    refine hread ⟨hr, ?_⟩
    rintro rfl
    exact hempty hc

theorem create_locked {d : Disk} {p : Passes} {commentsz : Nat} (habsent : d.load c p commentsz = .absent)
    (h : d.keyWritable = false) (drawn : Arr 32) (hostname : Bytes) :
    d.keyringLoadOrCreate c p commentsz drawn hostname = ⟨d, false, none⟩ := by
  rw [Disk.keyringLoadOrCreate, habsent]
  dsimp only
  rw [writeKeypairFiles_locked c h]

/-- A creation writes the key file wherever it can, and then has the identity it drew unless
the public file cannot be written. -/
theorem create_writes {d : Disk} {p : Passes} {commentsz : Nat} (habsent : d.load c p commentsz = .absent)
    (h : d.keyWritable = true) (drawn : Arr 32) (hostname : Bytes) :
    let o := d.keyringLoadOrCreate c p commentsz drawn hostname
    o.wrote = true ∧ o.disk.key = some (hexEncode drawn.val ++ [10]) ∧ ∀ id, o.id = some id → id.seed = drawn := by
  obtain ⟨d', ok, hwrite, hkey, hread⟩ :=
    writeKeypairFiles_writes c h [] hostname drawn (c.seedToPk drawn) (.zero 16) (.zero 24)
  rw [privateFile, if_pos rfl] at hkey
  rw [Disk.keyringLoadOrCreate, habsent]
  dsimp only
  rw [hwrite]
  cases ok with
  | false => exact ⟨rfl, hkey, fun id hid => nomatch hid⟩
  | true =>
    dsimp only
    rw [load_plain c hkey hread]
    refine ⟨rfl, hkey, ?_⟩
    rintro _ ⟨⟩
    rfl

/-- `keyring_load_or_create` keeps an existing identity exactly where it can read and
recognises the file, or cannot write it. -/
theorem identityKept_iff (d : Disk) (p : Passes) (commentsz : Nat) (drawn : Arr 32) (hostname : Bytes) :
    IdentityKept c d (d.keyringLoadOrCreate c p commentsz drawn hostname) ↔
      ∀ content, d.key = some content →
        (d.keyReadable = true ∧ Recognised content) ∨ d.keyWritable = false := by
  constructor
  · intro h content hkey
    by_cases hknown : d.keyReadable = true ∧ Recognised content
    · exact .inl hknown
    · have habsent := (load_absent_iff c hkey p commentsz).mpr hknown
      cases hwrite : d.keyWritable with
      | false => exact .inr rfl
      | true =>
        have hwrote := (create_writes c habsent hwrite drawn hostname).1
        rw [(h content hkey).1] at hwrote
        cases hwrote
  · intro h content hkey
    cases hload : d.load c p commentsz with
    | found id =>
      rw [Disk.keyringLoadOrCreate, hload]
      refine ⟨rfl, hkey, ?_⟩
      rintro _ ⟨⟩
      exact load_stores c hkey hload
    | failed =>
      rw [Disk.keyringLoadOrCreate, hload]
      exact ⟨rfl, hkey, fun id hid => nomatch hid⟩
    | absent =>
      have hwrite := (h content hkey).resolve_left ((load_absent_iff c hkey p commentsz).mp hload)
      rw [create_locked c hload hwrite]
      exact ⟨rfl, hkey, fun id hid => nomatch hid⟩

/-- A plain key file with a carriage return behind its seed is taken for absent. -/
theorem carriage_return_overwritten :
    ¬ IdentityKept toy ⟨some (hexEncode (Arr.zero 32).val ++ [13, 10]), none, true, true, true⟩
      (Disk.keyringLoadOrCreate toy ⟨some (hexEncode (Arr.zero 32).val ++ [13, 10]), none, true, true, true⟩
        ⟨none, []⟩ 64 (.zero 32) (ascii "host")) := by
  intro h
  have hwrote := (h _ rfl).1
  revert hwrote
  decide

end Keyring
