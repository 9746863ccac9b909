import BaitNet.PyKeyring

/-!
# Key files between the two implementations

Both write the same bytes for a seed, so that each reads what the other wrote, and a
passphrase other than the one of the file gives no seed.
-/
namespace Keyring

open Wire Crypto Interop

variable {nb : Py.PyBox} {c : TweetNaCl}

theorem encode_linesOf (ws : List (List Char)) : Py.encode (Py.linesOf ws) = (ws.map fun w => Py.encode w ++ [10]).flatten := by
  induction ws with
  | nil => rfl
  | cons w ws ih =>
    rw [Py.linesOf, List.flatMap_cons, Py.encode_append, Py.encode_append, List.map_cons, List.flatten_cons, ← ih, Py.linesOf]
    rfl

theorem privateFile_nil (seed : Arr 32) (salt : Arr 16) (nonce : Arr 24) :
    privateFile c [] seed salt nonce = Py.encode (Py.linesOf [Py.hexlify seed.val]) := by
  rw [privateFile, if_pos rfl, encode_linesOf, List.map_singleton, List.flatten_singleton, Py.encode_hexlify]

theorem privateFile_text {pass : Bytes} (h : pass ≠ []) (seed : Arr 32) (salt : Arr 16) (nonce : Arr 24) :
    privateFile c pass seed salt nonce =
      Py.encode (Py.linesOf (Py.sealedLines salt nonce (ed25519Secretbox c seed.val nonce (deriveKey c salt pass)))) := by
  have hmagic : Py.encode Py.keyMagic = keyMagic := by decide
  rw [privateFile_sealed c h, encode_linesOf, Py.sealedLines]
  simp only [List.map_cons, List.map_nil, List.flatten_cons, List.flatten_nil, hmagic, Py.encode_hexlify,
    List.append_assoc, List.append_nil, List.cons_append, List.nil_append]

theorem deriveKey_eq (same : SameBoxes nb c) (salt : Arr 16) (pass : List Char) :
    Py.deriveKey nb salt.val pass = (deriveKey c salt (Py.encode pass)).val := by
  have hhalf : ∀ d : Arr 64, slice d.val 0 32 = d.val.take 32 := fun d => by
    rw [slice, List.drop_zero, List.takeD_eq_take _ (by rw [d.length]; decide)]
  rw [Py.deriveKey, same.sha512, same.sha512, List.take_zipWith, deriveKey]
  dsimp only [ed25519Sha512]
  rw [hhalf, hhalf]

/-- `save_keyfile` writes the key file of the C writer. -/
theorem saveKeyfile_eq (same : SameBoxes nb c) (seed : Arr 32) (passphrase : Option (List Char)) (comment : List Char)
    (salt : Arr 16) (nonce : Arr 24) :
    (Py.saveKeyfile nb seed.val passphrase comment salt nonce).map (·.key) =
      .ok (privateFile c (Py.encode (passphrase.getD [])) seed salt nonce) := by
  rw [Py.saveKeyfile, if_neg (fun hne => hne seed.length), seedToPub_eq same.toSamePrimitives]
  dsimp only [Py.ok_bind]
  cases hpass : passphrase.getD [] with
  | nil =>
    rw [show Py.encode [] = [] from rfl, privateFile_nil, Py.linesOf, List.flatMap_singleton]
    rfl
  | cons ch pass =>
    have hne : Py.encode (ch :: pass) ≠ [] := fun h => List.cons_ne_nil ch pass (Py.encode_eq_nil.mp h)
    dsimp only
    rw [deriveKey_eq same, sealBlob_eq same.toSamePrimitives _ _ (by rw [seed.length]; decide), privateFile_text hne]
    simp only [Py.ok_bind, Py.pure_eq_ok, Except.map, Py.linesOf, Py.sealedLines, List.flatMap_cons, List.flatMap_nil,
      List.append_assoc, List.cons_append, List.nil_append, List.append_nil]

/-- The key derivation is injective and the box ideal, as far as these passphrases go: none
of them but `pass` gives its key, and a box for that key opens under no other of theirs. -/
structure Ideal (nb : Py.PyBox) (c : TweetNaCl) (seed : Arr 32) (salt : Arr 16) (nonce : Arr 24) (pass : Bytes)
    (tried : List Bytes) : Prop where
  derive_inj : ∀ q ∈ tried, deriveKey c salt q = deriveKey c salt pass → q = pass
  open_none : ∀ q ∈ tried, deriveKey c salt q ≠ deriveKey c salt pass →
    c.secretboxOpen (c.secretbox seed.val nonce (deriveKey c salt pass)) nonce (deriveKey c salt q) = none
  decrypt_none : ∀ q ∈ tried, deriveKey c salt q ≠ deriveKey c salt pass →
    nb.decrypt (deriveKey c salt q) nonce (nb.encrypt (deriveKey c salt pass) nonce seed.val) = none

variable {seed : Arr 32} {salt : Arr 16} {nonce : Arr 24} {pass : Bytes} {tried : List Bytes}

theorem seedBox_val : (seedBox c pass seed salt nonce).val = c.secretbox seed.val nonce (deriveKey c salt pass) := by
  have hshort : ¬ seed.val.length > 2048 := by
    rw [seed.length]
    decide
  exact if_neg hshort

theorem Ideal.opens_not (h : Ideal nb c seed salt nonce pass tried) {q : Bytes} (hq : q ∈ tried) (hne : q ≠ pass) :
    ed25519SecretboxOpen c (seedBox c pass seed salt nonce).val 32 nonce (deriveKey c salt q) = none := by
  have hslice : slice (seedBox c pass seed salt nonce).val 0 (32 + 32) = (seedBox c pass seed salt nonce).val :=
    congrArg Subtype.val (arr_self (seedBox c pass seed salt nonce))
  rw [ed25519SecretboxOpen, if_neg (by decide), hslice, seedBox_val]
  exact h.open_none q hq fun hkey => hne (h.derive_inj q hq hkey)

/-- The C loader finds the seed in a written file, and in an encrypted one if and only if
the passphrase of the file is among those tried. -/
theorem load_privateFile {d : Disk} (hkey : d.key = some (privateFile c pass seed salt nonce)) (hread : d.keyReadable = true)
    (p : Passes) (commentsz : Nat) (hideal : pass ≠ [] → Ideal nb c seed salt nonce pass (p.tried 3)) :
    d.load c p commentsz = if pass = [] ∨ pass ∈ p.tried 3 then .found (d.identity c commentsz seed) else .failed := by
  by_cases hpass : pass = []
  · rw [if_pos (.inl hpass)]
    rw [privateFile, if_pos hpass] at hkey
    exact load_plain c hkey hread p commentsz
  · rw [load_sealed c hpass hkey hread p commentsz fun q hq hne => (hideal hpass).opens_not hq hne]
    simp only [hpass, false_or]

/-- The Python loader gives the seed of an encrypted file for its passphrase. -/
theorem loadKeyfile_right (same : SameBoxes nb c) (path : String) {s : List Char} (hpass : Py.encode s ≠ []) :
    Py.loadKeyfile nb path (privateFile c (Py.encode s) seed salt nonce) (some s) = .ok seed.val := by
  have hbox : ed25519Secretbox c seed.val nonce (deriveKey c salt (Py.encode s)) ≠ [] :=
    List.ne_nil_of_length_pos (by rw [ed25519Secretbox_length]; omega)
  rw [privateFile_text hpass, Py.loadKeyfile_sealed nb path salt nonce hbox, deriveKey_eq same,
    openBlob_eq same _ _ (by rw [seed.length]; decide), Py.ok_bind, if_neg (fun hne => hne seed.length)]

/-- For any other it raises a `ValueError`. -/
theorem loadKeyfile_wrong (same : SameBoxes nb c) (path : String) (hpass : pass ≠ [])
    (hideal : Ideal nb c seed salt nonce pass tried) {q : Option (List Char)}
    (hq : ∀ s, q = some s → Py.encode s ∈ tried ∧ Py.encode s ≠ pass) :
    ∃ text, Py.loadKeyfile nb path (privateFile c pass seed salt nonce) q = .error (.valueError text) := by
  have hbox : ed25519Secretbox c seed.val nonce (deriveKey c salt pass) ≠ [] :=
    List.ne_nil_of_length_pos (by rw [ed25519Secretbox_length]; omega)
  rw [privateFile_text hpass]
  cases q with
  | none => exact ⟨_, Py.loadKeyfile_noPassphrase nb path salt nonce hbox⟩
  | some s =>
    obtain ⟨hs, hne⟩ := hq s rfl
    have hkey : deriveKey c salt (Py.encode s) ≠ deriveKey c salt pass := fun h => hne (hideal.derive_inj _ hs h)
    rw [Py.loadKeyfile_sealed nb path salt nonce hbox, deriveKey_eq same,
      openBlob_secretbox same _ _ _ (by rw [seed.length]; decide), hideal.decrypt_none _ hs hkey]
    exact ⟨_, rfl⟩

/-- Where `save_keyfile` can be given the passphrase, it writes the file of the C writer.
From this file both loaders get the seed with the passphrase it was written with, and fail
with another one. -/
theorem keyFile_round_trip (same : SameBoxes nb c) (seed : Arr 32) (salt : Arr 16) (nonce : Arr 24) (pass : Bytes) (p : Passes)
    (q : Option (List Char))
    (hideal : pass ≠ [] → Ideal nb c seed salt nonce pass (Py.encode (q.getD []) :: p.tried 3)) :
    (∀ (passphrase : Option (List Char)) (comment : List Char), Py.encode (passphrase.getD []) = pass →
      (Py.saveKeyfile nb seed.val passphrase comment salt nonce).map (·.key) =
        .ok (privateFile c pass seed salt nonce)) ∧
    (∀ (d : Disk) (commentsz : Nat) (drawn : Arr 32) (hostname : Bytes),
      d.key = some (privateFile c pass seed salt nonce) → d.keyReadable = true →
      d.keyringLoadOrCreate c p commentsz drawn hostname =
        ⟨d, false, if pass = [] ∨ pass ∈ p.tried 3 then some (d.identity c commentsz seed) else none⟩) ∧
    (∀ path, pass = [] ∨ q.map Py.encode = some pass →
      Py.loadKeyfile nb path (privateFile c pass seed salt nonce) q = .ok seed.val) ∧
    (∀ path, pass ≠ [] → q.map Py.encode ≠ some pass →
      ∃ text, Py.loadKeyfile nb path (privateFile c pass seed salt nonce) q = .error (.valueError text)) := by
  refine ⟨?_, ?_, ?_, ?_⟩
  · rintro passphrase comment rfl
    exact saveKeyfile_eq same seed passphrase comment salt nonce
  · intro d commentsz drawn hostname hkey hread
    have hown : pass ≠ [] → Ideal nb c seed salt nonce pass (p.tried 3) := fun hpass => {
      derive_inj := fun s hs => (hideal hpass).derive_inj s (List.mem_cons_of_mem _ hs)
      open_none := fun s hs => (hideal hpass).open_none s (List.mem_cons_of_mem _ hs)
      decrypt_none := fun s hs => (hideal hpass).decrypt_none s (List.mem_cons_of_mem _ hs) }
    rw [Disk.keyringLoadOrCreate, load_privateFile hkey hread p commentsz hown]
    by_cases hright : pass = [] ∨ pass ∈ p.tried 3
    · rw [if_pos hright, if_pos hright]
    · rw [if_neg hright, if_neg hright]
  · intro path hq
    by_cases hpass : pass = []
    · rw [hpass, privateFile_nil]
      exact Py.loadKeyfile_plain nb path seed.length q
    · obtain ⟨s, rfl, rfl⟩ := Option.map_eq_some_iff.mp (hq.resolve_left hpass)
      exact loadKeyfile_right same path hpass
  · intro path hpass hne
    refine loadKeyfile_wrong same path hpass (hideal hpass) ?_
    rintro s rfl
    exact ⟨List.mem_cons_self, fun h => hne (congrArg some h)⟩

theorem keyFile_round_trip_toy : SameBoxes toyBox toyNaCl ∧
    Ideal toyBox toyNaCl (.zero 32) (.zero 16) (.zero 24) (ascii "a") [Py.encode ['b'], ascii "c", ascii "a"] ∧
    ((Disk.mk (some (privateFile toyNaCl (ascii "a") (.zero 32) (.zero 16) (.zero 24))) none true true true).keyringLoadOrCreate
      toyNaCl ⟨some (ascii "c"), [some (ascii "a")]⟩ 64 (.zero 32) (ascii "host")).id = some ⟨.zero 32, .zero 32, []⟩ ∧
    ∀ path, ∃ text, Py.loadKeyfile toyBox path (privateFile toyNaCl (ascii "a") (.zero 32) (.zero 16) (.zero 24))
      (some ['b']) = .error (.valueError text) := by
  have hideal : Ideal toyBox toyNaCl (.zero 32) (.zero 16) (.zero 24) (ascii "a")
      [Py.encode ['b'], ascii "c", ascii "a"] := by
    refine ⟨?_, ?_, ?_⟩
    · decide
    · decide
    · decide
  obtain ⟨-, hc, -, hwrong⟩ := keyFile_round_trip toyBox_same (.zero 32) (.zero 16) (.zero 24) (ascii "a")
    ⟨some (ascii "c"), [some (ascii "a")]⟩ (some ['b']) fun _ => hideal
  refine ⟨toyBox_same, hideal, ?_, fun path => hwrong path (by decide) (by decide)⟩
  rw [hc ⟨_, none, true, true, true⟩ 64 (.zero 32) (ascii "host") rfl rfl]
  rfl

end Keyring
