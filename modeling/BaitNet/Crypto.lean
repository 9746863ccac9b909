import BaitNet.Wire

/-!
# The crypto library under `c/lib/ed25519`

TweetNaCl's primitives are a parameter: a structure of functions on byte arrays
together with the functional correctness the callers rely on. The wrappers of
`ed25519.c` are translated on top of it, with the two buffer limits they add.
Secrecy and unforgeability are not laws of these functions; a result that needs
one of them states it about its own run.
-/
namespace Crypto

open Wire

/-- `tweetnacl.c`. `secretbox` returns the `32 + n` bytes written to `c` for an
`n`-byte message; the scalar multiplications always return 0, so they are total. -/
structure TweetNaCl where
  hash : Bytes → Arr 64
  secretbox : Bytes → Arr 24 → Arr 32 → Bytes
  secretboxOpen : Bytes → Arr 24 → Arr 32 → Option Bytes
  scalarmult : Arr 32 → Arr 32 → Arr 32
  scalarmultBase : Arr 32 → Arr 32
  seedToPk : Arr 32 → Arr 32
  sign : Bytes → Arr 32 → Arr 64
  signOpen : Bytes → Arr 64 → Arr 32 → Bool
  onetimeauth : Bytes → Arr 32 → Arr 16
  secretbox_length : ∀ m n k, (secretbox m n k).length = m.length + 32
  open_secretbox : ∀ m n k, secretboxOpen (secretbox m n k) n k = some m
  scalarmult_comm : ∀ a b, scalarmult a (scalarmultBase b) = scalarmult b (scalarmultBase a)
  open_sign : ∀ m seed, signOpen m (sign m seed) (seedToPk seed) = true

attribute [simp] TweetNaCl.secretbox_length TweetNaCl.open_secretbox TweetNaCl.open_sign

variable (c : TweetNaCl)

/-- Only the seed, the first half of `sk`, signs. -/
def ed25519Sign (msg : Bytes) (sk : Arr 64) : Arr 64 := c.sign msg (arr sk.val 0 32)

def ed25519Verify (msg : Bytes) (sig : Arr 64) (pub : Arr 32) : Bool := c.signOpen msg sig pub

def ed25519Sha512 (msg : Bytes) : Arr 64 := c.hash msg

/-- RFC 2104 with the 128-byte block of SHA-512. -/
def ed25519HmacSha512 (msg key : Bytes) : Arr 64 :=
  let k := (if key.length > 128 then (c.hash key).val else key).takeD 128 0
  let inner := c.hash (k.map (· ^^^ 0x36) ++ msg)
  c.hash (k.map (· ^^^ 0x5c) ++ inner.val)

/-- An oversized message leaves zeros instead of a box. -/
def ed25519Secretbox (m : Bytes) (nonce : Arr 24) (key : Arr 32) : Bytes :=
  if m.length > 2048 then List.replicate (m.length + 32) 0 else c.secretbox m nonce key

/-- Opens the `n + 32` bytes at `box`; the stack buffer holds 1024 message bytes. -/
def ed25519SecretboxOpen (box : Bytes) (n : Nat) (nonce : Arr 24) (key : Arr 32) : Option Bytes :=
  if n > 1024 then none else c.secretboxOpen (slice box 0 (n + 32)) nonce key

/-- `key = SHA-512("ipv69-mac1" || addr40)[0..31]`. -/
def mac1Key (serverAddr : UInt64) : Arr 32 :=
  arr (c.hash ([105, 112, 118, 54, 57, 45, 109, 97, 99, 49] ++ put40 serverAddr)).val 0 32

def mac1Compute (key : Arr 32) (msg : Bytes) : Arr 16 := c.onetimeauth msg key

def mac1Verify (key : Arr 32) (msg : Bytes) (tag : Arr 16) : Bool := c.onetimeauth msg key = tag

theorem ed25519Secretbox_length (m : Bytes) (nonce : Arr 24) (key : Arr 32) :
    (ed25519Secretbox c m nonce key).length = m.length + 32 := by
  simp only [ed25519Secretbox]
  split <;> simp

/-- A sealed message opens again as long as it fits the opener's buffer; what
stands behind the box in the receive buffer is not read. -/
theorem open_ed25519Secretbox (m rest : Bytes) (nonce : Arr 24) (key : Arr 32)
    (h : m.length ≤ 1024) :
    ed25519SecretboxOpen c (ed25519Secretbox c m nonce key ++ rest) m.length nonce key = some m := by
  have hl := ed25519Secretbox_length c m nonce key
  rw [ed25519SecretboxOpen, if_neg (by omega), ← hl, slice_append_exact, ed25519Secretbox,
    if_neg (by omega), c.open_secretbox]

theorem mac1Verify_compute (key : Arr 32) (msg : Bytes) :
    mac1Verify c key msg (mac1Compute c key msg) = true := by
  simp [mac1Verify, mac1Compute]

/-! The smallest functions with these laws: a 32-bit checksum stands for every
digest and a scalar multiplication is a bytewise sum. -/

def checksum (b : Bytes) : UInt32 := foldWord (fun s x => s * 31 + x.toUInt32) 7 b

def toyHead (m : Bytes) (nonce : Arr 24) (key : Arr 32) : Arr 32 :=
  pad 32 (put32 (checksum nonce.val) ++ put32 (checksum key.val) ++ put32 (checksum m))

def toyTag (m : Bytes) (seed : Arr 32) : Arr 64 := pad 64 (put32 (checksum m) ++ seed.val)

def toy : TweetNaCl where
  hash m := pad 64 (put32 (checksum m) ++ m)
  secretbox m nonce key := (toyHead m nonce key).val ++ m
  secretboxOpen box nonce key :=
    if box.take 32 = (toyHead (box.drop 32) nonce key).val then some (box.drop 32) else none
  scalarmult a b := ⟨List.zipWith (· + ·) a.val b.val, by simp⟩
  scalarmultBase a := a
  seedToPk seed := seed
  sign := toyTag
  signOpen m sig pub := sig = toyTag m pub
  onetimeauth m key := pad 16 (put32 (checksum (key.val ++ m)))
  secretbox_length m n k := by rw [List.length_append, Arr.length]; omega
  open_secretbox m n k := by
    have hl := (toyHead m n k).length
    rw [List.take_left' hl, List.drop_left' hl, if_pos rfl]
  scalarmult_comm a b :=
    Subtype.ext (List.zipWith_comm_of_comm (fun x y => UInt8.add_comm x y))
  open_sign m seed := decide_eq_true rfl

end Crypto
