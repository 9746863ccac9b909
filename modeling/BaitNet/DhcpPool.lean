import BaitNet.DhcpLeases
import BaitNet.Text

/-!
# The search for an address

`lease_alloc` with its one division, the pools that the command line admits, and the
addresses that its search comes by: at most 65, from the place of the MAC's hash on and
around the end of the pool.
-/
namespace Dhcp

open Wire Link Crypto Tables

/-- The number of addresses of the pool, as `lease_alloc` computes it. -/
def span (cfg : Config) : UInt64 := cfg.poolEnd - cfg.poolStart + 1

/-- The `k`-th address that the search for an address of `mac` looks at. -/
def probeAt (cfg : Config) (mac : Arr 6) (k : Nat) : UInt64 := (nextAddr cfg)^[k] (firstAddr cfg mac)

namespace Server

/-- `lease_alloc` as it runs: there is no result where it divides by a span of 0. -/
def leaseAllocRun (s : Server) (mac : Arr 6) (now : Nat) : Option (Server × Bool) :=
  if s.leaseFind mac = none ∧ span s.cfg = 0 then none else some (s.leaseAlloc mac now)

/-- A slot that `lease_alloc` may take: unused or lapsed. -/
def slotFree (now : Nat) (l : Lease) : Bool := !l.used || l.expiry ≤ now

end Server

def ipv69DhcpPoolStart : UInt64 := 0x10
def ipv69DhcpPoolEnd : UInt64 := 0xfe
def ipv69DhcpLeaseDefault : UInt32 := 3600

def isHex (d : UInt8) : Bool := (48 ≤ d ∧ d ≤ 57) ∨ (65 ≤ d ∧ d ≤ 70) ∨ (97 ≤ d ∧ d ≤ 102)

def hexVal (d : UInt8) : Nat :=
  if d ≤ 57 then d.toNat - 48 else if d ≤ 70 then d.toNat - 55 else d.toNat - 87

def hexValue (b : Bytes) : Nat := b.foldl (fun v d => 16 * v + hexVal d) 0

/-- The sign in front of a number. -/
def sign (s : Bytes) : Bool × Bytes :=
  match s with
  | 45 :: r => (true, r)
  | 43 :: r => (false, r)
  | r => (false, r)

/-- A `0x` counts as a prefix only in front of a digit. -/
def dropPrefix (s : Bytes) : Bytes :=
  match s with
  | 48 :: x :: d :: r => if (x = 120 ∨ x = 88) ∧ isHex d = true then d :: r else 48 :: x :: d :: r
  | r => r

/-- `strtoull(s, &end, 16)`, which saturates: the value and what stands at `end`; `none` for
text without a digit. With a 64-bit `long`, `strtoul` is the same. -/
def strtoull16 (s : Bytes) : Option (UInt64 × Bytes) :=
  let (neg, t) := sign (s.dropWhile Text.isSpace)
  let t := dropPrefix t
  let v := hexValue (t.takeWhile isHex)
  if t.takeWhile isHex = [] then none
  else some (if 2 ^ 64 ≤ v then 0xFFFFFFFFFFFFFFFF else if neg then 0 - .ofNat v else .ofNat v, t.dropWhile isHex)

/-- The octets of `parse_ipv69_addr`'s dotted form, of which `left` are still to come. -/
def octets (s : Bytes) (v : UInt64) : Nat → Option UInt64
  | 0 => some v
  | left + 1 =>
    match strtoull16 s with
    | none => none
    | some (o, rest) =>
      if 0xff < o then none
      else
        match left, rest with
        | 0, [] => some (v <<< 8 ||| o)
        | _ + 1, 46 :: r => octets r (v <<< 8 ||| o) left
        | _, _ => none

def parseIpv69Addr (s : Bytes) : Option UInt64 :=
  if 46 ∈ s then octets s 0 5
  else
    match strtoull16 s with
    | some (v, []) => some v
    | _ => none

/-- `strtol(s, &end, 10)`. -/
def strtol10 (s : Bytes) : Int × Bytes :=
  let (neg, t) := sign (s.dropWhile Text.isSpace)
  let v := Text.value (t.takeWhile Text.isDigit)
  if t.takeWhile Text.isDigit = [] then (0, s)
  else (if neg then -(min v (2 ^ 63) : Nat) else (min v (2 ^ 63 - 1) : Nat), t.dropWhile Text.isDigit)

def flags : List Bytes :=
  [ascii "--allow", ascii "--peer", ascii "--peer-file", ascii "--key", ascii "--learn"]

/-- One of the two pool ends: `argv[i]` unless it is missing or a flag. -/
def poolArg (argv : List Bytes) (i : Nat) (default : UInt64) : Option UInt64 :=
  match argv[i]? with
  | none => some default
  | some a => if a ∈ flags then some default else parseIpv69Addr a

/-- `argv[4]`, which is left alone when it is not a positive number. -/
def leaseArg (argv : List Bytes) : UInt32 :=
  match argv[4]? with
  | none => ipv69DhcpLeaseDefault
  | some a =>
    let (v, rest) := strtol10 a
    if a ∉ flags ∧ a ≠ [] ∧ rest = [] ∧ 0 < v then .ofInt v else ipv69DhcpLeaseDefault

/-- The pool and the lease time of `cmd_dhcpd`'s command line; `none` when it exits. -/
def poolOptions (argv : List Bytes) : Option (UInt64 × UInt64 × UInt32) :=
  if argv.length < 2 then none
  else
    match poolArg argv 2 ipv69DhcpPoolStart, poolArg argv 3 ipv69DhcpPoolEnd with
    | some s, some e => some (s, e, leaseArg argv)
    | _, _ => none

section pool

variable {cfg : Config} (hle : cfg.poolStart ≤ cfg.poolEnd)
include hle

/-- A pool whose ends are in order is empty to `lease_alloc` only if it is everything. -/
theorem span_eq_zero_iff : span cfg = 0 ↔ cfg.poolStart = 0 ∧ cfg.poolEnd = 0xFFFFFFFFFFFFFFFF := by
  have hle' := UInt64.le_iff_toNat_le.mp hle
  have hsub : (cfg.poolEnd - cfg.poolStart).toNat = cfg.poolEnd.toNat - cfg.poolStart.toNat :=
    UInt64.toNat_sub_of_le _ _ hle
  have hlt := cfg.poolEnd.toNat_lt
  have hmax : (0xFFFFFFFFFFFFFFFF : UInt64).toNat = 2 ^ 64 - 1 := rfl
  rw [span, ← UInt64.toNat_inj, ← UInt64.toNat_inj, ← UInt64.toNat_inj, UInt64.toNat_add, hsub, UInt64.toNat_one,
    UInt64.toNat_zero, hmax]
  omega

theorem span_toNat (hspan : span cfg ≠ 0) : (span cfg).toNat = cfg.poolEnd.toNat - cfg.poolStart.toNat + 1 := by
  have hsub : (cfg.poolEnd - cfg.poolStart).toNat = cfg.poolEnd.toNat - cfg.poolStart.toNat :=
    UInt64.toNat_sub_of_le _ _ hle
  have hlt := cfg.poolEnd.toNat_lt
  rw [Ne, ← UInt64.toNat_inj, span, UInt64.toNat_add, hsub, UInt64.toNat_one, UInt64.toNat_zero] at hspan
  rw [span, UInt64.toNat_add, hsub, UInt64.toNat_one]
  omega

theorem firstAddr_toNat (hspan : span cfg ≠ 0) (mac : Arr 6) :
    (firstAddr cfg mac).toNat =
      cfg.poolStart.toNat + (macHash mac).toNat % (cfg.poolEnd.toNat - cfg.poolStart.toNat + 1) := by
  have hle' := UInt64.le_iff_toNat_le.mp hle
  have hlt := cfg.poolEnd.toNat_lt
  have hmod : (macHash mac).toNat % (cfg.poolEnd.toNat - cfg.poolStart.toNat + 1) <
      cfg.poolEnd.toNat - cfg.poolStart.toNat + 1 := Nat.mod_lt _ (Nat.succ_pos _)
  rw [firstAddr, UInt64.toNat_add, UInt64.toNat_mod, ← span, span_toNat hle hspan]
  omega

theorem firstAddr_bounds (hspan : span cfg ≠ 0) (mac : Arr 6) :
    cfg.poolStart ≤ firstAddr cfg mac ∧ firstAddr cfg mac ≤ cfg.poolEnd := by
  have hle' := UInt64.le_iff_toNat_le.mp hle
  have hmod : (macHash mac).toNat % (cfg.poolEnd.toNat - cfg.poolStart.toNat + 1) <
      cfg.poolEnd.toNat - cfg.poolStart.toNat + 1 := Nat.mod_lt _ (Nat.succ_pos _)
  rw [UInt64.le_iff_toNat_le, UInt64.le_iff_toNat_le, firstAddr_toNat hle hspan]
  omega

omit hle in
theorem nextAddr_succ {a : UInt64} (h : a < cfg.poolEnd) : (nextAddr cfg a).toNat = a.toNat + 1 := by
  have hlt := UInt64.lt_iff_toNat_lt.mp h
  have hend := cfg.poolEnd.toNat_lt
  have hsucc : (a + 1).toNat = a.toNat + 1 := by
    rw [UInt64.toNat_add, UInt64.toNat_one]
    omega
  rw [nextAddr, if_neg, hsucc]
  rw [UInt64.not_lt, UInt64.le_iff_toNat_le, hsucc]
  omega

omit hle in
/-- The last address of the pool is followed by the first one, where there is a number
behind the last one to compare with. -/
theorem nextAddr_end (hmax : cfg.poolEnd ≠ 0xFFFFFFFFFFFFFFFF) : nextAddr cfg cfg.poolEnd = cfg.poolStart := by
  have hend := cfg.poolEnd.toNat_lt
  rw [Ne, ← UInt64.toNat_inj] at hmax
  have htop : (0xFFFFFFFFFFFFFFFF : UInt64).toNat = 2 ^ 64 - 1 := rfl
  rw [nextAddr, if_pos]
  rw [UInt64.lt_iff_toNat_lt, UInt64.toNat_add, UInt64.toNat_one]
  omega

theorem probeAt_bounds (hmax : cfg.poolEnd ≠ 0xFFFFFFFFFFFFFFFF) (mac : Arr 6) (k : Nat) :
    cfg.poolStart ≤ probeAt cfg mac k ∧ probeAt cfg mac k ≤ cfg.poolEnd := by
  have hspan : span cfg ≠ 0 := fun h => hmax ((span_eq_zero_iff hle).mp h).2
  induction k with
  | zero => exact firstAddr_bounds hle hspan mac
  | succ k ih =>
    rw [probeAt, Function.iterate_succ_apply', ← probeAt]
    cases UInt64.lt_or_eq_of_le ih.2 with
    | inl hlt =>
      have hsucc := nextAddr_succ hlt
      have hlow := UInt64.le_iff_toNat_le.mp ih.1
      have hlt' := UInt64.lt_iff_toNat_lt.mp hlt
      rw [UInt64.le_iff_toNat_le, UInt64.le_iff_toNat_le, hsucc]
      omega
    | inr heq =>
      rw [heq, nextAddr_end hmax]
      exact ⟨UInt64.le_refl _, hle⟩

end pool

namespace Server

theorem probe_spec (s : Server) (now : Nat) (n : Nat) (a : UInt64) :
    ∃ k ≤ n, s.probe now n a = (nextAddr s.cfg)^[k] a ∧
      (∀ j < k, s.leaseAddrTaken ((nextAddr s.cfg)^[j] a) now = true) ∧
      (k = n ∨ s.leaseAddrTaken ((nextAddr s.cfg)^[k] a) now = false) := by
  induction n generalizing a with
  | zero => exact ⟨0, Nat.le_refl _, rfl, fun j hj => absurd hj (Nat.not_lt_zero j), .inl rfl⟩
  | succ n ih =>
    rw [probe]
    split
    · rename_i htaken
      obtain ⟨k, hk, heq, hbefore, hstop⟩ := ih (nextAddr s.cfg a)
      refine ⟨k + 1, Nat.succ_le_succ hk, heq, ?_, ?_⟩
      · intro j hj
        cases j with
        | zero => exact htaken
        | succ j => exact hbefore j (Nat.lt_of_succ_lt_succ hj)
      · exact hstop.imp (congrArg (· + 1)) id
    · rename_i hfree
      exact ⟨0, Nat.zero_le _, rfl, fun j hj => absurd hj (Nat.not_lt_zero j), .inr (Bool.eq_false_iff.mpr hfree)⟩

/-- The search finds a free address exactly if one of the first 65 is free. -/
theorem probe_free_iff (s : Server) (mac : Arr 6) (now : Nat) :
    s.leaseAddrTaken (s.probe now 64 (firstAddr s.cfg mac)) now = false ↔
      ∃ k ≤ 64, s.leaseAddrTaken (probeAt s.cfg mac k) now = false := by
  obtain ⟨k, hk, heq, hbefore, hstop⟩ := s.probe_spec now 64 (firstAddr s.cfg mac)
  rw [heq]
  constructor
  · exact fun hfree => ⟨k, hk, hfree⟩
  · rintro ⟨j, hj, hfree⟩
    cases hstop with
    | inr hstop => exact hstop
    | inl hlast =>
      cases Nat.lt_or_ge j k with
      | inl hlt =>
        have htaken := hbefore j hlt
        rw [← probeAt, hfree] at htaken
        cases htaken
      | inr hge =>
        obtain rfl : j = k := by omega
        exact hfree

end Server

end Dhcp
