import BaitNet.DhcpPool

/-!
# What `lease_alloc` gives out

For a MAC without a lease: the address and the slot it gets, when the search comes up with
nothing although the pool has room, and the pools for which its arithmetic is safe.
-/
namespace Dhcp

open Wire Link Crypto Tables

/-- A server with the given pool and nothing in its table. -/
def toyEnds (poolStart poolEnd : UInt64) : Server := start { toyPool with poolStart := poolStart, poolEnd := poolEnd } .empty 0

namespace Server

/-- The lease of `mac` that `lease_alloc` writes over `l`. -/
def newLease (s : Server) (mac : Arr 6) (now : Nat) (a : UInt64) (l : Lease) : Lease :=
  { l with used := true, mac := mac, addr := a, expiry := now + s.cfg.leaseSec.toNat }

/-- The search stops at `a`: the addresses before are running, this one is not. -/
structure Stops (s : Server) (mac : Arr 6) (now : Nat) (a : UInt64) : Prop where
  free : s.leaseAddrTaken a now = false
  reached : ∃ k ≤ 64, a = probeAt s.cfg mac k ∧ ∀ j < k, s.leaseAddrTaken (probeAt s.cfg mac j) now = true

/-- What `lease_alloc` comes to for a MAC without a lease. -/
inductive Allocates (s : Server) (mac : Arr 6) (now : Nat) : Server × Bool → Prop
  | poolFull (h : ∀ k ≤ 64, s.leaseAddrTaken (probeAt s.cfg mac k) now = true) : Allocates s mac now (s, false)
  | tableFull (h : ∀ l ∈ s.leases, slotFree now l = false) : Allocates s mac now (s, false)
  | leased (a : UInt64) (i : Nat) (l : Lease) (ha : s.Stops mac now a) (hslot : s.leases[i]? = some l)
      (hfree : slotFree now l = true) :
      Allocates s mac now ({ s with leases := s.leases.set i (s.newLease mac now a l) }, true)

theorem leaseAlloc_allocates {s : Server} {mac : Arr 6} (hnone : s.leaseFind mac = none) (now : Nat) :
    s.Allocates mac now (s.leaseAlloc mac now) := by
  rw [leaseAlloc, hnone]
  dsimp only
  split
  · rename_i htaken
    refine .poolFull fun k hk => ?_
    by_contra hfree
    rw [(s.probe_free_iff mac now).mpr ⟨k, hk, Bool.eq_false_iff.mpr hfree⟩] at htaken
    cases htaken
  · rename_i hfree
    split
    · rename_i hcrowded
      exact .tableFull fun l hl => List.findIdx?_eq_none_iff.mp hcrowded l hl
    · rename_i i hi
      obtain ⟨hlt, hslot, -⟩ := List.findIdx?_eq_some_iff_getElem.mp hi
      have hget := List.getElem?_eq_getElem hlt
      rw [modify_eq_set hget]
      refine .leased _ i _ ⟨Bool.eq_false_iff.mpr hfree, ?_⟩ hget hslot
      obtain ⟨k, hk, heq, hbefore, -⟩ := s.probe_spec now 64 (firstAddr s.cfg mac)
      exact ⟨k, hk, heq, hbefore⟩

theorem Stops.unique {s : Server} {mac : Arr 6} {now : Nat} {a b : UInt64} (ha : s.Stops mac now a)
    (hb : s.Stops mac now b) : a = b := by
  obtain ⟨j, -, rfl, hj⟩ := ha.reached
  obtain ⟨k, -, rfl, hk⟩ := hb.reached
  rcases Nat.lt_trichotomy j k with hlt | heq | hgt
  · have htaken := hk j hlt
    rw [ha.free] at htaken
    cases htaken
  · rw [heq]
  · have htaken := hj k hgt
    rw [hb.free] at htaken
    cases htaken

/-- A new lease is written where a slot is free and the search stops. -/
theorem leaseAlloc_leased {s : Server} {mac : Arr 6} {now : Nat} {a : UInt64} (hnone : s.leaseFind mac = none)
    (ha : s.Stops mac now a) (hslot : ∃ l ∈ s.leases, slotFree now l = true) :
    ∃ (i : Nat) (l : Lease), s.leases[i]? = some l ∧ slotFree now l = true ∧
      s.leaseAlloc mac now = ({ s with leases := s.leases.set i (s.newLease mac now a l) }, true) := by
  have halloc := leaseAlloc_allocates hnone now
  generalize s.leaseAlloc mac now = res at halloc
  cases halloc with
  | poolFull h =>
    obtain ⟨k, hk, rfl, -⟩ := ha.reached
    have htaken := h k hk
    rw [ha.free] at htaken
    cases htaken
  | tableFull h =>
    obtain ⟨l, hl, hfree⟩ := hslot
    rw [h l hl] at hfree
    cases hfree
  | leased b i l hb hget hfree =>
    obtain rfl := ha.unique hb
    exact ⟨i, l, hget, hfree, rfl⟩

/-- `mac` has one lease, of an address of the pool that nobody else runs, and every lease that
was running still is. -/
structure Granted (s : Server) (mac : Arr 6) (now : Nat) (s' : Server) : Prop where
  lease : ∃ i l, s'.Holds mac i l ∧ (s.cfg.poolStart ≤ l.addr ∧ l.addr ≤ s.cfg.poolEnd) ∧
    l.expiry = now + s.cfg.leaseSec.toNat ∧
    ∀ (j : Nat) (y : Lease), s'.leases[j]? = some y → y.used = true → now < y.expiry → y.addr = l.addr → j = i
  only : AtMostOne (fun l : Lease => l.used = true ∧ l.mac = mac) s'.leases
  others : ∀ (j : Nat) (y : Lease), s.leases[j]? = some y → y.used = true → now < y.expiry →
    s'.leases[j]? = some y

/-- The postcondition of `lease_alloc` for a MAC without a lease. -/
def AllocPost (s : Server) (mac : Arr 6) (now : Nat) : Prop :=
  match s.leaseAllocRun mac now with
  | none => True
  | some (s', true) => s.Granted mac now s'
  | some (s', false) => s' = s

/-- The pool ends at the last 64-bit number, and the search passes it and stops at a small
number in front of the pool. -/
def Overruns (s : Server) (mac : Arr 6) (now : Nat) : Prop :=
  s.cfg.poolEnd = 0xFFFFFFFFFFFFFFFF ∧ (∃ l ∈ s.leases, slotFree now l = true) ∧
    ∃ k ≤ 64, firstAddr s.cfg mac + .ofNat k < s.cfg.poolStart ∧
      s.leaseAddrTaken (firstAddr s.cfg mac + .ofNat k) now = false ∧
      ∀ j < k, s.leaseAddrTaken (firstAddr s.cfg mac + .ofNat j) now = true

/-- With nothing behind the end of the pool the search never turns back to its start. -/
theorem probeAt_top {cfg : Config} (h : cfg.poolEnd = 0xFFFFFFFFFFFFFFFF) (mac : Arr 6) (k : Nat) :
    probeAt cfg mac k = firstAddr cfg mac + .ofNat k := by
  induction k with
  | zero => exact (UInt64.add_zero _).symm
  | succ k ih =>
    have hnever : ¬ cfg.poolEnd < probeAt cfg mac k + 1 := by
      rw [h, UInt64.not_lt, UInt64.le_iff_toNat_le]
      have hlt := (probeAt cfg mac k + 1).toNat_lt
      have htop : (0xFFFFFFFFFFFFFFFF : UInt64).toNat = 2 ^ 64 - 1 := rfl
      omega
    rw [probeAt, Function.iterate_succ_apply', ← probeAt, nextAddr, if_neg hnever, ih, UInt64.ofNat_add,
      UInt64.add_assoc]
    rfl

theorem newLease_granted {s : Server} {mac : Arr 6} {now i : Nat} {a : UInt64} {l : Lease}
    (hnone : s.leaseFind mac = none) (ha : s.leaseAddrTaken a now = false) (hslot : s.leases[i]? = some l)
    (hfree : slotFree now l = true) (hpool : s.cfg.poolStart ≤ a ∧ a ≤ s.cfg.poolEnd) :
    s.Granted mac now { s with leases := s.leases.set i (s.newLease mac now a l) } := by
  have hholds := holds_set (s.newLease mac now a l) hslot (.inr hnone) rfl rfl
  refine ⟨⟨i, _, hholds, hpool, rfl, ?_⟩, ?_, ?_⟩
  · intro j y hj hused hlive haddr
    cases getElem?_set_elim hj with
    | inl hself => exact hself.1
    | inr hother =>
      have htaken := (s.taken_iff a now).mpr ⟨j, y, hother.2, hused, hlive, haddr⟩
      rw [ha] at htaken
      cases htaken
  · have hnobody : ∀ y ∈ s.leases, ¬ (y.used = true ∧ y.mac = mac) := by
      intro y hy howner
      have hnot := List.findIdx?_eq_none_iff.mp hnone y hy
      rw [howner.1, howner.2, decide_eq_true rfl] at hnot
      cases hnot
    refine AtMostOne.set (fun j k y z hy _ hP _ => ?_) (fun _ j y hy hP => ?_)
    · exact absurd hP (hnobody y (List.mem_of_getElem? hy))
    · exact absurd hP (hnobody y (List.mem_of_getElem? hy))
  · intro j y hj hused hlive
    have hne : i ≠ j := by
      rintro rfl
      obtain rfl := Option.some.inj (hslot.symm.trans hj)
      rw [slotFree, hused, Bool.not_true, Bool.false_or, decide_eq_true_eq] at hfree
      omega
    exact (List.getElem?_set_ne hne).trans hj

/-- Where the search stops, if it does not run over the last 64-bit number. -/
theorem Stops.bounds {s : Server} {mac : Arr 6} {now : Nat} {a : UInt64} (ha : s.Stops mac now a)
    (hle : s.cfg.poolStart ≤ s.cfg.poolEnd) (hslot : ∃ l ∈ s.leases, slotFree now l = true)
    (hnot : ¬ s.Overruns mac now) : s.cfg.poolStart ≤ a ∧ a ≤ s.cfg.poolEnd := by
  obtain ⟨k, hk, rfl, hbefore⟩ := ha.reached
  by_cases hend : s.cfg.poolEnd = 0xFFFFFFFFFFFFFFFF
  · constructor
    · by_contra hlow
      refine hnot ⟨hend, hslot, k, hk, ?_, ?_, fun j hj => ?_⟩
      · rw [← probeAt_top hend]
        exact UInt64.not_le.mp hlow
      · rw [← probeAt_top hend]
        exact ha.free
      · rw [← probeAt_top hend]
        exact hbefore j hj
    · rw [hend, UInt64.le_iff_toNat_le]
      exact Nat.le_sub_one_of_lt (UInt64.toNat_lt _)
  · exact probeAt_bounds hle hend mac k

/-- For a pool whose ends are in order, `lease_alloc` meets its postcondition unless its
search runs over the last 64-bit number. -/
theorem leaseAlloc_post_iff (s : Server) (mac : Arr 6) (now : Nat) (hnone : s.leaseFind mac = none)
    (hle : s.cfg.poolStart ≤ s.cfg.poolEnd) : s.AllocPost mac now ↔ ¬ s.Overruns mac now := by
  constructor
  · rintro hpost ⟨hend, hslot, k, hk, hlow, hfree, hbefore⟩
    have hspan : span s.cfg ≠ 0 := by
      intro hzero
      rw [((span_eq_zero_iff hle).mp hzero).1] at hlow
      exact absurd hlow UInt64.not_lt_zero
    have hstops : s.Stops mac now (firstAddr s.cfg mac + .ofNat k) := by
      refine ⟨hfree, k, hk, (probeAt_top hend mac k).symm, fun j hj => ?_⟩
      rw [probeAt_top hend]
      exact hbefore j hj
    obtain ⟨i, l, hget, -, heq⟩ := leaseAlloc_leased hnone hstops hslot
    rw [AllocPost, leaseAllocRun, if_neg (fun h => hspan h.2), heq] at hpost
    obtain ⟨i', l', hholds', hpool, -⟩ := hpost.lease
    have hholds := holds_set (s.newLease mac now (firstAddr s.cfg mac + .ofNat k) l) hget (.inr hnone) rfl rfl
    have hsame := hholds.leaseAt.symm.trans hholds'.leaseAt
    rw [← Option.some.inj hsame] at hpool
    exact absurd hlow (UInt64.not_lt.mpr hpool.1)
  · intro hnot
    rw [AllocPost, leaseAllocRun]
    by_cases hspan : s.leaseFind mac = none ∧ span s.cfg = 0
    · rw [if_pos hspan]
      trivial
    rw [if_neg hspan]
    have halloc := leaseAlloc_allocates hnone now
    generalize s.leaseAlloc mac now = res at halloc
    cases halloc with
    | poolFull h => rfl
    | tableFull h => rfl
    | leased a i l ha hget hfree =>
      exact newLease_granted hnone ha.free hget hfree
        (ha.bounds hle ⟨l, List.mem_of_getElem? hget, hfree⟩ hnot)

/-- Sixteen addresses: the lease of 11 runs, that of 12 has lapsed by the time 100. -/
def busyPool : Server :=
  { toyEnds 0x10 0x1F with
    leases := ((List.replicate maxLeases noLease).set 0 ⟨toyMac 1, 0x11, 3600, true, .zero 32⟩).set 1
      ⟨toyMac 2, 0x12, 60, true, .zero 32⟩ }

/-- The search for the host 17 starts at 11 and stops at 12. -/
theorem leaseAlloc_post_busyPool : busyPool.AllocPost (toyMac 17) 100 ↔ ¬ busyPool.Overruns (toyMac 17) 100 :=
  leaseAlloc_post_iff busyPool (toyMac 17) 100 (by decide +kernel) (by decide)

/-- The last two 64-bit numbers as a pool, both given out. -/
def topPool : Server :=
  { toyEnds 0xFFFFFFFFFFFFFFFE 0xFFFFFFFFFFFFFFFF with
    leases := ((List.replicate maxLeases noLease).set 0 ⟨toyMac 1, 0xFFFFFFFFFFFFFFFF, 3600, true, .zero 32⟩).set 1
      ⟨toyMac 2, 0xFFFFFFFFFFFFFFFE, 3600, true, .zero 32⟩ }

theorem topPool_atMostOne (P : Lease → Prop) (hnone : ¬ P noLease)
    (hboth : ¬ (P ⟨toyMac 1, 0xFFFFFFFFFFFFFFFF, 3600, true, .zero 32⟩ ∧
      P ⟨toyMac 2, 0xFFFFFFFFFFFFFFFE, 3600, true, .zero 32⟩)) : AtMostOne P topPool.leases := by
  have hempty : ∀ (j : Nat) (y : Lease), (List.replicate maxLeases noLease)[j]? = some y → ¬ P y := by
    intro j y hj
    rw [(List.mem_replicate.mp (List.mem_of_getElem? hj)).2]
    exact hnone
  refine AtMostOne.set (AtMostOne.set (fun i j x y hx _ hP _ => absurd hP (hempty i x hx)) fun _ j y hj hP => ?_)
    fun htwo j y hj hP => ?_
  · exact absurd hP (hempty j y hj)
  · cases getElem?_set_elim hj with
    | inl hself =>
      obtain ⟨-, rfl⟩ := hself
      exact absurd ⟨hP, htwo⟩ hboth
    | inr hother => exact absurd hP (hempty j y hother.2)

theorem topPool_unique : topPool.Unique := by
  constructor
  · refine fun mac => topPool_atMostOne _ (fun h => Bool.false_ne_true h.1) fun h => ?_
    have hmacs : toyMac 1 ≠ toyMac 2 := by decide
    exact hmacs (h.1.2.trans h.2.2.symm)
  · refine fun a => topPool_atMostOne _ (fun h => Bool.false_ne_true h.1) fun h => ?_
    have haddrs : (0xFFFFFFFFFFFFFFFF : UInt64) ≠ 0xFFFFFFFFFFFFFFFE := by decide
    exact haddrs (h.1.2.2.trans h.2.2.2.symm)

theorem not_post_of_outside {s : Server} {mac : Arr 6} {now : Nat} {a : UInt64}
    (hrun : (s.leaseAllocRun mac now).map (fun r => (r.2, (r.1.leaseAt mac).map Lease.addr)) = some (true, some a))
    (hout : ¬ (s.cfg.poolStart ≤ a ∧ a ≤ s.cfg.poolEnd)) : ¬ s.AllocPost mac now := by
  intro h
  rw [AllocPost] at h
  cases hres : s.leaseAllocRun mac now with
  | none =>
    rw [hres] at hrun
    cases hrun
  | some res =>
    obtain ⟨s', ok⟩ := res
    rw [hres] at hrun h
    obtain ⟨rfl, haddr⟩ := Prod.mk.inj (Option.some.inj hrun)
    obtain ⟨i, l, hholds, hpool, -⟩ := h.lease
    rw [hholds.leaseAt] at haddr
    rw [show l.addr = a from Option.some.inj haddr] at hpool
    exact hout hpool

/-- The third host is given the address 0. -/
theorem topPool_overrun : topPool.Unique ∧ topPool.leaseFind (toyMac 3) = none ∧
    topPool.cfg.poolStart ≤ topPool.cfg.poolEnd ∧ ¬ topPool.AllocPost (toyMac 3) topPool.time :=
  ⟨topPool_unique, by decide +kernel, by decide, not_post_of_outside (a := 0) (by decide +kernel) (by decide)⟩

/-- With a free slot in the table `lease_alloc` succeeds exactly if the MAC has a lease
already or one of the first 65 addresses from its hash on is free, whatever else is. -/
theorem leaseAlloc_succeeds_iff (s : Server) (mac : Arr 6) (now : Nat) (hle : s.cfg.poolStart ≤ s.cfg.poolEnd)
    (hslot : ∃ l ∈ s.leases, slotFree now l = true) :
    (∃ s', s.leaseAllocRun mac now = some (s', true)) ↔
      s.leaseFind mac ≠ none ∨
        (s.cfg.poolStart ≠ 0 ∨ s.cfg.poolEnd ≠ 0xFFFFFFFFFFFFFFFF) ∧
          ∃ k ≤ 64, s.leaseAddrTaken (probeAt s.cfg mac k) now = false := by
  have hspan : span s.cfg ≠ 0 ↔ s.cfg.poolStart ≠ 0 ∨ s.cfg.poolEnd ≠ 0xFFFFFFFFFFFFFFFF := by
    rw [Ne, span_eq_zero_iff hle, not_and_or]
  rw [← hspan]
  cases hfind : s.leaseFind mac with
  | some i =>
    refine ⟨fun _ => .inl (Option.some_ne_none i), fun _ => ⟨s.renew i now, ?_⟩⟩
    rw [leaseAllocRun, if_neg (fun h => by cases hfind.symm.trans h.1), leaseAlloc, hfind]
  | none =>
    rw [leaseAllocRun]
    constructor
    · rintro ⟨s', heq⟩
      split at heq
      · cases heq
      · rename_i hdivides
        refine .inr ⟨fun hzero => hdivides ⟨hfind, hzero⟩, ?_⟩
        have halloc := leaseAlloc_allocates hfind now
        rw [Option.some.inj heq] at halloc
        cases halloc with
        | leased a i l ha hget hfree =>
          obtain ⟨k, hk, rfl, -⟩ := ha.reached
          exact ⟨k, hk, ha.free⟩
    · rintro (hlease | ⟨hdivides, k, hk, hfree⟩)
      · exact absurd rfl hlease
      · rw [if_neg (fun h => hdivides h.2)]
        have halloc := leaseAlloc_allocates hfind now
        generalize s.leaseAlloc mac now = res at halloc
        cases halloc with
        | poolFull h =>
          rw [h k hk] at hfree
          cases hfree
        | tableFull h =>
          obtain ⟨l, hl, hopen⟩ := hslot
          rw [h l hl] at hopen
          cases hopen
        | leased a i l ha hget hfree => exact ⟨_, rfl⟩

theorem leaseAlloc_succeeds_busyPool : (∃ s', busyPool.leaseAllocRun (toyMac 17) 100 = some (s', true)) ↔
    busyPool.leaseFind (toyMac 17) ≠ none ∨
      (busyPool.cfg.poolStart ≠ 0 ∨ busyPool.cfg.poolEnd ≠ 0xFFFFFFFFFFFFFFFF) ∧
        ∃ k ≤ 64, busyPool.leaseAddrTaken (probeAt busyPool.cfg (toyMac 17) k) 100 = false :=
  leaseAlloc_succeeds_iff busyPool (toyMac 17) 100 (by decide)
    ⟨⟨toyMac 2, 0x12, 60, true, .zero 32⟩, by decide, by decide⟩

/-- A pool of 81 addresses, of which 65 hosts run the first 65. -/
def clusteredPool : Server :=
  { toyEnds 0x10 0x60 with
    leases := (List.range 65).map (fun j => ⟨toyMac (.ofNat j), 0x10 + .ofNat j, 3600, true, .zero 32⟩) ++
      List.replicate (maxLeases - 65) noLease }

/-- The host 81 gets none of the other 16, with 191 slots of the table unused. -/
theorem clusteredPool_exhausted :
    (clusteredPool.cfg.poolStart ≤ 0x51 ∧ 0x51 ≤ clusteredPool.cfg.poolEnd ∧ clusteredPool.leaseAddrTaken 0x51 0 = false) ∧
      (∃ l ∈ clusteredPool.leases, slotFree 0 l = true) ∧
      ¬ ∃ s', clusteredPool.leaseAllocRun (toyMac 81) 0 = some (s', true) := by
  refine ⟨by decide +kernel, ⟨noLease, List.mem_append_right _ (List.mem_replicate.mpr ⟨by decide, rfl⟩), rfl⟩, ?_⟩
  rintro ⟨s', hrun⟩
  have hfailed : (clusteredPool.leaseAllocRun (toyMac 81) 0).map Prod.snd = some false := by decide +kernel
  rw [hrun] at hfailed
  cases hfailed

end Server

/-- The numbers in which `lease_alloc` computes the hash. -/
def hashNat (mac : Arr 6) : Nat := mac.val.foldl (fun h b => (h * 31 + b.toNat) % 2 ^ 32) 0

theorem hashStep_toNat (h : UInt64) (b : UInt8) :
    ((h * 31 + b.toUInt64) &&& 0xFFFFFFFF).toNat = (h.toNat * 31 + b.toNat) % 2 ^ 32 := by
  have hmask : (0xFFFFFFFF : UInt64).toNat = 2 ^ 32 - 1 := rfl
  have h31 : (31 : UInt64).toNat = 31 := rfl
  have hb := b.toNat_lt
  rw [UInt64.toNat_and, hmask, Nat.and_two_pow_sub_one_eq_mod, UInt64.toNat_add, UInt64.toNat_mul, h31,
    UInt8.toNat_toUInt64]
  omega

theorem hashFold_toNat (l : Bytes) (h : UInt64) :
    (l.foldl (fun h b => (h * 31 + b.toUInt64) &&& 0xFFFFFFFF) h).toNat =
      l.foldl (fun h b => (h * 31 + b.toNat) % 2 ^ 32) h.toNat := by
  induction l generalizing h with
  | nil => rfl
  | cons b l ih => rw [List.foldl_cons, List.foldl_cons, ih, hashStep_toNat]

theorem macHash_toNat (mac : Arr 6) : (macHash mac).toNat = hashNat mac := hashFold_toNat mac.val 0

theorem macHash_lt (mac : Arr 6) : (macHash mac).toNat < 2 ^ 32 := by
  obtain ⟨⟨l⟩ | ⟨b, l⟩, hl⟩ := mac
  · cases hl
  · obtain ⟨l', b', hlast⟩ : ∃ l' b', b :: l = l' ++ [b'] :=
      ⟨_, _, (List.dropLast_append_getLast (List.cons_ne_nil b l)).symm⟩
    rw [macHash_toNat, hashNat]
    dsimp only
    rw [hlast, List.foldl_append]
    exact Nat.mod_lt _ (by decide)

/-- Every 32-bit number is the hash of a MAC. -/
theorem macHash_onto {h : Nat} (hlt : h < 2 ^ 32) : ∃ mac : Arr 6, (macHash mac).toNat = h := by
  have hbyte : ∀ n, n < 256 → (UInt8.ofNat n).toNat = n := by
    intro n hn
    rw [UInt8.toNat_ofNat', Nat.mod_eq_of_lt hn]
  have hdigit : ∀ q, q < 2 ^ 32 → (q / 31 * 31 + (UInt8.ofNat (q % 31)).toNat) % 2 ^ 32 = q := by
    intro q hq
    rw [hbyte _ (by omega)]
    omega
  refine ⟨⟨[.ofNat (h / 31 / 31 / 31 / 31 / 31), .ofNat (h / 31 / 31 / 31 / 31 % 31), .ofNat (h / 31 / 31 / 31 % 31),
    .ofNat (h / 31 / 31 % 31), .ofNat (h / 31 % 31), .ofNat (h % 31)], rfl⟩, ?_⟩
  rw [macHash_toNat, hashNat]
  simp only [List.foldl_cons, List.foldl_nil]
  rw [hbyte (h / 31 / 31 / 31 / 31 / 31) (by omega), Nat.zero_mul, Nat.zero_add,
    Nat.mod_eq_of_lt (show h / 31 / 31 / 31 / 31 / 31 < 2 ^ 32 by omega),
    hdigit (h / 31 / 31 / 31 / 31) (by omega), hdigit (h / 31 / 31 / 31) (by omega), hdigit (h / 31 / 31) (by omega),
    hdigit (h / 31) (by omega), hdigit h hlt]

/-- `lease_alloc` on a pool: it comes to a result in a slot of the table, a new address is a
40-bit one of the pool, and a renewed lease keeps its address. -/
def SafePool (poolStart poolEnd : UInt64) : Prop :=
  ∀ (s : Server) (mac : Arr 6) (now : Nat), s.cfg.poolStart = poolStart → s.cfg.poolEnd = poolEnd →
    s.leases.length = maxLeases →
    ∃ s' ok, s.leaseAllocRun mac now = some (s', ok) ∧ s'.leases.length = maxLeases ∧
      (ok = true → ∃ (i : Nat) (l : Lease), i < maxLeases ∧ s'.Holds mac i l ∧
        match s.leaseAt mac with
        | some old => l.addr = old.addr
        | none => l.addr.toNat < 2 ^ 40 ∧ poolStart ≤ l.addr ∧ l.addr ≤ poolEnd)

/-- The ends for which that is so: in order, not everything, and if the last address is not a
40-bit one then the first is far enough below. -/
def SafeEnds (poolStart poolEnd : UInt64) : Prop :=
  poolStart ≤ poolEnd ∧ (poolStart ≠ 0 ∨ poolEnd ≠ 0xFFFFFFFFFFFFFFFF) ∧
    (poolEnd.toNat < 2 ^ 40 ∨ poolStart.toNat + 2 ^ 32 + 63 < 2 ^ 40)

theorem probeAt_le {cfg : Config} (hle : cfg.poolStart ≤ cfg.poolEnd) (hspan : span cfg ≠ 0) (mac : Arr 6) (k : Nat) :
    (probeAt cfg mac k).toNat ≤ cfg.poolStart.toNat + (2 ^ 32 - 1) + k := by
  induction k with
  | zero =>
    have hlt := macHash_lt mac
    have hmod := Nat.mod_le (macHash mac).toNat (cfg.poolEnd.toNat - cfg.poolStart.toNat + 1)
    change (firstAddr cfg mac).toNat ≤ _
    rw [firstAddr_toNat hle hspan]
    omega
  | succ k ih =>
    rw [probeAt, Function.iterate_succ_apply', ← probeAt, nextAddr]
    split
    · omega
    · rw [UInt64.toNat_add, UInt64.toNat_one]
      omega

/-- The addresses up to the end of the pool are looked at one after the other. -/
theorem probeAt_toNat {cfg : Config} (hle : cfg.poolStart ≤ cfg.poolEnd) (hspan : span cfg ≠ 0) {mac : Arr 6} {k : Nat}
    (h : cfg.poolStart.toNat + (macHash mac).toNat + k ≤ cfg.poolEnd.toNat) :
    (probeAt cfg mac k).toNat = cfg.poolStart.toNat + (macHash mac).toNat + k := by
  induction k with
  | zero =>
    change (firstAddr cfg mac).toNat = _
    rw [firstAddr_toNat hle hspan, Nat.mod_eq_of_lt (by omega), Nat.add_zero]
  | succ k ih =>
    have hk := ih (by omega)
    rw [probeAt, Function.iterate_succ_apply', ← probeAt, nextAddr_succ, hk, Nat.add_assoc]
    rw [UInt64.lt_iff_toNat_lt, hk]
    omega

/-- A server whose first `k` slots run the addresses from `a` on under the MAC `other`. -/
def crowded (cfg : Config) (other : Arr 6) (a : UInt64) (k : Nat) : Server :=
  { start cfg .empty 0 with
    leases := (List.range k).map (fun j => ⟨other, a + .ofNat j, 1, true, .zero 32⟩) ++
      List.replicate (maxLeases - k) noLease }

theorem crowded_length (cfg : Config) (other : Arr 6) (a : UInt64) {k : Nat} (hk : k ≤ maxLeases) :
    (crowded cfg other a k).leases.length = maxLeases := by
  rw [crowded]
  dsimp only
  rw [List.length_append, List.length_map, List.length_range, List.length_replicate]
  omega

theorem mem_crowded {cfg : Config} {other : Arr 6} {a : UInt64} {k : Nat} {l : Lease}
    (hl : l ∈ (crowded cfg other a k).leases) (hused : l.used = true) :
    ∃ j < k, l = ⟨other, a + .ofNat j, 1, true, .zero 32⟩ := by
  cases List.mem_append.mp hl with
  | inl hl =>
    obtain ⟨j, hj, rfl⟩ := List.mem_map.mp hl
    exact ⟨j, List.mem_range.mp hj, rfl⟩
  | inr hl =>
    rw [(List.mem_replicate.mp hl).2] at hused
    cases hused

theorem crowded_taken_iff (cfg : Config) (other : Arr 6) (a b : UInt64) (k : Nat) :
    (crowded cfg other a k).leaseAddrTaken b 0 = true ↔ ∃ j < k, b = a + .ofNat j := by
  rw [Server.leaseAddrTaken, List.any_eq_true]
  constructor
  · rintro ⟨l, hl, hP⟩
    simp only [Bool.and_eq_true, decide_eq_true_eq] at hP
    obtain ⟨j, hj, rfl⟩ := mem_crowded hl hP.1.1
    exact ⟨j, hj, hP.1.2.symm⟩
  · rintro ⟨j, hj, rfl⟩
    exact ⟨_, List.mem_append_left _ (List.mem_map_of_mem (List.mem_range.mpr hj)), by simp⟩

theorem crowded_find {cfg : Config} {mac other : Arr 6} {a : UInt64} {k : Nat} (hne : 0 < k → other ≠ mac) :
    (crowded cfg other a k).leaseFind mac = none := by
  rw [Server.leaseFind, List.findIdx?_eq_none_iff]
  intro l hl
  rw [Bool.and_eq_false_iff]
  by_cases hused : l.used = true
  · obtain ⟨j, hj, rfl⟩ := mem_crowded hl hused
    exact .inr (decide_eq_false (hne (by omega)))
  · exact .inl (Bool.eq_false_iff.mpr hused)

theorem crowded_slot (cfg : Config) (other : Arr 6) (a : UInt64) {k : Nat} (hk : k < maxLeases) :
    ∃ l ∈ (crowded cfg other a k).leases, Server.slotFree 0 l = true :=
  ⟨noLease, List.mem_append_right _ (List.mem_replicate.mpr ⟨by omega, rfl⟩), rfl⟩

theorem toNat_add_ofNat {a : UInt64} {j : Nat} (h : a.toNat + j < 2 ^ 64) : (a + .ofNat j).toNat = a.toNat + j := by
  rw [UInt64.toNat_add, UInt64.toNat_ofNat']
  omega

/-- Up to 64 places behind the last hash, every address of the pool is given out from some table. -/
theorem exists_stops {cfg : Config} (hle : cfg.poolStart ≤ cfg.poolEnd) (hspan : span cfg ≠ 0) {t : UInt64}
    (hlow : cfg.poolStart ≤ t) (hend : t ≤ cfg.poolEnd) (hnear : t.toNat ≤ cfg.poolStart.toNat + (2 ^ 32 - 1) + 64) :
    ∃ (s : Server) (mac : Arr 6), s.cfg = cfg ∧ s.leases.length = maxLeases ∧ s.leaseFind mac = none ∧
      s.Stops mac 0 t ∧ ∃ l ∈ s.leases, Server.slotFree 0 l = true := by
  rw [UInt64.le_iff_toNat_le] at hlow hend
  have ht := t.toNat_lt
  obtain ⟨h, hh⟩ : ∃ h, h = min (t.toNat - cfg.poolStart.toNat) (2 ^ 32 - 1) := ⟨_, rfl⟩
  obtain ⟨k, hk⟩ : ∃ k, k = t.toNat - cfg.poolStart.toNat - h := ⟨_, rfl⟩
  have hk64 : k ≤ 64 := by omega
  obtain ⟨mac, hmac⟩ := macHash_onto (h := h) (by omega)
  have hzero : macHash (.zero 6) = 0 := by decide
  have hbase : (cfg.poolStart + .ofNat h).toNat = cfg.poolStart.toNat + h := toNat_add_ofNat (by omega)
  have hplace : ∀ j ≤ k, (probeAt cfg mac j).toNat = cfg.poolStart.toNat + h + j := by
    intro j hj
    rw [probeAt_toNat hle hspan (by omega), hmac]
  have haddr : ∀ j ≤ k, (cfg.poolStart + .ofNat h + .ofNat j).toNat = cfg.poolStart.toNat + h + j := by
    intro j hj
    rw [toNat_add_ofNat (by omega), hbase]
  have hmax : maxLeases = 256 := rfl
  refine ⟨crowded cfg (.zero 6) (cfg.poolStart + .ofNat h) k, mac, rfl, crowded_length _ _ _ (by omega),
    crowded_find fun hpos heq => ?_, ⟨?_, k, hk64, ?_, fun j hj => ?_⟩, crowded_slot _ _ _ (by omega)⟩
  · rw [← heq, hzero, UInt64.toNat_zero] at hmac
    omega
  · rw [Bool.eq_false_iff, Ne, crowded_taken_iff]
    rintro ⟨j, hj, heq⟩
    have hj' := haddr j (by omega)
    rw [← heq] at hj'
    omega
  · have hlast := hplace k (Nat.le_refl _)
    rw [← UInt64.toNat_inj]
    change t.toNat = (probeAt cfg mac k).toNat
    omega
  · refine (crowded_taken_iff cfg _ _ _ k).mpr ⟨j, hj, ?_⟩
    rw [← UInt64.toNat_inj, haddr j (by omega)]
    exact hplace j (by omega)

/-- An address at which some search stops is a 40-bit one of the pool. -/
theorem SafePool.stops {s : Server} {mac : Arr 6} {a : UInt64} (h : SafePool s.cfg.poolStart s.cfg.poolEnd)
    (hlen : s.leases.length = maxLeases) (hnone : s.leaseFind mac = none) (ha : s.Stops mac 0 a)
    (hslot : ∃ l ∈ s.leases, Server.slotFree 0 l = true) :
    a.toNat < 2 ^ 40 ∧ s.cfg.poolStart ≤ a ∧ a ≤ s.cfg.poolEnd := by
  obtain ⟨s', ok, hrun, -, hlease⟩ := h s mac 0 rfl rfl hlen
  obtain ⟨i, l, hget, -, heq⟩ := Server.leaseAlloc_leased hnone ha hslot
  rw [Server.leaseAllocRun] at hrun
  split at hrun
  · cases hrun
  · rw [heq] at hrun
    obtain ⟨rfl, rfl⟩ := Prod.mk.inj (Option.some.inj hrun)
    obtain ⟨i', l', -, hholds', hbounds⟩ := hlease rfl
    have hholds := Server.holds_set (s.newLease mac 0 a l) hget (.inr hnone) rfl rfl
    rw [Server.leaseAt_none hnone, ← Option.some.inj (hholds.leaseAt.symm.trans hholds'.leaseAt)] at hbounds
    exact hbounds

theorem SafePool.ends {poolStart poolEnd : UInt64} (h : SafePool poolStart poolEnd) : SafeEnds poolStart poolEnd := by
  have hempty : ∀ l ∈ (toyEnds poolStart poolEnd).leases, l = noLease := fun l hl => (List.mem_replicate.mp hl).2
  have hnone : (toyEnds poolStart poolEnd).leaseFind (.zero 6) = none := by
    rw [Server.leaseFind, List.findIdx?_eq_none_iff]
    intro l hl
    rw [hempty l hl]
    rfl
  have hstops : (toyEnds poolStart poolEnd).Stops (.zero 6) 0 (probeAt (toyEnds poolStart poolEnd).cfg (.zero 6) 0) := by
    refine ⟨?_, 0, by omega, rfl, fun j hj => absurd hj (Nat.not_lt_zero j)⟩
    rw [Server.leaseAddrTaken, List.any_eq_false]
    intro l hl
    rw [hempty l hl]
    exact Bool.false_ne_true
  have hslot : ∃ l ∈ (toyEnds poolStart poolEnd).leases, Server.slotFree 0 l = true :=
    ⟨noLease, List.mem_replicate.mpr ⟨by decide, rfl⟩, rfl⟩
  have hin := SafePool.stops (s := toyEnds poolStart poolEnd) h List.length_replicate hnone hstops hslot
  have hle : poolStart ≤ poolEnd := UInt64.le_trans hin.2.1 hin.2.2
  have hpool : (toyEnds poolStart poolEnd).cfg.poolStart ≤ (toyEnds poolStart poolEnd).cfg.poolEnd := hle
  have hspan : span (toyEnds poolStart poolEnd).cfg ≠ 0 := by
    intro hzero
    obtain ⟨s', ok, hrun, -⟩ := h (toyEnds poolStart poolEnd) (.zero 6) 0 rfl rfl List.length_replicate
    rw [Server.leaseAllocRun, if_pos ⟨hnone, hzero⟩] at hrun
    cases hrun
  refine ⟨hle, ?_, ?_⟩
  · rw [Ne, span_eq_zero_iff hpool, not_and_or] at hspan
    exact hspan
  · by_contra hlarge
    rw [not_or, Nat.not_lt, Nat.not_lt] at hlarge
    have hend := poolEnd.toNat_lt
    have hle' := UInt64.le_iff_toNat_le.mp hle
    have hnat : (UInt64.ofNat (max poolStart.toNat (2 ^ 40))).toNat = max poolStart.toNat (2 ^ 40) := by
      rw [UInt64.toNat_ofNat', Nat.mod_eq_of_lt (by omega)]
    obtain ⟨s, mac, hcfg, hlen, hfind, ha, hfree⟩ := exists_stops hpool hspan
      (t := .ofNat (max poolStart.toNat (2 ^ 40)))
      (by rw [UInt64.le_iff_toNat_le, hnat]; exact Nat.le_max_left _ _)
      (by rw [UInt64.le_iff_toNat_le, hnat]; change _ ≤ poolEnd.toNat; omega)
      (by rw [hnat]; change _ ≤ poolStart.toNat + _ + _; omega)
    have hsafe : SafePool s.cfg.poolStart s.cfg.poolEnd := by
      rw [hcfg]
      exact h
    have hbits := (hsafe.stops hlen hfind ha hfree).1
    rw [hnat] at hbits
    omega

theorem SafeEnds.pool {poolStart poolEnd : UInt64} (h : SafeEnds poolStart poolEnd) : SafePool poolStart poolEnd := by
  rintro s mac now rfl rfl hlen
  obtain ⟨hle, hwhole, hbits⟩ := h
  have hspan : span s.cfg ≠ 0 := by
    rw [Ne, span_eq_zero_iff hle, not_and_or]
    exact hwhole
  rw [Server.leaseAllocRun, if_neg (fun hzero => hspan hzero.2)]
  refine ⟨(s.leaseAlloc mac now).1, (s.leaseAlloc mac now).2, rfl, ?_⟩
  cases hfind : s.leaseFind mac with
  | some i =>
    obtain ⟨l, hl⟩ := Server.holds_of_find hfind
    obtain ⟨hlt, -⟩ := List.getElem?_eq_some_iff.mp hl.slot
    rw [Server.leaseAlloc, hfind]
    dsimp only
    rw [Server.renew, modify_eq_set hl.slot, hl.leaseAt]
    refine ⟨by rw [List.length_set, hlen], fun _ => ⟨i, { l with expiry := now + s.cfg.leaseSec.toNat },
      by rw [← hlen]; exact hlt, ?_, rfl⟩⟩
    exact Server.holds_set _ hl.slot (.inl hl.found) hl.used hl.owner
  | none =>
    rw [Server.leaseAt_none hfind]
    have halloc := Server.leaseAlloc_allocates hfind now
    generalize s.leaseAlloc mac now = res at halloc
    cases halloc with
    | poolFull _ => exact ⟨hlen, fun hok => absurd hok Bool.false_ne_true⟩
    | tableFull _ => exact ⟨hlen, fun hok => absurd hok Bool.false_ne_true⟩
    | leased a i l ha hget hfree =>
      obtain ⟨hlt, -⟩ := List.getElem?_eq_some_iff.mp hget
      have hnot : ¬ s.Overruns mac now := by
        rintro ⟨hend, -, k, hk, hlow, -⟩
        have hfirst := probeAt_le hle hspan mac k
        rw [Server.probeAt_top hend] at hfirst
        have hbelow := UInt64.lt_iff_toNat_lt.mp hlow
        have hbase := UInt64.le_iff_toNat_le.mp (firstAddr_bounds hle hspan mac).1
        have hplace : (firstAddr s.cfg mac).toNat ≤ s.cfg.poolStart.toNat + (2 ^ 32 - 1) + 0 :=
          probeAt_le hle hspan mac 0
        have htop : (0xFFFFFFFFFFFFFFFF : UInt64).toNat = 2 ^ 64 - 1 := rfl
        rw [hend, htop] at hbits
        rw [toNat_add_ofNat (by omega)] at hbelow
        omega
      have hbounds := ha.bounds hle ⟨l, List.mem_of_getElem? hget, hfree⟩ hnot
      refine ⟨by rw [List.length_set, hlen], fun _ => ⟨i, _, by rw [← hlen]; exact hlt,
        Server.holds_set (s.newLease mac now a l) hget (.inr hfind) rfl rfl, ?_, hbounds⟩⟩
      obtain ⟨k, hk, rfl, -⟩ := ha.reached
      have hplace := probeAt_le hle hspan mac k
      have hend := UInt64.le_iff_toNat_le.mp hbounds.2
      change (probeAt s.cfg mac k).toNat < 2 ^ 40
      omega

/-- The arithmetic of `lease_alloc` is safe for the pool of a command line. -/
def SafeArgs (argv : List Bytes) : Prop :=
  ∀ poolStart poolEnd leaseSec, poolOptions argv = some (poolStart, poolEnd, leaseSec) → SafePool poolStart poolEnd

/-- It is so exactly for the pools whose ends are in order and far enough from the last
numbers that `lease_alloc` counts in. -/
theorem safeArgs_iff (argv : List Bytes) : SafeArgs argv ↔
    ∀ poolStart poolEnd leaseSec, poolOptions argv = some (poolStart, poolEnd, leaseSec) →
      SafeEnds poolStart poolEnd :=
  ⟨fun h _ _ _ hopts => (h _ _ _ hopts).ends, fun h _ _ _ hopts => (h _ _ _ hopts).pool⟩

/-- `dhcpd eth0 11 10`: the span of the reversed pool is 0. -/
theorem reversed_pool_divides_by_zero : ¬ SafeArgs [ascii "dhcpd", ascii "eth0", ascii "11", ascii "10"] := by
  intro h
  obtain ⟨s', ok, hrun, -⟩ := h 0x11 0x10 3600 (by decide +kernel) (toyEnds 0x11 0x10) (.zero 6) 0 rfl rfl
    List.length_replicate
  have hnone : (toyEnds 0x11 0x10).leaseAllocRun (.zero 6) 0 = none := by decide +kernel
  rw [hnone] at hrun
  cases hrun

end Dhcp
