import BaitNet.Dhcp
import BaitNet.Runs

/-!
# Leases are unique

What a message does to the lease table, slot by slot, and the two uniqueness laws of the
table: no MAC has two leases, no address two that are still running. The second is lost
exactly when a lapsed lease is renewed after its address went to someone else.
-/
namespace Dhcp

open Wire Link Crypto Tables Runs
open Gw (ipv69AddrInRange)

variable (c : TweetNaCl)

/-- The addresses that the search of `lease_alloc` comes by. -/
inductive PoolAddr (cfg : Config) : UInt64 → Prop where
  | first (mac : Arr 6) : PoolAddr cfg (firstAddr cfg mac)
  | next {a : UInt64} : PoolAddr cfg a → PoolAddr cfg (nextAddr cfg a)

/-- They lie between the ends of a pool whose ends are in order. -/
theorem PoolAddr.bounds {cfg : Config} {a : UInt64} (h : PoolAddr cfg a) (hle : cfg.poolStart ≤ cfg.poolEnd)
    (hmax : cfg.poolEnd.toNat < 2 ^ 64 - 1) : cfg.poolStart ≤ a ∧ a ≤ cfg.poolEnd := by
  have hle' := UInt64.le_iff_toNat_le.mp hle
  induction h with
  | first mac =>
    have hsub : (cfg.poolEnd - cfg.poolStart).toNat = cfg.poolEnd.toNat - cfg.poolStart.toNat :=
      UInt64.toNat_sub_of_le _ _ hle
    have hspan : (cfg.poolEnd - cfg.poolStart + 1).toNat = cfg.poolEnd.toNat - cfg.poolStart.toNat + 1 := by
      rw [UInt64.toNat_add, hsub, UInt64.toNat_one, Nat.mod_eq_of_lt (by omega)]
    have hmod : (macHash mac).toNat % (cfg.poolEnd.toNat - cfg.poolStart.toNat + 1) <
        cfg.poolEnd.toNat - cfg.poolStart.toNat + 1 := Nat.mod_lt _ (Nat.succ_pos _)
    have haddr : (firstAddr cfg mac).toNat =
        cfg.poolStart.toNat + (macHash mac).toNat % (cfg.poolEnd.toNat - cfg.poolStart.toNat + 1) := by
      rw [firstAddr, UInt64.toNat_add, UInt64.toNat_mod, hspan, Nat.mod_eq_of_lt (by omega)]
    rw [UInt64.le_iff_toNat_le, UInt64.le_iff_toNat_le, haddr]
    omega
  | next _ ih =>
    rename_i a _
    have hstart := UInt64.le_iff_toNat_le.mp ih.1
    have hend := UInt64.le_iff_toNat_le.mp ih.2
    have hsucc : (a + 1).toNat = a.toNat + 1 := by
      rw [UInt64.toNat_add, UInt64.toNat_one, Nat.mod_eq_of_lt (by omega)]
    rw [nextAddr]
    split
    · exact ⟨UInt64.le_refl _, hle⟩
    · rename_i hin
      rw [UInt64.not_lt] at hin
      refine ⟨?_, hin⟩
      rw [UInt64.le_iff_toNat_le, hsucc]
      omega

namespace Server

theorem probe_pool (s : Server) (now : Nat) (n : Nat) {a : UInt64} (h : PoolAddr s.cfg a) :
    PoolAddr s.cfg (s.probe now n a) := by
  induction n generalizing a with
  | zero => exact h
  | succ n ih =>
    rw [probe]
    split
    · exact ih h.next
    · exact h

/-- The lease that slot `i` holds is the one `lease_find` points to for `mac`. -/
structure Holds (s : Server) (mac : Arr 6) (i : Nat) (l : Lease) : Prop where
  found : s.leaseFind mac = some i
  slot : s.leases[i]? = some l
  used : l.used = true
  owner : l.mac = mac

theorem holds_of_find {s : Server} {mac : Arr 6} {i : Nat} (h : s.leaseFind mac = some i) :
    ∃ l, s.Holds mac i l := by
  obtain ⟨hlt, hP, -⟩ := List.findIdx?_eq_some_iff_getElem.mp h
  rw [Bool.and_eq_true, decide_eq_true_eq] at hP
  exact ⟨s.leases[i], h, List.getElem?_eq_getElem hlt, hP.1, hP.2⟩

theorem Holds.leaseAt {s : Server} {mac : Arr 6} {i : Nat} {l : Lease} (h : s.Holds mac i l) :
    s.leaseAt mac = some l := by
  have hfound := h.found
  rw [leaseFind] at hfound
  rw [Server.leaseAt, List.find?_eq_bind_findIdx?_getElem?, hfound]
  exact h.slot

theorem leaseAt_none {s : Server} {mac : Arr 6} (h : s.leaseFind mac = none) : s.leaseAt mac = none := by
  rw [leaseFind] at h
  rw [leaseAt, List.find?_eq_bind_findIdx?_getElem?, h]
  rfl

theorem Holds.setLease {s : Server} {mac : Arr 6} {i : Nat} {l : Lease} (h : s.Holds mac i l) (f : Lease → Lease) :
    s.setLease mac f = { s with leases := s.leases.set i (f l) } := by
  rw [Server.setLease, h.found]
  dsimp only
  rw [modify_eq_set h.slot]

/-- A lease of `mac` written over the first one, or over a slot when there is none, is found. -/
theorem holds_set {s : Server} {mac : Arr 6} {i : Nat} {l : Lease} (l' : Lease) (hslot : s.leases[i]? = some l)
    (hfind : s.leaseFind mac = some i ∨ s.leaseFind mac = none) (hused : l'.used = true) (howner : l'.mac = mac) :
    Holds { s with leases := s.leases.set i l' } mac i l' := by
  obtain ⟨hlt, -⟩ := List.getElem?_eq_some_iff.mp hslot
  have hself : (s.leases.set i l')[i]? = some l' := List.getElem?_set_self hlt
  refine ⟨?_, hself, hused, howner⟩
  rw [leaseFind, List.findIdx?_eq_some_iff_getElem]
  refine ⟨by rwa [List.length_set], ?_, ?_⟩
  · rw [List.getElem_set_self, hused, howner, decide_eq_true rfl]
    rfl
  · intro j hj
    have hne : i ≠ j := by omega
    rw [List.getElem_set_ne hne]
    cases hfind with
    | inl hfirst => exact (List.findIdx?_eq_some_iff_getElem.mp hfirst).2.2 j hj
    | inr hnone =>
      rw [List.findIdx?_eq_none_iff.mp hnone _ (List.getElem_mem (by omega))]
      exact Bool.false_ne_true

/-- What `lease_alloc` writes into slot `i` over `l`: a renewed lease or a new one. -/
inductive Obtains (s : Server) (mac : Arr 6) (now : Nat) (i : Nat) (l : Lease) : Lease → Prop
  | renewed (h : s.Holds mac i l) : Obtains s mac now i l { l with expiry := now + s.cfg.leaseSec.toNat }
  | fresh (a : UInt64) (hnone : s.leaseFind mac = none) (hslot : s.leases[i]? = some l)
      (hfree : l.used = false ∨ l.expiry ≤ now) (hsearch : a = s.probe now 64 (firstAddr s.cfg mac))
      (ha : s.leaseAddrTaken a now = false) :
      Obtains s mac now i l { l with used := true, mac := mac, addr := a, expiry := now + s.cfg.leaseSec.toNat }

theorem leaseAlloc_cases (s : Server) (mac : Arr 6) (now : Nat) :
    s.leaseFind mac = none ∧ s.leaseAlloc mac now = (s, false) ∨
      ∃ i l l₁, s.Obtains mac now i l l₁ ∧ s.leaseAlloc mac now = ({ s with leases := s.leases.set i l₁ }, true) := by
  cases hfind : s.leaseFind mac with
  | some i =>
    obtain ⟨l, hl⟩ := holds_of_find hfind
    refine .inr ⟨i, l, _, .renewed hl, ?_⟩
    rw [leaseAlloc, hfind]
    dsimp only
    rw [renew, modify_eq_set hl.slot]
  | none =>
    rw [leaseAlloc, hfind]
    dsimp only
    split
    · exact .inl ⟨rfl, rfl⟩
    · rename_i htaken
      split
      · exact .inl ⟨rfl, rfl⟩
      · rename_i i hi
        obtain ⟨hlt, hP, -⟩ := List.findIdx?_eq_some_iff_getElem.mp hi
        have hslot := List.getElem?_eq_getElem hlt
        refine .inr ⟨i, s.leases[i], _, .fresh _ hfind hslot (by simpa using hP) rfl
          (Bool.eq_false_iff.mpr htaken), ?_⟩
        rw [modify_eq_set hslot]

theorem Obtains.holds {s : Server} {mac : Arr 6} {now i : Nat} {l l₁ : Lease} (h : s.Obtains mac now i l l₁) :
    Holds { s with leases := s.leases.set i l₁ } mac i l₁ := by
  cases h with
  | renewed h => exact holds_set _ h.slot (.inl h.found) h.used h.owner
  | fresh a hnone hslot hfree hsearch ha => exact holds_set _ hslot (.inr hnone) rfl rfl

/-- The address that a DISCOVER of `mac` is offered, where it is: that of its lease, or the one
the search stops at. -/
def offerAddr (s : Server) (mac : Arr 6) (now : Nat) : UInt64 :=
  match s.leaseAt mac with
  | some l => l.addr
  | none => s.probe now 64 (firstAddr s.cfg mac)

theorem Holds.offerAddr {s : Server} {mac : Arr 6} {i : Nat} {l : Lease} (h : s.Holds mac i l) (now : Nat) :
    s.offerAddr mac now = l.addr := by
  rw [Server.offerAddr, h.leaseAt]

theorem Obtains.offerAddr {s : Server} {mac : Arr 6} {now i : Nat} {l l₁ : Lease} (h : s.Obtains mac now i l l₁) :
    s.offerAddr mac now = l₁.addr := by
  cases h with
  | renewed h => exact h.offerAddr now
  | fresh a hnone hslot hfree hsearch ha => rw [Server.offerAddr, leaseAt_none hnone, hsearch]

/-- A MAC without a lease is offered an address of the pool. -/
theorem offerAddr_pool {s : Server} {mac : Arr 6} (now : Nat) (h : s.leaseFind mac = none) :
    PoolAddr s.cfg (s.offerAddr mac now) := by
  rw [offerAddr, leaseAt_none h]
  exact s.probe_pool now 64 (.first mac)

/-- A REQUEST moves a lease to the address it names. -/
def moves (s : Server) (buf : Bytes) : Bool := s.inRange buf (get40 buf 7) && !s.leaseAddrTaken (get40 buf 7) s.time

/-- What an admitted DISCOVER or REQUEST does. -/
inductive Answered (s : Server) (buf : Bytes) : Server × List Grant → Prop
  | refused (hnone : s.leaseFind (msgMac buf) = none) (hfull : (s.leaseAlloc (msgMac buf) s.time).2 = false) :
      Answered s buf (s, [])
  | offered (i : Nat) (l l₁ : Lease) (key : Arr 32) (hty : byteAt buf 0 = ctrlDhcpDiscover)
      (hob : s.Obtains (msgMac buf) s.time i l l₁) (hgot : (s.leaseAlloc (msgMac buf) s.time).2 = true) :
      Answered s buf ({ s with leases := s.leases.set i { l₁ with key := key } },
        [grantMsg c s.cfg ctrlDhcpOffer (msgMac buf) l₁.addr])
  | denied (i : Nat) (l l₁ : Lease) (hty : byteAt buf 0 = ctrlDhcpRequest)
      (hob : s.Obtains (msgMac buf) s.time i l l₁) (hgot : (s.leaseAlloc (msgMac buf) s.time).2 = true)
      (hno : moves { s with leases := s.leases.set i l₁ } buf = false) (hne : get40 buf 7 ≠ l₁.addr) :
      Answered s buf ({ s with leases := s.leases.set i l₁ }, [])
  | confirmed (i : Nat) (l l₁ : Lease) (key : Arr 32) (hty : byteAt buf 0 = ctrlDhcpRequest)
      (hob : s.Obtains (msgMac buf) s.time i l l₁) (hgot : (s.leaseAlloc (msgMac buf) s.time).2 = true)
      (hyes : moves { s with leases := s.leases.set i l₁ } buf = true ∨ get40 buf 7 = l₁.addr) :
      Answered s buf ({ s with leases := s.leases.set i { l₁ with addr := get40 buf 7, key := key } },
        [grantMsg c s.cfg ctrlDhcpAck (msgMac buf) (get40 buf 7)])

theorem request_eq (s : Server) (buf : Bytes) (mac : Arr 6) (now : Nat) :
    s.request c buf mac now = match s.leaseAlloc mac now with
      | (s, false) => (s, [])
      | (s, true) =>
        match s.leaseAt mac with
        | none => (s, [])
        | some l =>
          if (s.inRange buf (get40 buf 7) && !s.leaseAddrTaken (get40 buf 7) now) || get40 buf 7 = l.addr then
            let s := s.setLease mac fun l => { l with addr := get40 buf 7 }
            let s := if 12 + pubLen + sigLen + mac1Len ≤ buf.length then
              s.setLease mac fun l => { l with key := arr buf 12 32 } else s
            (s, [grantMsg c s.cfg ctrlDhcpAck mac (get40 buf 7)])
          else (s, []) := by
  rw [request, leaseAlloc]
  cases s.leaseFind mac with
  | none => rfl
  | some i => rfl

theorem discover_answered (s : Server) (buf : Bytes) (hty : byteAt buf 0 = ctrlDhcpDiscover) :
    s.Answered c buf (s.discover c buf (msgMac buf) s.time) := by
  rw [discover]
  cases s.leaseAlloc_cases (msgMac buf) s.time with
  | inl hfull =>
    rw [hfull.2]
    exact .refused hfull.1 (congrArg Prod.snd hfull.2)
  | inr hgot =>
    obtain ⟨i, l, l₁, hob, heq⟩ := hgot
    have hholds := hob.holds
    have hserved : (s.leaseAlloc (msgMac buf) s.time).2 = true := congrArg Prod.snd heq
    rw [heq]
    dsimp only
    rw [hholds.leaseAt]
    dsimp only
    split
    · rw [hholds.setLease]
      dsimp only
      rw [List.set_set]
      exact .offered i l l₁ (arr buf 7 32) hty hob hserved
    · exact .offered i l l₁ l₁.key hty hob hserved

theorem request_answered (s : Server) (buf : Bytes) (hty : byteAt buf 0 = ctrlDhcpRequest) :
    s.Answered c buf (s.request c buf (msgMac buf) s.time) := by
  rw [request_eq]
  cases s.leaseAlloc_cases (msgMac buf) s.time with
  | inl hfull =>
    rw [hfull.2]
    exact .refused hfull.1 (congrArg Prod.snd hfull.2)
  | inr hgot =>
    obtain ⟨i, l, l₁, hob, heq⟩ := hgot
    have hholds := hob.holds
    have hserved : (s.leaseAlloc (msgMac buf) s.time).2 = true := congrArg Prod.snd heq
    rw [heq]
    dsimp only
    rw [hholds.leaseAt]
    dsimp only
    split
    · rename_i hyes
      rw [Bool.or_eq_true, decide_eq_true_eq] at hyes
      have hmoved : Holds { s with leases := s.leases.set i { l₁ with addr := get40 buf 7 } } (msgMac buf) i
          { l₁ with addr := get40 buf 7 } := by
        have h := holds_set { l₁ with addr := get40 buf 7 } hholds.slot (.inl hholds.found) hholds.used
          hholds.owner
        dsimp only at h
        rwa [List.set_set] at h
      rw [hholds.setLease]
      dsimp only
      rw [List.set_set]
      split
      · rw [hmoved.setLease]
        dsimp only
        rw [List.set_set]
        exact .confirmed i l l₁ (arr buf 12 32) hty hob hserved hyes
      · exact .confirmed i l l₁ l₁.key hty hob hserved hyes
    · rename_i hno
      rw [Bool.or_eq_true, decide_eq_true_eq, not_or] at hno
      exact .denied i l l₁ hty hob hserved (Bool.eq_false_iff.mpr hno.1) hno.2

/-- No MAC has two used leases, no address two that run longer than now. -/
structure Unique (s : Server) : Prop where
  macs : ∀ mac, AtMostOne (fun l : Lease => l.used = true ∧ l.mac = mac) s.leases
  addrs : ∀ a, AtMostOne (fun l : Lease => l.used = true ∧ s.time < l.expiry ∧ l.addr = a) s.leases

/-- The lease of the sender has lapsed, its address runs under another lease, and the
message does not move it away from there. -/
def reclaims (s : Server) (buf : Bytes) : Bool :=
  byteAt buf 0 ≠ ctrlDhcpRelease && decide (0 < s.cfg.leaseSec.toNat) &&
    ((s.leaseAt (msgMac buf)).any fun l => decide (l.expiry ≤ s.time) && s.leaseAddrTaken l.addr s.time) &&
    !(byteAt buf 0 = ctrlDhcpRequest && s.moves buf)

/-- No running lease outside slot `i` has the address. -/
def Others (s : Server) (i : Nat) (a : UInt64) : Prop :=
  ∀ (j : Nat) (y : Lease), s.leases[j]? = some y → y.used = true → s.time < y.expiry → y.addr = a → j = i

theorem taken_iff (s : Server) (a : UInt64) (now : Nat) :
    s.leaseAddrTaken a now = true ↔
      ∃ (j : Nat) (y : Lease), s.leases[j]? = some y ∧ y.used = true ∧ now < y.expiry ∧ y.addr = a := by
  rw [leaseAddrTaken, List.any_eq_true]
  constructor
  · rintro ⟨y, hy, hP⟩
    obtain ⟨j, hj⟩ := List.mem_iff_getElem?.mp hy
    simp only [Bool.and_eq_true, decide_eq_true_eq] at hP
    exact ⟨j, y, hj, hP.1.1, hP.2, hP.1.2⟩
  · rintro ⟨j, y, hj, hused, hlive, haddr⟩
    refine ⟨y, List.mem_of_getElem? hj, ?_⟩
    simp [hused, hlive, haddr]

theorem others_of_free {s : Server} {a : UInt64} (h : s.leaseAddrTaken a s.time = false) (i : Nat) :
    s.Others i a := by
  intro j y hj hused hlive haddr
  have htaken := (s.taken_iff a s.time).mpr ⟨j, y, hj, hused, hlive, haddr⟩
  rw [h] at htaken
  cases htaken

/-- The address of a lease that still runs is nobody else's; that of a lapsed one may be. -/
theorem Unique.others_iff {s : Server} (h : s.Unique) {mac : Arr 6} {i : Nat} {l : Lease} (hl : s.Holds mac i l) :
    s.Others i l.addr ↔ ¬ (l.expiry ≤ s.time ∧ s.leaseAddrTaken l.addr s.time = true) := by
  constructor
  · rintro hothers ⟨hlapsed, htaken⟩
    obtain ⟨j, y, hj, hused, hlive, haddr⟩ := (s.taken_iff l.addr s.time).mp htaken
    have heq := hothers j y hj hused hlive haddr
    rw [heq, hl.slot] at hj
    obtain rfl := Option.some.inj hj
    omega
  · intro hnot j y hj hused hlive haddr
    by_cases hlapsed : l.expiry ≤ s.time
    · exact absurd ⟨hlapsed, (s.taken_iff l.addr s.time).mpr ⟨j, y, hj, hused, hlive, haddr⟩⟩ hnot
    · exact h.addrs l.addr j i y l hj hl.slot ⟨hused, hlive, haddr⟩ ⟨hl.used, by omega, rfl⟩

/-- A lease of the sender keeps the table unique as far as its address is free. -/
theorem Unique.written_iff {s : Server} (h : s.Unique) {mac : Arr 6} {i : Nat} {l l₁ : Lease} (l' : Lease)
    (hob : s.Obtains mac s.time i l l₁) (hused : l'.used = true) (hmac : l'.mac = mac)
    (hexp : l'.expiry = s.time + s.cfg.leaseSec.toNat) :
    Unique { s with leases := s.leases.set i l' } ↔ (0 < s.cfg.leaseSec.toNat → s.Others i l'.addr) := by
  have hlt : i < s.leases.length := by
    cases hob with
    | renewed hl => exact (List.getElem?_eq_some_iff.mp hl.slot).1
    | fresh a hnone hslot => exact (List.getElem?_eq_some_iff.mp hslot).1
  have howner : ∀ (j : Nat) (y : Lease), s.leases[j]? = some y → y.used = true ∧ y.mac = mac → j = i := by
    intro j y hj hy
    cases hob with
    | renewed hl => exact h.macs mac j i y l hj hl.slot hy ⟨hl.used, hl.owner⟩
    | fresh a hnone =>
      have hnot := List.findIdx?_eq_none_iff.mp hnone y (List.mem_of_getElem? hj)
      rw [hy.1, hy.2, decide_eq_true rfl] at hnot
      cases hnot
  constructor
  · intro hu hsec j y hj hyused hlive haddr
    exact (hu.addrs l'.addr).of_set hlt ⟨hused, by change s.time < _; omega, rfl⟩ hj ⟨hyused, hlive, haddr⟩
  · intro hothers
    constructor
    · intro m
      refine (h.macs m).set ?_
      rintro ⟨-, hm⟩ j y hj hy
      rw [hmac] at hm
      exact howner j y hj ⟨hy.1, hy.2.trans hm.symm⟩
    · intro a
      refine (h.addrs a).set ?_
      rintro ⟨-, hlive, ha⟩ j y hj hy
      have hlive' : s.time < l'.expiry := hlive
      exact hothers (by omega) j y hj hy.1 hy.2.1 (hy.2.2.trans ha.symm)

theorem not_reclaims_new {s : Server} {buf : Bytes} (h : s.leaseFind (msgMac buf) = none) : s.reclaims buf = false := by
  simp [reclaims, leaseAt_none h]

theorem Holds.reclaims_iff {s : Server} {buf : Bytes} {i : Nat} {l : Lease} (h : s.Holds (msgMac buf) i l)
    (hty : byteAt buf 0 ≠ ctrlDhcpRelease) :
    s.reclaims buf = false ↔ (0 < s.cfg.leaseSec.toNat → l.expiry ≤ s.time → s.leaseAddrTaken l.addr s.time = true →
      byteAt buf 0 = ctrlDhcpRequest ∧ s.moves buf = true) := by
  rw [← Bool.not_eq_true, reclaims, h.leaseAt]
  simp [hty]

/-- The table with the renewed lease or the new one knows the same other leases. -/
theorem others_taken {s : Server} {i : Nat} {l₁ : Lease} {a : UInt64}
    (h : leaseAddrTaken { s with leases := s.leases.set i l₁ } a s.time = false) : s.Others i a := by
  intro j y hj hused hlive haddr
  by_contra hne
  have hset : (s.leases.set i l₁)[j]? = some y := by rwa [List.getElem?_set_ne (fun heq => hne heq.symm)]
  have htaken := (taken_iff { s with leases := s.leases.set i l₁ } a s.time).mpr ⟨j, y, hset, hused, hlive, haddr⟩
  rw [h] at htaken
  cases htaken

/-- A lapsed lease moves as it would before its renewal, but for its own address. -/
theorem moves_renewed {s : Server} {buf : Bytes} {i : Nat} {l l₁ : Lease} (hl : s.leases[i]? = some l)
    (hlapsed : l.expiry ≤ s.time) (h : moves { s with leases := s.leases.set i l₁ } buf = true) :
    s.moves buf = true := by
  rw [moves, Bool.and_eq_true, Bool.not_eq_true'] at h
  have hothers := others_taken h.2
  rw [moves, Bool.and_eq_true, Bool.not_eq_true']
  refine ⟨h.1, ?_⟩
  rw [← Bool.not_eq_true, taken_iff]
  rintro ⟨j, y, hj, hused, hlive, haddr⟩
  rw [hothers j y hj hused hlive haddr, hl] at hj
  obtain rfl := Option.some.inj hj
  omega

theorem not_moves_renewed {s : Server} {buf : Bytes} {i : Nat} {l₁ : Lease}
    (h : moves { s with leases := s.leases.set i l₁ } buf = false) (hne : get40 buf 7 ≠ l₁.addr) :
    s.moves buf = false := by
  rw [moves] at h ⊢
  cases hrange : s.inRange buf (get40 buf 7) with
  | false => rfl
  | true =>
    have hrange' : inRange { s with leases := s.leases.set i l₁ } buf (get40 buf 7) = true := hrange
    rw [hrange', Bool.true_and, Bool.not_eq_false'] at h
    rw [Bool.true_and, Bool.not_eq_false']
    obtain ⟨j, y, hj, hused, hlive, haddr⟩ := (taken_iff _ _ _).mp h
    cases getElem?_set_elim hj with
    | inl hself =>
      obtain ⟨-, rfl⟩ := hself
      exact absurd haddr.symm hne
    | inr hother => exact (taken_iff _ _ _).mpr ⟨j, y, hother.2, hused, hlive, haddr⟩

variable {c}

/-- An answered message keeps the table unique unless it takes back a lapsed lease. -/
theorem Answered.unique_iff {s : Server} {buf : Bytes} {res : Server × List Grant} (hu : s.Unique)
    (h : s.Answered c buf res) : res.1.Unique ↔ s.reclaims buf = false := by
  have htypes : ctrlDhcpDiscover ≠ ctrlDhcpRelease ∧ ctrlDhcpRequest ≠ ctrlDhcpRelease ∧
      ctrlDhcpDiscover ≠ ctrlDhcpRequest := by decide
  cases h with
  | refused hnone hfull => exact ⟨fun _ => not_reclaims_new hnone, fun _ => hu⟩
  | offered i l l₁ key hty hob hgot =>
    cases hob with
    | renewed hl =>
      refine (hu.written_iff ⟨l.mac, l.addr, _, l.used, key⟩ (.renewed hl) hl.used hl.owner rfl).trans ?_
      rw [hl.reclaims_iff (by rw [hty]; exact htypes.1), hu.others_iff hl, hty]
      have hne := htypes.2.2
      tauto
    | fresh a hnone hslot hfree hsearch ha =>
      refine (hu.written_iff ⟨msgMac buf, a, _, true, key⟩ (.fresh a hnone hslot hfree hsearch ha) rfl rfl rfl).trans ?_
      exact ⟨fun _ => not_reclaims_new hnone, fun _ _ => others_of_free ha i⟩
  | denied i l l₁ hty hob hgot hno hne =>
    cases hob with
    | renewed hl =>
      have hstays := not_moves_renewed hno hne
      refine (hu.written_iff ⟨l.mac, l.addr, s.time + s.cfg.leaseSec.toNat, l.used, l.key⟩ (.renewed hl) hl.used hl.owner rfl).trans ?_
      rw [hl.reclaims_iff (by rw [hty]; exact htypes.2.1), hu.others_iff hl, hstays]
      simp only [Bool.false_eq_true, and_false]
      tauto
    | fresh a hnone hslot hfree hsearch ha =>
      refine (hu.written_iff ⟨msgMac buf, a, _, true, l.key⟩ (.fresh a hnone hslot hfree hsearch ha) rfl rfl rfl).trans ?_
      exact ⟨fun _ => not_reclaims_new hnone, fun _ _ => others_of_free ha i⟩
  | confirmed i l l₁ key hty hob hgot hyes =>
    cases hob with
    | renewed hl =>
      refine (hu.written_iff ⟨l.mac, get40 buf 7, _, l.used, key⟩ (.renewed hl) hl.used hl.owner rfl).trans ?_
      rw [hl.reclaims_iff (by rw [hty]; exact htypes.2.1)]
      by_cases hmoves : moves { s with leases := s.leases.set i { l with expiry := s.time + s.cfg.leaseSec.toNat } }
          buf = true
      · have hfree := hmoves
        rw [moves, Bool.and_eq_true, Bool.not_eq_true'] at hfree
        exact ⟨fun _ _ hlapsed _ => ⟨hty, moves_renewed hl.slot hlapsed hmoves⟩, fun _ _ => others_taken hfree.2⟩
      · have hsame : get40 buf 7 = l.addr := hyes.resolve_left hmoves
        have hstays : s.leaseAddrTaken l.addr s.time = true → s.moves buf = false := by
          intro htaken
          rw [moves, hsame, htaken, Bool.not_true, Bool.and_false]
        dsimp only
        rw [hsame, hu.others_iff hl]
        constructor
        · exact fun hnot hsec hlapsed htaken => absurd ⟨hlapsed, htaken⟩ (hnot hsec)
        · rintro himp hsec ⟨hlapsed, htaken⟩
          have hmove := (himp hsec hlapsed htaken).2
          rw [hstays htaken] at hmove
          cases hmove
    | fresh a hnone hslot hfree hsearch ha =>
      refine (hu.written_iff ⟨msgMac buf, get40 buf 7, _, true, key⟩ (.fresh a hnone hslot hfree hsearch ha) rfl rfl rfl).trans ?_
      refine ⟨fun _ => not_reclaims_new hnone, fun _ _ => ?_⟩
      cases hyes with
      | inl hmoves =>
        rw [moves, Bool.and_eq_true, Bool.not_eq_true'] at hmoves
        exact others_taken hmoves.2
      | inr hsame =>
        dsimp only at hsame ⊢
        rw [hsame]
        exact others_of_free ha i

theorem Unique.same {s : Server} (h : s.Unique) (rate : List RateBucket) (peers : Table maxPeers PeerEntry) :
    Unique { s with rate := rate, peers := peers } :=
  ⟨h.macs, h.addrs⟩

theorem Unique.released {s : Server} (h : s.Unique) (mac : Arr 6) (addr : UInt64) : (s.leaseRelease mac addr).Unique := by
  rw [leaseRelease]
  cases hfind : s.leaseFind mac with
  | none => exact h
  | some i =>
    obtain ⟨l, hl⟩ := holds_of_find hfind
    dsimp only
    rw [modify_eq_set hl.slot]
    split
    · exact ⟨fun m => (h.macs m).set fun hx => (nomatch hx.1), fun a => (h.addrs a).set fun hx => (nomatch hx.1)⟩
    · obtain ⟨hlt, heq⟩ := List.getElem?_eq_some_iff.mp hl.slot
      rw [← heq, List.set_getElem_self]
      exact h

variable (c)

theorem checkMsg_state (s : Server) (msg : Bytes) (plen : Nat) (mac : Arr 6) :
    ∃ peers, (s.checkMsg c msg plen mac).1 = { s with peers := peers } := by
  rw [checkMsg]
  split
  · exact ⟨s.peers, rfl⟩
  split
  · exact ⟨s.peers, rfl⟩
  split
  · exact ⟨s.peers, rfl⟩
  split
  · rw [learnPeer]
    split
    · exact ⟨s.peers, rfl⟩
    · exact ⟨_, rfl⟩
  · exact ⟨s.peers, rfl⟩

theorem vet_state (s : Server) (dst : UInt64) (buf : Bytes) :
    ∃ rate peers, (s.vet c dst buf).1 = { s with rate := rate, peers := peers } := by
  rw [vet]
  dsimp only
  split
  · exact ⟨s.rate, s.peers, rfl⟩
  split
  · exact ⟨s.rate, s.peers, rfl⟩
  cases rateAllow s.rate s.nowMs (pad 8 (msgMac buf).val) 10 20 1 with
  | mk rate allowed =>
    dsimp only
    split
    · exact ⟨rate, s.peers, rfl⟩
    split
    · exact ⟨rate, s.peers, rfl⟩
    · obtain ⟨peers, heq⟩ := checkMsg_state c { s with rate := rate } buf (buf.length - mac1Len) (msgMac buf)
      exact ⟨rate, peers, heq⟩

/-- The message of a frame that passes every check, and the server as it finds it. -/
def admitted (s : Server) (frame : Bytes) : Option (Server × Bytes) :=
  match recvCtrl frame with
  | none => none
  | some (dst, buf) =>
    match s.vet c dst buf with
    | (_, false) => none
    | (s, true) => some (s, buf)

theorem handle_dropped {s : Server} {frame : Bytes} (h : s.admitted c frame = none) :
    ∃ rate peers, s.handle c frame = ({ s with rate := rate, peers := peers }, []) := by
  rw [admitted] at h
  rw [handle]
  cases hrecv : recvCtrl frame with
  | none => exact ⟨s.rate, s.peers, rfl⟩
  | some msg =>
    obtain ⟨dst, buf⟩ := msg
    rw [hrecv] at h
    dsimp only at h ⊢
    obtain ⟨rate, peers, hstate⟩ := s.vet_state c dst buf
    cases hvet : s.vet c dst buf with
    | mk s' ok =>
      rw [hvet] at h hstate
      cases ok with
      | false => exact ⟨rate, peers, by rw [← hstate]⟩
      | true => cases h

theorem admitted_elim {s s' : Server} {frame buf : Bytes} (h : s.admitted c frame = some (s', buf)) :
    ∃ dst, recvCtrl frame = some (dst, buf) ∧ s.vet c dst buf = (s', true) := by
  rw [admitted] at h
  cases hrecv : recvCtrl frame with
  | none =>
    rw [hrecv] at h
    cases h
  | some msg =>
    obtain ⟨dst, buf'⟩ := msg
    rw [hrecv] at h
    dsimp only at h
    cases hvet : s.vet c dst buf' with
    | mk s₁ ok =>
      rw [hvet] at h
      cases ok with
      | false => cases h
      | true =>
        obtain ⟨rfl, rfl⟩ := Prod.mk.inj (Option.some.inj h)
        exact ⟨dst, rfl, hvet⟩

theorem handle_admitted {s s' : Server} {frame buf : Bytes} (h : s.admitted c frame = some (s', buf)) :
    s.handle c frame = s'.dispatch c buf ∧ (∃ rate peers, s' = { s with rate := rate, peers := peers }) ∧
      isRequestType (byteAt buf 0) = true := by
  obtain ⟨dst, hrecv, hvet⟩ := admitted_elim c h
  obtain ⟨rate, peers, hstate⟩ := s.vet_state c dst buf
  rw [hvet] at hstate
  refine ⟨by rw [handle, hrecv]; dsimp only; rw [hvet], ⟨rate, peers, hstate⟩, ?_⟩
  by_contra hty
  rw [vet, if_pos (.inr (Bool.eq_false_iff.mpr hty))] at hvet
  cases (Prod.mk.inj hvet).2

variable {c}

theorem dispatch_unique_iff {s : Server} {buf : Bytes} (h : s.Unique) (hty : isRequestType (byteAt buf 0) = true) :
    (s.dispatch c buf).1.Unique ↔ s.reclaims buf = false := by
  rw [dispatch]
  split
  · rename_i hdiscover
    exact (s.discover_answered c buf hdiscover).unique_iff h
  split
  · rename_i hrequest
    exact (s.request_answered c buf hrequest).unique_iff h
  · rename_i hdiscover hrequest
    have hrelease : byteAt buf 0 = ctrlDhcpRelease := by
      rw [isRequestType, decide_eq_true_eq] at hty
      tauto
    have hnot : s.reclaims buf = false := by simp [reclaims, hrelease]
    exact ⟨fun _ => hnot, fun _ => h.released _ _⟩

end Server

/-- No message takes back a lapsed lease whose address is in use again. -/
def NoReclaim (s : Server) : Event → Prop
  | .recv frame => ∀ s' buf, s.admitted c frame = some (s', buf) → s'.reclaims buf = false
  | .wait _ => True
  | .reload _ => True

theorem step_unique_iff (s : Server) (ev : Event) (h : s.Unique) : (step c s ev).Unique ↔ NoReclaim c s ev := by
  cases ev with
  | recv frame =>
    rw [step, NoReclaim]
    cases hadm : s.admitted c frame with
    | none =>
      obtain ⟨rate, peers, heq⟩ := s.handle_dropped c hadm
      rw [heq]
      exact ⟨fun _ _ _ hsome => (by cases hsome), fun _ => h.same rate peers⟩
    | some msg =>
      obtain ⟨s', buf⟩ := msg
      obtain ⟨heq, ⟨rate, peers, rfl⟩, hty⟩ := s.handle_admitted c hadm
      rw [heq, Server.dispatch_unique_iff (h.same rate peers) hty]
      constructor
      · intro hno s' buf' hsame
        obtain ⟨rfl, rfl⟩ := Prod.mk.inj (Option.some.inj hsame)
        exact hno
      · exact fun hno => hno _ _ rfl
  | wait ms =>
    have hle : s.time ≤ (s.clock + ms) / 1000 := Nat.div_le_div_right (Nat.le_add_right _ _)
    refine ⟨fun _ => trivial, fun _ => ⟨h.macs, fun a => (h.addrs a).mono ?_⟩⟩
    rintro l ⟨hused, hlive, haddr⟩
    exact ⟨hused, lt_of_le_of_lt hle hlive, haddr⟩
  | reload peers => exact ⟨fun _ => trivial, fun _ => ⟨h.macs, h.addrs⟩⟩

theorem start_unique (cfg : Config) (peers : Table maxPeers PeerEntry) (clock : Nat) : (start cfg peers clock).Unique := by
  have hunused : ∀ (i : Nat) (l : Lease), (List.replicate maxLeases noLease)[i]? = some l → l.used = false := by
    intro i l hl
    rw [(List.mem_replicate.mp (List.mem_of_getElem? hl)).2]
    rfl
  constructor
  · intro mac i j x y hx hy hPx
    rw [hunused i x hx] at hPx
    cases hPx.1
  · intro a i j x y hx hy hPx
    rw [hunused i x hx] at hPx
    cases hPx.1

/-- Every lease table of a run is unique exactly when no message of the run takes back a
lapsed lease whose address has gone to another lease. -/
theorem leases_unique_iff (cfg : Config) (peers : Table maxPeers PeerEntry) (clock : Nat) (es : List Event) :
    Throughout (step c) Server.Unique (start cfg peers clock) es ↔
      Along (step c) (NoReclaim c) (start cfg peers clock) es := by
  apply throughout_iff_along (I := fun _ => True)
  · exact fun _ _ _ _ _ => trivial
  · exact fun s ev _ h => step_unique_iff c s ev h
  · trivial
  · exact start_unique cfg peers clock

def toyMac (x : UInt8) : Arr 6 := ⟨[0, 0, 0, 0, 0, x], rfl⟩

/-- An open server with the two addresses 10 and 11. -/
def toyPool : Config := ⟨toyMac 0, 0x10, 0x11, 3600, [], false, false, none⟩

/-- A frame of a host with its mac1 tag. -/
def toyFrame (mac : Arr 6) (body : Bytes) : Bytes :=
  buildFrame bcastMac mac 0 ipv69BcastAddr ipv69NextControl 64 0 0
    (body ++ (mac1Compute toy (mac1Key toy ipv69BcastAddr) body).val)

def toyDiscover (x : UInt8) : Bytes := toyFrame (toyMac x) (ctrlDhcpDiscover :: (toyMac x).val)

/-- Hosts 2 and 1 lease the two addresses and go. Host 3 gets the address of host 1 in the
slot of host 2; host 1 returns and renews its own. -/
theorem lapsed_lease_shared :
    ¬ Throughout (step toy) Server.Unique (start toyPool .empty 0)
      [.recv (toyDiscover 2), .recv (toyDiscover 1), .wait 3600000, .recv (toyDiscover 3), .recv (toyDiscover 1)] := by
  intro hall
  have hlast := (throughout_iff _ _ _ _).mp hall 5
  rw [List.take_of_length_le (by decide)] at hlast
  generalize hs : run (step toy) (start toyPool .empty 0)
    [.recv (toyDiscover 2), .recv (toyDiscover 1), .wait 3600000, .recv (toyDiscover 3), .recv (toyDiscover 1)] = s
    at hlast
  have hthird : s.leases[0]? = some ⟨toyMac 3, 0x11, 7200, true, .zero 32⟩ := by
    rw [← hs]
    decide +kernel
  have hfirst : s.leases[1]? = some ⟨toyMac 1, 0x11, 7200, true, .zero 32⟩ := by
    rw [← hs]
    decide +kernel
  have hnow : s.time = 3600 := by
    rw [← hs]
    decide +kernel
  have hsame := hlast.addrs 0x11 0 1 _ _ hthird hfirst ⟨rfl, by rw [hnow]; decide, rfl⟩
    ⟨rfl, by rw [hnow]; decide, rfl⟩
  cases hsame

end Dhcp
