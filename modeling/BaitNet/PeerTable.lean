import BaitNet.Cryptokey

/-!
# The table of the peers

What `peer_learn_auth` leaves in `peers[]`. A refresh keeps the MAC that the entry was made with, so the
entry holds what was given only if the peer has not changed its MAC.
-/
namespace Gw

open Wire Crypto Tables

namespace Gateway

/-- `peer_learn_auth` with the slot of the entry that it returns. -/
def peerLearnEntry (g : Gateway) (addr : UInt64) (mac : Arr 6) (ep : Option SockAddr) (key : Arr 32)
    (prefixLen : Nat) : Gateway × Option Nat :=
  match g.peers.findIdx? fun p => p.used && p.key = key with
  | some i =>
    ({ g with peers := g.peers.modify i fun p =>
        { p with addr := addr, prefixLen := prefixLen % 256, ep := ep, last := g.time } }, some i)
  | none =>
    match g.allow mac.val 5 10 with
    | (g, false) => (g, none)
    | (g, true) =>
      match g.peers.findIdx? fun p => !p.used || peerTimeout < g.time - p.last with
      | none => (g, none)
      | some i =>
        ({ g with
            peers := g.peers.set i ⟨addr, prefixLen % 256, mac, key, ep, g.time⟩
            routesDirty := true }, some i)

theorem peerLearnAuth_entry (g : Gateway) (addr : UInt64) (mac : Arr 6) (ep : Option SockAddr) (key : Arr 32)
    (prefixLen : Nat) :
    g.peerLearnAuth addr mac ep key prefixLen =
      ((g.peerLearnEntry addr mac ep key prefixLen).1, (g.peerLearnEntry addr mac ep key prefixLen).2.isSome) := by
  unfold peerLearnAuth peerLearnEntry
  cases g.peers.findIdx? fun p => p.used && p.key = key with
  | some i => rfl
  | none =>
    rcases g.allow mac.val 5 10 with ⟨g', ok⟩
    cases ok with
    | false => rfl
    | true =>
      simp only
      cases g'.peers.findIdx? fun p => !p.used || peerTimeout < g'.time - p.last with
      | none => rfl
      | some i => rfl

/-- The key has an entry, or the rate limiter and the table have room for a new one. -/
def hasPlace (g : Gateway) (mac : Arr 6) (key : Arr 32) : Prop :=
  (∃ p ∈ g.peers, p.used = true ∧ p.key = key) ∨ (g.allow mac.val 5 10).2 = true ∧ ∃ p ∈ g.peers, ¬ g.live p

end Gateway

/-- The slot `i` holds `new`, which is the only used entry of its key, and no other unexpired entry has
changed. -/
structure Recorded (g : Gateway) (new : Peer) (peers : List Peer) (i : Nat) : Prop where
  entry : peers[i]? = some new
  only : ∀ j p, peers[j]? = some p → (p.used = true ∧ p.key = new.key ↔ j = i)
  others : ∀ j p, g.peers[j]? = some p → g.live p → j ≠ i ∨ p.key ≠ new.key → peers[j]? = some p

/-- The table is right after `peer_learn_auth`. -/
def RightlyLearnt (g : Gateway) (addr : UInt64) (mac : Arr 6) (ep : Option SockAddr) (key : Arr 32)
    (prefixLen : Nat) : Prop :=
  match g.peerLearnEntry addr mac ep key prefixLen with
  | (g', some i) => Recorded g ⟨addr, prefixLen, mac, key, ep, g.time⟩ g'.peers i
  | (g', none) => g'.peers = g.peers

/-- The keys of the used entries differ. -/
def OnePerKey (peers : List Peer) : Prop := ∀ key, AtMostOne (fun p : Peer => p.used = true ∧ p.key = key) peers

theorem find_key_some {g : Gateway} {key : Arr 32} {i : Nat}
    (h : g.peers.findIdx? (fun p => p.used && p.key = key) = some i) :
    ∃ p, g.peers[i]? = some p ∧ p.used = true ∧ p.key = key := by
  obtain ⟨hi, hp, -⟩ := List.findIdx?_eq_some_iff_getElem.mp h
  rw [Bool.and_eq_true, decide_eq_true_eq] at hp
  exact ⟨_, List.getElem?_eq_getElem hi, hp⟩

theorem find_key_none {g : Gateway} {key : Arr 32}
    (h : g.peers.findIdx? (fun p => p.used && p.key = key) = none) :
    ∀ p ∈ g.peers, p.used = true → p.key ≠ key := by
  intro p hp hused heq
  have hp := List.findIdx?_eq_none_iff.mp h p hp
  rw [hused, heq, decide_eq_true rfl] at hp
  cases hp

theorem free_iff {g : Gateway} {p : Peer} : (!p.used || decide (peerTimeout < g.time - p.last)) = true ↔ ¬ g.live p := by
  rw [Bool.or_eq_true, Bool.not_eq_true', decide_eq_true_eq, Gateway.live, not_and_or, Bool.not_eq_true, Nat.not_le]

/-- Writing a slot is right where what is stored is what was given, and used. -/
theorem recorded_set_iff {g : Gateway} {i : Nat} {old new stored : Peer} (hold : g.peers[i]? = some old)
    (hkey : ∀ j p, g.peers[j]? = some p → p.used = true → p.key = new.key → j = i)
    (hfree : g.live old → old.key = new.key) :
    Recorded g new (g.peers.set i stored) i ↔ stored = new ∧ new.addr ≠ 0 := by
  have hi := (List.getElem?_eq_some_iff.mp hold).1
  constructor
  · intro h
    have hentry := h.entry
    rw [List.getElem?_set_self hi] at hentry
    have hused : new.used = true := ((h.only i new h.entry).mpr rfl).1
    exact ⟨Option.some.inj hentry, of_decide_eq_true hused⟩
  · rintro ⟨rfl, haddr⟩
    refine ⟨List.getElem?_set_self hi, fun j p hp => ⟨fun ⟨hpu, hpk⟩ => ?_, ?_⟩, fun j p hp hlive hne => ?_⟩
    · cases getElem?_set_elim hp with
      | inl hj => exact hj.1
      | inr hj => exact hkey j p hj.2 hpu hpk
    · rintro rfl
      rw [List.getElem?_set_self hi] at hp
      obtain rfl := Option.some.inj hp
      exact ⟨decide_eq_true haddr, rfl⟩
    · have hji : i ≠ j := by
        rintro rfl
        rw [hold] at hp
        obtain rfl := Option.some.inj hp
        exact hne.elim (fun h => h rfl) fun h => h (hfree hlive)
      rw [List.getElem?_set_ne hji, hp]

/-- From a table with one entry a key, `peer_learn_auth` does what it should exactly where the key's entry, if it
has one, holds the MAC that is given, and what is stored can be: an address that is not 0 and a prefix of
one byte. -/
theorem rightlyLearnt_iff (g : Gateway) (addr : UInt64) (mac : Arr 6) (ep : Option SockAddr) (key : Arr 32)
    (prefixLen : Nat) (h : OnePerKey g.peers) :
    RightlyLearnt g addr mac ep key prefixLen ↔
      (g.hasPlace mac key → addr ≠ 0 ∧ prefixLen < 256) ∧
        ∀ p ∈ g.peers, p.used = true → p.key = key → p.mac = mac := by
  rw [RightlyLearnt, Gateway.peerLearnEntry]
  cases hfind : g.peers.findIdx? fun p => p.used && p.key = key with
  | some i =>
    obtain ⟨p, hp, hused, hkey⟩ := find_key_some hfind
    have hplace : g.hasPlace mac key := .inl ⟨p, List.mem_of_getElem? hp, hused, hkey⟩
    have honly : ∀ j p', g.peers[j]? = some p' → p'.used = true → p'.key = key → j = i :=
      fun j p' hj hused' hkey' => h key j i p' p hj hp ⟨hused', hkey'⟩ ⟨hused, hkey⟩
    simp only [modify_eq_set hp]
    rw [recorded_set_iff hp honly fun _ => hkey]
    constructor
    · rintro ⟨hstored, haddr⟩
      have hprefix : prefixLen % 256 = prefixLen := congrArg Peer.prefixLen hstored
      refine ⟨fun _ => ⟨haddr, by omega⟩, fun p' hp' hused' hkey' => ?_⟩
      obtain ⟨j, hj⟩ := List.getElem?_of_mem hp'
      obtain rfl := honly j p' hj hused' hkey'
      rw [hp] at hj
      obtain rfl := Option.some.inj hj
      exact congrArg Peer.mac hstored
    · rintro ⟨hgiven, hmac⟩
      obtain ⟨haddr, hprefix⟩ := hgiven hplace
      refine ⟨?_, haddr⟩
      rw [Nat.mod_eq_of_lt hprefix, hmac p (List.mem_of_getElem? hp) hused hkey, hkey]
  | none =>
    have hnew := find_key_none hfind
    have hmac : ∀ p ∈ g.peers, p.used = true → p.key = key → p.mac = mac :=
      fun p hp hused hkey => absurd hkey (hnew p hp hused)
    rcases hallow : g.allow mac.val 5 10 with ⟨g', ok⟩
    obtain ⟨rate, rfl⟩ := allow_state hallow
    cases ok with
    | false =>
      have hno : ¬ g.hasPlace mac key := by
        rintro (⟨p, hp, hused, hkey⟩ | ⟨hok, -⟩)
        · exact hnew p hp hused hkey
        · rw [hallow] at hok
          cases hok
      exact ⟨fun _ => ⟨fun hplace => absurd hplace hno, hmac⟩, fun _ => rfl⟩
    | true =>
      have htime : ({ g with rate := rate } : Gateway).time = g.time := rfl
      simp only [htime]
      cases hfree : g.peers.findIdx? fun p => !p.used || peerTimeout < g.time - p.last with
      | none =>
        have hno : ¬ g.hasPlace mac key := by
          rintro (⟨p, hp, hused, hkey⟩ | ⟨-, p, hp, hlive⟩)
          · exact hnew p hp hused hkey
          · have hdead := List.findIdx?_eq_none_iff.mp hfree p hp
            rw [free_iff.mpr hlive] at hdead
            cases hdead
        exact ⟨fun _ => ⟨fun hplace => absurd hplace hno, hmac⟩, fun _ => rfl⟩
      | some i =>
        obtain ⟨hi, hdead, -⟩ := List.findIdx?_eq_some_iff_getElem.mp hfree
        have hold := List.getElem?_eq_getElem hi
        have hplace : g.hasPlace mac key :=
          .inr ⟨by rw [hallow], _, List.getElem_mem hi, free_iff.mp hdead⟩
        have honly : ∀ j p', g.peers[j]? = some p' → p'.used = true → p'.key = key → j = i :=
          fun j p' hj hused' hkey' => absurd hkey' (hnew p' (List.mem_of_getElem? hj) hused')
        change Recorded g _ (g.peers.set i ⟨addr, prefixLen % 256, mac, key, ep, g.time⟩) i ↔ _
        rw [recorded_set_iff hold honly fun hlive => absurd hlive (free_iff.mp hdead)]
        constructor
        · rintro ⟨hstored, haddr⟩
          have hprefix : prefixLen % 256 = prefixLen := congrArg Peer.prefixLen hstored
          exact ⟨fun _ => ⟨haddr, by omega⟩, hmac⟩
        · rintro ⟨hgiven, -⟩
          obtain ⟨haddr, hprefix⟩ := hgiven hplace
          rw [Nat.mod_eq_of_lt hprefix]
          exact ⟨rfl, haddr⟩

/-- A table with one peer. -/
def demoKnown : Gateway :=
  { demoStart with peers := ⟨5, 40, demoMac 1, demoKey 1, some (demoEp 1), 1⟩ :: List.replicate 255 noPeer }

theorem demoKnown_onePerKey : OnePerKey demoKnown.peers := by
  intro key i j p q hp hq hP hQ
  have hfirst : ∀ (k : ℕ) (r : Peer), demoKnown.peers[k]? = some r → r.used = true → k = 0 := by
    intro k r hr hused
    cases k with
    | zero => rfl
    | succ k =>
      have hr : (List.replicate 255 noPeer)[k]? = some r := hr
      obtain rfl := List.eq_of_mem_replicate (List.mem_of_getElem? hr)
      cases hused
  rw [hfirst i p hp hP.1, hfirst j q hq hQ.1]

theorem rightlyLearnt_moved : RightlyLearnt demoKnown 5 (demoMac 1) (some (demoEp 2)) (demoKey 1) 40 :=
  (rightlyLearnt_iff demoKnown 5 (demoMac 1) (some (demoEp 2)) (demoKey 1) 40 demoKnown_onePerKey).mpr
    ⟨fun _ => by decide, by decide +kernel⟩

/-- A peer that comes back with another MAC is still known by the old one. -/
theorem changed_mac_kept :
    OnePerKey demoKnown.peers ∧
      (demoKnown.peerLearnEntry 5 (demoMac 2) (some (demoEp 1)) (demoKey 1) 40).2 = some 0 ∧
      ((demoKnown.peerLearnEntry 5 (demoMac 2) (some (demoEp 1)) (demoKey 1) 40).1.peers[0]?.map Peer.mac =
        some (demoMac 1)) ∧
      ¬ RightlyLearnt demoKnown 5 (demoMac 2) (some (demoEp 1)) (demoKey 1) 40 := by
  have hslot : (demoKnown.peerLearnEntry 5 (demoMac 2) (some (demoEp 1)) (demoKey 1) 40).2 = some 0 := by decide +kernel
  have hmac : (demoKnown.peerLearnEntry 5 (demoMac 2) (some (demoEp 1)) (demoKey 1) 40).1.peers[0]?.map Peer.mac =
      some (demoMac 1) := by decide +kernel
  refine ⟨demoKnown_onePerKey, hslot, hmac, fun h => ?_⟩
  rw [RightlyLearnt] at h
  rcases hrun : demoKnown.peerLearnEntry 5 (demoMac 2) (some (demoEp 1)) (demoKey 1) 40 with ⟨g', o⟩
  rw [hrun] at h hslot hmac
  obtain rfl : o = some 0 := hslot
  have hentry := h.entry
  simp only [hentry, Option.map_some] at hmac
  exact absurd hmac (by decide)

end Gw
