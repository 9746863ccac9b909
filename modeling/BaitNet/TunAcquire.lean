import BaitNet.Tun

/-!
# What an acquisition does to the lease

`dhcp_acquire` writes the caller's lease when it takes an OFFER, and of the ACK it reads
only that it came.
-/
namespace Tun

open Wire Link Crypto Text
open Dhcp (ctrlDhcpOffer ctrlDhcpAck)

variable (c : TweetNaCl) (index : Bytes → Nat)

/-- A reply with the time at which it was received. -/
structure Taken where
  msg : Bytes
  now : Nat

/-- The lease that a reply states: address, lease time, and the time at which it ends. -/
def Taken.lease (r : Taken) : Lease := ⟨get40 r.msg 7, get32 r.msg 12, r.now + (get32 r.msg 12).toNat⟩

/-- What the wait for a reply ends with, and the receives behind. -/
def awaited : Reply × List Rx × Nat → Option (Taken × List Rx)
  | (.got msg now, rxs, _) => some (⟨msg, now⟩, rxs)
  | _ => none

/-- The OFFER that an acquisition takes, with the transport and the receives behind. -/
def offerTaken (t : Transport) (air : Air) : Option (Transport × Taken × List Rx) :=
  match openTransport index t air with
  | none => none
  | some t =>
    if air.discoverSent then (awaited (await c t ctrlDhcpOffer air.rxs dhcpAttempts)).map fun r => (t, r) else none

/-- The ACK that it takes after the OFFER. -/
def ackTaken (t : Transport) (air : Air) : Option Taken :=
  match offerTaken c index t air with
  | none => none
  | some (t, _, rxs) =>
    if air.requestSent then (awaited (await c t ctrlDhcpAck rxs dhcpAttempts)).map Prod.fst else none

/-- What an acquisition comes to, by the replies that it takes. -/
inductive Outcome (l : Lease) : Option Taken → Option Taken → Acquired → Prop
  | noOffer (t : Transport) (sent : List Bytes) : Outcome l none none ⟨t, l, sent, none, none, false⟩
  | noAck (t : Transport) (sent : List Bytes) (offer : Taken) :
      Outcome l (some offer) none ⟨t, offer.lease, sent, some offer.msg, none, false⟩
  | done (t : Transport) (sent : List Bytes) (offer ack : Taken) :
      Outcome l (some offer) (some ack)
        ⟨t, { offer.lease with expiry := ack.now + offer.lease.leaseSec.toNat }, sent, some offer.msg, some ack.msg, true⟩

theorem dhcpRequest_outcome (t : Transport) (l : Lease) (sent : List Bytes) (offer : Taken) (air : Air) (rxs : List Rx) :
    Outcome l (some offer)
      (if air.requestSent then (awaited (await c t ctrlDhcpAck rxs dhcpAttempts)).map Prod.fst else none)
      (dhcpRequest c t offer.lease sent offer.msg air rxs) := by
  rw [dhcpRequest]
  cases air.requestSent with
  | false => exact .noAck t sent offer
  | true =>
    simp only [Bool.not_true, Bool.false_eq_true, if_false, if_true]
    obtain ⟨reply, rest, k⟩ := await c t ctrlDhcpAck rxs dhcpAttempts
    cases reply with
    | got msg now => exact .done t _ offer ⟨msg, now⟩
    | invalid => exact .noAck t _ offer
    | timeout => exact .noAck t _ offer

theorem dhcpAcquire_outcome (t : Transport) (l : Lease) (air : Air) :
    Outcome l ((offerTaken c index t air).map fun r => r.2.1) (ackTaken c index t air) (dhcpAcquire c index t l air) := by
  rw [ackTaken, offerTaken, dhcpAcquire]
  cases openTransport index t air with
  | none => exact .noOffer t []
  | some t₁ =>
    cases air.discoverSent with
    | false => exact .noOffer t₁ []
    | true =>
      simp only [Bool.not_true, Bool.false_eq_true, if_false, if_true]
      obtain ⟨reply, rest, k⟩ := await c t₁ ctrlDhcpOffer air.rxs dhcpAttempts
      cases reply with
      | got msg now => exact dhcpRequest_outcome c t₁ l _ ⟨msg, now⟩ air rest
      | invalid => exact .noOffer t₁ _
      | timeout => exact .noOffer t₁ _

/-- All or nothing: a failed acquisition leaves the lease as it was, a successful one fills it
in from its ACK. -/
def Atomic (t : Transport) (l : Lease) (air : Air) : Prop :=
  ((dhcpAcquire c index t l air).ok = false → (dhcpAcquire c index t l air).lease = l) ∧
    ((dhcpAcquire c index t l air).ok = true → ∃ ack, ackTaken c index t air = some ack ∧
      (dhcpAcquire c index t l air).ack = some ack.msg ∧ (dhcpAcquire c index t l air).lease.addr = ack.lease.addr ∧
      (dhcpAcquire c index t l air).lease.expiry = ack.lease.expiry)

/-- No OFFER is taken; or it states the lease that the caller has, and no ACK is taken; or the
ACK states the address and the lease time of the OFFER. -/
def Harmless (t : Transport) (l : Lease) (air : Air) : Prop :=
  match offerTaken c index t air, ackTaken c index t air with
  | none, _ => True
  | some (_, offer, _), none => offer.lease = l
  | some (_, offer, _), some ack =>
    get40 ack.msg 7 = get40 offer.msg 7 ∧ get32 ack.msg 12 = get32 offer.msg 12

/-- An acquisition is atomic exactly if it takes nothing from its OFFER that would be lost
without the ACK or that the ACK states otherwise. -/
theorem acquire_atomic_iff (t : Transport) (l : Lease) (air : Air) :
    Atomic c index t l air ↔ Harmless c index t l air := by
  have houtcome := dhcpAcquire_outcome c index t l air
  rw [Atomic, Harmless]
  generalize dhcpAcquire c index t l air = r at houtcome
  generalize ackTaken c index t air = ack at houtcome
  generalize offerTaken c index t air = offer at houtcome
  obtain _ | ⟨t₁, offer, rest⟩ := offer
  · cases houtcome with
    | noOffer t₁ sent => exact ⟨fun _ => trivial, fun _ => ⟨fun _ => rfl, fun hok => absurd hok Bool.false_ne_true⟩⟩
  · cases houtcome with
    | noAck t₂ sent _ => exact ⟨fun h => h.1 rfl, fun h => ⟨fun _ => h, fun hok => absurd hok Bool.false_ne_true⟩⟩
    | done t₂ sent _ ack =>
      constructor
      · intro h
        obtain ⟨ack', heq, -, haddr, hexpiry⟩ := h.2 rfl
        obtain rfl := Option.some.inj heq
        refine ⟨haddr.symm, ?_⟩
        rw [← UInt32.toNat_inj]
        exact (Nat.add_left_cancel hexpiry).symm
      · rintro ⟨haddr, hsec⟩
        refine ⟨fun hfail => absurd hfail.symm Bool.false_ne_true, fun _ => ⟨ack, rfl, rfl, haddr.symm, ?_⟩⟩
        change ack.now + (get32 offer.msg 12).toNat = ack.now + (get32 ack.msg 12).toNat
        rw [hsec]

/-- The renewal of the address 0x55, with the rogue OFFER of 0x66 and then nothing. -/
def toyRenewal : Transport × Lease × Air :=
  ({ Transport.zero with opened := true, ifindex := 1 }, ⟨0x55, 3600, 5000⟩,
    ⟨none, true, true, [⟨1400, some (rogueFrame ctrlDhcpOffer)⟩, ⟨1401, none⟩, ⟨1403, none⟩, ⟨1407, none⟩]⟩)

/-- The renewal fails and leaves the rogue's address in the lease. -/
theorem failed_renewal_writes : (dhcpAcquire toy (fun _ => 1) toyRenewal.1 toyRenewal.2.1 toyRenewal.2.2).ok = false ∧
    (dhcpAcquire toy (fun _ => 1) toyRenewal.1 toyRenewal.2.1 toyRenewal.2.2).lease = ⟨0x66, 60, 1460⟩ ∧
    ¬ Atomic toy (fun _ => 1) toyRenewal.1 toyRenewal.2.1 toyRenewal.2.2 := by
  have hok : (dhcpAcquire toy (fun _ => 1) toyRenewal.1 toyRenewal.2.1 toyRenewal.2.2).ok = false := by decide +kernel
  have hlease : (dhcpAcquire toy (fun _ => 1) toyRenewal.1 toyRenewal.2.1 toyRenewal.2.2).lease = ⟨0x66, 60, 1460⟩ := by
    decide +kernel
  refine ⟨hok, hlease, fun h => ?_⟩
  have hsame := h.1 hok
  rw [hlease] at hsame
  cases hsame

end Tun
