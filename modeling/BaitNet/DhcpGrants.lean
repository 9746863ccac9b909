import BaitNet.DhcpLeases

/-!
# Whose range is granted

The signature of a message is checked under the key in its last bytes, the range of a
REQUEST under the key behind its address. The two are one key in a message of the
documented length. A lease is found by its MAC alone, whichever key it was granted to.
-/
namespace Dhcp

open Wire Link Crypto Tables
open Gw (ipv69AddrInRange)

variable (c : TweetNaCl)

/-- Where the trailer of key and signature begins; the mac1 tag stands behind it. -/
def bodyLen (buf : Bytes) : Nat := buf.length - mac1Len - pubLen - sigLen

/-- The key under which the signature of a message is verified. -/
def verifiedKey (buf : Bytes) : Arr 32 := arr buf (bodyLen buf) 32

/-- The key whose ranges a REQUEST is granted from. -/
def rangeKey (buf : Bytes) : Arr 32 := arr buf 12 32

def signatureValid (buf : Bytes) : Bool :=
  ed25519Verify c (slice buf 0 (bodyLen buf)) (arr buf (bodyLen buf + pubLen) 64) (verifiedKey buf)

namespace Server

/-- The address lies in a range of `key`. -/
def owns (s : Server) (key : Arr 32) (a : UInt64) : Bool :=
  s.peers.entries.any fun p => p.pub = key && ipv69AddrInRange a p.base p.prefixLen

/-- An address from the pool is one that the search of `lease_alloc` comes by and that the
sender holds or is found there now. -/
def FromPool (s : Server) (buf : Bytes) (a : UInt64) : Prop :=
  a = s.offerAddr (msgMac buf) s.time ∧ PoolAddr s.cfg a

/-- An address that is not from the pool goes to the key that signed for it, and unless it
is the sender's already, by the range of that very key. -/
structure Authorised (s : Server) (buf : Bytes) (a : UInt64) : Prop where
  signed : signatureValid c buf = true
  owned : s.owns (verifiedKey buf) a = true
  decided : a ≠ s.offerAddr (msgMac buf) s.time → rangeKey buf = verifiedKey buf

/-- A DISCOVER or REQUEST for a lease outside the pool that the key has no right to: the
lease of the MAC was granted to another key. -/
def BorrowsLease (s : Server) (buf : Bytes) : Prop :=
  ∃ l, s.leaseAt (msgMac buf) = some l ∧ ¬ PoolAddr s.cfg l.addr ∧ s.owns (verifiedKey buf) l.addr = false ∧
    (byteAt buf 0 = ctrlDhcpDiscover ∨ byteAt buf 0 = ctrlDhcpRequest ∧ get40 buf 7 = l.addr)

/-- A REQUEST for a free address in the range of a key that did not sign it, from a MAC that
has a lease or can be given one, at another address. -/
structure BorrowsRange (s : Server) (buf : Bytes) : Prop where
  request : byteAt buf 0 = ctrlDhcpRequest
  served : (s.leaseAlloc (msgMac buf) s.time).2 = true
  elsewhere : get40 buf 7 ≠ s.offerAddr (msgMac buf) s.time
  free : s.moves buf = true
  other : rangeKey buf ≠ verifiedKey buf

theorem checkMsg_signed {s : Server} {buf : Bytes} {mac : Arr 6} (hauth : s.cfg.authEnabled = true)
    (h : (s.checkMsg c buf (buf.length - mac1Len) mac).2 = true) : signatureValid c buf = true := by
  have hbody : buf.length - mac1Len - pubLen - sigLen = bodyLen buf := rfl
  rw [checkMsg, hauth, hbody] at h
  simp only [Bool.not_true, Bool.false_eq_true, if_false] at h
  split at h
  · cases h
  split at h
  · exact h
  split at h
  · rename_i hlearn
    rw [Bool.and_eq_true] at hlearn
    exact hlearn.2
  · cases h

theorem vet_signed {s : Server} {dst : UInt64} {buf : Bytes} (hauth : s.cfg.authEnabled = true)
    (h : (s.vet c dst buf).2 = true) : signatureValid c buf = true := by
  rw [vet] at h
  dsimp only at h
  split at h
  · cases h
  split at h
  · cases h
  revert h
  cases rateAllow s.rate s.nowMs (pad 8 (msgMac buf).val) 10 20 1 with
  | mk rate allowed =>
    intro h
    dsimp only at h
    split at h
    · cases h
    split at h
    · cases h
    · exact checkMsg_signed (s := { s with rate := rate }) c hauth h

theorem admitted_signed {s s' : Server} {frame buf : Bytes} (hauth : s.cfg.authEnabled = true)
    (h : s.admitted c frame = some (s', buf)) : signatureValid c buf = true := by
  obtain ⟨dst, -, hvet⟩ := admitted_elim c h
  exact vet_signed c hauth (congrArg Prod.snd hvet)

/-- In a REQUEST of 12 bytes and its trailer both keys are one. -/
theorem rangeKey_regular {buf : Bytes} (h : buf.length = 12 + pubLen + sigLen + mac1Len) :
    rangeKey buf = verifiedKey buf := by
  rw [rangeKey, verifiedKey, bodyLen, h]
  rfl

theorem inRange_owns {s : Server} {buf : Bytes} {a : UInt64} (h : s.inRange buf a = true) :
    s.owns (rangeKey buf) a = true := by
  rw [inRange, Bool.and_eq_true] at h
  exact h.2

theorem not_borrowsLease_new {s : Server} {buf : Bytes} (h : s.leaseFind (msgMac buf) = none) :
    ¬ s.BorrowsLease buf := by
  rintro ⟨l, hl, -⟩
  rw [leaseAt_none h] at hl
  cases hl

/-- What is free beside the sender's lease was free before it was renewed or written. -/
theorem Obtains.free {s : Server} {buf : Bytes} {i : Nat} {l l₁ : Lease}
    (h : s.Obtains (msgMac buf) s.time i l l₁) (helse : get40 buf 7 ≠ l₁.addr)
    (hmoves : moves { s with leases := s.leases.set i l₁ } buf = true) : s.moves buf = true := by
  rw [moves, Bool.and_eq_true, Bool.not_eq_true'] at hmoves
  have hothers := others_taken hmoves.2
  rw [moves, Bool.and_eq_true, Bool.not_eq_true']
  refine ⟨hmoves.1, ?_⟩
  rw [← Bool.not_eq_true, taken_iff]
  rintro ⟨j, y, hj, hused, hlive, haddr⟩
  have hji := hothers j y hj hused hlive haddr
  subst hji
  cases h with
  | renewed hl =>
    rw [hl.slot] at hj
    obtain rfl := Option.some.inj hj
    exact helse haddr.symm
  | fresh a hnone hslot hfree hsearch ha =>
    rw [hslot] at hj
    obtain rfl := Option.some.inj hj
    cases hfree with
    | inl hunused =>
      rw [hused] at hunused
      cases hunused
    | inr hlapsed => omega

variable {c}

/-- The sender's own address, offered or confirmed, is authorised unless the lease was
borrowed. -/
theorem Obtains.authorised_iff {s : Server} {buf : Bytes} {i : Nat} {l l₁ : Lease} (hsig : signatureValid c buf = true)
    (h : s.Obtains (msgMac buf) s.time i l l₁)
    (hkind : byteAt buf 0 = ctrlDhcpDiscover ∨ byteAt buf 0 = ctrlDhcpRequest ∧ get40 buf 7 = l₁.addr) :
    (¬ s.FromPool buf l₁.addr → s.Authorised c buf l₁.addr) ↔ ¬ s.BorrowsLease buf := by
  have hown := h.offerAddr
  cases h with
  | fresh a hnone =>
    rw [FromPool, ← hown]
    exact ⟨fun _ => not_borrowsLease_new hnone, fun _ hout => absurd ⟨rfl, offerAddr_pool _ hnone⟩ hout⟩
  | renewed hl =>
    change (¬ s.FromPool buf l.addr → s.Authorised c buf l.addr) ↔ _
    constructor
    · rintro hauth ⟨x, hx, hout, hnot, -⟩
      rw [hl.leaseAt] at hx
      obtain rfl := Option.some.inj hx
      have howned := (hauth fun hpool => hout hpool.2).owned
      rw [hnot] at howned
      cases howned
    · intro hno hout
      refine ⟨hsig, ?_, fun helse => absurd (hl.offerAddr s.time).symm helse⟩
      by_contra hnot
      have houtside : ¬ PoolAddr s.cfg l.addr := fun hpool => hout ⟨(hl.offerAddr s.time).symm, hpool⟩
      exact hno ⟨l, hl.leaseAt, houtside, Bool.eq_false_iff.mpr hnot, hkind⟩

/-- The grants of an answered message are authorised unless the message borrows. -/
theorem Answered.authorised_iff {s : Server} {buf : Bytes} {res : Server × List Grant}
    (hsig : signatureValid c buf = true) (h : s.Answered c buf res) :
    (∀ g ∈ res.2, ¬ s.FromPool buf g.addr → s.Authorised c buf g.addr) ↔
      ¬ s.BorrowsLease buf ∧ ¬ s.BorrowsRange buf := by
  have htypes : ctrlDhcpDiscover ≠ ctrlDhcpRequest := by decide
  cases h with
  | refused hnone hfull =>
    refine ⟨fun _ => ⟨not_borrowsLease_new hnone, fun hb => ?_⟩, fun _ g hg => nomatch hg⟩
    have hserved := hb.served
    rw [hfull] at hserved
    cases hserved
  | offered i l l₁ key hty hob hgot =>
    have hnorange : ¬ s.BorrowsRange buf := fun hb => htypes (hty.symm.trans hb.request)
    simp only [List.mem_singleton, forall_eq, hnorange, not_false_eq_true, and_true]
    exact hob.authorised_iff hsig (.inl hty)
  | denied i l l₁ hty hob hgot hno hne =>
    have hstays := not_moves_renewed hno hne
    refine ⟨fun _ => ⟨?_, fun hb => ?_⟩, fun _ g hg => nomatch hg⟩
    · rintro ⟨x, hx, -, -, hkind⟩
      have hown := hob.offerAddr
      rw [offerAddr, hx] at hown
      cases hkind with
      | inl hdiscover => exact htypes (hdiscover.symm.trans hty)
      | inr hrequest => exact hne (hrequest.2.trans hown)
    · have hfree := hb.free
      rw [hstays] at hfree
      cases hfree
  | confirmed i l l₁ key hty hob hgot hyes =>
    simp only [List.mem_singleton, forall_eq]
    change (¬ s.FromPool buf (get40 buf 7) → s.Authorised c buf (get40 buf 7)) ↔ _
    by_cases hsame : get40 buf 7 = l₁.addr
    · have hnorange : ¬ s.BorrowsRange buf := fun hb => hb.elsewhere (hsame.trans hob.offerAddr.symm)
      simp only [hnorange, not_false_eq_true, and_true]
      rw [hsame]
      exact hob.authorised_iff hsig (.inr ⟨hty, hsame⟩)
    · have hnolease : ¬ s.BorrowsLease buf := by
        rintro ⟨x, hx, -, -, hkind⟩
        have hown := hob.offerAddr
        rw [offerAddr, hx] at hown
        cases hkind with
        | inl hdiscover => exact htypes (hdiscover.symm.trans hty)
        | inr hrequest => exact hsame (hrequest.2.trans hown)
      simp only [hnolease, not_false_eq_true, true_and]
      have helse : get40 buf 7 ≠ s.offerAddr (msgMac buf) s.time := fun heq => hsame (heq.trans hob.offerAddr)
      constructor
      · intro hauth hb
        exact hb.other ((hauth fun hpool => helse hpool.1).decided helse)
      · intro hno _
        have hfree := hob.free hsame (hyes.resolve_right hsame)
        have hkeys : rangeKey buf = verifiedKey buf := by
          by_contra hother
          exact hno ⟨hty, hgot, helse, hfree, hother⟩
        rw [moves, Bool.and_eq_true] at hfree
        refine ⟨hsig, ?_, fun _ => hkeys⟩
        rw [← hkeys]
        exact inRange_owns hfree.1

end Server

/-- The grants that a received frame leads to are the sender's by right. -/
def GrantsAuthorised (s : Server) (frame : Bytes) : Prop :=
  ∀ s' buf, s.admitted c frame = some (s', buf) → ∀ g ∈ (s.handle c frame).2,
    ¬ s'.FromPool buf g.addr → s'.Authorised c buf g.addr

/-- With authentication, what is granted from outside the pool is authorised exactly when
the message asks neither for the lease of another key nor for the range of one. -/
theorem grants_authorised_iff (s : Server) (frame : Bytes) (hauth : s.cfg.authEnabled = true) :
    GrantsAuthorised c s frame ↔
      ∀ s' buf, s.admitted c frame = some (s', buf) → ¬ s'.BorrowsLease buf ∧ ¬ s'.BorrowsRange buf := by
  rw [GrantsAuthorised]
  refine forall_congr' fun s' => forall_congr' fun buf => imp_congr_right fun hadm => ?_
  have hsig := s.admitted_signed c hauth hadm
  obtain ⟨heq, ⟨rate, peers, rfl⟩, hty⟩ := s.handle_admitted c hadm
  rw [heq, Server.dispatch]
  split
  · rename_i hdiscover
    exact (Server.discover_answered c _ buf hdiscover).authorised_iff hsig
  split
  · rename_i hrequest
    exact (Server.request_answered c _ buf hrequest).authorised_iff hsig
  · rename_i hdiscover hrequest
    refine ⟨fun _ => ⟨?_, fun hb => hrequest hb.request⟩, fun _ g hg => by cases hg⟩
    rintro ⟨l, hl, hout, hnot, hkind⟩
    cases hkind with
    | inl h => exact hdiscover h
    | inr h => exact hrequest h.1

def toyPub (x : UInt8) : Arr 32 := .fill 32 x

/-- A server that knows key 7 with all of `81` and key 9 with one address. -/
def toyPeers : Table maxPeers PeerEntry := ⟨[⟨toyPub 7, 0x8100000000, 8⟩, ⟨toyPub 9, 0x9000000000, 40⟩], by decide⟩

def toyGuarded : Server := start { toyPool with authEnabled := true } toyPeers 0

/-- A REQUEST for `a` that names key `x` behind the address and is signed by key `y`. -/
def toyRequest (a : UInt64) (named : Bytes) (y : UInt8) : Bytes :=
  let body := ctrlDhcpRequest :: ((toyMac 9).val ++ put40 a ++ named)
  toyFrame (toyMac 9) (body ++ (toyPub y).val ++ (toy.sign body (toyPub y)).val)

/-- Key 9 asks for its own address. -/
theorem grants_authorised_own : GrantsAuthorised toy toyGuarded (toyRequest 0x9000000000 [] 9) := by
  have hadm : (toyGuarded.admitted toy (toyRequest 0x9000000000 [] 9)).all fun m =>
      decide (rangeKey m.2 = verifiedKey m.2) && (m.1.leaseAt (Server.msgMac m.2)).isNone := by decide +kernel
  refine (grants_authorised_iff toy toyGuarded _ rfl).mpr fun s' buf hsome => ?_
  rw [hsome] at hadm
  obtain ⟨hkeys, hnone⟩ := Bool.and_eq_true_iff.mp hadm
  refine ⟨?_, fun hb => hb.other (of_decide_eq_true hkeys)⟩
  rintro ⟨l, hl, -⟩
  rw [hl] at hnone
  cases hnone

/-- Key 9 signs a REQUEST that carries key 7 behind the address, and gets an address from
the range of key 7. -/
theorem request_borrows_range : ¬ GrantsAuthorised toy toyGuarded (toyRequest 0x8100000005 (toyPub 7).val 9) := by
  intro hauth
  have hgrants : (toyGuarded.handle toy (toyRequest 0x8100000005 (toyPub 7).val 9)).2.map Grant.addr =
      [0x8100000005] := by decide +kernel
  have hadm : (toyGuarded.admitted toy (toyRequest 0x8100000005 (toyPub 7).val 9)).any fun m =>
      !m.1.owns (verifiedKey m.2) 0x8100000005 &&
        decide (0x8100000005 ≠ m.1.offerAddr (Server.msgMac m.2) m.1.time) := by decide +kernel
  obtain ⟨m, hsome, hm⟩ := (Option.any_eq_true _ _).mp hadm
  obtain ⟨hnot, helse⟩ := Bool.and_eq_true_iff.mp hm
  obtain ⟨g, hg, haddr⟩ := List.mem_map.mp (hgrants ▸ List.mem_singleton_self (0x8100000005 : UInt64))
  have hout : ¬ m.1.FromPool m.2 g.addr := by
    intro hpool
    rw [haddr] at hpool
    exact of_decide_eq_true helse hpool.1
  have howned := (hauth m.1 m.2 hsome g hg hout).owned
  rw [haddr] at howned
  rw [howned] at hnot
  cases hnot

end Dhcp
