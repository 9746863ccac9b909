import BaitNet.GatewayRuns
import BaitNet.RateTable

/-!
# The throttle of the QUERYs

A QUERY is charged to the six bytes behind the twentieth of the receive buffer. Where the datagram is
shorter they are what earlier datagrams left there, so another sender chooses the bucket.
-/
namespace Gw

open Wire Link Crypto

namespace Gateway

/-- The identity that all rate checks of an input are for. -/
def identity (g : Gateway) : Input → Arr 8
  | .udp ep n =>
    if isQuery g.buf n then pad 8 (slice g.buf 20 6)
    else
      match g.linkOf (.udp ep n) with
      | some (_, l) => if isControl ctrlGwAnn 1 g.buf n then pad 8 l.pub.val else pad 8 (frameSrcMac g.buf).val
      | none => pad 8 (frameSrcMac g.buf).val
  | .l2 _ => pad 8 (frameSrcMac g.buf).val

/-- A step that makes some rate checks for the identity. -/
def Checks (id : Arr 8) (g g' : Gateway) : Prop := g'.clock = g.clock ∧ Checked g.nowMs id g.rate g'.rate

end Gateway

open Gateway

variable {c : TweetNaCl} {g : Gateway} {id : Arr 8}

theorem checks_same {g' : Gateway} (hclock : g'.clock = g.clock) (hrate : g'.rate = g.rate) : Checks id g g' := by
  refine ⟨hclock, ?_⟩
  rw [hrate]
  exact .unchecked g.rate

theorem Gateway.Checks.trans {g' g'' : Gateway} (h : Checks id g g') (h' : Checks id g' g'') : Checks id g g'' := by
  have hnow : g'.nowMs = g.nowMs := by rw [nowMs, h.1]; rfl
  exact ⟨h'.1.trans h.1, h.2.trans (hnow ▸ h'.2)⟩

theorem allow_checks (g : Gateway) (key : Bytes) (ratePerS burst : Nat) : Checks (pad 8 key) g (g.allow key ratePerS burst).1 :=
  ⟨rfl, .check g.rate _ ratePerS burst (.unchecked _)⟩

theorem peerLearnAuth_checks (g : Gateway) (addr : UInt64) (mac : Arr 6) (ep : Option SockAddr) (key : Arr 32)
    (prefixLen : Nat) : Checks (pad 8 mac.val) g (g.peerLearnAuth addr mac ep key prefixLen).1 := by
  rw [peerLearnAuth]
  split
  · exact checks_same rfl rfl
  · have hallow := allow_checks g mac.val 5 10
    rcases heq : g.allow mac.val 5 10 with ⟨g', ok⟩
    rw [heq] at hallow
    cases ok with
    | false => exact hallow
    | true =>
      simp only
      split
      · exact hallow
      · exact hallow.trans (checks_same rfl rfl)

theorem learnSigned_checks (g : Gateway) (mac : Arr 6) (ep : Option SockAddr) (msg : Bytes) (sig : Arr 64)
    (pub : Arr 32) (addr : UInt64) : Checks (pad 8 mac.val) g (g.learnSigned c mac ep msg sig pub addr).1 := by
  rw [learnSigned]
  have hallow := allow_checks g mac.val 10 20
  rcases heq : g.allow mac.val 10 20 with ⟨g', ok⟩
  rw [heq] at hallow
  cases ok with
  | false => exact hallow
  | true =>
    simp only
    split
    · exact hallow
    · split
      · exact hallow
      · exact hallow.trans (peerLearnAuth_checks g' addr mac ep pub 40)

theorem learn_checks (g : Gateway) (buf : Bytes) (n : Nat) (ep : Option SockAddr) :
    Checks (pad 8 (frameSrcMac buf).val) g (g.learn c buf n ep) := by
  rw [learn]
  split
  · rw [gwLearnInit]
    split
    · exact checks_same rfl rfl
    · split
      · exact checks_same rfl rfl
      · exact learnSigned_checks g _ _ _ _ _ _
  · split
    · rw [gwLearnAnnounce]
      split
      · exact checks_same rfl rfl
      · split
        · exact checks_same rfl rfl
        · exact learnSigned_checks g _ _ _ _ _ _
    · exact checks_same rfl rfl

theorem gwMeshQuery_rate (g : Gateway) (q : UInt64) (asker : SockAddr) :
    (g.gwMeshQuery q asker).1.clock = g.clock ∧ (g.gwMeshQuery q asker).1.rate = g.rate := by
  rw [gwMeshQuery]
  split
  · exact ⟨rfl, rfl⟩
  · split
    · exact ⟨rfl, rfl⟩
    · exact ⟨rfl, rfl⟩

/-- A QUERY is checked once. -/
theorem query_rate (g : Gateway) (ep : SockAddr) (buf : Bytes) :
    (g.query ep buf).1.clock = g.clock ∧
      (g.query ep buf).1.rate = (rateAllow g.rate g.nowMs (pad 8 (slice buf 20 6)) 20 40 1).1 := by
  rw [query]
  have hstate : (g.allow (slice buf 20 6) 20 40).1.clock = g.clock ∧ (g.allow (slice buf 20 6) 20 40).1.rate =
      (rateAllow g.rate g.nowMs (pad 8 (slice buf 20 6)) 20 40 1).1 := ⟨rfl, rfl⟩
  rcases heq : g.allow (slice buf 20 6) 20 40 with ⟨g', ok⟩
  rw [heq] at hstate
  cases ok with
  | false => exact hstate
  | true =>
    simp only
    split
    · exact hstate
    · split
      · split
        · exact hstate
        · exact hstate
      · split
        · exact hstate
        · exact hstate
      · split
        · exact hstate
        · obtain ⟨hclock, hrate⟩ := gwMeshQuery_rate g' (get40 buf 3) ep
          exact ⟨hclock.trans hstate.1, hrate.trans hstate.2⟩

theorem gwPendRelay_rate (g : Gateway) (p : Bytes) :
    (g.gwPendRelay p).1.clock = g.clock ∧ (g.gwPendRelay p).1.rate = g.rate := by
  rw [gwPendRelay]
  split
  · exact ⟨rfl, rfl⟩
  · exact ⟨rfl, rfl⟩

theorem gwMeshHandle_rate {g g' : Gateway} {buf : Bytes} {n : Nat} {outs : List Out}
    (h : g.gwMeshHandle buf n = some (g', outs)) : g'.clock = g.clock ∧ g'.rate = g.rate := by
  rw [gwMeshHandle] at h
  dsimp only at h
  split at h
  · cases h
  · split at h
    · split at h
      · obtain ⟨rfl, -⟩ := Prod.mk.inj (Option.some.inj h)
        exact ⟨rfl, rfl⟩
      · obtain ⟨rfl, -⟩ := Prod.mk.inj (Option.some.inj h)
        exact ⟨rfl, rfl⟩
    · split at h
      · split at h
        · obtain ⟨rfl, -⟩ := Prod.mk.inj (Option.some.inj h)
          exact ⟨rfl, rfl⟩
        · obtain ⟨rfl, -⟩ := Prod.mk.inj (Option.some.inj h)
          exact ⟨rfl, rfl⟩
      · split at h
        · have hrelay := gwPendRelay_rate g (framePayload buf)
          rwa [Option.some.inj h] at hrelay
        · cases h

/-- Of the control frames of a link only an announce is checked, under the link's key. -/
theorem gwFedHandle_checks {g g' : Gateway} {li : Nat} {l : GwLink} {buf : Bytes} {n : Nat} {outs : List Out}
    (h : g.gwFedHandle c li l buf n = some (g', outs)) :
    Checks (if isControl ctrlGwAnn 1 buf n then pad 8 l.pub.val else pad 8 (frameSrcMac buf).val) g g' := by
  rw [gwFedHandle] at h
  dsimp only at h
  split at h
  · cases h
  · rename_i hctl
    rw [not_or, not_not] at hctl
    split at h
    · rename_i hann
      obtain ⟨rfl, -⟩ := Prod.mk.inj (Option.some.inj h)
      rw [if_pos ⟨hctl.1, hann, by omega⟩, linkAuth]
      split
      · exact checks_same rfl rfl
      · have hallow := allow_checks g l.pub.val 10 20
        rcases heq : g.allow l.pub.val 10 20 with ⟨g', ok⟩
        rw [heq] at hallow
        cases ok with
        | false => exact hallow
        | true =>
          simp only
          split
          · exact hallow.trans (checks_same rfl rfl)
          · exact hallow
    · split at h
      · split at h
        · split at h
          · obtain ⟨rfl, -⟩ := Prod.mk.inj (Option.some.inj h)
            exact checks_same rfl rfl
          · obtain ⟨rfl, -⟩ := Prod.mk.inj (Option.some.inj h)
            exact checks_same rfl rfl
        · split at h
          · obtain ⟨rfl, -⟩ := Prod.mk.inj (Option.some.inj h)
            exact checks_same rfl rfl
          · obtain ⟨rfl, -⟩ := Prod.mk.inj (Option.some.inj h)
            exact checks_same rfl rfl
      · split at h
        · obtain ⟨hclock, hrate⟩ := gwPendRelay_rate g (framePayload buf)
          rw [Option.some.inj h] at hclock hrate
          exact checks_same hclock hrate
        · split at h
          · obtain ⟨rfl, -⟩ := Prod.mk.inj (Option.some.inj h)
            obtain ⟨routes, heq⟩ := routeLearn_state g (framePayload buf) li
            rw [heq]
            exact checks_same rfl rfl
          · cases h

theorem gwFedData_checks (g : Gateway) (li : Nat) (buf : Bytes) (n : Nat) :
    Checks (pad 8 (frameSrcMac buf).val) g (g.gwFedData li buf n).1 := by
  rw [gwFedData]
  split
  · exact checks_same rfl rfl
  · split
    · have hallow := allow_checks g (frameSrcMac buf).val 20 40
      rcases heq : g.allow (frameSrcMac buf).val 20 40 with ⟨g', ok⟩
      rw [heq] at hallow
      cases ok with
      | false => exact hallow
      | true => exact hallow
    · dsimp only
      split
      · exact checks_same rfl rfl
      · split
        · exact checks_same rfl rfl
        · split
          · exact checks_same rfl rfl
          · exact checks_same rfl rfl

theorem udpForward_checks (g : Gateway) (ep : SockAddr) (buf : Bytes) (n : Nat) :
    Checks (pad 8 (frameSrcMac buf).val) g (g.udpForward ep buf n).1 := by
  rw [udpForward]
  split
  · have hallow := allow_checks g (frameSrcMac buf).val 20 40
    rcases heq : g.allow (frameSrcMac buf).val 20 40 with ⟨g', ok⟩
    rw [heq] at hallow
    cases ok with
    | false => exact hallow
    | true => exact hallow
  · split
    · split
      · exact checks_same rfl rfl
      · exact checks_same rfl rfl
    · split
      · exact checks_same rfl rfl
      · split
        · exact checks_same rfl rfl
        · exact checks_same rfl rfl

theorem l2Forward_checks (g : Gateway) (buf : Bytes) (n : Nat) :
    Checks (pad 8 (frameSrcMac buf).val) g (g.l2Forward buf n).1 := by
  rw [l2Forward]
  split
  · have hallow := allow_checks g (frameSrcMac buf).val 20 40
    rcases heq : g.allow (frameSrcMac buf).val 20 40 with ⟨g', ok⟩
    rw [heq] at hallow
    cases ok with
    | false => exact hallow
    | true => exact hallow
  · split
    · exact checks_same rfl rfl
    · exact checks_same rfl rfl

theorem l2_checks (g : Gateway) (n : Nat) : Checks (pad 8 (frameSrcMac g.buf).val) g (g.l2 c g.buf n).1 := by
  rw [l2]
  split
  · exact checks_same rfl rfl
  · split
    · rename_i r hmesh
      obtain ⟨hclock, hrate⟩ := gwMeshHandle_rate hmesh
      exact checks_same hclock hrate
    · split
      · exact checks_same rfl rfl
      · simp only
        split
        · exact learn_checks g g.buf n none
        · exact (learn_checks g g.buf n none).trans (l2Forward_checks _ g.buf n)

/-- A frame that is not of a link. -/
theorem udp_checks {g : Gateway} {ep : SockAddr} {n : Nat} (hquery : ¬ isQuery g.buf n)
    (hlink : g.linkOf (.udp ep n) = none) : Checks (pad 8 (frameSrcMac g.buf).val) g (g.udp c ep g.buf n).1 := by
  rw [udp]
  simp only [if_neg hquery]
  split
  · exact checks_same rfl rfl
  · split
    · exact checks_same rfl rfl
    · rename_i heth
      rw [Bool.not_eq_true, Bool.not_eq_false'] at heth
      rw [linkOf, if_pos ⟨hquery, heth⟩] at hlink
      cases hli : g.gwLinkFind ep with
      | some li =>
        rw [hli, Option.bind_some, Option.map_eq_none_iff] at hlink
        simp only [hlink]
        exact checks_same rfl rfl
      | none =>
        have hlearn := @learn_checks c g g.buf n (some ep)
        simp only
        split
        · exact hlearn
        · split
          · exact hlearn
          · exact hlearn.trans (udpForward_checks _ ep g.buf n)

/-- All rate checks of an input are for its identity. -/
theorem handle_checks (g : Gateway) (i : Input) : Checks (g.identity i) g (g.handle c i).1 := by
  cases i with
  | l2 n => exact l2_checks g n
  | udp ep n =>
    by_cases hquery : isQuery g.buf n
    · rw [handle_query hquery, identity, if_pos hquery]
      obtain ⟨hclock, hrate⟩ := query_rate g ep g.buf
      refine ⟨hclock, ?_⟩
      rw [hrate]
      exact .check g.rate _ 20 40 (.unchecked _)
    · rw [identity, if_neg hquery]
      cases hlink : g.linkOf (.udp ep n) with
      | none => exact udp_checks hquery hlink
      | some x =>
        obtain ⟨li, l⟩ := x
        rw [handle_link hlink]
        simp only
        cases hfed : g.gwFedHandle c li l g.buf (Input.udp ep n).size with
        | some r => exact gwFedHandle_checks hfed
        | none =>
          have hann : ¬ isControl ctrlGwAnn 1 g.buf n := fun hann => by
            have hctl : ¬ (frameNextHeader g.buf ≠ ipv69NextControl ∨ n - 14 - ipv69HeaderLen < 1) :=
              not_or.mpr ⟨not_not.mpr hann.1, Nat.not_lt.mpr hann.2.2⟩
            rw [gwFedHandle, Input.size, if_neg hctl, if_pos hann.2.1] at hfed
            cases hfed
          rw [if_neg hann]
          exact gwFedData_checks g li g.buf n

/-- A QUERY of `X`: when it comes, and the datagram. -/
def queryOf (X : SockAddr) (x : Gateway × Input) : Option (ℕ × Bytes) :=
  match x.2 with
  | .udp ep n => if ep = X ∧ isQuery x.1.buf n then some (x.1.clock, x.1.buf.take n) else none
  | .l2 _ => none

def queriesOf (X : SockAddr) (hs : List (Gateway × Input)) : List (ℕ × Bytes) := hs.filterMap (queryOf X)

/-- Which of them the rate limiter admits. -/
def admittedOf (X : SockAddr) (hs : List (Gateway × Input)) : List Bool :=
  hs.filterMap fun x => (queryOf X x).map fun _ => (x.1.allow (slice x.1.buf 20 6) 20 40).2

/-- The identity whose bucket an input changes. -/
def charged (c : TweetNaCl) (x : Gateway × Input) : Option (Arr 8) :=
  if (x.1.handle c x.2).1.rate = x.1.rate then none else some (x.1.identity x.2)

def chargedIds (c : TweetNaCl) (hs : List (Gateway × Input)) : Finset (Arr 8) := (hs.filterMap (charged c)).toFinset

/-- The identity in a datagram that has it. -/
def askedId (q : ℕ × Bytes) : Arr 8 := pad 8 (slice q.2 20 6)

/-- One QUERY in a bucket of its own. -/
def queryStep (q : ℕ × Bytes) (b : Option RateBucket) : RateBucket × Bool :=
  bucketStep (.ofNat q.1) 20 40 1 (b.getD (newBucket (askedId q) (.ofNat q.1) 40))

/-- The bucket of an identity after these QUERYs. -/
def bucketAfter (id : Arr 8) (qs : List (ℕ × Bytes)) : Option RateBucket :=
  qs.foldl (fun b q => if askedId q = id then some (queryStep q b).1 else b) none

/-- The verdicts on the QUERYs `qs` behind `pre`. -/
def verdicts : List (ℕ × Bytes) → List (ℕ × Bytes) → List Bool
  | _, [] => []
  | pre, q :: qs => (queryStep q (bucketAfter (askedId q) pre)).2 :: verdicts (pre ++ [q]) qs

theorem verdicts_concat (pre qs : List (ℕ × Bytes)) (q : ℕ × Bytes) :
    verdicts pre (qs ++ [q]) = verdicts pre qs ++ [(queryStep q (bucketAfter (askedId q) (pre ++ qs))).2] := by
  induction qs generalizing pre with
  | nil => rw [List.append_nil]; rfl
  | cons r qs ih =>
    rw [List.cons_append, verdicts, ih, verdicts, List.append_assoc, List.singleton_append]
    rfl

theorem bucketAfter_concat (id : Arr 8) (qs : List (ℕ × Bytes)) (q : ℕ × Bytes) :
    bucketAfter id (qs ++ [q]) =
      if askedId q = id then some (queryStep q (bucketAfter id qs)).1 else bucketAfter id qs := by
  rw [bucketAfter, List.foldl_append]
  rfl

/-- Each QUERY of `X` has the bytes that it is charged to, and no other input changes their bucket. -/
structure OwnBuckets (c : TweetNaCl) (X : SockAddr) (hs : List (Gateway × Input)) : Prop where
  long : ∀ q ∈ queriesOf X hs, 26 ≤ q.2.length
  own : ∀ x ∈ hs, queryOf X x = none → ∀ q ∈ queriesOf X hs, charged c x ≠ some (askedId q)

instance (X : SockAddr) (hs : List (Gateway × Input)) : Decidable (OwnBuckets c X hs) :=
  decidable_of_iff ((∀ q ∈ queriesOf X hs, 26 ≤ q.2.length) ∧
      ∀ x ∈ hs, queryOf X x = none → ∀ q ∈ queriesOf X hs, charged c x ≠ some (askedId q))
    ⟨fun h => ⟨h.1, h.2⟩, fun h => ⟨h.long, h.own⟩⟩

/-- The table after the inputs `hs`: no bucket but those of what was charged, and where nobody else was
charged the bucket that the QUERYs make. -/
structure Tallied (c : TweetNaCl) (X : SockAddr) (hs : List (Gateway × Input)) (t : List RateBucket) : Prop where
  packed : ∃ ids, Packed t ids ∧ ∀ id ∈ ids, id ∈ chargedIds c hs
  length : t.length = rateSlots
  bucket : ∀ id, (∀ x ∈ hs, queryOf X x = none → charged c x ≠ some id) → bucketOf t id = bucketAfter id (queriesOf X hs)

theorem mem_chargedIds {hs : List (Gateway × Input)} {id : Arr 8} :
    id ∈ chargedIds c hs ↔ ∃ x ∈ hs, charged c x = some id := by
  rw [chargedIds, List.mem_toFinset, List.mem_filterMap]

theorem slice_take {b : Bytes} {i k n : ℕ} (h : i + k ≤ (b.take n).length) : slice (b.take n) i k = slice b i k := by
  have hlen := h
  rw [List.length_take] at hlen
  rw [slice, slice, List.takeD_eq_take _ (by rw [List.length_drop]; omega),
    List.takeD_eq_take _ (by rw [List.length_drop]; omega), List.drop_take, List.take_take, min_eq_left (by omega)]

theorem queryOf_some {X : SockAddr} {g : Gateway} {i : Input} {q : ℕ × Bytes} (h : queryOf X (g, i) = some q) :
    ∃ n, i = .udp X n ∧ isQuery g.buf n ∧ q = (g.clock, g.buf.take n) := by
  cases i with
  | l2 n => cases h
  | udp ep n =>
    simp only [queryOf] at h
    split at h
    · rename_i hq
      obtain ⟨rfl, hquery⟩ := hq
      exact ⟨n, rfl, hquery, (Option.some.inj h).symm⟩
    · cases h

/-- A long QUERY is charged to the identity in it. -/
theorem askedId_eq {X : SockAddr} {g : Gateway} {i : Input} {q : ℕ × Bytes} (h : queryOf X (g, i) = some q)
    (hlong : 26 ≤ q.2.length) : pad 8 (slice g.buf 20 6) = askedId q := by
  obtain ⟨n, rfl, hquery, rfl⟩ := queryOf_some h
  rw [askedId, slice_take hlong]

theorem Tallied.room {X : SockAddr} {hs : List (Gateway × Input)} {t : List RateBucket} (h : Tallied c X hs t)
    (hfew : (chargedIds c hs).card < rateSlots) {ids : List (Arr 8)} (hp : Packed t ids)
    (hids : ∀ id ∈ ids, id ∈ chargedIds c hs) : ids.length < t.length := by
  have hsub : ids.toFinset ⊆ chargedIds c hs := fun id hid => hids id (List.mem_toFinset.mp hid)
  have hcard := Finset.card_le_card hsub
  rw [List.toFinset_card_of_nodup hp.nodup] at hcard
  rw [h.length]
  omega

/-- What a QUERY of `X` makes of its bucket, and the verdict. -/
theorem Tallied.query {X : SockAddr} {hs : List (Gateway × Input)} {g : Gateway} (h : Tallied c X hs g.rate)
    (hfew : (chargedIds c hs).card < rateSlots) {i : Input} {q : ℕ × Bytes} (hq : queryOf X (g, i) = some q)
    (hlong : 26 ≤ q.2.length) :
    Charges g.nowMs 20 40 1 g.rate (askedId q) ((g.handle c i).1.rate, (g.allow (slice g.buf 20 6) 20 40).2) := by
  obtain ⟨ids, hp, hids⟩ := h.packed
  have hcharges := (rateAllow_charges hp (.inr (h.room hfew hp hids) : askedId q ∈ ids ∨ _) g.nowMs 20 40 1).1
  rw [← askedId_eq hq hlong] at hcharges ⊢
  obtain ⟨n, rfl, hquery, -⟩ := queryOf_some hq
  rw [handle_query hquery, (query_rate g X g.buf).2]
  exact hcharges

theorem queriesOf_concat (X : SockAddr) (hs : List (Gateway × Input)) (x : Gateway × Input) :
    queriesOf X (hs ++ [x]) = queriesOf X hs ++ (queryOf X x).toList := by
  rw [queriesOf, List.filterMap_append, List.filterMap_cons, List.filterMap_nil]
  cases queryOf X x with
  | none => rfl
  | some q => rfl

theorem Tallied.handle {X : SockAddr} {hs : List (Gateway × Input)} {g : Gateway} (h : Tallied c X hs g.rate)
    (hfew : (chargedIds c hs).card < rateSlots) (i : Input) (hlong : ∀ q, queryOf X (g, i) = some q → 26 ≤ q.2.length) :
    Tallied c X (hs ++ [(g, i)]) (g.handle c i).1.rate := by
  obtain ⟨ids, hp, hids⟩ := h.packed
  obtain ⟨ids', hp', hids', hlen, hother⟩ :=
    (@handle_checks c g i).2.packed hp (.inr (h.room hfew hp hids))
  have hcharged : (g.handle c i).1.rate ≠ g.rate → charged c (g, i) = some (g.identity i) := fun hne => if_neg hne
  refine ⟨⟨ids', hp', fun id hid => ?_⟩, hlen.trans h.length, fun id hid => ?_⟩
  · by_cases hknown : id ∈ ids
    · obtain ⟨x, hx, hxid⟩ := mem_chargedIds.mp (hids id hknown)
      exact mem_chargedIds.mpr ⟨x, List.mem_append_left _ hx, hxid⟩
    · obtain rfl : id = g.identity i := (hids' id hid).resolve_left hknown
      have hne : (g.handle c i).1.rate ≠ g.rate := fun heq => by
        rw [heq] at hp'
        rw [hp.ids_eq, ← hp'.ids_eq] at hknown
        exact hknown hid
      exact mem_chargedIds.mpr ⟨(g, i), List.mem_append_right _ (List.mem_singleton.mpr rfl), hcharged hne⟩
  · have hbucket := h.bucket id fun x hx => hid x (List.mem_append_left _ hx)
    have hthis := hid (g, i) (List.mem_append_right _ (List.mem_singleton.mpr rfl))
    rw [queriesOf_concat]
    cases hq : queryOf X (g, i) with
    | none =>
      rw [Option.toList_none, List.append_nil, ← hbucket]
      by_cases hsame : (g.handle c i).1.rate = g.rate
      · rw [hsame]
      · refine hother id fun heq => hthis hq ?_
        rw [heq]
        exact hcharged hsame
    | some q =>
      have hcharges := h.query hfew hq (hlong q hq)
      obtain ⟨n, -, -, rfl⟩ := queryOf_some hq
      rw [Option.toList_some, bucketAfter_concat, ← hbucket, hcharges.bucket id]
      by_cases heq : askedId (g.clock, g.buf.take n) = id
      · subst heq
        rw [if_pos rfl, if_pos rfl]
        rfl
      · rw [if_neg heq, if_neg fun h => heq h.symm]

theorem admittedOf_concat (X : SockAddr) (hs : List (Gateway × Input)) (x : Gateway × Input) :
    admittedOf X (hs ++ [x]) =
      admittedOf X hs ++ ((queryOf X x).map fun _ => (x.1.allow (slice x.1.buf 20 6) 20 40).2).toList := by
  rw [admittedOf, List.filterMap_append, List.filterMap_cons, List.filterMap_nil]
  cases queryOf X x with
  | none => rfl
  | some q => rfl

theorem OwnBuckets.prefix {X : SockAddr} {hs hs' : List (Gateway × Input)} (h : OwnBuckets c X (hs ++ hs')) :
    OwnBuckets c X hs := by
  have hqueries : ∀ q ∈ queriesOf X hs, q ∈ queriesOf X (hs ++ hs') := fun q hq => by
    rw [queriesOf, List.filterMap_append]
    exact List.mem_append_left _ hq
  exact ⟨fun q hq => h.long q (hqueries q hq),
    fun x hx hnone q hq => h.own x (List.mem_append_left _ hx) hnone q (hqueries q hq)⟩

/-- In a run in which the QUERYs of `X` have their buckets for themselves the verdicts depend on nothing
else. -/
theorem kept_verdicts (X : SockAddr) : Kept c fun hs g =>
    OwnBuckets c X hs → (chargedIds c hs).card < rateSlots →
      Tallied c X hs g.rate ∧ admittedOf X hs = verdicts [] (queriesOf X hs) where
  wait _ _ _ h := h
  housekeeping _ _ h := h
  recvInto _ _ _ h := h
  handle hs g i h hown hfew := by
    have hfew' : (chargedIds c hs).card < rateSlots := by
      refine lt_of_le_of_lt (Finset.card_le_card fun id hid => ?_) hfew
      obtain ⟨x, hx, hxid⟩ := mem_chargedIds.mp hid
      exact mem_chargedIds.mpr ⟨x, List.mem_append_left _ hx, hxid⟩
    obtain ⟨htally, hverdicts⟩ := h hown.prefix hfew'
    have hlong : ∀ q, queryOf X (g, i) = some q → 26 ≤ q.2.length := fun q hq => by
      refine hown.long q ?_
      rw [queriesOf_concat, hq]
      exact List.mem_append_right _ (List.mem_singleton.mpr rfl)
    refine ⟨htally.handle hfew' i hlong, ?_⟩
    rw [admittedOf_concat, queriesOf_concat, hverdicts]
    cases hq : queryOf X (g, i) with
    | none => rw [Option.map_none, Option.toList_none, List.append_nil, Option.toList_none, List.append_nil]
    | some q =>
      have hcharges := htally.query hfew' hq (hlong q hq)
      have hbucket := htally.bucket (askedId q) fun x hx hnone => by
        refine hown.own x (List.mem_append_left _ hx) hnone q ?_
        rw [queriesOf_concat, hq]
        exact List.mem_append_right _ (List.mem_singleton.mpr rfl)
      have hallowed := hcharges.allowed
      rw [hbucket] at hallowed
      obtain ⟨n, -, -, rfl⟩ := queryOf_some hq
      rw [Option.map_some, Option.toList_some, Option.toList_some, verdicts_concat, List.nil_append]
      exact congrArg (fun b => verdicts [] (queriesOf X hs) ++ [b]) hallowed

variable (c) in
/-- Two runs with the same QUERYs of `X` at the same times admit the same ones, as long as in both of them these have
their buckets for themselves. -/
theorem queries_throttled_alike (X : SockAddr) (cfg : Config) (links : List (SockAddr × Arr 32)) (stale stale' : Bytes)
    (rs rs' : List Round)
    (hfew : (chargedIds c ((start cfg links stale).history c rs)).card < rateSlots)
    (hfew' : (chargedIds c ((start cfg links stale').history c rs')).card < rateSlots)
    (hsame : queriesOf X ((start cfg links stale).history c rs) = queriesOf X ((start cfg links stale').history c rs'))
    (hown : OwnBuckets c X ((start cfg links stale).history c rs))
    (hown' : OwnBuckets c X ((start cfg links stale').history c rs')) :
    admittedOf X ((start cfg links stale).history c rs) = admittedOf X ((start cfg links stale').history c rs') := by
  have hstart : ∀ stale, OwnBuckets c X [] → (chargedIds c []).card < rateSlots →
      Tallied c X [] (start cfg links stale).rate ∧ admittedOf X [] = verdicts [] (queriesOf X []) := fun stale _ _ =>
    ⟨⟨⟨[], packed_rateInit, fun _ h => (nomatch h)⟩, rfl, fun id _ => rfl⟩, rfl⟩
  have hrun := (((@kept_verdicts c X).run rs (hstart stale)).1 hown hfew).2
  have hrun' := (((@kept_verdicts c X).run rs' (hstart stale')).1 hown' hfew').2
  exact hrun.trans ((congrArg (verdicts []) hsame).trans hrun'.symm)

/-- QUERYs of the first client, with this datagram of the second one behind the twentieth. -/
def demoAsks (size : ℕ) (other : Bytes) (n : ℕ) : List Round :=
  let ask := demoRound (demoEp 1) (ascii "Q69" ++ put40 0x8000000006 ++ List.replicate (size - 8) 0)
  List.replicate 20 ask ++ [demoRound (demoEp 2) other] ++ List.replicate n ask

def demoQueried (size : ℕ) (other : Bytes) (n : ℕ) : List (Gateway × Input) :=
  (start (demoConfig 0) [] []).history toy (demoAsks size other n)

theorem queries_throttled_alike_long :
    admittedOf (demoEp 1) (demoQueried 26 [] 2) = admittedOf (demoEp 1) (demoQueried 26 (List.replicate 26 7) 2) :=
  queries_throttled_alike toy (demoEp 1) (demoConfig 0) [] [] [] (demoAsks 26 [] 2) (demoAsks 26 (List.replicate 26 7) 2)
    (by decide +kernel) (by decide +kernel) (by decide +kernel) (by decide +kernel) (by decide +kernel)

/-- QUERYs of eight bytes: what another client sends in between gives the 41st a bucket of its own. -/
theorem short_query_admitted :
    queriesOf (demoEp 1) (demoQueried 8 (List.replicate 26 0) 21) =
        queriesOf (demoEp 1) (demoQueried 8 (List.replicate 26 7) 21) ∧
      (chargedIds toy (demoQueried 8 (List.replicate 26 0) 21)).card < rateSlots ∧
      (chargedIds toy (demoQueried 8 (List.replicate 26 7) 21)).card < rateSlots ∧
      admittedOf (demoEp 1) (demoQueried 8 (List.replicate 26 0) 21) = List.replicate 40 true ++ [false] ∧
      admittedOf (demoEp 1) (demoQueried 8 (List.replicate 26 7) 21) = List.replicate 41 true ∧
      admittedOf (demoEp 1) (demoQueried 8 (List.replicate 26 0) 21) ≠
        admittedOf (demoEp 1) (demoQueried 8 (List.replicate 26 7) 21) := by
  have hthrottled : admittedOf (demoEp 1) (demoQueried 8 (List.replicate 26 0) 21) = List.replicate 40 true ++ [false] := by
    decide +kernel
  have hadmitted : admittedOf (demoEp 1) (demoQueried 8 (List.replicate 26 7) 21) = List.replicate 41 true := by
    decide +kernel
  refine ⟨by decide +kernel, by decide +kernel, by decide +kernel, hthrottled, hadmitted, fun heq => ?_⟩
  rw [hthrottled, hadmitted] at heq
  exact absurd heq (by decide +kernel)

end Gw
