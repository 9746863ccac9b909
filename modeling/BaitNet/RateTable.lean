import BaitNet.Link

/-!
# The table of the token buckets

As long as a slot is free for a new identity, `rate_allow` reads and writes the bucket of its identity
only, and the table is a map from identities to buckets.
-/
namespace Link

open Wire

/-- The bucket of an identity. -/
def bucketOf (t : List RateBucket) (id : Arr 8) : Option RateBucket := t.find? fun b => b.used && b.id = id

def newBucket (id : Arr 8) (now : UInt32) (burst : Nat) : RateBucket := ⟨id, true, .ofNat burst, now⟩

/-- What a call makes of the bucket of its identity, and whether it allows the cost. -/
def bucketStep (now : UInt32) (ratePerS burst cost : Nat) (b : RateBucket) : RateBucket × Bool :=
  let b := rateRefill now ratePerS burst b
  if b.tokens < .ofNat cost then ({ b with tokens := 0 }, false)
  else ({ b with tokens := b.tokens - .ofNat cost }, true)

/-- The table holds buckets of these identities, in this order, and behind them unused slots only. -/
structure Packed (t : List RateBucket) (ids : List (Arr 8)) : Prop where
  split : ∃ l free, t = l ++ free ∧ l.map RateBucket.id = ids ∧ (∀ b ∈ l, b.used = true) ∧ ∀ b ∈ free, b.used = false
  nodup : ids.Nodup

theorem bucketStep_id (now : UInt32) (ratePerS burst cost : Nat) (b : RateBucket) :
    (bucketStep now ratePerS burst cost b).1.id = b.id ∧ (bucketStep now ratePerS burst cost b).1.used = b.used := by
  have hrefill : (rateRefill now ratePerS burst b).id = b.id ∧ (rateRefill now ratePerS burst b).used = b.used := by
    rw [rateRefill]
    split
    · exact ⟨rfl, rfl⟩
    · exact ⟨rfl, rfl⟩
  rw [bucketStep]
  split
  · exact hrefill
  · exact hrefill

/-- The scan goes past the buckets of other identities. -/
theorem rateScan_append {id : Arr 8} {l : List RateBucket} (hused : ∀ b ∈ l, b.used = true) (hne : ∀ b ∈ l, b.id ≠ id)
    (t : List RateBucket) (i oldest : Nat) (ts : UInt32) :
    ∃ oldest' ts', rateScan id (l ++ t) i oldest ts = rateScan id t (i + l.length) oldest' ts' := by
  induction l generalizing i oldest ts with
  | nil => exact ⟨oldest, ts, rfl⟩
  | cons b l ih =>
    have hb := hused b (.head _)
    have hid := hne b (.head _)
    have ih' := ih (fun x hx => hused x (.tail _ hx)) (fun x hx => hne x (.tail _ hx)) (i + 1)
    have hlen : i + (b :: l).length = i + 1 + l.length := by
      rw [List.length_cons]
      omega
    rw [List.cons_append, rateScan, if_neg fun h => hid h.2, if_neg (not_not.mpr hb), hlen]
    split
    · exact ih' i b.lastMs
    · exact ih' oldest ts

theorem bucketOf_append {id : Arr 8} {l : List RateBucket} (hne : ∀ b ∈ l, b.id ≠ id) (t : List RateBucket) :
    bucketOf (l ++ t) id = bucketOf t id := by
  rw [bucketOf, List.find?_append, List.find?_eq_none.mpr fun b hb => ?_]
  · rfl
  · rw [Bool.and_eq_true, decide_eq_true_eq]
    exact fun h => hne b hb h.2

theorem bucketOf_cons (b : RateBucket) (t : List RateBucket) (id : Arr 8) :
    bucketOf (b :: t) id = if b.used = true ∧ b.id = id then some b else bucketOf t id := by
  rw [bucketOf, List.find?_cons]
  split
  · rename_i h
    rw [Bool.and_eq_true, decide_eq_true_eq] at h
    rw [if_pos h]
  · rename_i h
    rw [if_neg]
    · rfl
    · rintro ⟨hused, hid⟩
      rw [hused, hid, decide_eq_true rfl] at h
      cases h

/-- One slot written: only the bucket of its identity changes. -/
theorem bucketOf_set {id : Arr 8} {l free : List RateBucket} (hne : ∀ b ∈ l, b.id ≠ id) {old new : RateBucket}
    (hused : new.used = true) (hid : new.id = id) (hold : old.used = true → old.id = id) (j : Arr 8) :
    bucketOf (l ++ new :: free) j = if j = id then some new else bucketOf (l ++ old :: free) j := by
  by_cases hj : j = id
  · subst hj
    rw [if_pos rfl, bucketOf_append hne, bucketOf_cons, if_pos ⟨hused, hid⟩]
  · have hnew : ¬ (new.used = true ∧ new.id = j) := fun h => hj (h.2.symm.trans hid)
    have hold' : ¬ (old.used = true ∧ old.id = j) := fun h => hj (h.2.symm.trans (hold h.1))
    have hskip : bucketOf (new :: free) j = bucketOf (old :: free) j := by
      rw [bucketOf_cons, bucketOf_cons, if_neg hnew, if_neg hold']
    rw [if_neg hj, bucketOf, bucketOf, List.find?_append, List.find?_append]
    exact congrArg _ hskip

/-- What a call does to a table with these buckets when the identity has one or a slot is free. -/
structure Charges (now : UInt32) (ratePerS burst cost : Nat) (t : List RateBucket) (id : Arr 8)
    (r : List RateBucket × Bool) : Prop where
  allowed : r.2 = (bucketStep now ratePerS burst cost ((bucketOf t id).getD (newBucket id now burst))).2
  bucket : ∀ j, bucketOf r.1 j = if j = id
    then some (bucketStep now ratePerS burst cost ((bucketOf t id).getD (newBucket id now burst))).1
    else bucketOf t j
  length : r.1.length = t.length

theorem rateAllow_eq {t : List RateBucket} {now : UInt32} {id : Arr 8} (ratePerS burst cost : Nat) {i : Nat} {found : Bool}
    (hscan : rateScan id t 0 0 0xFFFFFFFF = (i, found)) :
    rateAllow t now id ratePerS burst cost =
      (t.set i (bucketStep now ratePerS burst cost
          (if found then t.getD i (newBucket id now burst) else newBucket id now burst)).1,
        (bucketStep now ratePerS burst cost
          (if found then t.getD i (newBucket id now burst) else newBucket id now burst)).2) := by
  rw [rateAllow, hscan, bucketStep]
  by_cases hlow : (rateRefill now ratePerS burst
      (if found then t.getD i (newBucket id now burst) else newBucket id now burst)).tokens < .ofNat cost
  · rw [if_pos hlow]
    exact if_pos hlow
  · rw [if_neg hlow]
    exact if_neg hlow

/-- The call on the slot where the scan stops: that of the identity, or the first unused one. -/
theorem rateAllow_slot {l free : List RateBucket} {old : RateBucket} {id : Arr 8} (hused : ∀ b ∈ l, b.used = true)
    (hne : ∀ b ∈ l, b.id ≠ id) (hold : old.used = true → old.id = id)
    (hfree : old.used = false → ∀ b ∈ free, b.used = false) (now : UInt32) (ratePerS burst cost : Nat) :
    Charges now ratePerS burst cost (l ++ old :: free) id (rateAllow (l ++ old :: free) now id ratePerS burst cost) ∧
      ∃ new, new.id = id ∧ new.used = true ∧
        (rateAllow (l ++ old :: free) now id ratePerS burst cost).1 = l ++ new :: free := by
  have hscan : rateScan id (l ++ old :: free) 0 0 0xFFFFFFFF = (l.length, old.used) := by
    obtain ⟨oldest, ts, heq⟩ := rateScan_append hused hne (old :: free) 0 0 0xFFFFFFFF
    rw [heq, rateScan, Nat.zero_add]
    cases hold' : old.used with
    | true => rw [if_pos ⟨rfl, hold hold'⟩]
    | false => simp
  have hget : (l ++ old :: free).getD l.length (newBucket id now burst) = old := by simp
  have hbucket : (bucketOf (l ++ old :: free) id).getD (newBucket id now burst) =
      if old.used then old else newBucket id now burst := by
    rw [bucketOf_append hne, bucketOf_cons]
    cases hold' : old.used with
    | true => rw [if_pos ⟨rfl, hold hold'⟩, if_pos rfl, Option.getD_some]
    | false =>
      have hnone : bucketOf free id = none := List.find?_eq_none.mpr fun b hb => by
        rw [hfree hold' b hb, Bool.false_and]
        exact Bool.false_ne_true
      rw [if_neg fun h => Bool.false_ne_true h.1, if_neg Bool.false_ne_true, hnone, Option.getD_none]
  obtain ⟨hnewid, hnewused⟩ := bucketStep_id now ratePerS burst cost (if old.used then old else newBucket id now burst)
  have hid : (if old.used then old else newBucket id now burst).id = id := by
    split
    · rename_i h
      exact hold h
    · rfl
  have htrue : (if old.used then old else newBucket id now burst).used = true := by
    split
    · rename_i h
      exact h
    · rfl
  have hset : (l ++ old :: free).set l.length
      (bucketStep now ratePerS burst cost (if old.used then old else newBucket id now burst)).1 =
        l ++ (bucketStep now ratePerS burst cost (if old.used then old else newBucket id now burst)).1 :: free := by
    simp
  rw [rateAllow_eq ratePerS burst cost hscan, hget, hset]
  refine ⟨⟨?_, fun j => ?_, ?_⟩, _, hnewid.trans hid, hnewused.trans htrue, rfl⟩
  · rw [hbucket]
  · rw [hbucket]
    exact bucketOf_set hne (hnewused.trans htrue) (hnewid.trans hid) hold j
  · simp

/-- With a bucket or room for one, a call is a step of the bucket of its identity. -/
theorem rateAllow_charges {t : List RateBucket} {ids : List (Arr 8)} (h : Packed t ids) {id : Arr 8}
    (hroom : id ∈ ids ∨ ids.length < t.length) (now : UInt32) (ratePerS burst cost : Nat) :
    Charges now ratePerS burst cost t id (rateAllow t now id ratePerS burst cost) ∧
      Packed (rateAllow t now id ratePerS burst cost).1 (if id ∈ ids then ids else ids ++ [id]) := by
  obtain ⟨⟨l, free, rfl, rfl, hused, hfree⟩, hnodup⟩ := h
  by_cases hid : id ∈ l.map RateBucket.id
  · obtain ⟨b, hb, rfl⟩ := List.mem_map.mp hid
    obtain ⟨l1, l2, rfl⟩ := List.append_of_mem hb
    have hbused := hused b hb
    have hne : ∀ x ∈ l1, x.id ≠ b.id := fun x hx heq => by
      rw [List.map_append, List.map_cons] at hnodup
      have hdisj := List.disjoint_of_nodup_append hnodup
      exact hdisj (List.mem_map.mpr ⟨x, hx, rfl⟩) (heq ▸ .head _)
    rw [if_pos hid, List.append_assoc, List.cons_append]
    obtain ⟨hcharges, new, hnewid, hnewused, heq⟩ := rateAllow_slot (fun x hx => hused x (List.mem_append_left _ hx)) hne
      (fun _ => rfl) (fun hno => absurd (hbused.symm.trans hno) Bool.noConfusion) now ratePerS burst cost
    refine ⟨hcharges, ⟨l1 ++ new :: l2, free, ?_, ?_, ?_, hfree⟩, hnodup⟩
    · rw [heq, List.append_assoc, List.cons_append]
    · simp only [List.map_append, List.map_cons, hnewid]
    · intro x hx
      rcases List.mem_append.mp hx with hx | hx
      · exact hused x (List.mem_append_left _ hx)
      · rcases List.mem_cons.mp hx with rfl | hx
        · exact hnewused
        · exact hused x (List.mem_append_right _ (.tail _ hx))
  · have hne : ∀ x ∈ l, x.id ≠ id := fun x hx heq => hid (List.mem_map.mpr ⟨x, hx, heq⟩)
    rw [if_neg hid]
    cases free with
    | nil =>
      rw [List.append_nil, List.length_map] at hroom
      exact absurd hroom (by simp [hid])
    | cons c free =>
      have hc := hfree c (.head _)
      obtain ⟨hcharges, new, hnewid, hnewused, heq⟩ := @rateAllow_slot l free c id hused hne
        (fun hyes => absurd hyes (by rw [hc]; exact Bool.false_ne_true)) (fun _ x hx => hfree x (.tail _ hx))
        now ratePerS burst cost
      refine ⟨hcharges, ⟨l ++ [new], free, ?_, ?_, ?_, fun x hx => hfree x (.tail _ hx)⟩, ?_⟩
      · rw [heq, List.append_assoc, List.singleton_append]
      · rw [List.map_append, List.map_singleton, hnewid]
      · intro x hx
        rcases List.mem_append.mp hx with hx | hx
        · exact hused x hx
        · rw [List.mem_singleton.mp hx, hnewused]
      · exact List.nodup_append.mpr ⟨hnodup, List.nodup_singleton id, by simpa using fun x hx => hne x hx⟩

/-- The table after some calls of cost 1 for the identity at one time. -/
inductive Checked (now : UInt32) (id : Arr 8) : List RateBucket → List RateBucket → Prop
  | unchecked (t : List RateBucket) : Checked now id t t
  | check (t t' : List RateBucket) (ratePerS burst : Nat) (h : Checked now id (rateAllow t now id ratePerS burst 1).1 t') :
      Checked now id t t'

theorem Checked.trans {now : UInt32} {id : Arr 8} {t t' t'' : List RateBucket} (h : Checked now id t t')
    (h' : Checked now id t' t'') : Checked now id t t'' := by
  induction h with
  | unchecked => exact h'
  | check t t' ratePerS burst _ ih => exact .check t t'' ratePerS burst (ih h')

/-- They leave the other buckets alone. -/
theorem Checked.packed {now : UInt32} {id : Arr 8} {t t' : List RateBucket} (h : Checked now id t t')
    {ids : List (Arr 8)} (hp : Packed t ids) (hroom : id ∈ ids ∨ ids.length < t.length) :
    ∃ ids', Packed t' ids' ∧ (∀ j ∈ ids', j ∈ ids ∨ j = id) ∧ t'.length = t.length ∧
      ∀ j, j ≠ id → bucketOf t' j = bucketOf t j := by
  induction h generalizing ids with
  | unchecked => exact ⟨ids, hp, fun j hj => .inl hj, rfl, fun j _ => rfl⟩
  | check t t' ratePerS burst _ ih =>
    obtain ⟨hcharges, hp'⟩ := rateAllow_charges hp hroom now ratePerS burst 1
    have hmem : id ∈ if id ∈ ids then ids else ids ++ [id] := by
      split
      · rename_i hid
        exact hid
      · exact List.mem_append_right _ (List.mem_singleton.mpr rfl)
    obtain ⟨ids', hp'', hids, hlen, hother⟩ := ih hp' (.inl hmem)
    refine ⟨ids', hp'', fun j hj => ?_, hlen.trans hcharges.length, fun j hj => ?_⟩
    · rcases hids j hj with hj | hj
      · split at hj
        · exact .inl hj
        · exact (List.mem_append.mp hj).imp_right List.mem_singleton.mp
      · exact .inr hj
    · rw [hother j hj, hcharges.bucket j, if_neg hj]

theorem Packed.ids_eq {t : List RateBucket} {ids : List (Arr 8)} (h : Packed t ids) :
    ids = (t.filter RateBucket.used).map RateBucket.id := by
  obtain ⟨⟨l, free, rfl, rfl, hused, hfree⟩, -⟩ := h
  have hnone : free.filter RateBucket.used = [] := List.filter_eq_nil_iff.mpr fun b hb => by
    rw [hfree b hb]
    exact Bool.false_ne_true
  rw [List.filter_append, List.filter_eq_self.mpr hused, hnone, List.append_nil]

theorem packed_rateInit : Packed rateInit [] :=
  ⟨⟨[], rateInit, rfl, rfl, fun _ hb => (nomatch hb), fun b hb => by rw [List.eq_of_mem_replicate hb]⟩, List.nodup_nil⟩

end Link
