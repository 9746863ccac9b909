import BaitNet.RateTable
import BaitNet.Runs
import BaitNet.TokenBucket
import Mathlib.Data.Real.Basic
import Mathlib.Tactic.NormNum

/-!
# The token buckets and the ideal one

`rate_allow` over sequences of calls. Its bucket is never fuller than the ideal one that fills
continuously, which bounds what an identity is allowed in any window; and it is emptier where
a refill is cut to whole tokens, which makes it turn down what conforms.
-/
namespace Link

open Wire Runs TokenBucket

/-- A call of `rate_allow` at a time of the millisecond clock. -/
structure RateCall where
  now : Nat
  id : Arr 8
  ratePerS : Nat
  burst : Nat
  cost : Nat

def RateCall.run (x : RateCall) (t : List RateBucket) : List RateBucket × Bool :=
  rateAllow t (.ofNat x.now) x.id x.ratePerS x.burst x.cost

/-- What the calls of an identity from `lo` to `hi` are allowed in total. -/
def allowedCost (id : Arr 8) (lo hi : Nat) : List RateBucket → List RateCall → Nat
  | _, [] => 0
  | t, x :: xs =>
    (if x.id = id ∧ (x.run t).2 = true ∧ lo ≤ x.now ∧ x.now ≤ hi then x.cost else 0) +
      allowedCost id lo hi (x.run t).1 xs

/-- The buckets belong to the identities of `ids`, which find room in the table. -/
structure Hosted (t : List RateBucket) (ids : List (Arr 8)) : Prop where
  packed : ∃ owners, Packed t owners ∧ ∀ i ∈ owners, i ∈ ids
  room : ids.length ≤ t.length

theorem hosted_rateInit {ids : List (Arr 8)} (h : ids.length ≤ rateSlots) : Hosted rateInit ids :=
  ⟨⟨[], packed_rateInit, fun _ hi => (nomatch hi)⟩, by rwa [rateInit, List.length_replicate]⟩

theorem Hosted.charges {t : List RateBucket} {ids : List (Arr 8)} (h : Hosted t ids) {x : RateCall} (hid : x.id ∈ ids) :
    Charges (.ofNat x.now) x.ratePerS x.burst x.cost t x.id (x.run t) ∧ Hosted (x.run t).1 ids := by
  obtain ⟨⟨owners, hpacked, hsub⟩, hroom⟩ := h
  have hfits : x.id ∈ owners ∨ owners.length < t.length := by
    by_cases hown : x.id ∈ owners
    · exact .inl hown
    · have hnodup : (x.id :: owners).Nodup := List.nodup_cons.mpr ⟨hown, hpacked.nodup⟩
      have hlen := (List.subperm_of_subset hnodup (List.cons_subset.mpr ⟨hid, hsub⟩)).length_le
      rw [List.length_cons] at hlen
      exact .inr (by omega)
  obtain ⟨hcharges, hnext⟩ := rateAllow_charges hpacked hfits (.ofNat x.now) x.ratePerS x.burst x.cost
  refine ⟨hcharges, ⟨_, hnext, fun i hi => ?_⟩, by rw [RateCall.run, hcharges.length]; exact hroom⟩
  split at hi
  · exact hsub i hi
  · rcases List.mem_append.mp hi with hi | hi
    · exact hsub i hi
    · rw [List.mem_singleton.mp hi]
      exact hid

/-- A bucket that was last refilled at `last`, when the clock is read with more than 32 bits. -/
structure Metered (burst last : Nat) (b : RateBucket) : Prop where
  tokens : b.tokens.toNat ≤ burst
  lastMs : b.lastMs = .ofNat last

/-- The tokens after a refill: the elapsed time, the gain and the sum are cut to 32 bits, and
the gain to whole tokens. -/
def refilled (ratePerS burst tokens elapsed : Nat) : Nat :=
  min burst ((tokens + ratePerS * (elapsed % 2 ^ 32) / 1000) % 2 ^ 32)

theorem elapsed_toNat {last now : Nat} (h : last ≤ now) :
    (UInt32.ofNat now - UInt32.ofNat last).toNat = (now - last) % 2 ^ 32 := by
  rw [UInt32.toNat_sub, UInt32.toNat_ofNat', UInt32.toNat_ofNat']
  omega

theorem rateRefill_spec {b : RateBucket} {ratePerS burst last now : Nat} (h : Metered burst last b) (hle : last ≤ now)
    (hburst : burst < 2 ^ 32) :
    (rateRefill (.ofNat now) ratePerS burst b).tokens.toNat = refilled ratePerS burst b.tokens.toNat (now - last) ∧
      (rateRefill (.ofNat now) ratePerS burst b).lastMs = .ofNat now := by
  have hcap : (UInt32.ofNat burst).toNat = burst := by rw [UInt32.toNat_ofNat', Nat.mod_eq_of_lt hburst]
  have helapsed := elapsed_toNat hle
  have htokens := h.tokens
  have hlt := b.tokens.toNat_lt
  rw [rateRefill, h.lastMs, refilled]
  dsimp only
  split
  · rename_i hpos
    refine ⟨?_, rfl⟩
    rw [helapsed]
    split
    · rename_i hover
      rw [UInt32.lt_iff_toNat_lt, hcap, UInt32.toNat_ofNat'] at hover
      rw [hcap]
      omega
    · rename_i hunder
      rw [UInt32.not_lt, UInt32.le_iff_toNat_le, hcap, UInt32.toNat_ofNat'] at hunder
      rw [UInt32.toNat_ofNat']
      omega
  · rename_i hzero
    rw [UInt32.not_lt, UInt32.le_iff_toNat_le, helapsed, UInt32.toNat_zero, Nat.le_zero] at hzero
    refine ⟨?_, ?_⟩
    · rw [hzero, Nat.mul_zero, Nat.zero_div, Nat.add_zero, Nat.mod_eq_of_lt hlt, Nat.min_eq_right htokens]
    · rw [h.lastMs, ← UInt32.toNat_inj, UInt32.toNat_ofNat', UInt32.toNat_ofNat']
      omega

/-- A call takes its cost from the refilled bucket if that holds it, and empties it if not. -/
theorem bucketStep_spec {b : RateBucket} {ratePerS burst cost last now : Nat} (h : Metered burst last b)
    (hle : last ≤ now) (hburst : burst < 2 ^ 32) (hcost : cost < 2 ^ 32) :
    Metered burst now (bucketStep (.ofNat now) ratePerS burst cost b).1 ∧
      if cost ≤ refilled ratePerS burst b.tokens.toNat (now - last) then
        (bucketStep (.ofNat now) ratePerS burst cost b).2 = true ∧
          (bucketStep (.ofNat now) ratePerS burst cost b).1.tokens.toNat =
            refilled ratePerS burst b.tokens.toNat (now - last) - cost
      else
        (bucketStep (.ofNat now) ratePerS burst cost b).2 = false ∧
          (bucketStep (.ofNat now) ratePerS burst cost b).1.tokens.toNat = 0 := by
  obtain ⟨htokens, hlast⟩ := @rateRefill_spec b ratePerS burst last now h hle hburst
  have hcap : refilled ratePerS burst b.tokens.toNat (now - last) ≤ burst := Nat.min_le_left _ _
  have hnat : (UInt32.ofNat cost).toNat = cost := by rw [UInt32.toNat_ofNat', Nat.mod_eq_of_lt hcost]
  have hlow : (rateRefill (.ofNat now) ratePerS burst b).tokens < .ofNat cost ↔
      ¬ cost ≤ refilled ratePerS burst b.tokens.toNat (now - last) := by
    rw [UInt32.lt_iff_toNat_lt, htokens, hnat, Nat.not_le]
  rw [bucketStep]
  by_cases henough : cost ≤ refilled ratePerS burst b.tokens.toNat (now - last)
  · have hsub : ((rateRefill (.ofNat now) ratePerS burst b).tokens - .ofNat cost).toNat =
        refilled ratePerS burst b.tokens.toNat (now - last) - cost := by
      rw [UInt32.toNat_sub_of_le _ _ (by rw [UInt32.le_iff_toNat_le, hnat, htokens]; exact henough), htokens, hnat]
    rw [if_neg (fun h => hlow.mp h henough), if_pos henough]
    exact ⟨⟨by dsimp only; omega, hlast⟩, rfl, hsub⟩
  · rw [if_pos (hlow.mpr henough), if_neg henough]
    exact ⟨⟨Nat.zero_le _, hlast⟩, rfl, rfl⟩

/-- What a call finds in the bucket of its identity; a new bucket is full. -/
def available (t : List RateBucket) (x : RateCall) (last : Nat) : Nat :=
  match bucketOf t x.id with
  | none => x.burst
  | some b => refilled x.ratePerS x.burst b.tokens.toNat (x.now - last)

/-- What a call leaves: its bucket, last refilled now, and whether it got its cost. -/
structure Served (t : List RateBucket) (x : RateCall) (last : Nat) (b : RateBucket) : Prop where
  bucket : bucketOf (x.run t).1 x.id = some b
  metered : Metered x.burst x.now b
  enough : x.cost ≤ available t x last → (x.run t).2 = true ∧ b.tokens.toNat = available t x last - x.cost
  short : ¬ x.cost ≤ available t x last → (x.run t).2 = false ∧ b.tokens.toNat = 0

/-- The bucket that a call works on, with the time of its last refill. -/
theorem current_metered {t : List RateBucket} {x : RateCall} (hburst : x.burst < 2 ^ 32) {last : Nat} (hle : last ≤ x.now)
    (hlast : ∀ b, bucketOf t x.id = some b → Metered x.burst last b) :
    ∃ l ≤ x.now, Metered x.burst l ((bucketOf t x.id).getD (newBucket x.id (.ofNat x.now) x.burst)) ∧
      refilled x.ratePerS x.burst ((bucketOf t x.id).getD (newBucket x.id (.ofNat x.now) x.burst)).tokens.toNat
        (x.now - l) = available t x last := by
  rw [available]
  cases hfind : bucketOf t x.id with
  | some b => exact ⟨last, hle, hlast b hfind, rfl⟩
  | none =>
    have hnat : (UInt32.ofNat x.burst).toNat = x.burst := by rw [UInt32.toNat_ofNat', Nat.mod_eq_of_lt hburst]
    refine ⟨x.now, Nat.le_refl _, ⟨hnat.le, rfl⟩, ?_⟩
    change refilled x.ratePerS x.burst (UInt32.ofNat x.burst).toNat (x.now - x.now) = x.burst
    rw [hnat, refilled, Nat.sub_self, Nat.zero_mod, Nat.mul_zero, Nat.zero_div, Nat.add_zero, Nat.mod_eq_of_lt hburst,
      Nat.min_self]

theorem Hosted.served {t : List RateBucket} {ids : List (Arr 8)} (h : Hosted t ids) {x : RateCall} (hid : x.id ∈ ids)
    (hburst : x.burst < 2 ^ 32) (hcost : x.cost < 2 ^ 32) {last : Nat} (hle : last ≤ x.now)
    (hlast : ∀ b, bucketOf t x.id = some b → Metered x.burst last b) : ∃ b, Served t x last b := by
  obtain ⟨hcharges, -⟩ := h.charges hid
  obtain ⟨l, hl, hmetered, havail⟩ := current_metered hburst hle hlast
  obtain ⟨hnext, hspec⟩ := @bucketStep_spec _ x.ratePerS _ x.cost _ _ hmetered hl hburst hcost
  have hbucket := hcharges.bucket x.id
  rw [if_pos rfl] at hbucket
  rw [havail] at hspec
  refine ⟨_, hbucket, hnext, fun henough => ?_, fun hshort => ?_⟩
  · rw [if_pos henough] at hspec
    exact ⟨hcharges.allowed.trans hspec.1, hspec.2⟩
  · rw [if_neg hshort] at hspec
    exact ⟨hcharges.allowed.trans hspec.1, hspec.2⟩

/-- The ideal bucket's rate in tokens for a millisecond. -/
noncomputable def perMs (ratePerS : Nat) : ℝ := ratePerS / 1000

theorem perMs_nonneg (ratePerS : Nat) : 0 ≤ perMs ratePerS := by
  rw [perMs]
  positivity

theorem refilled_le (ratePerS burst tokens elapsed : Nat) (hlt : elapsed < 2 ^ 32) :
    (refilled ratePerS burst tokens elapsed : ℝ) ≤ refill (perMs ratePerS) burst tokens elapsed := by
  rw [refilled, Nat.mod_eq_of_lt hlt, refill]
  refine le_min (Nat.cast_le.mpr (Nat.min_le_left _ _)) ?_
  have hcut : min burst ((tokens + ratePerS * elapsed / 1000) % 2 ^ 32) ≤ tokens + ratePerS * elapsed / 1000 :=
    (Nat.min_le_right _ _).trans (Nat.mod_le _ _)
  calc ((min burst ((tokens + ratePerS * elapsed / 1000) % 2 ^ 32) : Nat) : ℝ)
      ≤ ((tokens + ratePerS * elapsed / 1000 : Nat) : ℝ) := Nat.cast_le.mpr hcut
    _ = tokens + ((ratePerS * elapsed / 1000 : Nat) : ℝ) := Nat.cast_add _ _
    _ ≤ tokens + ((ratePerS * elapsed : Nat) : ℝ) / (1000 : Nat) := add_le_add_right Nat.cast_div_le _
    _ = tokens + perMs ratePerS * elapsed := by
      rw [perMs]
      push_cast
      ring

/-- The bucket of the identity was last refilled at `last` and holds no more than the ideal one. -/
structure Below (t : List RateBucket) (id : Arr 8) (burst last : Nat) (level : ℝ) : Prop where
  metered : ∀ b, bucketOf t id = some b → Metered burst last b ∧ (b.tokens.toNat : ℝ) ≤ level
  fresh : bucketOf t id = none → (burst : ℝ) ≤ level
  cap : level ≤ burst
  nonneg : 0 ≤ level

/-- What the calls of the identity are granted, in the order of the calls; 0 for a refusal. -/
def grants (id : Arr 8) : List RateBucket → List RateCall → List (ℝ × ℝ)
  | _, [] => []
  | t, x :: xs =>
    if x.id = id then ((x.now : ℝ), if (x.run t).2 = true then (x.cost : ℝ) else 0) :: grants id (x.run t).1 xs
    else grants id (x.run t).1 xs

theorem available_le {t : List RateBucket} {x : RateCall} {last : Nat} {level : ℝ} (h : Below t x.id x.burst last level)
    (hle : last ≤ x.now) (hlt : x.now - last < 2 ^ 32) :
    (available t x last : ℝ) ≤ refill (perMs x.ratePerS) x.burst level (x.now - last) := by
  have hgain : 0 ≤ perMs x.ratePerS * ((x.now : ℝ) - last) :=
    mul_nonneg (perMs_nonneg _) (sub_nonneg.mpr (Nat.cast_le.mpr hle))
  rw [available]
  cases hfind : bucketOf t x.id with
  | none => exact le_min (le_refl _) (by linarith [h.fresh hfind])
  | some b =>
    have hcut := refilled_le x.ratePerS x.burst b.tokens.toNat (x.now - last) hlt
    rw [Nat.cast_sub hle] at hcut
    exact hcut.trans (refill_mono (h.metered b hfind).2)

/-- A call of the identity keeps its bucket below the ideal one, which spends what is granted. -/
theorem Below.call {t : List RateBucket} {ids : List (Arr 8)} (hhost : Hosted t ids) {x : RateCall} (hid : x.id ∈ ids)
    (hburst : x.burst < 2 ^ 32) (hcost : x.cost < 2 ^ 32) {last : Nat} {level : ℝ}
    (h : Below t x.id x.burst last level) (hle : last ≤ x.now) (hlt : x.now - last < 2 ^ 32) :
    (if (x.run t).2 = true then (x.cost : ℝ) else 0) ≤ refill (perMs x.ratePerS) x.burst level (x.now - last) ∧
      Below (x.run t).1 x.id x.burst x.now
        (refill (perMs x.ratePerS) x.burst level (x.now - last) - if (x.run t).2 = true then (x.cost : ℝ) else 0) := by
  obtain ⟨b, hserved⟩ := hhost.served hid hburst hcost hle fun b hb => (h.metered b hb).1
  have hideal := available_le h hle hlt
  have hcap := refill_le_burst (perMs x.ratePerS) (x.burst : ℝ) level (x.now - last)
  have hmetered : ∀ level', (b.tokens.toNat : ℝ) ≤ level' → ∀ b', bucketOf (x.run t).1 x.id = some b' →
      Metered x.burst x.now b' ∧ (b'.tokens.toNat : ℝ) ≤ level' := by
    intro level' hlevel b' hb'
    obtain rfl := Option.some.inj (hserved.bucket.symm.trans hb')
    exact ⟨hserved.metered, hlevel⟩
  have hold : ∀ level', bucketOf (x.run t).1 x.id = none → (x.burst : ℝ) ≤ level' := by
    intro level' hnone
    cases hserved.bucket.symm.trans hnone
  by_cases henough : x.cost ≤ available t x last
  · obtain ⟨hok, htokens⟩ := hserved.enough henough
    have hcost' : (x.cost : ℝ) ≤ available t x last := Nat.cast_le.mpr henough
    rw [if_pos hok]
    refine ⟨by linarith, hmetered _ ?_, hold _, by linarith [Nat.cast_nonneg (α := ℝ) x.cost], by linarith⟩
    rw [htokens, Nat.cast_sub henough]
    linarith
  · obtain ⟨hok, htokens⟩ := hserved.short henough
    have hpos : (0 : ℝ) ≤ available t x last := Nat.cast_nonneg _
    rw [hok, if_neg Bool.false_ne_true, sub_zero]
    refine ⟨by linarith, hmetered _ ?_, hold _, hcap, by linarith⟩
    rw [htokens, Nat.cast_zero]
    linarith

/-- A call of another identity leaves the bucket alone. -/
theorem Hosted.other {t : List RateBucket} {ids : List (Arr 8)} (hhost : Hosted t ids) {x : RateCall} (hid : x.id ∈ ids)
    {id : Arr 8} (hne : x.id ≠ id) : bucketOf (x.run t).1 id = bucketOf t id := by
  obtain ⟨hcharges, -⟩ := hhost.charges hid
  have hbucket := hcharges.bucket id
  rwa [if_neg (fun heq => hne heq.symm)] at hbucket

/-- Calls of the identities `ids` in the order of the clock, which started at `last`; those of
`id` are made with one rate and burst. -/
structure Orderly (ids : List (Arr 8)) (id : Arr 8) (ratePerS burst last : Nat) (calls : List RateCall) : Prop where
  hosted : ∀ x ∈ calls, x.id ∈ ids
  order : calls.Pairwise fun x y => x.now ≤ y.now
  after : ∀ x ∈ calls, last ≤ x.now
  fixed : ∀ x ∈ calls, x.id = id → x.ratePerS = ratePerS ∧ x.burst = burst

theorem Orderly.tail {ids : List (Arr 8)} {id : Arr 8} {ratePerS burst last : Nat} {x : RateCall} {calls : List RateCall}
    (h : Orderly ids id ratePerS burst last (x :: calls)) :
    Orderly ids id ratePerS burst x.now calls ∧ Orderly ids id ratePerS burst last calls := by
  obtain ⟨hosted, order, after, fixed⟩ := h
  rw [List.pairwise_cons] at order
  exact ⟨⟨fun y hy => hosted y (.tail _ hy), order.2, order.1, fun y hy => fixed y (.tail _ hy)⟩,
    ⟨fun y hy => hosted y (.tail _ hy), order.2, fun y hy => after y (.tail _ hy), fun y hy => fixed y (.tail _ hy)⟩⟩

/-- What is granted conforms to the ideal bucket. The induction is on the calls, with the
ideal bucket above that of the table. -/
theorem grants_conform {ids : List (Arr 8)} {id : Arr 8} {ratePerS burst last : Nat} {calls : List RateCall}
    (h : Orderly ids id ratePerS burst last calls) (hburst : burst < 2 ^ 32)
    (hcosts : ∀ x ∈ calls, x.cost < 2 ^ 32) (hspan : ∀ x ∈ calls, x.now - last < 2 ^ 32) {t : List RateBucket}
    (hhost : Hosted t ids) {level : ℝ} (hbelow : Below t id burst last level) :
    Conforms (perMs ratePerS) burst level last (grants id t calls) := by
  induction calls generalizing t last level with
  | nil => trivial
  | cons x calls ih =>
    have hle := h.after x (.head _)
    have hlt := hspan x (.head _)
    obtain ⟨hnext, hsame⟩ := h.tail
    have hin := h.hosted x (.head _)
    have hrest := fun y hy => hcosts y (List.mem_cons_of_mem x hy)
    obtain ⟨-, hhost'⟩ := hhost.charges hin
    rw [grants]
    by_cases hid : x.id = id
    · obtain ⟨hrate, hcap⟩ := h.fixed x (.head _) hid
      subst hid hrate hcap
      obtain ⟨hgrant, hbelow'⟩ := hbelow.call hhost hin hburst (hcosts x (.head _)) hle hlt
      rw [if_pos rfl]
      refine ⟨Nat.cast_le.mpr hle, ?_, hgrant, ih hnext hrest (fun y hy => ?_) hhost' hbelow'⟩
      · split
        · exact Nat.cast_nonneg _
        · exact le_refl _
      · have hy' := hspan y (.tail _ hy)
        omega
    · rw [if_neg hid]
      have hkept := hhost.other hin hid
      refine ih hsame hrest (fun y hy => hspan y (.tail _ hy)) hhost' ⟨?_, ?_, hbelow.cap, hbelow.nonneg⟩
      · rw [hkept]
        exact hbelow.metered
      · rw [hkept]
        exact hbelow.fresh

theorem spent_grants (id : Arr 8) (lo hi : Nat) (t : List RateBucket) (calls : List RateCall) :
    spent (lo : ℝ) hi (grants id t calls) = allowedCost id lo hi t calls := by
  induction calls generalizing t with
  | nil => exact Nat.cast_zero.symm
  | cons x calls ih =>
    rw [grants, allowedCost, Nat.cast_add]
    by_cases hid : x.id = id
    · rw [if_pos hid, spent_cons, ih]
      simp only [Nat.cast_le]
      congr 1
      by_cases hin : lo ≤ x.now ∧ x.now ≤ hi
      · by_cases hok : (x.run t).2 = true
        · rw [if_pos hin, if_pos hok, if_pos ⟨hid, hok, hin⟩]
        · rw [if_pos hin, if_neg hok, if_neg (fun h => hok h.2.1), Nat.cast_zero]
      · rw [if_neg hin, if_neg (fun h => hin h.2.2), Nat.cast_zero]
    · rw [if_neg hid, if_neg (fun h => hid h.1), Nat.cast_zero, zero_add, ih]

/-- In a window of `T` milliseconds an identity is allowed no more than its burst and what
its rate gains in that time. -/
theorem allowedCost_le {calls : List RateCall} {id : Arr 8} {ratePerS burst : Nat}
    (hids : (calls.map RateCall.id).dedup.length ≤ rateSlots) (horder : calls.Pairwise fun x y => x.now ≤ y.now)
    (hspan : ∀ x ∈ calls, ∀ y ∈ calls, y.now - x.now < 2 ^ 32)
    (hfixed : ∀ x ∈ calls, x.id = id → x.ratePerS = ratePerS ∧ x.burst = burst) (hburst : burst < 2 ^ 31)
    (hcosts : ∀ x ∈ calls, x.cost < 2 ^ 31) (lo T : Nat) :
    1000 * allowedCost id lo (lo + T) rateInit calls ≤ 1000 * burst + ratePerS * T := by
  cases calls with
  | nil => exact Nat.zero_le _
  | cons x calls =>
    have horderly : Orderly ((x :: calls).map RateCall.id).dedup id ratePerS burst x.now (x :: calls) := by
      refine ⟨fun y hy => List.mem_dedup.mpr (List.mem_map_of_mem hy), horder, fun y hy => ?_, hfixed⟩
      rcases List.mem_cons.mp hy with rfl | hy
      · exact Nat.le_refl _
      · exact (List.pairwise_cons.mp horder).1 y hy
    have hempty : bucketOf rateInit id = none := by
      rw [bucketOf, List.find?_eq_none]
      intro b hb
      rw [List.eq_of_mem_replicate hb]
      exact Bool.false_ne_true
    have hbelow : Below rateInit id burst x.now burst := by
      refine ⟨fun b hb => ?_, fun _ => le_refl _, le_refl _, Nat.cast_nonneg _⟩
      cases hempty.symm.trans hb
    have hconf := grants_conform horderly (by omega) (fun y hy => lt_trans (hcosts y hy) (by decide))
      (hspan x (.head _)) (hosted_rateInit hids) hbelow
    have hlohi : (lo : ℝ) ≤ ((lo + T : Nat) : ℝ) := Nat.cast_le.mpr (Nat.le_add_right lo T)
    have hbound := hconf.spent_le (perMs_nonneg _) (Nat.cast_nonneg _) hlohi
    rw [spent_grants, Nat.cast_add, add_sub_cancel_left, perMs] at hbound
    have hscaled : ((1000 * allowedCost id lo (lo + T) rateInit (x :: calls) : Nat) : ℝ) ≤
        ((1000 * burst + ratePerS * T : Nat) : ℝ) := by
      push_cast
      linarith
    exact Nat.cast_le.mp hscaled

theorem allowedCost_le_toy : 1000 * allowedCost (.zero 8) 0 (0 + 200) rateInit
    [⟨0, .zero 8, 10, 2, 2⟩, ⟨150, .zero 8, 10, 2, 1⟩] ≤ 1000 * 2 + 10 * 200 :=
  allowedCost_le (by decide) (by decide) (by decide) (by decide) (by decide) (by decide) 0 200

/-- The refill fills the bucket, or it neither cuts the gain to whole tokens nor wraps. -/
def WholeRefill (ratePerS burst tokens elapsed : Nat) : Prop :=
  burst ≤ (tokens + ratePerS * (elapsed % 2 ^ 32) / 1000) % 2 ^ 32 ∨
    elapsed < 2 ^ 32 ∧ tokens + ratePerS * elapsed / 1000 < 2 ^ 32 ∧ 1000 ∣ ratePerS * elapsed

/-- The table, and when the identity that is watched called last. -/
structure Watch where
  table : List RateBucket
  last : Option Nat

def Watch.start : Watch := ⟨rateInit, none⟩

def watch (id : Arr 8) (w : Watch) (x : RateCall) : Watch := ⟨(x.run w.table).1, if x.id = id then some x.now else w.last⟩

/-- A call of the identity refills its bucket without a loss. -/
def Whole (id : Arr 8) (w : Watch) (x : RateCall) : Prop :=
  x.id = id → ∀ b ∈ bucketOf w.table id, ∀ l ∈ w.last, WholeRefill x.ratePerS x.burst b.tokens.toNat (x.now - l)

/-- A call of the identity is allowed. -/
def Allows (id : Arr 8) (w : Watch) (x : RateCall) : Prop := x.id = id → (x.run w.table).2 = true

/-- The costs that the identity asks for. -/
def asked (id : Arr 8) (calls : List RateCall) : List (ℝ × ℝ) :=
  (calls.filter fun x => x.id = id).map fun x => ((x.now : ℝ), (x.cost : ℝ))

theorem refill_le_refilled {ratePerS burst tokens elapsed : Nat} (h : WholeRefill ratePerS burst tokens elapsed) :
    refill (perMs ratePerS) burst tokens elapsed ≤ (refilled ratePerS burst tokens elapsed : ℝ) := by
  rw [refilled]
  rcases h with hfull | ⟨hclock, hfits, hwhole⟩
  · rw [Nat.min_eq_left hfull]
    exact refill_le_burst _ _ _ _
  · rw [Nat.mod_eq_of_lt hclock, Nat.mod_eq_of_lt hfits, Nat.cast_min, Nat.cast_add, Nat.cast_div hwhole (by norm_num)]
    refine le_of_eq ?_
    rw [refill, perMs]
    congr 2
    push_cast
    ring

/-- The bucket of the identity was last refilled at `last` and holds at least the ideal one. -/
structure Above (w : Watch) (id : Arr 8) (burst last : Nat) (level : ℝ) : Prop where
  metered : ∀ b, bucketOf w.table id = some b → Metered burst last b ∧ level ≤ b.tokens.toNat ∧ w.last = some last
  cap : level ≤ burst

theorem le_available {w : Watch} {x : RateCall} {last : Nat} {level : ℝ} (h : Above w x.id x.burst last level)
    (hle : last ≤ x.now) (hwhole : Whole x.id w x) :
    refill (perMs x.ratePerS) x.burst level (x.now - last) ≤ available w.table x last := by
  rw [available]
  cases hfind : bucketOf w.table x.id with
  | none => exact refill_le_burst _ _ _ _
  | some b =>
    obtain ⟨-, hlevel, hlast⟩ := h.metered b hfind
    have hexact := refill_le_refilled (hwhole rfl b hfind last hlast)
    rw [Nat.cast_sub hle] at hexact
    exact (refill_mono hlevel).trans hexact

/-- A call that the ideal bucket grants is allowed, and keeps the bucket above the ideal one. -/
theorem Above.call {w : Watch} {ids : List (Arr 8)} (hhost : Hosted w.table ids) {x : RateCall} (hid : x.id ∈ ids)
    (hburst : x.burst < 2 ^ 32) {last : Nat} {level : ℝ} (h : Above w x.id x.burst last level) (hle : last ≤ x.now)
    (hwhole : Whole x.id w x) (hcost : (x.cost : ℝ) ≤ refill (perMs x.ratePerS) x.burst level (x.now - last)) :
    (x.run w.table).2 = true ∧
      Above (watch x.id w x) x.id x.burst x.now (refill (perMs x.ratePerS) x.burst level (x.now - last) - x.cost) := by
  have hcap := refill_le_burst (perMs x.ratePerS) (x.burst : ℝ) level (x.now - last)
  have hfits : x.cost ≤ x.burst := Nat.cast_le.mp (hcost.trans hcap)
  obtain ⟨b, hserved⟩ := hhost.served hid hburst (by omega) hle fun b hb => (h.metered b hb).1
  have hideal := le_available h hle hwhole
  have henough : x.cost ≤ available w.table x last := Nat.cast_le.mp (hcost.trans hideal)
  obtain ⟨hok, htokens⟩ := hserved.enough henough
  refine ⟨hok, fun b' hb' => ?_, by linarith [Nat.cast_nonneg (α := ℝ) x.cost]⟩
  obtain rfl := Option.some.inj (hserved.bucket.symm.trans hb')
  refine ⟨hserved.metered, ?_, if_pos rfl⟩
  rw [htokens, Nat.cast_sub henough]
  linarith

theorem asked_cons (id : Arr 8) (x : RateCall) (calls : List RateCall) :
    asked id (x :: calls) = if x.id = id then ((x.now : ℝ), (x.cost : ℝ)) :: asked id calls else asked id calls := by
  rw [asked, List.filter_cons]
  by_cases hid : x.id = id
  · rw [if_pos (decide_eq_true hid), if_pos hid]
    rfl
  · rw [if_neg (by simpa using hid), if_neg hid]
    rfl

/-- The induction is on the calls, with the bucket of the table above the ideal one. -/
theorem allows_of_above {ids : List (Arr 8)} {id : Arr 8} {ratePerS burst : Nat} {calls : List RateCall}
    (hids : ∀ x ∈ calls, x.id ∈ ids) (hfixed : ∀ x ∈ calls, x.id = id → x.ratePerS = ratePerS ∧ x.burst = burst)
    (hburst : burst < 2 ^ 32) {w : Watch} (hhost : Hosted w.table ids) {last : Nat} {level : ℝ}
    (habove : Above w id burst last level) (hconf : Conforms (perMs ratePerS) burst level last (asked id calls))
    (hwhole : Along (watch id) (Whole id) w calls) : Along (watch id) (Allows id) w calls := by
  induction calls generalizing w last level with
  | nil => trivial
  | cons x calls ih =>
    rw [along_cons] at hwhole ⊢
    have hin := hids x (.head _)
    have hids' := fun y hy => hids y (List.mem_cons_of_mem x hy)
    have hfixed' := fun y hy => hfixed y (List.mem_cons_of_mem x hy)
    obtain ⟨-, hhost'⟩ := hhost.charges hin
    rw [asked_cons] at hconf
    by_cases hid : x.id = id
    · obtain ⟨hrate, hcap⟩ := hfixed x (.head _) hid
      subst hid hrate hcap
      rw [if_pos rfl] at hconf
      obtain ⟨htime, -, hcost, hrest⟩ := hconf
      obtain ⟨hok, habove'⟩ := habove.call hhost hin hburst (Nat.cast_le.mp htime) hwhole.1 hcost
      exact ⟨fun _ => hok, ih hids' hfixed' hhost' habove' hrest hwhole.2⟩
    · rw [if_neg hid] at hconf
      have hkept := hhost.other hin hid
      have hlast : (watch id w x).last = w.last := if_neg hid
      refine ⟨fun h => absurd h hid, ih hids' hfixed' hhost' ⟨fun b hb => ?_, habove.cap⟩ hconf hwhole.2⟩
      rw [hlast]
      exact habove.metered b (hkept.symm.trans hb)

/-- As long as no refill of an identity loses a part of a token, everything that conforms to
the ideal bucket is allowed. -/
theorem conforming_allowed {calls : List RateCall} {id : Arr 8} {ratePerS burst : Nat}
    (hids : (calls.map RateCall.id).dedup.length ≤ rateSlots)
    (hfixed : ∀ x ∈ calls, x.id = id → x.ratePerS = ratePerS ∧ x.burst = burst) (hburst : burst < 2 ^ 31)
    (hconf : Conforms (perMs ratePerS) burst burst 0 (asked id calls))
    (hwhole : Along (watch id) (Whole id) .start calls) : Along (watch id) (Allows id) .start calls := by
  have hempty : bucketOf rateInit id = none := by
    rw [bucketOf, List.find?_eq_none]
    intro b hb
    rw [List.eq_of_mem_replicate hb]
    exact Bool.false_ne_true
  refine allows_of_above (fun x hx => List.mem_dedup.mpr (List.mem_map_of_mem hx)) hfixed (by omega)
    (hosted_rateInit hids) ⟨fun b hb => ?_, le_refl _⟩ (by rwa [Nat.cast_zero]) hwhole
  cases hempty.symm.trans hb

/-- The bucket is emptied, and its identity comes back for one token when that has come in. -/
def toyPatient : List RateCall := [⟨0, .zero 8, 10, 2, 2⟩, ⟨100, .zero 8, 10, 2, 1⟩]

theorem conforming_allowed_toy : Along (watch (.zero 8)) (Allows (.zero 8)) .start toyPatient := by
  refine @conforming_allowed toyPatient (.zero 8) 10 2 (by decide) (by decide) (by decide) ?_ ?_
  · norm_num [asked, toyPatient, Conforms, refill, perMs]
  · refine ⟨fun _ b hb => ?_, fun _ b hb l hl => ?_, trivial⟩
    · cases (show bucketOf rateInit (.zero 8) = none by decide +kernel).symm.trans hb
    · have hempty : bucketOf (rateAllow rateInit 0 (.zero 8) 10 2 2).1 (.zero 8) = some ⟨.zero 8, true, 0, 0⟩ := by
        decide +kernel
      obtain rfl := Option.some.inj (hempty.symm.trans hb)
      obtain rfl := Option.some.inj (hl : some 0 = some l)
      exact .inr (by decide)

/-- A token after 150 ms, and one after 50 ms more, from a bucket of ten tokens a second. -/
def toyFrequent : List RateCall := [⟨0, .zero 8, 10, 2, 2⟩, ⟨150, .zero 8, 10, 2, 1⟩, ⟨200, .zero 8, 10, 2, 1⟩]

/-- The third call conforms and is turned down: two refills of 1.5 and 0.5 tokens were cut to
one and none. -/
theorem frequent_starves : Conforms (perMs 10) 2 2 0 (asked (.zero 8) toyFrequent) ∧
    ¬ Along (watch (.zero 8)) (Allows (.zero 8)) .start toyFrequent := by
  refine ⟨by norm_num [asked, toyFrequent, Conforms, refill, perMs], fun hall => ?_⟩
  have hthird := hall.2.2.1 rfl
  revert hthird
  decide +kernel

end Link
