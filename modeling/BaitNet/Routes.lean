import BaitNet.Gateway
import BaitNet.Runs

/-!
# Routes and the announcements behind them

`route_learn`, `route_expire` and `route_find` beside the log of the announcements they
were given. Every route stands for an announcement that is still in the log; the table
answers as the log does as long as the announcements of one range agree.
-/
namespace Gw

open Wire Link Tables Runs
open Table (mem_push mem_update mem_update_of_mem exists_update push_entries push_full)

/-- Where a route leads. -/
structure Via where
  ip : Arr 4
  port : UInt16
  li : Nat
  deriving DecidableEq

def GwRoute.via (r : GwRoute) : Via := ⟨r.ip, r.port, r.li⟩

/-- A GW_ROUTE announcement of a range, as link `via.li` brought it at time `ts`. -/
structure Announced where
  addr : UInt64
  prefixLen : Nat
  via : Via
  ts : Nat
  deriving DecidableEq

def Announced.covers (e : Announced) (addr : UInt64) : Bool := ipv69AddrInRange addr e.addr e.prefixLen

/-- The route that `e` would refresh: the same spelling of the range, the same link. -/
def Announced.spells (e : Announced) (r : GwRoute) : Bool :=
  r.addr = e.addr ∧ r.prefixLen = e.prefixLen ∧ r.li = e.via.li

/-- The route that `e` adds. -/
def Announced.route (e : Announced) (now : Nat) : GwRoute :=
  ⟨e.addr, e.prefixLen, e.via.ip, e.via.port, e.via.li, now⟩

/-- The announcement in `p`; the length of a range is between 1 and 40. -/
def announced (p : Bytes) (li : Nat) (ts : Nat) : Option Announced :=
  if (byteAt p 6).toNat = 0 ∨ 40 < (byteAt p 6).toNat then none
  else some ⟨get40 p 1, (byteAt p 6).toNat, ⟨arr p 7 4, get16 p 11, li⟩, ts⟩

inductive RouteEv where
  | announce (p : Bytes) (li : Nat)
  | expire
  | wait (ms : Nat)

/-- The gateway and the announcements that have not expired, the newest first. -/
structure Routed where
  gw : Gateway
  log : List Announced

def routeStep (s : Routed) : RouteEv → Routed
  | .announce p li => ⟨s.gw.routeLearn p li, (announced p li s.gw.time).toList ++ s.log⟩
  | .expire => ⟨s.gw.routeExpire s.gw.time, s.log.filter fun e => !decide (90 < s.gw.time - e.ts)⟩
  | .wait ms => ⟨{ s.gw with clock := s.gw.clock + ms }, s.log⟩

/-- `e` is the most recent among the longest announcements that cover `addr`. -/
def Answers (log : List Announced) (addr : UInt64) (e : Announced) : Prop :=
  ∃ newer older, log = newer ++ e :: older ∧ e.covers addr = true ∧
    (∀ x ∈ newer, x.covers addr = true → x.prefixLen < e.prefixLen) ∧
    ∀ x ∈ older, x.covers addr = true → x.prefixLen ≤ e.prefixLen

/-- The route table answers every address as the log does. -/
def Refines (s : Routed) : Prop :=
  ∀ addr, match s.gw.routeFind addr with
    | none => ∀ e ∈ s.log, e.covers addr = false
    | some r => ∃ e, Answers s.log addr e ∧ e.via = r.via

/-- A new range finds a free slot. -/
def HasRoom (s : Routed) : RouteEv → Prop
  | .announce p li => ∀ e ∈ announced p li s.gw.time,
      s.gw.routes.entries.any e.spells = false →
        s.gw.routes.entries.length < maxPeers
  | _ => True

/-- An announcement leads where the routes of the same range lead. -/
def Agreeing (s : Routed) : RouteEv → Prop
  | .announce p li => ∀ e ∈ announced p li s.gw.time, ∀ r ∈ s.gw.routes.entries,
      r.prefixLen = e.prefixLen → e.covers r.addr = true → r.via = e.via
  | _ => True

instance (s : Routed) : (ev : RouteEv) → Decidable (HasRoom s ev)
  | .announce p li => inferInstanceAs (Decidable (∀ e ∈ announced p li s.gw.time,
      s.gw.routes.entries.any e.spells = false → s.gw.routes.entries.length < maxPeers))
  | .expire => .isTrue trivial
  | .wait _ => .isTrue trivial

instance (s : Routed) : (ev : RouteEv) → Decidable (Agreeing s ev)
  | .announce p li => inferInstanceAs (Decidable (∀ e ∈ announced p li s.gw.time, ∀ r ∈ s.gw.routes.entries,
      r.prefixLen = e.prefixLen → e.covers r.addr = true → r.via = e.via))
  | .expire => .isTrue trivial
  | .wait _ => .isTrue trivial

theorem inRange_iff (a b : UInt64) (n : Nat) :
    ipv69AddrInRange a b n = true ↔ a >>> .ofNat (40 - n) = b >>> .ofNat (40 - n) := by
  rw [ipv69AddrInRange, UInt64.shiftRight_xor, decide_eq_true_eq, UInt64.xor_eq_zero_iff]

theorem inRange_refl (a : UInt64) (n : Nat) : ipv69AddrInRange a a n = true := (inRange_iff a a n).mpr rfl

/-- Two ranges of one length that share an address are the same. -/
theorem inRange_join {x a b : UInt64} {n : Nat} (ha : ipv69AddrInRange x a n = true)
    (hb : ipv69AddrInRange x b n = true) : ipv69AddrInRange a b n = true := by
  rw [inRange_iff] at *
  rw [← ha, hb]

theorem inRange_trans {x a b : UInt64} {n : Nat} (ha : ipv69AddrInRange x a n = true)
    (hb : ipv69AddrInRange a b n = true) : ipv69AddrInRange x b n = true := by
  rw [inRange_iff] at *
  rw [ha, hb]

/-- A refreshed route only has a later time. -/
def refreshed (g : Gateway) (r : GwRoute) : GwRoute := { r with last := g.time }

/-- A GW_ROUTE is dropped, refreshes a route of the same spelling and link, or adds one. -/
theorem routeLearn_cases (g : Gateway) (p : Bytes) (li : Nat) :
    (announced p li g.time = none ∧ g.routeLearn p li = g) ∨
      ∃ e, announced p li g.time = some e ∧
        (g.routes.entries.any e.spells = true ∧
            g.routeLearn p li = { g with routes := g.routes.update e.spells (refreshed g) } ∨
          g.routes.entries.any e.spells = false ∧
            g.routeLearn p li = { g with routes := g.routes.push (e.route g.time) }) := by
  rw [announced, Gateway.routeLearn]
  by_cases hbad : (byteAt p 6).toNat = 0 ∨ 40 < (byteAt p 6).toNat
  · rw [if_pos hbad, if_pos hbad]
    exact .inl ⟨rfl, rfl⟩
  · rw [if_neg hbad, if_neg hbad]
    refine .inr ⟨_, rfl, ?_⟩
    split
    · rename_i hsame
      exact .inl ⟨hsame, rfl⟩
    · rename_i hsame
      exact .inr ⟨Bool.eq_false_iff.mpr hsame, rfl⟩

theorem announced_ts {p : Bytes} {li ts : Nat} {e : Announced} (h : announced p li ts = some e) : e.ts = ts := by
  rw [announced] at h
  split at h
  · cases h
  · obtain rfl := Option.some.inj h
    rfl

/-- The announcement and the route are of one range and lead to one place. -/
structure SameRoute (e : Announced) (r : GwRoute) : Prop where
  len : r.prefixLen = e.prefixLen
  range : e.covers r.addr = true
  via : r.via = e.via

structure RoutesInv (s : Routed) : Prop where
  past : ∀ e ∈ s.log, e.ts ≤ s.gw.time
  /-- a route was refreshed by an announcement of the log -/
  backed : ∀ r ∈ s.gw.routes.entries, ∃ e ∈ s.log, SameRoute e r ∧ e.ts = r.last
  /-- and every announcement of the log has its route -/
  listed : ∀ e ∈ s.log, ∃ r ∈ s.gw.routes.entries, SameRoute e r ∧ e.ts ≤ r.last
  agree : ∀ r ∈ s.gw.routes.entries, ∀ r' ∈ s.gw.routes.entries,
    r.prefixLen = r'.prefixLen → ipv69AddrInRange r.addr r'.addr r'.prefixLen = true → r.via = r'.via

theorem SameRoute.covers {e : Announced} {r : GwRoute} (h : SameRoute e r) (addr : UInt64) :
    e.covers addr = true ↔ ipv69AddrInRange addr r.addr r.prefixLen = true := by
  have hrange := h.range
  rw [Announced.covers] at hrange ⊢
  rw [h.len]
  constructor
  · exact fun hcov => (inRange_iff _ _ _).mpr (((inRange_iff _ _ _).mp hcov).trans ((inRange_iff _ _ _).mp hrange).symm)
  · exact fun hcov => inRange_trans hcov hrange

/-- The answer of the table is that of the log. -/
theorem RoutesInv.refines {s : Routed} (h : RoutesInv s) : Refines s := by
  intro addr
  cases hfind : s.gw.routeFind addr with
  | none =>
    intro e he
    obtain ⟨r, hr, hsame, -⟩ := h.listed e he
    have hnot := longest_eq_none.mp hfind r hr
    rw [← Bool.not_eq_true, hsame.covers, hnot]
    exact Bool.false_ne_true
  | some r =>
    obtain ⟨hr, hcov⟩ := longest_mem hfind
    obtain ⟨e₀, he₀, hsame₀, -⟩ := h.backed r hr
    have hcov₀ : e₀.covers addr = true := (hsame₀.covers addr).mpr hcov
    cases hlog : longest Announced.prefixLen (fun e => e.covers addr) s.log with
    | none =>
      rw [longest_eq_none.mp hlog e₀ he₀] at hcov₀
      cases hcov₀
    | some e =>
      have hanswers : Answers s.log addr e := longest_split hlog
      obtain ⟨he, hcovE⟩ := longest_mem hlog
      obtain ⟨r', hr', hsame', -⟩ := h.listed e he
      have hcov' := (hsame'.covers addr).mp hcovE
      have hle : r'.prefixLen ≤ r.prefixLen := longest_max hfind hr' hcov'
      have hge : e₀.prefixLen ≤ e.prefixLen := longest_max hlog he₀ hcov₀
      have hlen : r'.prefixLen = r.prefixLen := by
        have h₀ := hsame₀.len
        have h' := hsame'.len
        omega
      rw [hlen] at hcov'
      have hvia : r'.via = r.via := h.agree r' hr' r hr hlen (inRange_join hcov' hcov)
      exact ⟨e, hanswers, hsame'.via.symm.trans hvia⟩

theorem refreshed_same {e : Announced} {g : Gateway} {r : GwRoute} : SameRoute e (refreshed g r) ↔ SameRoute e r :=
  ⟨fun h => ⟨h.len, h.range, h.via⟩, fun h => ⟨h.len, h.range, h.via⟩⟩

/-- An agreeing announcement refreshes a route with its own announcement. -/
theorem RoutesInv.refresh {s : Routed} {e : Announced} (h : RoutesInv s) (hts : e.ts = s.gw.time)
    (hspells : s.gw.routes.entries.any e.spells = true)
    (hagree : ∀ r ∈ s.gw.routes.entries, r.prefixLen = e.prefixLen → e.covers r.addr = true → r.via = e.via) :
    RoutesInv ⟨{ s.gw with routes := s.gw.routes.update e.spells (refreshed s.gw) }, e :: s.log⟩ where
  past := by
    intro x hx
    cases List.mem_cons.mp hx with
    | inl heq => rw [heq, hts]; exact le_rfl
    | inr hold => exact h.past x hold
  backed := by
    intro r hr
    cases mem_update hr with
    | inl hold =>
      obtain ⟨x, hx, hsame, hlast⟩ := h.backed r hold
      exact ⟨x, List.mem_cons_of_mem e hx, hsame, hlast⟩
    | inr hnew =>
      obtain ⟨r₀, hr₀, hsp, rfl⟩ := hnew
      obtain ⟨haddr, hlen, -⟩ := of_decide_eq_true hsp
      have hcov : e.covers r₀.addr = true := by
        rw [haddr]
        exact inRange_refl _ _
      exact ⟨e, List.mem_cons_self, ⟨hlen, hcov, hagree r₀ hr₀ hlen hcov⟩, hts⟩
  listed := by
    intro x hx
    cases List.mem_cons.mp hx with
    | inl heq =>
      obtain ⟨r₀, hr₀, hsp, hmem⟩ := exists_update (f := refreshed s.gw) hspells
      obtain ⟨haddr, hlen, -⟩ := of_decide_eq_true hsp
      have hcov : e.covers r₀.addr = true := by
        rw [haddr]
        exact inRange_refl _ _
      subst heq
      exact ⟨_, hmem, ⟨hlen, hcov, hagree r₀ hr₀ hlen hcov⟩, hts.le⟩
    | inr hold =>
      obtain ⟨r, hr, hsame, hlast⟩ := h.listed x hold
      cases mem_update_of_mem (P := e.spells) (f := refreshed s.gw) hr with
      | inl hkept => exact ⟨r, hkept, hsame, hlast⟩
      | inr hnew => exact ⟨_, hnew, refreshed_same.mpr hsame, h.past x hold⟩
  agree := by
    have hback : ∀ r ∈ (s.gw.routes.update e.spells (refreshed s.gw)).entries,
        ∃ r₀ ∈ s.gw.routes.entries, r.prefixLen = r₀.prefixLen ∧ r.addr = r₀.addr ∧ r.via = r₀.via := by
      intro r hr
      cases mem_update hr with
      | inl hold => exact ⟨r, hold, rfl, rfl, rfl⟩
      | inr hnew =>
        obtain ⟨r₀, hr₀, -, rfl⟩ := hnew
        exact ⟨r₀, hr₀, rfl, rfl, rfl⟩
    intro r hr r' hr' hlen hrange
    obtain ⟨r₀, hr₀, hl, ha, hv⟩ := hback r hr
    obtain ⟨r₁, hr₁, hl', ha', hv'⟩ := hback r' hr'
    rw [hl, hl'] at hlen
    rw [ha, ha', hl'] at hrange
    rw [hv, hv']
    exact h.agree r₀ hr₀ r₁ hr₁ hlen hrange

/-- An agreeing announcement adds a route of its own. -/
theorem RoutesInv.learn {s : Routed} {e : Announced} (h : RoutesInv s) (hts : e.ts = s.gw.time)
    (hroom : s.gw.routes.entries.length < maxPeers)
    (hagree : ∀ r ∈ s.gw.routes.entries, r.prefixLen = e.prefixLen → e.covers r.addr = true → r.via = e.via) :
    RoutesInv ⟨{ s.gw with routes := s.gw.routes.push (e.route s.gw.time) }, e :: s.log⟩ := by
  have hentries := push_entries hroom (e.route s.gw.time)
  have hown : SameRoute e (e.route s.gw.time) := ⟨rfl, inRange_refl _ _, rfl⟩
  constructor
  · intro x hx
    cases List.mem_cons.mp hx with
    | inl heq => rw [heq, hts]; exact le_rfl
    | inr hold => exact h.past x hold
  · intro r hr
    cases mem_push hr with
    | inl hold =>
      obtain ⟨x, hx, hsame, hlast⟩ := h.backed r hold
      exact ⟨x, List.mem_cons_of_mem e hx, hsame, hlast⟩
    | inr hnew =>
      subst hnew
      exact ⟨e, List.mem_cons_self, hown, hts⟩
  · intro x hx
    dsimp only
    rw [hentries]
    cases List.mem_cons.mp hx with
    | inl heq =>
      subst heq
      exact ⟨_, List.mem_append_right _ List.mem_cons_self, hown, hts.le⟩
    | inr hold =>
      obtain ⟨r, hr, hsame, hlast⟩ := h.listed x hold
      exact ⟨r, List.mem_append_left _ hr, hsame, hlast⟩
  · intro r hr r' hr' hlen hrange
    cases mem_push hr with
    | inl hold =>
      cases mem_push hr' with
      | inl hold' => exact h.agree r hold r' hold' hlen hrange
      | inr hnew' =>
        subst hnew'
        exact hagree r hold hlen hrange
    | inr hnew =>
      subst hnew
      cases mem_push hr' with
      | inl hold' =>
        have hback : e.covers r'.addr = true := by
          rw [Announced.covers, inRange_iff]
          have hfore := (inRange_iff _ _ _).mp hrange
          rw [← hlen] at hfore
          exact hfore.symm
        exact (hagree r' hold' hlen.symm hback).symm
      | inr hnew' => rw [hnew']

/-- A route lives as long as the youngest announcement behind it. -/
theorem RoutesInv.expire {s : Routed} (h : RoutesInv s) : RoutesInv (routeStep s .expire) where
  past := fun e he => h.past e (List.mem_filter.mp he).1
  backed := by
    intro r hr
    obtain ⟨hold, hlive⟩ := Table.mem_expire.mp hr
    obtain ⟨e, he, hsame, hlast⟩ := h.backed r hold
    refine ⟨e, List.mem_filter.mpr ⟨he, ?_⟩, hsame, hlast⟩
    rw [hlast, hlive]
    rfl
  listed := by
    intro e he
    obtain ⟨hold, hlive⟩ := List.mem_filter.mp he
    obtain ⟨r, hr, hsame, hlast⟩ := h.listed e hold
    have hyoung : ¬ 90 < s.gw.time - e.ts := by simpa using hlive
    have hdead : ¬ 90 < s.gw.time - r.last := by omega
    exact ⟨r, Table.mem_expire.mpr ⟨hr, decide_eq_false hdead⟩, hsame, hlast⟩
  agree := fun r hr r' hr' => h.agree r (Table.mem_expire.mp hr).1 r' (Table.mem_expire.mp hr').1

theorem RoutesInv.step {s : Routed} {ev : RouteEv} (h : RoutesInv s) (hroom : HasRoom s ev) (hagree : Agreeing s ev) :
    RoutesInv (routeStep s ev) := by
  cases ev with
  | announce p li =>
    rw [routeStep]
    cases routeLearn_cases s.gw p li with
    | inl hdropped =>
      rw [hdropped.1, hdropped.2]
      exact h
    | inr htaken =>
      obtain ⟨e, he, hcase⟩ := htaken
      have hts := announced_ts he
      rw [he]
      cases hcase with
      | inl hold =>
        rw [hold.2]
        exact h.refresh hts hold.1 (hagree e he)
      | inr hnew =>
        rw [hnew.2]
        exact h.learn hts (hroom e he hnew.1) (hagree e he)
  | expire => exact h.expire
  | wait ms =>
    have hle : s.gw.time ≤ (s.gw.clock + ms) / 1000 := Nat.div_le_div_right (Nat.le_add_right _ _)
    exact ⟨fun e he => (h.past e he).trans hle, h.backed, h.listed, h.agree⟩

/-- A new announcement that no longer one hides is the answer. -/
theorem Answers.newest {log : List Announced} {addr : UInt64} {e x : Announced} (h : Answers (x :: log) addr e)
    (hx : x.covers addr = true) (hlong : e.covers addr = true → e.prefixLen ≤ x.prefixLen) : e = x := by
  obtain ⟨newer, older, hsplit, hcov, hnewer, -⟩ := h
  cases newer with
  | nil => exact (List.cons.inj hsplit).1.symm
  | cons y ys =>
    obtain ⟨rfl, -⟩ := List.cons.inj hsplit
    have hlt := hnewer x List.mem_cons_self hx
    have hle := hlong hcov
    omega

/-- What the table answers at an address does not change with an announcement of a range
that it already had there. -/
theorem routeLearn_first {g : Gateway} {p : Bytes} {li : Nat} {e : Announced} {r r' : GwRoute} {addr : UInt64}
    (he : announced p li g.time = some e) (hr : r ∈ g.routes.entries) (hlen : r.prefixLen = e.prefixLen)
    (hcov : ipv69AddrInRange addr r.addr r.prefixLen = true)
    (hfind : (g.routeLearn p li).routeFind addr = some r') :
    r.prefixLen ≤ r'.prefixLen ∧ ∃ r₀ ∈ g.routes.entries, ipv69AddrInRange addr r₀.addr r₀.prefixLen = true ∧
      r₀.prefixLen = r'.prefixLen ∧ r₀.via = r'.via := by
  obtain ⟨hmem, hfit⟩ := longest_mem hfind
  cases routeLearn_cases g p li with
  | inl hdropped =>
    rw [hdropped.1] at he
    cases he
  | inr htaken =>
    obtain ⟨x, hx, hcase⟩ := htaken
    obtain rfl := Option.some.inj (he.symm.trans hx)
    cases hcase with
    | inl hold =>
      rw [hold.2] at hmem hfind
      have hle : r.prefixLen ≤ r'.prefixLen := by
        cases mem_update_of_mem (P := e.spells) (f := refreshed g) hr with
        | inl hkept => exact longest_max hfind hkept hcov
        | inr hnew => exact longest_max (y := refreshed g r) hfind hnew hcov
      cases mem_update hmem with
      | inl hkept => exact ⟨hle, r', hkept, hfit, rfl, rfl⟩
      | inr hnew =>
        obtain ⟨r₀, hr₀, -, rfl⟩ := hnew
        exact ⟨hle, r₀, hr₀, hfit, rfl, rfl⟩
    | inr hnew =>
      rw [hnew.2] at hmem hfind
      by_cases hroom : g.routes.entries.length < maxPeers
      · have hentries := push_entries hroom (e.route g.time)
        have hr' : r ∈ (g.routes.push (e.route g.time)).entries := by
          rw [hentries]
          exact List.mem_append_left _ hr
        refine ⟨longest_max hfind hr' hcov, ?_⟩
        obtain ⟨before, after, hsplit, -, hbefore, -⟩ := longest_split hfind
        dsimp only at hsplit
        rw [hentries] at hsplit
        cases after using List.reverseRecOn with
        | nil =>
          -- the added route is the last of the table, behind one of its own length
          obtain ⟨rfl, hlast⟩ := List.append_inj' hsplit rfl
          obtain rfl := List.singleton_inj.mp hlast
          have hlt := hbefore r hr hcov
          rw [hlen] at hlt
          exact absurd hlt (Nat.lt_irrefl _)
        | append_singleton after y =>
          rw [← List.cons_append, ← List.append_assoc] at hsplit
          obtain ⟨hold, -⟩ := List.append_inj' hsplit rfl
          have hr₀ : r' ∈ g.routes.entries := by
            rw [hold]
            exact List.mem_append_right _ List.mem_cons_self
          exact ⟨r', hr₀, hfit, rfl, rfl⟩
      · rw [push_full hroom] at hmem hfind
        exact ⟨longest_max hfind hr hcov, r', hmem, hfit, rfl, rfl⟩

/-- An announcement that contradicts a route is answered wrongly wherever no longer route
hides its range. -/
theorem contradiction_misroutes {s : Routed} {p : Bytes} {li : Nat} {e : Announced} {r : GwRoute} (addr : UInt64)
    (h : RoutesInv s) (he : announced p li s.gw.time = some e) (hr : r ∈ s.gw.routes.entries)
    (hlen : r.prefixLen = e.prefixLen) (hcov : ipv69AddrInRange addr r.addr r.prefixLen = true)
    (hrange : e.covers r.addr = true) (hvia : r.via ≠ e.via)
    (hlong : ∀ r' ∈ s.gw.routes.entries, ipv69AddrInRange addr r'.addr r'.prefixLen = true →
      r'.prefixLen ≤ e.prefixLen) : ¬ Refines (routeStep s (.announce p li)) := by
  intro href
  have hlog : (routeStep s (.announce p li)).log = e :: s.log := by
    rw [routeStep, he]
    rfl
  have hcovE : e.covers addr = true := by
    rw [hlen] at hcov
    exact inRange_trans hcov hrange
  have hanswer := href addr
  cases hfind : (routeStep s (.announce p li)).gw.routeFind addr with
  | none =>
    rw [hfind, hlog] at hanswer
    rw [hanswer e List.mem_cons_self] at hcovE
    cases hcovE
  | some r' =>
    rw [hfind, hlog] at hanswer
    obtain ⟨x, hx, hxvia⟩ := hanswer
    obtain ⟨hle, r₀, hr₀, hcov₀, hlen₀, hvia₀⟩ := routeLearn_first he hr hlen hcov hfind
    have hle₀ := hlong r₀ hr₀ hcov₀
    have hsamelen : r₀.prefixLen = r.prefixLen := by omega
    have hsame : r₀.via = r.via := by
      rw [hsamelen] at hcov₀
      exact h.agree r₀ hr₀ r hr hsamelen (inRange_join hcov₀ hcov)
    have hxe : x = e := by
      refine hx.newest hcovE fun hxcov => ?_
      obtain ⟨newer, older, hsplit, -⟩ := hx
      have hxmem : x ∈ e :: s.log := by
        rw [hsplit]
        exact List.mem_append_right _ List.mem_cons_self
      cases List.mem_cons.mp hxmem with
      | inl heq => rw [heq]
      | inr hold =>
        obtain ⟨r₁, hr₁, hsame₁, -⟩ := h.listed x hold
        rw [← hsame₁.len]
        exact hlong r₁ hr₁ ((hsame₁.covers addr).mp hxcov)
    rw [hxe, ← hvia₀, hsame] at hxvia
    exact hvia hxvia.symm

/-- A gateway at its start, which has heard of no route. -/
def newRouted (cfg : Config) (links : List (SockAddr × Arr 32)) (stale : Bytes) : Routed :=
  ⟨start cfg links stale, []⟩

theorem routesInv_new (cfg : Config) (links : List (SockAddr × Arr 32)) (stale : Bytes) :
    RoutesInv (newRouted cfg links stale) where
  past := fun _ he => nomatch he
  backed := fun _ hr => nomatch hr
  listed := fun _ he => nomatch he
  agree := fun _ hr => nomatch hr

def toyRoutes : Config := ⟨6969, .zero 64, [], false, none, 0⟩

def toyIp (x : UInt8) : Arr 4 := ⟨[10, 0, 0, x], rfl⟩

/-- The range of the first `n` bits of `80:00:00:00:00`, at host `x`. -/
def toyRoute (n x : UInt8) : Bytes := ctrlGwRoute :: (put40 0x8000000000 ++ [n] ++ (toyIp x).val ++ put16 7)

/-- Announcements that never contradict a route of their range: the table answers as the
log does, all the time. -/
theorem routes_refine_log (cfg : Config) (links : List (SockAddr × Arr 32)) (stale : Bytes) (es : List RouteEv)
    (hroom : Along routeStep HasRoom (newRouted cfg links stale) es)
    (hagree : Along routeStep Agreeing (newRouted cfg links stale) es) :
    Throughout routeStep Refines (newRouted cfg links stale) es := by
  have hboth : Along routeStep (fun s ev => HasRoom s ev ∧ Agreeing s ev) (newRouted cfg links stale) es :=
    along_and hroom hagree
  exact throughout_of_inv (fun s ev h hok => h.step hok.1 hok.2) (fun s h => h.refines) _ es
    (routesInv_new cfg links stale) hboth

/-- A range of 8 bits and one of 16 inside it, refreshed and left to expire. -/
theorem routes_refine_log_toy :
    Throughout routeStep Refines (newRouted toyRoutes [] [])
      [.announce (toyRoute 8 1) 0, .announce (toyRoute 16 2) 1, .wait 60000, .announce (toyRoute 8 1) 0,
        .wait 60000, .expire] :=
  routes_refine_log toyRoutes [] [] _ (by decide +kernel) (by decide +kernel)

/-- The client of a range moves and is announced again: the route still leads to where it was. -/
theorem refreshed_route_stale :
    let s := routeStep (newRouted toyRoutes [] []) (.announce (toyRoute 8 1) 0)
    Refines s ∧ ¬ Refines (routeStep s (.announce (toyRoute 8 2) 0)) := by
  intro s
  have hinv : RoutesInv s := (routesInv_new toyRoutes [] []).step (by decide +kernel) (by decide +kernel)
  have hroutes : s.gw.routes.entries = [⟨0x8000000000, 8, toyIp 1, 7, 0, 0⟩] := by decide +kernel
  refine ⟨hinv.refines, contradiction_misroutes (e := ⟨0x8000000000, 8, ⟨toyIp 2, 7, 0⟩, 0⟩)
    (r := ⟨0x8000000000, 8, toyIp 1, 7, 0, 0⟩) 0x8000000001 hinv (by decide +kernel) ?_ rfl
    (by decide +kernel) (by decide +kernel) (by decide +kernel) ?_⟩
  · rw [hroutes]
    exact List.mem_singleton_self _
  · rw [hroutes]
    decide +kernel

end Gw
