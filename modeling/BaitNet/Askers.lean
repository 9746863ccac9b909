import BaitNet.Federation

/-!
# Askers waiting for the mesh

`gwp[]` holds at most 16 askers, one for each address, for at least two seconds. Who is
noted there is sent the answer of the first GW_R in that time; who comes when the address is
taken or the table is full is not.
-/
namespace Gw

open Wire Link Crypto Tables Text

variable (c : TweetNaCl)

/-- An endpoint with mapped IPv4 written plainly. -/
def epNorm (a : SockAddr) : SockAddr :=
  match epV4 a with
  | some (ip, port) => .v4 ip port
  | none => a

theorem v4Mapped_ne {ip ip' : Arr 16} (h : Text.v4Mapped ip = true) (h' : Text.v4Mapped ip' = false) : ip ≠ ip' := by
  rintro rfl
  rw [h] at h'
  cases h'

/-- Two endpoints match when they are the same up to the mapping of IPv4. -/
theorem linkEpMatch_iff (a : SockAddr) (l : GwLink) :
    Gateway.linkEpMatch a l = true ↔ epNorm a = epNorm l.ep := by
  obtain ⟨b, pub, last⟩ := l
  cases a with
  | v4 ip port =>
    cases b with
    | v4 ip' port' => simp [Gateway.linkEpMatch, epNorm, epV4]
    | v6 ip' port' =>
      cases hm : Text.v4Mapped ip' with
      | true => simp [Gateway.linkEpMatch, epNorm, epV4, hm]
      | false => simp [Gateway.linkEpMatch, epNorm, epV4, hm]
  | v6 ip port =>
    cases hm : Text.v4Mapped ip with
    | true =>
      cases b with
      | v4 ip' port' => simp [Gateway.linkEpMatch, epNorm, epV4, hm]
      | v6 ip' port' =>
        cases hm' : Text.v4Mapped ip' with
        | true => simp [Gateway.linkEpMatch, epNorm, epV4, hm, hm']
        | false => simp [Gateway.linkEpMatch, epNorm, epV4, hm, hm', v4Mapped_ne hm hm']
    | false =>
      cases b with
      | v4 ip' port' => simp [Gateway.linkEpMatch, epNorm, epV4, hm]
      | v6 ip' port' =>
        cases hm' : Text.v4Mapped ip' with
        | true => simp [Gateway.linkEpMatch, epNorm, epV4, hm, hm', (v4Mapped_ne hm' hm).symm]
        | false => simp [Gateway.linkEpMatch, epNorm, epV4, hm, hm', and_comm]

theorem gwLinkFind_eq (g : Gateway) (a : SockAddr) :
    g.gwLinkFind a = g.linkConf.findIdx? fun x => epNorm a = epNorm x.1 := by
  rw [Gateway.gwLinkFind, Gateway.linkConf, List.findIdx?_map]
  congr 1
  funext l
  exact Bool.eq_iff_iff.mpr ((linkEpMatch_iff a l).trans decide_eq_true_iff.symm)

/-- A link is found again by its own endpoint. -/
theorem gwLinkFind_self {g : Gateway} {a : SockAddr} {li : Nat} {l : GwLink} (hli : g.gwLinkFind a = some li)
    (hl : g.links[li]? = some l) : g.gwLinkFind l.ep = some li := by
  obtain ⟨hlt, hmatch, -⟩ := List.findIdx?_eq_some_iff_getElem.mp hli
  obtain ⟨hlt', rfl⟩ := List.getElem?_eq_some_iff.mp hl
  have hnorm := (linkEpMatch_iff a _).mp hmatch
  rw [gwLinkFind_eq] at hli ⊢
  rw [← hnorm]
  exact hli

/-- Who asks the mesh: a client, or a link that passes a GW_Q on. -/
inductive Asker where
  | client (ep : SockAddr)
  | link (li : Nat)
  deriving DecidableEq

namespace Gateway

/-- The address of a query that is accepted for forwarding, and who asks: `gw_mesh_query`
returns 1, or `gw_fed_handle` takes the GW_Q of a link for an unknown address. -/
def acceptedQuery (g : Gateway) (i : Input) : Option (UInt64 × Asker) :=
  match i with
  | .udp ep n =>
    if g.asksMesh (.udp ep n) then some (get40 g.buf 3, .client ep)
    else
      match g.linkOf (.udp ep n) with
      | some (li, _) =>
        let q := get40 (framePayload g.buf) 1
        if isControl ctrlGwQ 6 g.buf n ∧ g.peerFindAddr q = none then some (q, .link li) else none
      | none => none
  | .l2 _ => none

/-- The entry waits for `q` in the name of `a`. -/
def waits (g : Gateway) (q : UInt64) (a : Asker) (e : GwPend) : Prop :=
  e.addr = q ∧
    match a with
    | .client ep => e.viaLink = false ∧ e.asker = ep
    | .link li => e.viaLink = true ∧ g.gwLinkFind e.asker = some li

instance (g : Gateway) (q : UInt64) (e : GwPend) : ∀ a, Decidable (g.waits q a e)
  | .client _ => inferInstanceAs (Decidable (_ ∧ _ ∧ _))
  | .link _ => inferInstanceAs (Decidable (_ ∧ _ ∧ _))

/-- There is room for an asker: nobody waits for the address, the table is not full and a
link leaves another link to ask; or the same asker has come in the same second. -/
def hasRoom (g : Gateway) (q : UInt64) (a : Asker) : Prop :=
  (g.asked q = false ∧ g.gwp.entries.length < 16 ∧
    match a with
    | .client _ => True
    | .link _ => 1 < g.links.length) ∨
  ∃ e ∈ g.gwp.entries, g.waits q a e ∧ e.ts = g.time

instance (g : Gateway) (q : UInt64) : ∀ a, Decidable (g.hasRoom q a)
  | .client _ => inferInstanceAs (Decidable ((_ ∧ _ ∧ True) ∨ _))
  | .link _ => inferInstanceAs (Decidable ((_ ∧ _ ∧ _) ∨ _))

/-- A GW_Q of a link is passed on and does not fit the frame of `gw_link_send_pkt`. -/
def overruns (g : Gateway) (i : Input) : Prop :=
  let q := get40 (framePayload g.buf) 1
  (g.linkOf i).isSome = true ∧ isControl ctrlGwQ (linkPktMax + 1) g.buf i.size ∧ g.peerFindAddr q = none ∧
    1 < g.links.length ∧ g.asked q = false ∧ g.gwp.entries.length < 16

instance (g : Gateway) (i : Input) : Decidable (g.overruns i) :=
  inferInstanceAs (Decidable (_ ∧ _ ∧ _ ∧ _ ∧ _ ∧ _))

/-- What a GW_R has for an asker. -/
def answerTo (g : Gateway) (q : UInt64) (a : Asker) : Out :=
  let p := framePayload g.buf
  match a with
  | .client ep => .answer ep q (relayAnswer q (epText (.v4 (arr p 6 4) (get16 p 10))))
  | .link li => g.gwLinkSendPkt li (slice p 0 12)

/-- The input is a GW_R for `q`, and `a` is sent the answer. -/
def answers (g : Gateway) (i : Input) (q : UInt64) (a : Asker) : Prop :=
  g.replies i ∧ get40 (framePayload g.buf) 1 = q ∧ g.answerTo q a ∈ (g.handle c i).2

instance (g : Gateway) (i : Input) (q : UInt64) (a : Asker) : Decidable (g.answers c i q a) :=
  inferInstanceAs (Decidable (_ ∧ _ ∧ _))

end Gateway

theorem relayTo_waits {g : Gateway} {q : UInt64} {a : Asker} {e : GwPend} (h : g.waits q a e) :
    g.relayTo e (framePayload g.buf) = [g.answerTo q a] := by
  obtain ⟨rfl, h⟩ := h
  rw [Gateway.relayTo]
  cases a with
  | client ep =>
    obtain ⟨hlink, rfl⟩ := h
    rw [hlink, if_neg Bool.false_ne_true]
    rfl
  | link li =>
    rw [h.1, if_pos rfl, h.2]
    rfl

variable {c} in
/-- An entry stays until a GW_R for its address finds it. -/
theorem Effect.pending {g g' : Gateway} {i : Input} {outs : List Out} (h : Effect c g i g' outs) {e : GwPend}
    (he : e ∈ g.gwp.entries) :
    e ∈ g'.gwp.entries ∨
      g.replies i ∧ get40 (framePayload g.buf) 1 = e.addr ∧ outs = g.relayTo e (framePayload g.buf) := by
  rcases h.gwp with heq | ⟨x, -, -, heq⟩ | ⟨e', hreply, houts, htake⟩
  · exact .inl (by rw [heq]; exact he)
  · refine .inl ?_
    rw [heq]
    by_cases hlt : g.gwp.entries.length < 16
    · rw [Table.push_entries hlt]
      exact List.mem_append_left _ he
    · rw [Table.push_full hlt]
      exact he
  · obtain ⟨haddr, hperm⟩ := Table.takeFirst_some htake
    cases List.mem_cons.mp (hperm.symm.subset he) with
    | inl heq =>
      subst heq
      exact .inr ⟨hreply, (of_decide_eq_true haddr).symm, houts⟩
    | inr hmem => exact .inl hmem

/-- One asker for each address. -/
def Gateway.OneEach (g : Gateway) : Prop := (g.gwp.entries.map GwPend.addr).Nodup

variable {c} in
theorem Effect.oneEach {g g' : Gateway} {i : Input} {outs : List Out} (h : Effect c g i g' outs)
    (hg : g.OneEach) : g'.OneEach := by
  rw [Gateway.OneEach]
  rcases h.gwp with heq | ⟨x, hnew, -, heq⟩ | ⟨e, -, -, htake⟩
  · rw [heq]
    exact hg
  · rw [heq]
    by_cases hlt : g.gwp.entries.length < 16
    · rw [Table.push_entries hlt, List.map_append, List.map_singleton, ← List.concat_eq_append]
      refine List.nodup_concat _ _ |>.mpr ⟨fun hmem => ?_, hg⟩
      obtain ⟨e, he, haddr⟩ := List.mem_map.mp hmem
      exact Gateway.asked_eq_false.mp hnew e he haddr
    · rw [Table.push_full hlt]
      exact hg
  · have hperm := ((Table.takeFirst_some htake).2.map GwPend.addr).nodup_iff.mpr hg
    exact (List.nodup_cons.mp hperm).2

theorem eq_of_oneEach {g : Gateway} (hg : g.OneEach) {e e' : GwPend} (he : e ∈ g.gwp.entries)
    (he' : e' ∈ g.gwp.entries) (h : e.addr = e'.addr) : e = e' := List.inj_on_of_nodup_map hg he he' h

/-- A GW_R for the address of a waiting asker is the answer to it. -/
theorem reply_answers {g : Gateway} {i : Input} {q : UInt64} {a : Asker} {e : GwPend} (hone : g.OneEach)
    (hreply : g.replies i) (hq : get40 (framePayload g.buf) 1 = q) (he : e ∈ g.gwp.entries) (hwait : g.waits q a e) :
    g.answers c i q a := by
  refine ⟨hreply, hq, ?_⟩
  rw [handle_reply hreply, Gateway.gwPendRelay]
  cases htake : g.gwp.takeFirst fun e => e.addr = get40 (framePayload g.buf) 1 with
  | none =>
    have hnone := Table.takeFirst_none.mp htake e he
    rw [hwait.1, hq, decide_eq_true rfl] at hnone
    cases hnone
  | some x =>
    obtain ⟨e', gwp⟩ := x
    obtain ⟨haddr, hperm⟩ := Table.takeFirst_some htake
    have heq : e' = e := by
      refine eq_of_oneEach hone (hperm.subset List.mem_cons_self) he ?_
      rw [of_decide_eq_true haddr, hq, hwait.1]
    subst heq
    dsimp only
    rw [relayTo_waits hwait]
    exact List.mem_singleton.mpr rfl

theorem query_asks {g : Gateway} {ep : SockAddr} {n : Nat} (h : g.asksMesh (.udp ep n))
    (hnew : g.asked (get40 g.buf 3) = false) :
    ∃ rate, (g.query ep g.buf).1 =
      { g with rate := rate, gwp := g.gwp.push ⟨get40 g.buf 3, ep, false, g.time⟩ } := by
  obtain ⟨-, hallow, hasker, hq, hr, hmesh⟩ := h
  obtain ⟨a, ha⟩ := Option.isSome_iff_exists.mp hasker
  rw [Gateway.query]
  cases hrate : g.allow (slice g.buf 20 6) 20 40 with
  | mk g' ok =>
    rw [hrate] at hallow
    subst hallow
    obtain ⟨rate, rfl⟩ := allow_state hrate
    dsimp only
    have ha' : ({ g with rate := rate } : Gateway).peerFindEndpoint ep = some a := ha
    have hq' : (({ g with rate := rate } : Gateway).peerFindAddr (get40 g.buf 3)).bind Peer.ep = none := hq
    have hr' : ({ g with rate := rate } : Gateway).routeFind (get40 g.buf 3) = none := hr
    have hnew' : ({ g with rate := rate } : Gateway).asked (get40 g.buf 3) = false := hnew
    have hmesh' : ¬ (g.gwn.isEmpty && g.links.isEmpty) = true := Bool.eq_false_iff.mp hmesh
    rw [ha', hq']
    simp only [Option.isSome_none, Bool.false_eq_true, if_false, hr', if_neg hmesh', Gateway.gwMeshQuery, hnew']
    exact ⟨rate, rfl⟩

/-- An accepted query that has room leaves its asker waiting since this second. -/
theorem accepted_waits {g : Gateway} {i : Input} {q : UInt64} {a : Asker} (hacc : g.acceptedQuery i = some (q, a))
    (hroom : g.hasRoom q a) (hfits : ¬ g.overruns i) :
    ∃ e ∈ (g.handle c i).1.gwp.entries, g.waits q a e ∧ e.ts = g.time := by
  have hpush : ∀ {g' : Gateway} {x : GwPend}, g.gwp.entries.length < 16 → g'.gwp = g.gwp.push x →
      g.waits q a x → x.ts = g.time → ∃ e ∈ g'.gwp.entries, g.waits q a e ∧ e.ts = g.time := by
    intro g' x hlen heq hwait hts
    refine ⟨x, ?_, hwait, hts⟩
    rw [heq, Table.push_entries hlen]
    exact List.mem_append_right _ (List.mem_singleton.mpr rfl)
  cases i with
  | l2 n => cases hacc
  | udp ep n =>
    rw [Gateway.acceptedQuery] at hacc
    cases hroom with
    | inr hsame =>
      obtain ⟨e, he, hwait, hts⟩ := hsame
      cases (handle_effect c g (.udp ep n)).pending he with
      | inl h => exact ⟨e, h, hwait, hts⟩
      | inr hreply =>
        exfalso
        obtain ⟨⟨⟨-, htype, -⟩, hmesh⟩, -⟩ := hreply
        obtain ⟨⟨li, l⟩, hl⟩ := Option.isSome_iff_exists.mp hmesh
        obtain ⟨ep', n', heq, hquery, -⟩ := fromLink_udp hl
        obtain ⟨rfl, rfl⟩ := Input.udp.inj heq
        split at hacc
        · rename_i hask
          exact hquery hask.1
        · rw [hl] at hacc
          dsimp only at hacc
          split at hacc
          · rename_i hgwq
            have h := hgwq.1.2.1
            rw [htype] at h
            exact absurd h (by decide)
          · cases hacc
    | inl hfresh =>
      obtain ⟨hnew, hlen, hlinks⟩ := hfresh
      split at hacc
      · rename_i hask
        obtain ⟨rfl, rfl⟩ := Prod.mk.inj (Option.some.inj hacc)
        obtain ⟨rate, heq⟩ := query_asks hask hnew
        rw [handle_query hask.1]
        exact hpush hlen (by rw [heq]) ⟨rfl, rfl, rfl⟩ rfl
      · cases hl : g.linkOf (.udp ep n) with
        | none =>
          rw [hl] at hacc
          cases hacc
        | some x =>
          obtain ⟨li, l⟩ := x
          rw [hl] at hacc
          dsimp only at hacc
          split at hacc
          · rename_i hgwq
            obtain ⟨rfl, rfl⟩ := Prod.mk.inj (Option.some.inj hacc)
            have hshort : n - 14 - ipv69HeaderLen ≤ Gateway.linkPktMax := by
              by_contra hlong
              exact hfits ⟨by rw [hl]; rfl, ⟨hgwq.1.1, hgwq.1.2.1, Nat.lt_of_not_le hlong⟩, hgwq.2, hlinks, hnew, hlen⟩
            have hfed := @gwFedHandle_query c g li l n hgwq.1 hgwq.2 hlinks hnew hlen hshort
            obtain ⟨ep', n', heq, -, -, hli, hmem⟩ := fromLink_udp hl
            rw [handle_link hl]
            dsimp only [Input.size]
            rw [hfed]
            exact hpush hlen rfl ⟨rfl, rfl, gwLinkFind_self hli hmem⟩ rfl
          · cases hacc

/-- What becomes of an accepted query `x`: it is answered in `mid`, or it waits, or two
seconds are over. -/
def Served (g : Gateway) (x : Gateway × Input) (mid : List (Gateway × Input)) : Prop :=
  ∀ q a, x.1.acceptedQuery x.2 = some (q, a) → x.1.hasRoom q a → ¬ x.1.overruns x.2 →
    (∃ z ∈ mid, z.1.answers c z.2 q a) ∨ (∃ e ∈ g.gwp.entries, g.waits q a e ∧ e.ts = x.1.time) ∨
      x.1.time + 2 < g.time

structure Serving (links : List (SockAddr × Arr 32)) (hs : List (Gateway × Input)) (g : Gateway) : Prop where
  conf : g.linkConf = links
  oneEach : g.OneEach
  served : ∀ pre x mid, hs = pre ++ x :: mid → Served c g x mid

theorem waits_of_linkConf {g g' : Gateway} (h : g'.linkConf = g.linkConf) {q : UInt64} {a : Asker} {e : GwPend}
    (hw : g.waits q a e) : g'.waits q a e := by
  refine ⟨hw.1, ?_⟩
  cases a with
  | client ep => exact hw.2
  | link li =>
    refine ⟨hw.2.1, ?_⟩
    rw [gwLinkFind_eq, h, ← gwLinkFind_eq]
    exact hw.2.2

theorem Served.mono {g g' : Gateway} {x : Gateway × Input} {mid : List (Gateway × Input)} (h : Served c g x mid)
    (hconf : g'.linkConf = g.linkConf) (htime : g.time ≤ g'.time)
    (hkeep : ∀ e ∈ g.gwp.entries, e ∈ g'.gwp.entries ∨ e.ts + 2 < g'.time) : Served c g' x mid := by
  intro q a hacc hroom hfits
  rcases h q a hacc hroom hfits with hans | ⟨e, he, hwait, hts⟩ | hlate
  · exact .inl hans
  · cases hkeep e he with
    | inl hmem => exact .inr (.inl ⟨e, hmem, waits_of_linkConf hconf hwait, hts⟩)
    | inr hold => exact .inr (.inr (by omega))
  · exact .inr (.inr (by omega))

theorem time_wait (g : Gateway) (ms : Nat) : g.time ≤ (g.wait ms).time :=
  Nat.div_le_div_right (Nat.le_add_right _ _)

/-- One more input: a query is served from then on, and those before it still are. -/
theorem Served.handle {g : Gateway} {i : Input} {x : Gateway × Input} {mid : List (Gateway × Input)}
    (h : Served c g x mid) : Served c (g.handle c i).1 x (mid ++ [(g, i)]) := by
  have heff := handle_effect c g i
  intro q a hacc hroom hfits
  rcases h q a hacc hroom hfits with ⟨z, hz, hans⟩ | ⟨e, he, hwait, hts⟩ | hlate
  · exact .inl ⟨z, List.mem_append_left _ hz, hans⟩
  · cases heff.pending he with
    | inl hmem => exact .inr (.inl ⟨e, hmem, waits_of_linkConf heff.linkConf hwait, hts⟩)
    | inr hreply =>
      obtain ⟨hreply, hq, houts⟩ := hreply
      refine .inl ⟨(g, i), List.mem_append_right _ (List.mem_singleton.mpr rfl), hreply, hq.trans hwait.1, ?_⟩
      rw [houts, relayTo_waits hwait]
      exact List.mem_singleton.mpr rfl
  · exact .inr (.inr (by rw [heff.time]; exact hlate))

theorem served_accepted (g : Gateway) (i : Input) : Served c (g.handle c i).1 (g, i) [] := by
  have heff := handle_effect c g i
  intro q a hacc hroom hfits
  obtain ⟨e, he, hwait, hts⟩ := accepted_waits c hacc hroom hfits
  exact .inr (.inl ⟨e, he, waits_of_linkConf heff.linkConf hwait, hts⟩)

theorem kept_serving (links : List (SockAddr × Arr 32)) : Kept c (Serving c links) where
  wait hs g ms h :=
    ⟨h.conf, h.oneEach, fun pre x mid hsplit =>
      (h.served pre x mid hsplit).mono c rfl (time_wait g ms) fun e he => .inl he⟩
  housekeeping hs g h := by
    refine ⟨h.conf, ?_, fun pre x mid hsplit => ?_⟩
    · have hperm := (Table.expire_entries g.gwp fun e => 2 < g.time - e.ts).map GwPend.addr
      exact hperm.nodup_iff.mpr ((List.filter_sublist.map GwPend.addr).nodup h.oneEach)
    · refine (h.served pre x mid hsplit).mono c rfl le_rfl fun e he => ?_
      by_cases hold : 2 < g.time - e.ts
      · exact .inr (by show e.ts + 2 < g.time; omega)
      · exact .inl (Table.mem_expire.mpr ⟨he, decide_eq_false hold⟩)
  recvInto hs g data h := ⟨h.conf, h.oneEach, h.served⟩
  handle hs g i h := by
    have heff := handle_effect c g i
    refine ⟨heff.linkConf.trans h.conf, heff.oneEach h.oneEach, fun pre x mid hsplit => ?_⟩
    cases List.eq_nil_or_concat mid with
    | inl hnil =>
      subst hnil
      obtain ⟨-, hx⟩ := List.append_inj' hsplit rfl
      rw [← List.singleton_inj.mp hx]
      exact served_accepted c g i
    | inr hconcat =>
      obtain ⟨mid', y, rfl⟩ := hconcat
      rw [List.concat_eq_append, ← List.cons_append, ← List.append_assoc] at hsplit
      obtain ⟨hhs, hy⟩ := List.append_inj' hsplit rfl
      rw [List.concat_eq_append, ← List.singleton_inj.mp hy]
      exact (h.served pre x mid' hhs).handle c

/-- An accepted query that has room when it comes is answered by a GW_R for its address
within two seconds: that one, or one before it. This is as long as no GW_Q overruns its frame. -/
theorem asker_answered (cfg : Config) (links : List (SockAddr × Arr 32)) (stale : Bytes) (rs : List Round)
    (pre mid post : List (Gateway × Input)) (x y : Gateway × Input) (q : UInt64) (a : Asker)
    (hrun : (start cfg links stale).history c rs = pre ++ x :: mid ++ y :: post)
    (hfits : ∀ z ∈ pre ++ x :: mid, ¬ z.1.overruns z.2)
    (hacc : x.1.acceptedQuery x.2 = some (q, a)) (hroom : x.1.hasRoom q a)
    (hreply : y.1.replies y.2) (hq : get40 (framePayload y.1.buf) 1 = q) (htime : y.1.time ≤ x.1.time + 2) :
    ∃ z ∈ mid ++ [y], z.1.answers c z.2 q a := by
  have hstart : Serving c links [] (start cfg links stale) := by
    refine ⟨?_, List.nodup_nil, fun pre x mid hsplit => ?_⟩
    · rw [Gateway.linkConf, start, List.map_map]
      exact List.map_id _
    · cases pre with
      | nil => cases hsplit
      | cons z pre => cases hsplit
  have hy := ((kept_serving c links).run rs hstart).2 (pre ++ x :: mid) y post hrun
  have hx := hfits x (List.mem_append_right _ List.mem_cons_self)
  rcases hy.served pre x mid rfl q a hacc hroom hx with ⟨z, hz, hans⟩ | ⟨e, he, hwait, -⟩ | hlate
  · exact ⟨z, List.mem_append_left _ hz, hans⟩
  · exact ⟨y, List.mem_append_right _ (List.mem_singleton.mpr rfl),
      reply_answers c hy.oneEach hreply hq he hwait⟩
  · omega

theorem split_two {α : Type*} {l : List α} {k : Nat} {x y : α} (hx : l[k]? = some x) (hy : l[k + 1]? = some y) :
    l = l.take k ++ x :: [] ++ y :: l.drop (k + 2) := by
  obtain ⟨hk, rfl⟩ := List.getElem?_eq_some_iff.mp hx
  obtain ⟨hk', rfl⟩ := List.getElem?_eq_some_iff.mp hy
  rw [List.append_assoc, List.singleton_append, List.cons_getElem_drop_succ, List.cons_getElem_drop_succ,
    List.take_append_drop]

/-- Two clients announce themselves, some of them ask for one address, and a GW_R for it
arrives. -/
def demoAskers (askers : List UInt8) : List (Gateway × Input) :=
  (start (demoConfig 0) [(demoEp 1, demoKey 1)] []).history toy
    ([demoRound (demoEp 10) (demoAnnounce 10 0x8000000005), demoRound (demoEp 12) (demoAnnounce 12 0x8000000007)] ++
      askers.map (fun n => demoRound (demoEp n) (ascii "Q69" ++ put40 0x8000000006)) ++
      [demoRound (demoEp 1) (demoControl (ctrlGwR :: (put40 0x8000000006 ++ [10, 0, 0, 11] ++ put16 6969)))])

/-- A single asker is answered. -/
theorem single_asker_answered :
    ∃ z ∈ demoAskers [10], z.1.answers toy z.2 0x8000000006 (.client (demoEp 10)) := by
  have hfacts : ∃ x ∈ (demoAskers [10])[2]?, ∃ y ∈ (demoAskers [10])[3]?,
      x.1.acceptedQuery x.2 = some (0x8000000006, .client (demoEp 10)) ∧
      x.1.hasRoom 0x8000000006 (.client (demoEp 10)) ∧ y.1.replies y.2 ∧
      get40 (framePayload y.1.buf) 1 = 0x8000000006 ∧ y.1.time ≤ x.1.time + 2 := by decide +kernel
  have hshort : ∀ z ∈ demoAskers [10], ¬ z.1.overruns z.2 := by decide +kernel
  obtain ⟨x, hx, y, hy, hacc, hroom, hreply, hq, htime⟩ := hfacts
  have hsplit := split_two hx hy
  have hfits := fun z hz => hshort z (hsplit ▸ List.mem_append_left _ hz)
  obtain ⟨z, hz, hans⟩ := asker_answered toy (demoConfig 0) [(demoEp 1, demoKey 1)] [] _ _ [] _ x y _ _
    hsplit hfits hacc hroom hreply hq htime
  rw [List.nil_append, List.mem_singleton] at hz
  rw [hz] at hans
  exact ⟨y, List.mem_of_getElem? hy, hans⟩

/-- The second of two askers is told nothing, although its query is accepted. -/
theorem second_asker_lost :
    ¬ ∀ pre x mid y post q a, demoAskers [10, 12] = pre ++ x :: mid ++ y :: post →
      x.1.acceptedQuery x.2 = some (q, a) → y.1.replies y.2 → get40 (framePayload y.1.buf) 1 = q →
      y.1.time ≤ x.1.time + 2 → ∃ z ∈ mid ++ [y], z.1.answers toy z.2 q a := by
  intro h
  have hfacts : ∃ x ∈ (demoAskers [10, 12])[3]?, ∃ y ∈ (demoAskers [10, 12])[4]?,
      x.1.acceptedQuery x.2 = some (0x8000000006, .client (demoEp 12)) ∧ y.1.replies y.2 ∧
      get40 (framePayload y.1.buf) 1 = 0x8000000006 ∧ y.1.time ≤ x.1.time + 2 ∧
      ¬ y.1.answers toy y.2 0x8000000006 (.client (demoEp 12)) := by decide +kernel
  obtain ⟨x, hx, y, hy, hacc, hreply, hq, htime, hlost⟩ := hfacts
  obtain ⟨z, hz, hans⟩ := h _ x [] y _ _ _ (split_two hx hy) hacc hreply hq htime
  rw [List.nil_append, List.mem_singleton] at hz
  rw [hz] at hans
  exact hlost hans

end Gw
