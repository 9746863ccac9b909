import BaitNet.GatewayRuns

/-!
# Federated links and the askers behind them

A link is authenticated by a signed GW_ANN, which only sets the link's `last`: nothing else
asks for it. An asker that the tables cannot answer waits in `gwp[]` for a GW_R, unless
somebody else already waits for the address or the table is full.
-/
namespace Gw

open Wire Link Crypto Tables

variable (c : TweetNaCl)

/-- What the command line says of a link. -/
def GwLink.conf (l : GwLink) : SockAddr × Arr 32 := (l.ep, l.pub)

def Gateway.linkConf (g : Gateway) : List (SockAddr × Arr 32) := g.links.map GwLink.conf

theorem linkOf_mem {g : Gateway} {i : Input} {li : Nat} {l : GwLink} (h : g.fromLink i li l) : g.links[li]? = some l := by
  obtain ⟨ep, n, rfl, -, -, -, hl⟩ := fromLink_udp h
  exact hl

variable {c} in
/-- Only a signed GW_ANN touches the links. -/
theorem Effect.links {g g' : Gateway} {i : Input} {outs : List Out} (h : Effect c g i g' outs) :
    g'.links = g.links ∨
      ∃ li l, g.authenticates c i li l ∧ g'.links = g.links.set li { l with last := g.time } := by
  cases h with
  | authenticated _ li l rate hauth => exact .inr ⟨li, l, hauth, rfl⟩
  | dropped =>
    obtain ⟨peers, dirty, rate, -, heq⟩ := learn_effect c g g.buf i.size i.source
    exact .inl (by rw [heq])
  | forwarded =>
    obtain ⟨peers, dirty, rate, -, heq⟩ := learn_effect c g g.buf i.size i.source
    exact .inl (by rw [heq])
  | routed _ li =>
    obtain ⟨routes, heq⟩ := routeLearn_state g (framePayload g.buf) li
    exact .inl (by rw [heq])
  | _ => exact .inl rfl

theorem map_set_same {α β : Type*} {f : α → β} {l : List α} {i : Nat} {x y : α} (hx : l[i]? = some x)
    (hf : f y = f x) : (l.set i y).map f = l.map f := by
  obtain ⟨hi, rfl⟩ := List.getElem?_eq_some_iff.mp hx
  rw [List.map_set, hf, ← List.getElem_map f (h := by simpa using hi), List.set_getElem_self]

variable {c} in
theorem Effect.linkConf {g g' : Gateway} {i : Input} {outs : List Out} (h : Effect c g i g' outs) :
    g'.linkConf = g.linkConf := by
  cases h.links with
  | inl heq => rw [Gateway.linkConf, heq]; rfl
  | inr hauth =>
    obtain ⟨li, l, hauth, heq⟩ := hauth
    rw [Gateway.linkConf, heq]
    exact map_set_same (linkOf_mem hauth.1) rfl

/-- A GW_ANN of the link with this configuration, under its key. -/
def AnnouncedIn (hs : List (Gateway × Input)) (li : Nat) (conf : SockAddr × Arr 32) : Prop :=
  ∃ y ∈ hs, ∃ l, y.1.authenticates c y.2 li l ∧ l.conf = conf

/-- A link with a time of authentication has announced itself. -/
structure Vouched (links : List (SockAddr × Arr 32)) (hs : List (Gateway × Input)) (g : Gateway) : Prop where
  conf : g.linkConf = links
  announced : ∀ li l, g.links[li]? = some l → l.last ≠ 0 → AnnouncedIn c hs li l.conf

theorem AnnouncedIn.append {c : TweetNaCl} {hs hs' : List (Gateway × Input)} {li : Nat} {conf : SockAddr × Arr 32}
    (h : AnnouncedIn c hs li conf) : AnnouncedIn c (hs ++ hs') li conf := by
  obtain ⟨y, hy, hauth⟩ := h
  exact ⟨y, List.mem_append_left _ hy, hauth⟩

theorem kept_vouched (links : List (SockAddr × Arr 32)) : Kept c (Vouched c links) where
  wait _ _ _ h := ⟨h.conf, h.announced⟩
  housekeeping _ _ h := ⟨h.conf, h.announced⟩
  recvInto _ _ _ h := ⟨h.conf, h.announced⟩
  handle hs g i h := by
    have heff := handle_effect c g i
    refine ⟨heff.linkConf.trans h.conf, fun li l hl hlast => ?_⟩
    cases heff.links with
    | inl heq =>
      rw [heq] at hl
      exact (h.announced li l hl hlast).append
    | inr hauth =>
      obtain ⟨li', l', hauth, heq⟩ := hauth
      rw [heq, List.getElem?_set] at hl
      split at hl
      · rename_i hli
        subst hli
        split at hl
        · have hconf := Option.some.inj hl
          refine ⟨(g, i), List.mem_append_right _ (List.mem_singleton.mpr rfl), l', hauth, ?_⟩
          rw [← hconf]
          rfl
        · cases hl
      · exact (h.announced li l hl hlast).append

/-- The gateway acts on a frame: it sends something or its routes change. -/
def Gateway.acts (g : Gateway) (i : Input) : Prop :=
  (g.handle c i).2 ≠ [] ∨ (g.handle c i).1.routes.entries ≠ g.routes.entries

/-- What arrives over a link, other than a GW_ANN, finds the link authenticated. -/
def LinkKnown (g : Gateway) (i : Input) : Prop :=
  ∀ x ∈ g.linkOf i, ¬ isControl ctrlGwAnn 1 g.buf i.size → x.2.last ≠ 0

instance (g : Gateway) (i : Input) : Decidable (LinkKnown g i) :=
  inferInstanceAs (Decidable (∀ x ∈ g.linkOf i, _))

/-- Each frame of a link that the gateway acts on has a GW_ANN of the link in front of it,
under the key configured for the link. -/
def LinksAnnounce (links : List (SockAddr × Arr 32)) (hs : List (Gateway × Input)) : Prop :=
  ∀ pre x post, hs = pre ++ x :: post → ∀ li l, x.1.fromLink x.2 li l →
    ¬ isControl ctrlGwAnn 1 x.1.buf x.2.size → x.1.acts c x.2 →
    links[li]? = some l.conf ∧ AnnouncedIn c pre li l.conf

/-- Federation keeps to authenticated links as long as no link is used before it is
authenticated. -/
theorem links_announce (cfg : Config) (links : List (SockAddr × Arr 32)) (stale : Bytes) (rs : List Round)
    (hok : ∀ x ∈ (start cfg links stale).history c rs, LinkKnown x.1 x.2) :
    LinksAnnounce c links ((start cfg links stale).history c rs) := by
  intro pre x post hsplit li l hl hann hacts
  have hstart : Vouched c links [] (start cfg links stale) := by
    refine ⟨?_, fun li l hl hlast => ?_⟩
    · rw [Gateway.linkConf, start, List.map_map]
      exact List.map_id _
    · rw [start, List.getElem?_map] at hl
      obtain ⟨conf, -, rfl⟩ := Option.map_eq_some_iff.mp hl
      exact absurd rfl hlast
  have hx := ((kept_vouched c links).run rs hstart).2 pre x post hsplit
  have hmem := linkOf_mem hl
  have hlast : l.last ≠ 0 := by
    refine hok x ?_ (li, l) hl hann
    rw [hsplit]
    exact List.mem_append_right _ List.mem_cons_self
  refine ⟨?_, hx.announced li l hmem hlast⟩
  rw [← hx.conf, Gateway.linkConf, List.getElem?_map, hmem]
  rfl

def demoLinks : List (SockAddr × Arr 32) := [(demoEp 1, demoKey 1), (demoEp 2, demoKey 2)]

/-- `gw_link_announce` by the holder of key `n`. -/
def demoGwAnn (n : UInt8) : Bytes :=
  let head := ctrlGwAnn :: put16 6969
  demoControl (head ++ (toy.sign head (demoKey n)).val)

def demoData : Bytes := demoFrame (demoMac 2) 0x8000000001 0x8000000002 ipv69NextDgram [7]

/-- A link that announces itself before its first data frame. -/
theorem links_announce_first :
    LinksAnnounce toy demoLinks ((start (demoConfig 0) demoLinks []).history toy
      [demoRound (demoEp 1) (demoGwAnn 1), demoRound (demoEp 1) demoData]) :=
  links_announce toy (demoConfig 0) demoLinks [] _ (by decide +kernel)

/-- A data frame from the endpoint of a link is passed on in the first round. -/
theorem unannounced_link_used :
    Out.relay (.link 1) demoData ∈ (start (demoConfig 0) demoLinks []).sent toy (demoRound (demoEp 1) demoData) ∧
      ¬ LinksAnnounce toy demoLinks ((start (demoConfig 0) demoLinks []).history toy
        [demoRound (demoEp 1) demoData]) := by
  refine ⟨by decide +kernel, fun h => ?_⟩
  have hnil : ∀ li conf, ¬ AnnouncedIn toy [] li conf := fun _ _ ⟨_, hy, _⟩ => List.not_mem_nil hy
  have hused : ∃ x ∈ (start (demoConfig 0) demoLinks []).history toy [demoRound (demoEp 1) demoData],
      x.1.fromLink x.2 0 ⟨demoEp 1, demoKey 1, 0⟩ ∧ ¬ isControl ctrlGwAnn 1 x.1.buf x.2.size ∧
        (x.1.handle toy x.2).2 ≠ [] := by decide +kernel
  obtain ⟨x, hx, hl, hann, hout⟩ := hused
  have hlen : ((start (demoConfig 0) demoLinks []).history toy [demoRound (demoEp 1) demoData]).length = 1 := by
    decide +kernel
  obtain ⟨y, hy⟩ := List.length_eq_one_iff.mp hlen
  rw [hy, List.mem_singleton] at hx
  subst hx
  exact hnil _ _ (h [] x [] hy 0 _ hl hann (.inl hout)).2

end Gw
