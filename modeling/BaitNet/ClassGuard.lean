import BaitNet.GatewayRuns

/-!
# The class guard

Without `--private` a gateway keeps public class C apart from classes A and B: on the data
plane every relayed frame is from class C and for class C or E, and a QUERY is answered only
for class C and to class C. The mesh path of the QUERY has no such check of its own.
-/
namespace Gw

open Wire Link Crypto Tables

variable (c : TweetNaCl)

/-- What the class filter lets through. -/
def routable (frame : Bytes) : Prop :=
  ipv69AddrClass (frameSource frame) = .C ∧
    (ipv69AddrClass (frameDest frame) = .C ∨ ipv69AddrClass (frameDest frame) = .E)

theorem frameSource_take {buf : Bytes} {n : Nat} (h : 47 ≤ n) : frameSource (buf.take n) = frameSource buf :=
  get40_take buf n _ (by omega)

theorem frameDest_take {buf : Bytes} {n : Nat} (h : 47 ≤ n) : frameDest (buf.take n) = frameDest buf :=
  get40_take buf n _ (by omega)

theorem routable_of_classOk {g : Gateway} {buf : Bytes} {n : Nat} (hprivate : g.cfg.allowPrivate = false)
    (h : g.classOk buf = true) (hlen : 47 ≤ n) : routable (buf.take n) := by
  rw [routable, frameSource_take hlen, frameDest_take hlen]
  simpa [Gateway.classOk, hprivate] using h

variable {c} in
/-- Only a frame that has passed the class filter is relayed. -/
theorem Effect.relay_routable {g g' : Gateway} {i : Input} {outs : List Out} (h : Effect c g i g' outs)
    (hprivate : g.cfg.allowPrivate = false) {via : Port} {frame : Bytes} (hout : Out.relay via frame ∈ outs) :
    routable frame := by
  obtain ⟨rfl, hclass, hlen, -⟩ := h.relay hout
  exact routable_of_classOk hprivate hclass hlen

/-- A gateway without `--private` relays no frame but from class C to class C or E, whatever
it has received before and wherever the frame came from. -/
theorem relayed_routable (cfg : Config) (links : List (SockAddr × Arr 32)) (stale : Bytes)
    (hprivate : cfg.allowPrivate = false) (rs : List Round) (r : Round) (via : Port) (frame : Bytes)
    (hout : Out.relay via frame ∈ (Runs.run (Gateway.next c) (start cfg links stale) rs).sent c r) :
    routable frame := by
  have hstart : (start cfg links stale).cfg = cfg := rfl
  have hrun := (@Kept.run c _ (kept_cfg cfg) _ rs hstart).1
  rw [sent_eq] at hout
  cases List.mem_append.mp hout with
  | inl h => exact absurd h (not_relay_of_isControl (housekeeping_isControl c _))
  | inr h =>
    obtain ⟨x, hx, hmem⟩ := List.mem_flatMap.mp h
    obtain ⟨pre, post, hsplit⟩ := List.append_of_mem hx
    have hcfg : x.1.cfg = cfg := (@Kept.next c _ (kept_cfg cfg) [] _ r hrun).2 pre x post hsplit
    exact (handle_effect c x.1 x.2).relay_routable (by rw [hcfg]; exact hprivate) hmem

/-- A frame of one link, passed on to the other. -/
theorem relayed_routable_link :
    (demoConfig 0).allowPrivate = false ∧
      routable (demoFrame (demoMac 2) 0x8000000001 0x8000000002 ipv69NextDgram [7]) := by
  refine ⟨rfl, relayed_routable toy (demoConfig 0) [(demoEp 1, demoKey 1), (demoEp 2, demoKey 2)] [] rfl []
    (demoRound (demoEp 1) (demoFrame (demoMac 2) 0x8000000001 0x8000000002 ipv69NextDgram [7])) (.link 1) _ ?_⟩
  decide +kernel

section Mesh

variable {ι : Type*} [DecidableEq ι]

/-- One round of one gateway; what the others send it is in the round. -/
def meshNext (m : ι → Gateway) (e : ι × Round) : ι → Gateway := Function.update m e.1 ((m e.1).next c e.2)

/-- The inputs of a mesh, each with the state that met it. -/
def meshHistory (m : ι → Gateway) : List (ι × Round) → List (ι × Gateway × Input)
  | [] => []
  | e :: es => ((m e.1).handled c e.2).map (fun x => (e.1, x)) ++ meshHistory (meshNext c m e) es

/-- The checks that the mesh path leaves out: a QUERY that it takes is for class C, and an
asker that a GW_R finds waiting still has an entry of class C, if it has one. -/
def AskedInClass (g : Gateway) (i : Input) : Prop :=
  (g.asksMesh i → ipv69AddrClass (get40 g.buf 3) = .C) ∧
    (g.replies i → ∀ e ∈ g.gwp.entries, e.addr = get40 (framePayload g.buf) 1 → e.viaLink = false →
      ∀ a ∈ g.peerFindEndpoint e.asker, ipv69AddrClass a.addr = .C)

instance (g : Gateway) (i : Input) : Decidable (AskedInClass g i) := inferInstanceAs (Decidable (_ ∧ _))

/-- An answer that tells an endpoint is for class C, and its asker, if it has an entry, is
of class C. -/
def AnswersInClass (g : Gateway) (i : Input) : Prop :=
  ∀ asker q text, Out.answer asker q text ∈ (g.handle c i).2 →
    ipv69AddrClass q = .C ∧ ∀ a ∈ g.peerFindEndpoint asker, ipv69AddrClass a.addr = .C

/-- No client waits for an address outside class C. -/
structure Guarded (g : Gateway) : Prop where
  noPrivate : g.cfg.allowPrivate = false
  pending : ∀ e ∈ g.gwp.entries, e.viaLink = false → ipv69AddrClass e.addr = .C

theorem answer_of_relayTo {g : Gateway} {e : GwPend} {p : Bytes} {asker : SockAddr} {q : UInt64} {text : Bytes}
    (h : Out.answer asker q text ∈ g.relayTo e p) : e.viaLink = false ∧ asker = e.asker ∧ q = e.addr := by
  rw [Gateway.relayTo] at h
  split at h
  · split at h
    · cases List.mem_singleton.mp h
    · cases h
  · rename_i hlink
    obtain ⟨rfl, rfl, -⟩ := Out.answer.inj (List.mem_singleton.mp h)
    exact ⟨Bool.not_eq_true _ ▸ hlink, rfl, rfl⟩

theorem not_answer_of_isControl {outs : List Out} (h : ∀ o ∈ outs, o.isControl) {asker : SockAddr} {q : UInt64}
    {text : Bytes} : Out.answer asker q text ∉ outs := fun hmem => h _ hmem

theorem relays_not_answer {frame text : Bytes} {ports : List Port} {asker : SockAddr} {q : UInt64} :
    Out.answer asker q text ∉ Gateway.relays frame ports := by
  intro h
  obtain ⟨v, -, hv⟩ := List.mem_map.mp h
  cases hv

variable {c} in
/-- Under the guard a QUERY answer stays in class C on each of its paths. -/
theorem Effect.answersInClass {g g' : Gateway} {i : Input} {outs : List Out} (h : Effect c g i g' outs)
    (hg : Guarded g) (hok : AskedInClass g i) {asker : SockAddr} {q : UInt64} {text : Bytes}
    (hout : Out.answer asker q text ∈ outs) :
    ipv69AddrClass q = .C ∧ ∀ a ∈ g.peerFindEndpoint asker, ipv69AddrClass a.addr = .C := by
  cases h with
  | answered ep n rate calls a e hquery ha he hclass hcalls =>
    cases List.mem_append.mp hout with
    | inl h => exact absurd h (not_answer_of_isControl hcalls)
    | inr h =>
      obtain ⟨rfl, rfl, -⟩ := Out.answer.inj (List.mem_singleton.mp h)
      rw [hg.noPrivate] at hclass
      have hclass := hclass.resolve_left Bool.false_ne_true
      refine ⟨hclass.1, fun a' ha' => ?_⟩
      rw [ha] at ha'
      rw [← Option.mem_some.mp ha']
      exact hclass.2
  | relayed _ e gwp hreply htake =>
    obtain ⟨hlink, rfl, rfl⟩ := answer_of_relayTo hout
    obtain ⟨haddr, hperm⟩ := Table.takeFirst_some htake
    have hmem : e ∈ g.gwp.entries := hperm.subset List.mem_cons_self
    exact ⟨hg.pending e hmem hlink, hok.2 hreply e hmem (of_decide_eq_true haddr) hlink⟩
  | asked ep n rate outs hmesh hnew houts => exact absurd hout (not_answer_of_isControl houts)
  | linkAsked _ li l hl outs hnew houts => exact absurd hout (not_answer_of_isControl houts)
  | meshAnswered n pkt => exact absurd hout (not_answer_of_isControl (gwMeshSend_isControl g pkt))
  | fedData => exact absurd hout relays_not_answer
  | forwarded => exact absurd hout relays_not_answer
  | refused => cases List.mem_singleton.mp hout
  | linkAnswered => cases List.mem_singleton.mp hout
  | _ => cases hout

variable {c} in
/-- A client that is made to wait asked for class C. -/
theorem Effect.guarded {g g' : Gateway} {i : Input} {outs : List Out} (h : Effect c g i g' outs)
    (hg : Guarded g) (hok : AskedInClass g i) : Guarded g' := by
  refine ⟨by rw [h.cfg]; exact hg.noPrivate, fun e he hlink => ?_⟩
  rcases h.gwp with heq | ⟨x, -, hx, heq⟩ | ⟨e', -, -, htake⟩
  · rw [heq] at he
    exact hg.pending e he hlink
  · rw [heq] at he
    cases Table.mem_push he with
    | inl h => exact hg.pending e h hlink
    | inr h =>
      subst h
      cases hx with
      | inl hx =>
        rw [hlink] at hx
        cases hx
      | inr hx =>
        rw [hx.2]
        exact hok.1 hx.1
  · exact hg.pending e ((Table.takeFirst_some htake).2.subset (List.mem_cons_of_mem e' he)) hlink

theorem kept_guarded : Kept c fun hs g => (∀ x ∈ hs, AskedInClass x.1 x.2) → Guarded g where
  wait _ _ _ h hok := ⟨(h hok).noPrivate, (h hok).pending⟩
  housekeeping _ g h hok := by
    refine ⟨(h hok).noPrivate, fun e he => (h hok).pending e ?_⟩
    exact (Table.mem_expire.mp he).1
  recvInto _ _ _ h hok := ⟨(h hok).noPrivate, (h hok).pending⟩
  handle hs g i h hok := by
    have hprev := h fun x hx => hok x (List.mem_append_left _ hx)
    exact (handle_effect c g i).guarded hprev (hok (g, i) (List.mem_append_right _ (List.mem_singleton.mpr rfl)))

theorem meshHistory_answersInClass (m : ι → Gateway) (hm : ∀ i, Guarded (m i)) (es : List (ι × Round))
    (hok : ∀ x ∈ meshHistory c m es, AskedInClass x.2.1 x.2.2) :
    ∀ x ∈ meshHistory c m es, AnswersInClass c x.2.1 x.2.2 := by
  induction es generalizing m with
  | nil => exact fun x hx => (nomatch hx)
  | cons e es ih =>
    have hround : ∀ x ∈ (m e.1).handled c e.2, AskedInClass x.1 x.2 :=
      fun x hx => hok (e.1, x) (List.mem_append_left _ (List.mem_map.mpr ⟨x, hx, rfl⟩))
    have hkept := @Kept.next c _ (kept_guarded c) [] (m e.1) e.2 fun _ => hm e.1
    intro x hx
    cases List.mem_append.mp hx with
    | inl h =>
      obtain ⟨y, hy, rfl⟩ := List.mem_map.mp h
      obtain ⟨pre, post, hsplit⟩ := List.append_of_mem hy
      have hguard : Guarded y.1 := by
        refine hkept.2 pre y post hsplit fun z hz => hround z ?_
        rw [hsplit]
        exact List.mem_append_left _ hz
      exact fun asker q text hout => (handle_effect c y.1 y.2).answersInClass hguard (hround y hy) hout
    | inr h =>
      refine ih (meshNext c m e) (fun j => ?_) (fun z hz => hok z (List.mem_append_right _ hz)) x h
      rw [meshNext]
      by_cases hj : j = e.1
      · subst hj
        rw [Function.update_self]
        exact hkept.1 hround
      · rw [Function.update_of_ne hj]
        exact hm j

/-- Without `--private` anywhere in the mesh, an answer stays in class C as long as each
QUERY that goes to the mesh is for class C and no asker leaves class C while it waits. -/
theorem answers_inClass (cfg : ι → Config) (links : ι → List (SockAddr × Arr 32)) (stale : ι → Bytes)
    (hprivate : ∀ i, (cfg i).allowPrivate = false) (es : List (ι × Round))
    (hok : ∀ x ∈ meshHistory c (fun i => start (cfg i) (links i) (stale i)) es, AskedInClass x.2.1 x.2.2) :
    ∀ x ∈ meshHistory c (fun i => start (cfg i) (links i) (stale i)) es, AnswersInClass c x.2.1 x.2.2 :=
  meshHistory_answersInClass c _ (fun i => ⟨hprivate i, fun _ h => absurd h List.not_mem_nil⟩) es hok

end Mesh

/-- Two gateways, each with a link to the other. -/
def demoMesh (i : Bool) : Gateway :=
  match i with
  | false => start (demoConfig 0) [(demoEp 1, demoKey 1)] []
  | true => start (demoConfig 1) [(demoEp 0, demoKey 0)] []

def demoGwQ (q : UInt64) : Bytes := demoControl (ctrlGwQ :: put40 q)

def demoGwR (q : UInt64) : Bytes := demoControl (ctrlGwR :: (put40 q ++ [10, 0, 0, 11] ++ put16 6969))

/-- A client of the one gateway announces `q`, a client of the other one asks for it, and
GW_Q and GW_R go between the two. -/
def demoAsk (q : UInt64) : List (Bool × Round) :=
  [(true, demoRound (demoEp 11) (demoAnnounce 11 q)),
    (false, demoRound (demoEp 10) (demoAnnounce 10 0x8000000005)),
    (false, demoRound (demoEp 10) (ascii "Q69" ++ put40 q)),
    (true, demoRound (demoEp 0) (demoGwQ q)),
    (false, demoRound (demoEp 1) (demoGwR q))]

/-- The asker and the address it asks for are of class C. -/
theorem answers_inClass_asked :
    (∃ x ∈ meshHistory toy demoMesh (demoAsk 0x8000000006),
      Out.control (.link 0) (demoGwQ 0x8000000006) ∈ (x.2.1.handle toy x.2.2).2) ∧
      ∀ x ∈ meshHistory toy demoMesh (demoAsk 0x8000000006), AnswersInClass toy x.2.1 x.2.2 := by
  refine ⟨by decide +kernel, ?_⟩
  have h := answers_inClass toy (fun i => bif i then demoConfig 1 else demoConfig 0)
    (fun i => bif i then [(demoEp 0, demoKey 0)] else [(demoEp 1, demoKey 1)]) (fun _ => [])
    (fun i => by cases i <;> rfl) (demoAsk 0x8000000006) (by decide +kernel)
  have hmesh : demoMesh = fun i => start (bif i then demoConfig 1 else demoConfig 0)
      (bif i then [(demoEp 0, demoKey 0)] else [(demoEp 1, demoKey 1)]) [] := by
    funext i
    cases i <;> rfl
  rw [hmesh]
  exact h

/-- A client of class A is found through the mesh: the GW_Q and the GW_R are those the two
gateways send, and the answer names an address of class A. -/
theorem answer_outside_class :
    (∃ x ∈ meshHistory toy demoMesh (demoAsk 0x0000000106),
      Out.control (.link 0) (demoGwQ 0x0000000106) ∈ (x.2.1.handle toy x.2.2).2) ∧
    (∃ x ∈ meshHistory toy demoMesh (demoAsk 0x0000000106),
      Out.control (.link 0) (demoGwR 0x0000000106) ∈ (x.2.1.handle toy x.2.2).2) ∧
    ¬ ∀ x ∈ meshHistory toy demoMesh (demoAsk 0x0000000106), AnswersInClass toy x.2.1 x.2.2 := by
  refine ⟨by decide +kernel, by decide +kernel, fun h => ?_⟩
  have hanswer : ∃ x ∈ meshHistory toy demoMesh (demoAsk 0x0000000106),
      Out.answer (demoEp 10) 0x0000000106 (relayAnswer 0x0000000106 (epText (demoEp 11))) ∈
        (x.2.1.handle toy x.2.2).2 := by decide +kernel
  obtain ⟨x, hx, hout⟩ := hanswer
  have hclass := (h x hx _ _ _ hout).1
  revert hclass
  decide

end Gw
