import BaitNet.BiteFetched
import BaitNet.BiteSegment
import BaitNet.Fairness
import BaitNet.Interoperable

/-!
# A fetch on a segment

The client and the server of a fetch over their associations, from the first hello on: what the
client has after any number of frames and timeouts, and where a fair schedule leads, as long as
neither loop's time is up.
-/
namespace Bite

open Wire Link Crypto Interop Channels Runs

section Going

variable {c : TweetNaCl} {l : Line} {g : Bool → Program} {I : ∀ i, (g i).State → Prop} {e : Bool → Circumstances}
variable {fin : Spoken g} {s : Segment g} {k : Nat}

/-- The segment is so many moves of the channels away from `fin`. -/
def Going (c : TweetNaCl) (l : Line) (I : ∀ i, (g i).State → Prop) (fin : Spoken g) (k : Nat) (s : Segment g) : Prop :=
  ∃ t at', Tracks c l I s t at' ∧ Leads k t fin ∧ t.Logged

/-- On top of it, something is on its way to process `i`, behind so many frames. -/
def Due (c : TweetNaCl) (l : Line) (I : ∀ i, (g i).State → Prop) (fin : Spoken g) (k : Nat) (i : Bool) (d : Nat)
    (s : Segment g) : Prop :=
  ∃ t at', (Tracks c l I s t at' ∧ Leads k t fin ∧ t.Logged) ∧ t.queue i ≠ [] ∧ (at' i).lead = d

/-- Nothing is on its way any more. -/
def Arrived (c : TweetNaCl) (l : Line) (I : ∀ i, (g i).State → Prop) (fin : Spoken g) (s : Segment g) : Prop :=
  ∃ at', Tracks c l I s fin at'

variable (hs : ∀ i, Steady (g i) (I i)) (hb : ∀ i, Bounded (l.first i) (fin.log (!i))) (hq : fin.Quiet)
include hs hb hq

theorem Going.step (h : Going c l I fin k s) (ev : SegmentEv) : ∃ k' ≤ k, Going c l I fin k' (s.step c e ev) := by
  obtain ⟨t, at', htracks, hleads, hlogged⟩ := h
  cases htracks.step (e := e) hs hb hleads hq hlogged ev with
  | idle p h hlead => exact ⟨k, le_rfl, t, p, h, hleads, hlogged⟩
  | moved i hne p h =>
    obtain ⟨k', rfl, hrest⟩ := hleads.strip hq hne
    exact ⟨k', Nat.le_succ k', t.step i, p, h, hrest, hlogged.step i⟩

theorem Going.run (h : Going c l I fin k s) (evs : List SegmentEv) :
    ∃ k' ≤ k, Going c l I fin k' (run (Segment.step c e) s evs) := by
  induction evs generalizing s k with
  | nil => exact ⟨k, le_rfl, h⟩
  | cons ev evs ih =>
    obtain ⟨k', hle, hstep⟩ := h.step hs hb hq (e := e) ev
    obtain ⟨k'', hle', hrun⟩ := ih hstep
    exact ⟨k'', hle'.trans hle, hrun⟩

/-- Each frame for process `i` brings its next item nearer. -/
theorem Due.nears (k : Nat) (i : Bool) : Nears (Segment.step c e) (.frame i) (Due c l I fin k i)
    (fun s => ∃ k' < k, Going c l I fin k' s) := by
  rintro d s ev ⟨t, at', ⟨htracks, hleads, hlogged⟩, hne, rfl⟩
  cases htracks.step (e := e) hs hb hleads hq hlogged ev with
  | idle p h hlead =>
    obtain ⟨hle, hlt⟩ := hlead i hne
    exact .inr ⟨(p i).lead, hle, ⟨t, p, ⟨h, hleads, hlogged⟩, hne, rfl⟩, hlt⟩
  | moved j hne p h =>
    obtain ⟨k', rfl, hrest⟩ := hleads.strip hq hne
    exact .inl ⟨k', Nat.lt_succ_self k', t.step j, p, h, hrest, hlogged.step j⟩

/-- A schedule that keeps delivering to both processes leads to the end. -/
theorem Going.arrives {es : ℕ → SegmentEv} (hfair : ∀ i, Recurs es (.frame i)) {n : ℕ}
    (h : Going c l I fin k (after (Segment.step c e) s es n)) :
    ∃ m, n ≤ m ∧ Arrived c l I fin (after (Segment.step c e) s es m) := by
  induction k using Nat.strong_induction_on generalizing n with
  | _ k ih =>
    obtain ⟨t, at', htracks, hleads, hlogged⟩ := h
    by_cases hquiet : t.Quiet
    · obtain rfl := hleads.of_quiet hquiet
      exact ⟨n, le_rfl, at', htracks⟩
    · obtain ⟨i, hne⟩ := not_forall.mp hquiet
      have hdue : Due c l I fin k i (at' i).lead (after (Segment.step c e) s es n) :=
        ⟨t, at', ⟨htracks, hleads, hlogged⟩, hne, rfl⟩
      obtain ⟨m, hm, k', hlt, hgoing⟩ := (Due.nears hs hb hq k i).reaches (hfair i) hdue
      obtain ⟨m', hm', hend⟩ := ih k' hlt hgoing
      exact ⟨m', hm.trans hm', hend⟩

/-- Then the programs stay as they are. -/
theorem Arrived.step (hlogged : fin.Logged) (h : Arrived c l I fin s) (ev : SegmentEv) :
    Arrived c l I fin (s.step c e ev) := by
  obtain ⟨at', htracks⟩ := h
  cases htracks.step (e := e) hs hb (.here fin) hq hlogged ev with
  | idle p h hlead => exact ⟨p, h⟩
  | moved i hne p h => exact absurd (hq i) hne

end Going

/-- A program that has left its loop does nothing any more. -/
theorem left_stays {g : Bool → Program} {k : Nat} {t fin : Spoken g} (h : Leads k t fin) {i : Bool}
    (hleft : (g i).left (t.at i).app = true) : fin.at i = t.at i := by
  refine h.keeps (P := fun n : Spoken g => n.at i = t.at i) ?_ rfl
  intro n j hn
  cases hq : n.queue j with
  | nil => rwa [Pair.step_idle hq]
  | cons x rest =>
    have hst : (n.step j).st i = Function.update n.st j ((listen (g j)).take (n.st j) x).1 i := by
      rw [Pair.step_cons hq]
    change (n.step j).st i = t.at i
    rw [hst]
    rcases Bool.eq_or_eq_not i j with rfl | rfl
    · have htake : (listen (g i)).take (n.st i) x = (n.st i, []) := by
        have hsame : n.st i = t.at i := hn
        rw [hsame]
        exact if_pos hleft
      rw [htake, Function.update_self]
      exact hn
    · rw [Function.update_of_ne (Bool.not_ne_self j)]
      exact hn

section Steady

variable (c : TweetNaCl) (rnd : Arr 32)

theorem server_steady (fs : Bytes → Option Stream) (root : Bytes) :
    Steady (serverProgram c rnd fs root) fun _ => True := by
  constructor
  · rintro ⟨ctx, left⟩ - hleft
    have hstay : left = false := hleft
    subst hstay
    rfl
  · exact fun _ _ _ _ _ => trivial

/-- A client that goes on has nothing yet, and has asked if it can. -/
def Asking (st : Fetching) : Prop := st.exit = none → st.got = none ∧ (st.ctx.done = true → st.sent = true)

theorem Asking.leaves {st : Fetching} {ret : Nat} (h : st.exit = some ret) : Asking st := by
  intro hno
  rw [h] at hno
  cases hno

/-- Once the handshake is through, the request is sent or the client fails. -/
theorem sendRequest_asks (meth path : Bytes) (b : Bctx) (sent : Bool) (out : List Item)
    (hok : ((sendRequest c meth path b sent).run outbox out).1.2.2 = true) :
    ((sendRequest c meth path b sent).run outbox out).1.1.done = true →
      ((sendRequest c meth path b sent).run outbox out).1.2.1 = true := by
  rw [sendRequest] at hok ⊢
  by_cases hask : b.done ∧ ¬ sent
  · rw [if_pos hask] at hok ⊢
    by_cases hlong : biteHdrMax ≤ (requestText meth path).length
    · rw [if_pos hlong] at hok
      cases hok
    · rw [if_neg hlong] at hok ⊢
      simp only [Calls.run_bind, Calls.run_pure] at hok ⊢
      rw [hok]
      exact fun _ => rfl
  · rw [if_neg hask]
    intro hdone
    by_contra hno
    exact hask ⟨hdone, hno⟩

theorem fetchRound_asking (meth path : Bytes) (st : Fetching) (r : Int) (pend : Bytes) (out : List Item) :
    Asking ((fetchRound c rnd meth path st r pend).run outbox out).1 := by
  rw [fetchRound]
  by_cases herr : r = Icsp.icspPollErr
  · rw [if_pos herr]
    exact .leaves rfl
  · rw [if_neg herr, Calls.run_bind]
    generalize (fetchRecord c rnd st.ctx pend).run outbox out = taken
    obtain ⟨⟨b, turn, got⟩, out'⟩ := taken
    cases turn with
    | fail => exact .leaves rfl
    | again => exact .leaves rfl
    | on =>
      cases got with
      | some m => exact .leaves rfl
      | none =>
        have hasks := sendRequest_asks c meth path b st.sent out'
        simp only [Calls.run_bind]
        generalize (sendRequest c meth path b st.sent).run outbox out' = asked at hasks ⊢
        obtain ⟨⟨b', sent, ok⟩, out''⟩ := asked
        cases ok with
        | false => exact .leaves rfl
        | true =>
          by_cases hclosed : r = Icsp.icspPollClosed
          · simp only [Bool.true_eq_false, if_false, if_pos hclosed]
            exact .leaves rfl
          · simp only [Bool.true_eq_false, if_false, if_neg hclosed, roundEnd]
            have hstay : Asking ⟨b', sent, none, none⟩ := fun _ => ⟨rfl, hasks rfl⟩
            split
            · exact hstay
            · exact hstay

theorem fetch_steady (meth path : Bytes) : Steady (fetchProgram c rnd meth path) Asking := by
  constructor
  · rintro ⟨b, sent, got, exit⟩ hasking hleft
    have hexit : exit = none := Option.not_isSome_iff_eq_none.mp (Bool.eq_false_iff.mp hleft)
    subst hexit
    obtain ⟨hgot, hsent⟩ := hasking rfl
    have hgot' : got = none := hgot
    subst hgot'
    have hasked : ¬ (b.done = true ∧ ¬ sent = true) := fun h => h.2 (hsent h.1)
    have hround : fetchRound c rnd meth path ⟨b, sent, none, none⟩ Icsp.icspPollTimeout [] = (do
        let p ← sendRequest c meth path b sent
        if p.2.2 = false then pure ⟨p.1, p.2.1, none, some 1⟩
        else if Icsp.icspPollTimeout = Icsp.icspPollClosed then pure ⟨p.1, p.2.1, none, some 1⟩
        else roundEnd Icsp.icspPollTimeout ⟨p.1, p.2.1, none, none⟩) := rfl
    refine Eq.trans hround ?_
    rw [sendRequest, if_neg hasked]
    rfl
  · intro st r pend out _
    exact fetchRound_asking c rnd meth path st r pend out

end Steady

section Bounds

variable {first : Nat} {recs : List Bytes} {items : List Item}

/-- What an association takes. -/
def Sendable (rec : Bytes) : Prop := rec ≠ [] ∧ rec.length ≤ Icsp.maxSendable

theorem records_map (recs : List Bytes) : records (recs.map .record) = recs.length := by
  induction recs with
  | nil => rfl
  | cons rec recs ih =>
    rw [List.map_cons, records, List.countP_cons_of_pos (by rfl)]
    exact congrArg Nat.succ ih

theorem bounded_map (h : ∀ rec ∈ recs, Sendable rec) (htsns : first + recs.length < 2 ^ 32)
    (hseqs : recs.length < 2 ^ 16) : Bounded first (recs.map .record) := by
  constructor
  · rwa [records_map]
  · rwa [records_map]
  · intro rec hmem
    obtain ⟨rec', hmem', heq⟩ := List.mem_map.mp hmem
    obtain rfl := Item.record.inj heq
    exact h rec' hmem'

theorem Bounded.bye (h : Bounded first items) : Bounded first (items ++ [.bye]) := by
  have hsame : records (items ++ [.bye]) = records items := records_append items [.bye]
  constructor
  · rw [hsame]
    exact h.tsns
  · rw [hsame]
    exact h.seqs
  · intro rec hmem
    rcases List.mem_append.mp hmem with hold | hbye
    · exact h.sizes rec hold
    · cases List.mem_singleton.mp hbye

theorem sendable_of_openable {rec : Bytes} (hne : rec ≠ []) (h : rec.length ≤ Icsp.maxOpenable) : Sendable rec :=
  ⟨hne, h.trans (by decide)⟩

end Bounds

/-- An association as the handshake leaves it, with its timers off; its TSNs start anywhere. -/
structure Fresh (l : Line) (i : Bool) (a : Icsp.IcspAssoc) : Prop where
  live : Live l.toSession i a
  plane : a.toDataPlane = { Icsp.DataPlane.zero with nextTsn := .ofNat (l.first i) }

theorem Fresh.ready {l : Line} {i : Bool} {a : Icsp.IcspAssoc} (h : Fresh l i a) : Ready l i 0 0 false a := by
  have hstreams : a.streams = [] := congrArg Icsp.DataPlane.streams h.plane
  constructor
  · exact h.live
  · constructor
    · exact congrArg Icsp.DataPlane.nextTsn h.plane
    · rw [Icsp.sendSeq, Icsp.findStream, hstreams]
      rfl
    · have hnone : a.sendq = [] := congrArg Icsp.DataPlane.sendq h.plane
      rw [hnone]
      exact fun q hq => absurd hq List.not_mem_nil
  · constructor
    · exact .inl ⟨congrArg Icsp.DataPlane.rwTsn h.plane, congrArg Icsp.DataPlane.rwMask h.plane, rfl⟩
    · exact fun j hj => absurd hj (Nat.not_lt_zero j)
    · refine ⟨0, le_rfl, ?_, by simp⟩
      rw [Icsp.recvSeq, Icsp.findStream, hstreams]
      rfl

/-- The association of end `i`. -/
def Line.opened (l : Line) (i : Bool) : Icsp.IcspAssoc :=
  { Icsp.IcspAssoc.zero with
    nextTsn := .ofNat (l.first i), hasKey := true, srcMac := l.mac i, srcAddr := l.addr i, assocId := l.assocId
    sendKey := l.key i, recvKey := l.key (!i), state := .established }

theorem Line.opened_fresh (l : Line) (i : Bool) : Fresh l i (l.opened i) :=
  ⟨⟨.inl rfl, rfl, rfl, rfl, rfl, rfl, rfl, Icsp.slotsOf_nil {1}, ⟨rfl, rfl, rfl, rfl⟩⟩, rfl⟩

namespace Visit

variable {c : TweetNaCl} (v : Visit c)

def kept : ∀ i, (v.programs i).State → Prop
  | false => Asking
  | true => fun _ => True

theorem steady : ∀ i, Steady (v.programs i) (v.kept i)
  | false => fetch_steady c v.rnd v.meth v.path
  | true => server_steady c v.rnd v.fs v.root

/-- Four records of the handshake and at most 204 of the response. -/
theorem fromServer_bounded {first : Nat} (hfirst : first + 208 < 2 ^ 32) : Bounded first v.fromServer := by
  have hmap : v.fromServer = (v.setup.flight v.rnd ++ v.responseRecs).map .record := by
    rw [List.map_append]
    rfl
  have hcount : (v.setup.flight v.rnd ++ v.responseRecs).length ≤ 208 := by
    have hfrags := fragments_length_le v.response
    have hmax : v.response.length / btlsMaxPayload ≤ btlsMaxMsg / btlsMaxPayload :=
      Nat.div_le_div_right v.response_spec.2.2
    have hmost : btlsMaxMsg / btlsMaxPayload = 203 := by decide
    rw [List.length_append, responseRecs, sealRecs_length]
    change 4 + (fragments v.response).length ≤ 208
    omega
  rw [hmap]
  refine bounded_map ?_ (by omega) (by omega)
  intro rec hmem
  rcases List.mem_append.mp hmem with hflight | hresp
  · refine sendable_of_openable ?_ (v.records_short.2.1 rec hflight)
    simp only [Setup.flight, List.mem_cons, List.not_mem_nil, or_false] at hflight
    rcases hflight with rfl | rfl | rfl | rfl
    all_goals exact List.cons_ne_nil _ _
  · obtain ⟨seq, inner, hinner, rfl⟩ := mem_sealRecs hresp
    refine ⟨List.cons_ne_nil _ _, ?_⟩
    have hshort := fragments_short hinner
    rw [btlsMaxPayload] at hshort
    rw [appRec_length, Icsp.maxSendable]
    omega

theorem fromClient_bounded {first : Nat} (hfirst : first + 208 < 2 ^ 32) : Bounded first v.fromClient := by
  obtain ⟨hhello, -, hanswer, hreq⟩ := v.records_short
  have hall : ∀ rec ∈ [v.setup.rec0, v.setup.answer v.rnd, v.requestRec], Sendable rec := by
    intro rec hmem
    simp only [List.mem_cons, List.not_mem_nil, or_false] at hmem
    rcases hmem with rfl | rfl | rfl
    · exact sendable_of_openable (List.cons_ne_nil _ _) hhello
    · exact sendable_of_openable (List.cons_ne_nil _ _) hanswer
    · exact sendable_of_openable (List.cons_ne_nil _ _) hreq
  refine bounded_map hall ?_ ?_
  · change first + 3 < 2 ^ 32
    omega
  · exact (by decide : 3 < 2 ^ 16)

theorem bounded {l : Line} (hfirst : ∀ i, l.first i + 208 < 2 ^ 32) : ∀ i, Bounded (l.first i) (v.endPair.log (!i))
  | true => by
    rw [endPair]
    split
    · exact v.fromServer_bounded (hfirst true)
    · exact v.fromServer_bounded (hfirst true)
  | false => by
    rw [endPair]
    split
    · exact (v.fromClient_bounded (hfirst false)).bye
    · exact v.fromClient_bounded (hfirst false)

/-- `run_fetch` from its handshake on, with the hello on its way to a server that waits for it. -/
def segment (e : Bool → Circumstances) (k : Bool → Conn) : Segment v.programs :=
  let (st, conn, frames) := (fetchStart v.setup.rndC v.setup.client buf).run (assocPort c (e false)) (k false, [])
  { proc := fun
      | false => ⟨st, conn⟩
      | true => ⟨⟨⟨v.setup.server, false, buf⟩, false⟩, k true⟩
    wire := fun
      | false => []
      | true => frames }

theorem hello_sent :
    (fetchStart v.setup.rndC v.setup.client buf).run outbox [] = ((v.clientHs v.setup.client0).app, v.hello) := by
  rw [fetchStart, v.setup.client_start]
  rfl

variable {l : Line} {e : Bool → Circumstances} {k : Bool → Conn} (hfresh : ∀ i, Fresh l i (k i).host.assoc)
include hfresh

theorem start_tracks (hfirst : ∀ i, l.first i + 208 < 2 ^ 32) :
    ∃ at', Tracks c l v.kept (v.segment e k) v.start at' := by
  have hbound : Bounded (l.first false) v.hello := by
    have hone : ∀ rec ∈ [v.setup.rec0], Sendable rec := by
      intro rec hmem
      rw [List.mem_singleton.mp hmem]
      exact sendable_of_openable (List.cons_ne_nil _ _) v.records_short.1
    refine bounded_map hone ?_ (by exact (by decide : 1 < 2 ^ 16))
    have hfalse := hfirst false
    change l.first false + 1 < 2 ^ 32
    omega
  have hstart : Sending c l false 0 false [] (k false, []) [] := ⟨⟨0, .nil 0⟩, (hfresh false).ready⟩
  have hfits : [] ++ ((fetchStart v.setup.rndC v.setup.client buf).run outbox []).2 <+: v.hello := by
    rw [v.hello_sent]
    exact List.prefix_rfl
  obtain ⟨hst, ⟨⟨d, hflow⟩, hready⟩⟩ := Sending.run (e := e false) hbound _ hstart hfits
  rw [v.hello_sent] at hst hflow hready
  refine ⟨fun | false => ⟨0, 0⟩ | true => ⟨0, d⟩, ?_, ?_, ?_, ?_⟩
  · exact fun
      | false => hst
      | true => rfl
  · exact fun
      | false => fun _ => ⟨rfl, fun hno => nomatch hno⟩
      | true => trivial
  · exact fun
      | false => .nil 0
      | true => hflow
  · exact fun
      | false => fun _ => hready
      | true => fun _ => (hfresh true).ready

theorem start_going (hfirst : ∀ i, l.first i + 208 < 2 ^ 32) :
    ∃ n, Going c l v.kept v.endPair n (v.segment e k) := by
  obtain ⟨at', htracks⟩ := v.start_tracks (e := e) hfresh hfirst
  obtain ⟨n, hleads⟩ := v.leads_end
  have hlogged : v.start.Logged := by
    rintro (_ | _)
    · exact List.suffix_rfl
    · exact List.suffix_rfl
  exact ⟨n, v.start, at', htracks, hleads, hlogged⟩

omit hfresh

def client (s : Segment v.programs) : Fetching := (s.proc false).app

def server (s : Segment v.programs) : Serving := (s.proc true).app

/-- Whatever the frames and timeouts so far, the client waits or has the whole response. -/
theorem client_polls (l : Line) (e : Bool → Circumstances) (k : Bool → Conn)
    (hfresh : ∀ i, Fresh l i (k i).host.assoc) (hfirst : ∀ i, l.first i + 208 < 2 ^ 32) (evs : List SegmentEv) :
    let st := v.client (run (Segment.step c e) (v.segment e k) evs)
    st.exit = none ∧ st.got = none ∨ st.exit = some 0 ∧ st.got = some v.response ∧ v.response.length ≤ 979 := by
  obtain ⟨n, hgoing⟩ := v.start_going (e := e) hfresh hfirst
  obtain ⟨n', -, t, at', htracks, hleads, -⟩ := hgoing.run v.steady (v.bounded hfirst) v.endPair_quiet (e := e) evs
  have happ := htracks.app false
  have hasking : Asking (t.at false).app := htracks.steady false
  intro st
  have hst : st = (t.at false).app := happ
  rw [hst]
  cases hexit : ((t.at false).app : Fetching).exit with
  | none => exact .inl ⟨rfl, (hasking hexit).1⟩
  | some code =>
    have hleft : (v.programs false).left (t.at false).app = true := by
      change ((t.at false).app : Fetching).exit.isSome = true
      rw [hexit]
      rfl
    have hend := congrArg Listener.app (left_stays hleads hleft)
    by_cases hshort : v.response.length ≤ 979
    · have hserved : (t.at false).app = v.served := by
        rw [← hend, endPair, if_pos hshort]
        rfl
      rw [hserved] at hexit ⊢
      exact .inr ⟨hexit.symm, rfl, hshort⟩
    · have hstuck : (t.at false).app = (v.clientWaiting true).app := by
        rw [← hend, endPair, if_neg hshort]
        rfl
      rw [hstuck] at hexit
      cases hexit

/-- Under every schedule that keeps delivering to both, a response of at most 979 bytes arrives,
and the server has heard the goodbye; of a longer one the client never gets anything. -/
theorem fetch_polls (l : Line) (e : Bool → Circumstances) (k : Bool → Conn)
    (hfresh : ∀ i, Fresh l i (k i).host.assoc) (hfirst : ∀ i, l.first i + 208 < 2 ^ 32) (es : ℕ → SegmentEv)
    (hfair : ∀ i, Recurs es (.frame i)) :
    ∃ n, ∀ m, n ≤ m →
      let s := after (Segment.step c e) (v.segment e k) es m
      if v.response.length ≤ 979 then
        (v.client s).exit = some 0 ∧ (v.client s).got = some v.response ∧ (v.server s).left = true
      else (v.client s).exit = none ∧ (v.client s).got = none ∧ (v.server s).left = false := by
  obtain ⟨n, hgoing⟩ := v.start_going (e := e) hfresh hfirst
  have hbound := v.bounded hfirst
  obtain ⟨n₀, -, hend⟩ := Going.arrives (e := e) v.steady hbound v.endPair_quiet hfair (n := 0) hgoing
  have hlogged : v.endPair.Logged := fun i => (v.endPair_quiet i) ▸ List.nil_suffix
  refine ⟨n₀, fun m hm => ?_⟩
  have hstays := fun s ev (h : Arrived c l v.kept v.endPair s) =>
    h.step (e := e) v.steady hbound v.endPair_quiet hlogged ev
  obtain ⟨at', htracks⟩ := after_keeps hstays hm hend
  have hclient := htracks.app false
  have hserver := htracks.app true
  intro s
  have hclient' : v.client s = (v.endPair.st false).app := hclient
  have hserver' : v.server s = (v.endPair.st true).app := hserver
  rw [hclient', hserver', endPair]
  split
  · exact ⟨rfl, rfl, rfl⟩
  · exact ⟨rfl, rfl, rfl⟩

end Visit

end Bite
