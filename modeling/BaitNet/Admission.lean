import BaitNet.CallSpec
import BaitNet.Runs

/-!
# Whom the server lets in

`icsp_server_accept` over any sequence of received frames. Rejected INITs leave their
fields behind, but only an accepted one opens the wait for a COOKIE-ECHO, and from there
to the return nothing of the peer is written again.
-/
namespace Icsp

open Wire Link Crypto Runs

/-- A running `icsp_server_accept`, the payload of the last INIT that `init_check`
accepted and was answered, and that of the COOKIE-ECHO that completed the call. -/
structure Accepting where
  call : ServerCall
  lastInit : Option Bytes
  echo : Option Bytes

/-- The payload of a received frame. -/
def rxPayload : Rx → Bytes
  | .frame buf _ => framePayload buf
  | _ => []

variable (c : TweetNaCl)

/-- The call after the frame with the payload `p`, which is noted when it opened the wait
for a COOKIE-ECHO or completed the call. -/
def Accepting.next (st : Accepting) (call : ServerCall) (p : Bytes) : Accepting where
  call := call
  lastInit := if st.call.phase = .waitInit ∧ call.phase = .waitCookie then some p else st.lastInit
  echo := if st.call.phase = .waitCookie ∧ call.phase = .done 0 then some p else st.echo

def acceptStep (args : ServerArgs) (st : Accepting) (e : Io × Rx) : Accepting :=
  st.next (serverStep c e.1 args st.call e.2).1 (rxPayload e.2)

def Accepting.init (io : Io) (args : ServerArgs) (h : Host) : Accepting :=
  ⟨(serverStart c io args h).1, none, none⟩

/-- What the association owes to the INIT it answered. -/
structure FromInit (signed : Arr 32 → Bytes → Prop) (peers : List (Arr 32)) (a : IcspAssoc)
    (init : Bytes) : Prop where
  signature : signed a.peerId (initSigned init)
  eph : a.peerEph = arr (chunkData0 init) 5 32
  listed : peers ≠ [] → a.peerId ∈ peers
  hasKey : a.hasKey = true
  keys : (a.sendKey, a.recvKey) = sessionKeys c false (c.scalarmult a.ephPriv a.peerEph)

/-- What it owes to the COOKIE-ECHO. -/
structure FromEcho (signed : Arr 32 → Bytes → Prop) (a : IcspAssoc) (echo : Bytes) : Prop where
  cookie : arr (chunkData0 echo) 0 48 = cookieOf c a
  signature : signed a.peerId (cookieOf c a).val

variable {c} {signed : Arr 32 → Bytes → Prop} {args : ServerArgs}

/-- Both speak of the identities, the ephemerals and the keys only. -/
theorem FromInit.of_keyState {peers : List (Arr 32)} {a b : IcspAssoc} {init : Bytes}
    (h : FromInit c signed peers a init) (hk : b.toKeyState = a.toKeyState) :
    FromInit c signed peers b init := by
  have hpeer : b.peerId = a.peerId := congrArg KeyState.peerId hk
  have heph : b.peerEph = a.peerEph := congrArg KeyState.peerEph hk
  have hpriv : b.ephPriv = a.ephPriv := congrArg KeyState.ephPriv hk
  have hsend : b.sendKey = a.sendKey := congrArg KeyState.sendKey hk
  have hrecv : b.recvKey = a.recvKey := congrArg KeyState.recvKey hk
  have hhas : b.hasKey = a.hasKey := congrArg KeyState.hasKey hk
  constructor
  · rw [hpeer]
    exact h.signature
  · rw [heph]
    exact h.eph
  · rw [hpeer]
    exact h.listed
  · rw [hhas]
    exact h.hasKey
  · rw [hsend, hrecv, hpriv, heph]
    exact h.keys

theorem SameCore.keyState {a b : IcspAssoc} (h : SameCore a b) : b.toKeyState = a.toKeyState := by
  obtain ⟨e, l, rfl⟩ := h
  rfl

/-- The payload is one of the received ones. -/
def Heard (es : List (Io × Rx)) (p : Bytes) : Prop := ∃ e ∈ es, rxPayload e.2 = p

theorem Heard.append {es : List (Io × Rx)} {p : Bytes} (h : Heard es p) (e : Io × Rx) :
    Heard (es ++ [e]) p := by
  obtain ⟨e', he', hp⟩ := h
  exact ⟨e', List.mem_append_left _ he', hp⟩

theorem heard_last (es : List (Io × Rx)) (e : Io × Rx) : Heard (es ++ [e]) (rxPayload e.2) :=
  ⟨e, List.mem_append_right _ (List.mem_singleton_self e), rfl⟩

/-- After the frames `es`: the wait for a COOKIE-ECHO goes back to an accepted INIT, the
return of 0 to that and to a COOKIE-ECHO. -/
structure AcceptInv (c : TweetNaCl) (signed : Arr 32 → Bytes → Prop) (args : ServerArgs)
    (es : List (Io × Rx)) (st : Accepting) : Prop where
  responder : st.call.host.assoc.isInitiator = false
  waiting : st.call.phase = .waitCookie → ∃ init, st.lastInit = some init ∧ Heard es init ∧
    FromInit c signed args.peers st.call.host.assoc init
  returned : st.call.phase = .done 0 → ∃ init echo, st.lastInit = some init ∧ st.echo = some echo ∧
    Heard es init ∧ Heard es echo ∧ FromInit c signed args.peers st.call.host.assoc init ∧
    FromEcho c signed st.call.host.assoc echo

theorem InitOutcome.isInitiator {io : Io} {h h' : Host} {buf payload : Bytes} {plen : Nat}
    {peers : List (Arr 32)} {flags : Option UInt8}
    (hout : InitOutcome c io h buf payload plen peers (h', flags)) :
    h'.assoc.isInitiator = h.assoc.isInitiator := by
  cases hout with
  | refused => rfl
  | boxed => rfl
  | rejected => rfl
  | accepted => rfl

/-- The invariant after a round, from what the round did to the phase and the keys. -/
theorem AcceptInv.next {es : List (Io × Rx)} {st : Accepting} (h : AcceptInv c signed args es st)
    (e : Io × Rx) (call : ServerCall) (hrole : call.host.assoc.isInitiator = false)
    (hwait : call.phase = .waitCookie →
      (st.call.phase = .waitInit ∧
        FromInit c signed args.peers call.host.assoc (rxPayload e.2)) ∨
      (st.call.phase = .waitCookie ∧
        call.host.assoc.toKeyState = st.call.host.assoc.toKeyState))
    (hret : call.phase = .done 0 →
      (st.call.phase = .waitCookie ∧
        call.host.assoc.toKeyState = st.call.host.assoc.toKeyState ∧
        FromEcho c signed call.host.assoc (rxPayload e.2)) ∨
      (st.call.phase = .done 0 ∧ call.host.assoc = st.call.host.assoc)) :
    AcceptInv c signed args (es ++ [e]) (st.next call (rxPayload e.2)) := by
  refine ⟨hrole, fun hw => ?_, fun hd => ?_⟩
  · cases hwait hw with
    | inl hnew =>
      refine ⟨rxPayload e.2, ?_, heard_last es e, hnew.2⟩
      exact if_pos ⟨hnew.1, hw⟩
    | inr hold =>
      obtain ⟨init, hi, hhi, hfi⟩ := h.waiting hold.1
      refine ⟨init, ?_, hhi.append e, hfi.of_keyState hold.2⟩
      rw [← hi]
      refine if_neg fun hp => ?_
      rw [hold.1] at hp
      exact nomatch hp.1
  · have hstay : (st.next call (rxPayload e.2)).lastInit = st.lastInit := by
      refine if_neg fun hp => ?_
      have hd' : call.phase = .done 0 := hd
      rw [hd'] at hp
      exact nomatch hp.2
    cases hret hd with
    | inl hnew =>
      obtain ⟨init, hi, hhi, hfi⟩ := h.waiting hnew.1
      refine ⟨init, rxPayload e.2, hstay.trans hi, ?_, hhi.append e, heard_last es e,
        hfi.of_keyState hnew.2.1, hnew.2.2⟩
      exact if_pos ⟨hnew.1, hd⟩
    | inr hold =>
      obtain ⟨init, echo, hi, he, hhi, hhe, hfi, hfe⟩ := h.returned hold.1
      refine ⟨init, echo, hstay.trans hi, ?_, hhi.append e, hhe.append e, ?_, ?_⟩
      · rw [← he]
        refine if_neg fun hp => ?_
        rw [hold.1] at hp
        exact nomatch hp.1
      · exact hfi.of_keyState (congrArg IcspAssoc.toKeyState hold.2)
      · have hassoc : (st.next call (rxPayload e.2)).call.host.assoc = st.call.host.assoc := hold.2
        rw [hassoc]
        exact hfe

theorem failed_ne_zero : ServerPhase.done (-1) ≠ .done 0 := by decide

theorem acceptInv_step (hsound : ∀ id m sig, ed25519Verify c m sig id = true → signed id m)
    {es : List (Io × Rx)} {st : Accepting} (h : AcceptInv c signed args es st) (e : Io × Rx) :
    AcceptInv c signed args (es ++ [e]) (acceptStep c args st e) := by
  have hout := serverStep_outcome c e.1 args st.call e.2
  rw [acceptStep]
  revert hout
  generalize serverStep c e.1 args st.call e.2 = res
  intro hout
  have hrole : ∀ a : IcspAssoc, a.toKeyState = st.call.host.assoc.toKeyState →
      a.isInitiator = false := by
    intro a hk
    have hi : a.isInitiator = st.call.host.assoc.isInitiator := congrArg KeyState.isInitiator hk
    exact hi.trans h.responder
  cases hout with
  | ended ret hp =>
    refine h.next e st.call h.responder (fun hw => ?_) (fun hd => .inr ⟨hd, rfl⟩)
    rw [hp] at hw
    cases hw
  | waits a g phase acts hnd hcore hph hacts =>
    refine h.next e _ (hrole a hcore.keyState) (fun hw => ?_) (fun hd => ?_)
    · have hw' : phase = .waitCookie := hw
      rcases hph with rfl | rfl | rfl
      · exact .inr ⟨hw', hcore.keyState⟩
      · cases hw'
      · cases hw'
    · have hd' : phase = .done 0 := hd
      rcases hph with rfl | rfl | rfl
      · exact absurd hd' (hnd 0)
      · cases hd'
      · exact absurd hd' failed_ne_zero
  | dropped buf n h' a acts hp hrx hty hin hcore hacts =>
    refine h.next e _ ?_ (fun hw => by cases hw) (fun hd => by cases hd)
    have hi : a.isInitiator = h'.assoc.isInitiator := congrArg KeyState.isInitiator hcore.keyState
    exact hi.trans (hin.isInitiator.trans h.responder)
  | answered buf n h' flags acts sent hp hrx hty hin hs =>
    have hresp : h'.assoc.isInitiator = false := hin.isInitiator.trans h.responder
    refine h.next e _ hresp (fun hw => .inl ⟨hp, ?_⟩) (fun hd => ?_)
    · rw [hrx]
      cases hin with
      | accepted g id hadm hid hsig hpeers =>
        constructor
        · exact hsound _ _ _ hsig
        · rfl
        · exact fun hne => hpeers.resolve_left hne
        · rfl
        · rw [← hresp]
          rfl
    · cases sent with
      | true => cases hd
      | false => exact absurd hd failed_ne_zero
  | completed buf n acts hp hrx hty hv hs =>
    refine h.next e _ (hrole _ rfl) (fun hw => by cases hw) (fun _ => .inl ⟨hp, rfl, ?_⟩)
    rw [echoValid, Bool.and_eq_true, decide_eq_true_eq] at hv
    obtain ⟨hck, hsig⟩ := hv
    have hcookie : slice (chunkData0 (framePayload buf)) 0 48 =
        (cookieOf c (recvd e.1 st.call.host.assoc buf)).val := congrArg Subtype.val hck
    rw [hcookie] at hsig
    rw [hrx]
    exact ⟨hck, hsound _ _ _ hsig⟩
  | unsent buf n acts hp hrx hs =>
    refine h.next e _ (hrole _ rfl) (fun hw => by cases hw) (fun hd => ?_)
    exact absurd hd failed_ne_zero

/-- The invariant of the whole call, by induction over the frames, the last one first. -/
theorem acceptInv_run (hsound : ∀ id m sig, ed25519Verify c m sig id = true → signed id m)
    (io : Io) (h : Host) (es : List (Io × Rx)) :
    AcceptInv c signed args es (run (acceptStep c args) (Accepting.init c io args h) es) := by
  induction es using List.reverseRecOn with
  | nil =>
    obtain ⟨a, acts, hstart, hcore, -⟩ := serverStart_core c io args h
    rw [run_nil, Accepting.init, hstart]
    refine ⟨?_, fun hw => (nomatch hw), fun hd => nomatch hd⟩
    exact congrArg KeyState.isInitiator hcore.keyState
  | append_singleton es e ih =>
    rw [run_append]
    exact acceptInv_step hsound ih e

/-- Whatever frames arrive in whatever order, a call that returns 0 owes its association
to the last INIT it accepted and to a COOKIE-ECHO for it. -/
theorem server_admission (c : TweetNaCl) (signed : Arr 32 → Bytes → Prop)
    (hsound : ∀ id m sig, ed25519Verify c m sig id = true → signed id m) (io : Io)
    (args : ServerArgs) (h : Host) (es : List (Io × Rx))
    (hret : (run (acceptStep c args) (Accepting.init c io args h) es).call.phase = .done 0) :
    ∃ init echo, (run (acceptStep c args) (Accepting.init c io args h) es).lastInit = some init ∧
      (run (acceptStep c args) (Accepting.init c io args h) es).echo = some echo ∧
      Heard es init ∧ Heard es echo ∧
      FromInit c signed args.peers
        (run (acceptStep c args) (Accepting.init c io args h) es).call.host.assoc init ∧
      FromEcho c signed
        (run (acceptStep c args) (Accepting.init c io args h) es).call.host.assoc echo :=
  (acceptInv_run hsound io h es).returned hret

/-- The frames with which station 9 gets in: INIT and, after the answer, COOKIE-ECHO. -/
def toyKnock : List (Io × Rx) :=
  let (client, acts) := clientStart toy (.quiet 1) toyClient (toyAssoc 9)
  let init := lastFrame acts
  let (server, _) := serverStart toy (.quiet 1) toyServer ⟨toyAssoc 7, .zero⟩
  let (_, acts) := serverStep toy (.quiet 1) toyServer server init
  let (_, acts) := clientStep toy (.quiet 1) toyClient client (lastFrame acts)
  [(.quiet 1, init), (.quiet 2, lastFrame acts)]

theorem server_admission_knock :
    let st := run (acceptStep toy toyServer)
      (Accepting.init toy (.quiet 1) toyServer ⟨toyAssoc 7, .zero⟩) toyKnock
    st.call.host.assoc.peerId = toyId 9 ∧ ∃ init echo, st.lastInit = some init ∧
      st.echo = some echo ∧ Heard toyKnock init ∧ Heard toyKnock echo ∧
      FromInit toy (fun id m => ∃ sig, ed25519Verify toy m sig id = true) []
        st.call.host.assoc init ∧
      FromEcho toy (fun id m => ∃ sig, ed25519Verify toy m sig id = true) st.call.host.assoc echo := by
  refine ⟨by decide +kernel, ?_⟩
  exact server_admission toy (fun id m => ∃ sig, ed25519Verify toy m sig id = true)
    (fun id m sig h => ⟨sig, h⟩) (.quiet 1) toyServer ⟨toyAssoc 7, .zero⟩ toyKnock
    (by decide +kernel)

end Icsp
