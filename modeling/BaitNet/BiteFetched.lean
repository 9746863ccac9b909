import BaitNet.BiteExchange

/-!
# The end of a fetch

From the client's hello to empty channels: what was sent, what the client has, and when it has
nothing.
-/
namespace Bite

open Wire Crypto Channels

/-- A server with its documents, and a client that fetches one of them; the server can read what it
promises. -/
structure Visit (c : TweetNaCl) where
  setup : Setup c
  rnd : Arr 32
  fs : Bytes → Option Stream
  root : Bytes
  meth : Bytes
  path : Bytes
  meth_short : meth.length ≤ 7
  path_short : path.length ≤ 511
  readable : (respond fs root (requestText meth path)).isSome = true

namespace Visit

variable {c : TweetNaCl} (v : Visit c)

def programs : Bool → Program := bitePrograms c v.rnd v.fs v.root v.meth v.path

def procs (i : Bool) : Proc Item := listen (v.programs i)

def request : Bytes := requestText v.meth v.path

def response : Bytes := (respond v.fs v.root v.request).getD []

theorem request_length : v.request.length ≤ 532 ∧ v.request ≠ [] := by
  have hlen : v.request.length = v.meth.length + (v.path.length + 14) := by
    simp [request, requestText, ascii]
  have hmeth := v.meth_short
  have hpath := v.path_short
  exact ⟨by omega, List.ne_nil_of_length_pos (by omega)⟩

theorem response_spec : respond v.fs v.root v.request = some v.response ∧ v.response ≠ [] ∧
    v.response.length ≤ btlsMaxMsg := by
  obtain ⟨resp, hresp⟩ := Option.isSome_iff_exists.mp v.readable
  have hsame : v.response = resp := congrArg (Option.getD · []) hresp
  rw [hsame]
  exact ⟨hresp, respond_deliverable hresp⟩

/-- The buffer of a `static struct bctx`. -/
@[irreducible] def buf : Bytes := List.replicate btlsMaxMsg 0

theorem buf_length : buf.length = btlsMaxMsg := by rw [buf, List.length_replicate]

def clientHs (t : Btls) : Listener (v.programs false) := ⟨⟨⟨t, false, buf⟩, false, none, none⟩, false⟩

def serverAt (t : Btls) (done : Bool) (msg : Bytes) (left : Bool) : Listener (v.programs true) :=
  ⟨⟨⟨t, done, msg⟩, left⟩, false⟩

/-- The client has sent its request. -/
def clientAsked : Btls := (v.setup.client5 v.rnd).sent 0 v.request.length 0 1

/-- The server has taken the request, and has sent the response. -/
def serverAsked : Btls := { v.setup.server6 v.rnd with recvSeq := 1, rxLen := 0 }

def serverDone : Btls := v.serverAsked.sent 0 v.response.length 0 (fragments v.response).length

def clientWaiting (deaf : Bool) : Listener (v.programs false) :=
  ⟨⟨⟨v.clientAsked, true, buf⟩, true, none, none⟩, deaf⟩

/-- The client has the response. -/
def served : Fetching :=
  ⟨⟨{ v.clientAsked with recvSeq := 1, rxLen := 0 }, true, v.response ++ buf.drop v.response.length⟩, true,
    some v.response, some 0⟩

def clientServed : Listener (v.programs false) := ⟨v.served, false⟩

def reqMsg : Bytes := v.request ++ buf.drop v.request.length

def respMsg : Bytes := v.response ++ v.reqMsg.drop v.response.length

def requestRec : Bytes := appRec c (v.setup.client5 v.rnd).sendKey 0 (fragment 0 v.request)

def responseRecs : List Bytes := sealRecs c v.serverAsked.sendKey 0 (fragments v.response)

def hello : List Item := [.record v.setup.rec0]

def flight : List Item := (v.setup.flight v.rnd).map .record

def asked : List Item := [.record (v.setup.answer v.rnd), .record v.requestRec]

def answered : List Item := v.responseRecs.map .record

/-- What the client has sent when it waits for the response, and the server in the end. -/
def fromClient : List Item := v.hello ++ v.asked

def fromServer : List Item := v.flight ++ v.answered

/-- Client, server, what is on its way to each, and what was sent to each. -/
def pair (x : Listener (v.programs false)) (y : Listener (v.programs true)) (q q' l l' : List Item) : Pair v.procs :=
  Pair.of x y q q' l l'

def start : Pair v.procs :=
  v.pair (v.clientHs v.setup.client0) (v.serverAt v.setup.server false buf false) [] v.hello [] v.hello

theorem records_short :
    (v.setup.rec0).length ≤ Icsp.maxOpenable ∧ (∀ r ∈ v.setup.flight v.rnd, r.length ≤ Icsp.maxOpenable) ∧
      (v.setup.answer v.rnd).length ≤ Icsp.maxOpenable ∧ v.requestRec.length ≤ Icsp.maxOpenable := by
  have hreq := v.request_length.1
  refine ⟨?_, ?_, ?_, ?_⟩
  · simp [Setup.rec0, Setup.ch_length, Icsp.maxOpenable]
  · intro r hr
    simp only [Setup.flight, List.mem_cons, List.not_mem_nil, or_false] at hr
    rcases hr with rfl | rfl | rfl | rfl
    · simp [Setup.sh, Icsp.maxOpenable]
    · simp [Setup.cert, Icsp.maxOpenable]
    · simp [Setup.cv, Icsp.maxOpenable]
    · simp [Setup.finS, Icsp.maxOpenable]
  · simp [Setup.answer, Setup.finC, Icsp.maxOpenable]
  · rw [requestRec, appRec_length, fragment_length, Icsp.maxOpenable]
    omega

theorem client_round (st : Fetching) (r : Int) (pend : Bytes) :
    (v.programs false).round st r pend = fetchRound c v.rnd v.meth v.path st r pend := rfl

theorem serverRound_on {st : Serving} {pend : Bytes} {b : Bctx} {out : List Item}
    (h : (serverRecord c v.rnd v.fs v.root st.ctx pend).run outbox [] = ((b, .on), out)) :
    (serverRound c v.rnd v.fs v.root st Icsp.icspPollData pend).run outbox [] = (⟨b, false⟩, out) := by
  have hdata : ¬ Icsp.icspPollData = Icsp.icspPollErr ∧ ¬ Icsp.icspPollData = Icsp.icspPollClosed ∧
      ¬ Icsp.icspPollData = Icsp.icspPollTimeout := by decide
  simp [serverRound, roundEnd, h, hdata]

theorem server_hears_hello :
    (v.procs true).take (v.serverAt v.setup.server false buf false) (.record v.setup.rec0) =
      (v.serverAt (v.setup.server5 v.rnd) false buf false, v.flight) := by
  have hrec : (serverRecord c v.rnd v.fs v.root ⟨v.setup.server, false, buf⟩ v.setup.rec0).run outbox [] =
      ((⟨v.setup.server5 v.rnd, false, buf⟩, .on), v.flight) := by
    have hne : v.setup.rec0 ≠ [] := List.cons_ne_nil _ _
    rw [serverRecord, if_neg hne]
    exact v.setup.server_hears_hello v.rnd buf []
  exact hear rfl rfl v.records_short.1 (v.serverRound_on hrec)

theorem server_hears_answer :
    (v.procs true).take (v.serverAt (v.setup.server5 v.rnd) false buf false) (.record (v.setup.answer v.rnd)) =
      (v.serverAt (v.setup.server6 v.rnd) true buf false, []) := by
  have hrec : (serverRecord c v.rnd v.fs v.root ⟨v.setup.server5 v.rnd, false, buf⟩
      (v.setup.answer v.rnd)).run outbox [] = ((⟨v.setup.server6 v.rnd, true, buf⟩, .on), []) := by
    have hne : v.setup.answer v.rnd ≠ [] := List.cons_ne_nil _ _
    rw [serverRecord, if_neg hne]
    exact v.setup.server_hears_answer v.rnd buf []
  exact hear rfl rfl v.records_short.2.2.1 (v.serverRound_on hrec)

theorem serverAsked_idle : Idle v.serverAsked := by
  have hfree : v.setup.server.txMsg = 0 := by
    rw [Setup.server]
    rfl
  exact ⟨rfl, rfl, hfree⟩

theorem request_fits : v.request.length ≤ buf.length := by
  have hlen := v.request_length.1
  rw [buf_length, btlsMaxMsg]
  omega

/-- The request comes out as the client sent it, and is answered. -/
theorem server_hears_request :
    (v.procs true).take (v.serverAt (v.setup.server6 v.rnd) true buf false) (.record v.requestRec) =
      (v.serverAt v.serverDone true v.respMsg false, v.answered) := by
  have hrec : (serverRecord c v.rnd v.fs v.root ⟨v.setup.server6 v.rnd, true, buf⟩ v.requestRec).run outbox [] =
      ((⟨v.serverDone, true, v.respMsg⟩, .on), v.answered) := by
    have hne : v.requestRec ≠ [] := List.cons_ne_nil _ _
    obtain ⟨hresp, hresp_ne, hmax⟩ := v.response_spec
    have hlen := v.request_length.1
    have hrecv : btlsRecvApp c v.requestRec buf (v.setup.server6 v.rnd) =
        (v.serverAsked, v.reqMsg, 1, v.request.length) :=
      (v.setup.mirrored v.rnd).recvApp (by omega) v.request_fits
    have hmsg : v.reqMsg.take v.request.length = v.request := List.take_left
    have hsend := v.serverAsked_idle.appSend c hresp_ne hmax []
    rw [serverRecord, if_neg hne]
    have hone : ¬ (1 : Int) < 0 ∧ ¬ (1 : Int) = 0 := by decide
    simp only [if_true, requestRecord, hrecv, hmsg, hresp, if_neg hone.1, if_neg hone.2, Calls.run_bind, hsend]
    rfl
  exact hear rfl rfl v.records_short.2.2.2 (v.serverRound_on hrec)

theorem server_hears_bye :
    (v.procs true).take (v.serverAt v.serverDone true v.respMsg false) .bye =
      (v.serverAt v.serverDone true v.respMsg true, []) := by
  refine hear_bye (g := v.programs true) rfl ?_
  have hclosed : ¬ Icsp.icspPollClosed = Icsp.icspPollErr := by decide
  change (serverRound c v.rnd v.fs v.root _ Icsp.icspPollClosed []).run outbox [] = _
  simp [serverRound, serverRecord, hclosed, serverAt]
  rfl

theorem fetchRound_on (st : Fetching) {pend : Bytes} {b b' : Bctx} {sent : Bool} {out out' : List Item}
    (h : (fetchRecord c v.rnd st.ctx pend).run outbox [] = ((b, .on, none), out))
    (hreq : (sendRequest c v.meth v.path b st.sent).run outbox out = ((b', sent, true), out')) :
    (fetchRound c v.rnd v.meth v.path st Icsp.icspPollData pend).run outbox [] = (⟨b', sent, none, none⟩, out') := by
  have hdata : ¬ Icsp.icspPollData = Icsp.icspPollErr ∧ ¬ Icsp.icspPollData = Icsp.icspPollClosed ∧
      ¬ Icsp.icspPollData = Icsp.icspPollTimeout := by decide
  simp [fetchRound, roundEnd, h, hreq, hdata]

theorem flight_mem {i : Nat} (hi : i < 4) :
    (v.setup.flight v.rnd).getD i [] ∈ v.setup.flight v.rnd ∧ (v.setup.flight v.rnd).getD i [] ≠ [] := by
  have hlen : i < (v.setup.flight v.rnd).length := hi
  rw [List.getD_eq_getElem _ _ hlen]
  refine ⟨List.getElem_mem hlen, ?_⟩
  match i with
  | 0 | 1 | 2 | 3 => exact List.cons_ne_nil _ _
  | n + 4 => omega

theorem client_hears_flight {i : Nat} (hi : i < 3) :
    (v.procs false).take (v.clientHs (v.setup.clientAt v.rnd i)) (.record ((v.setup.flight v.rnd).getD i [])) =
      (v.clientHs (v.setup.clientAt v.rnd (i + 1)), []) := by
  obtain ⟨hmem, hne⟩ := v.flight_mem (i := i) (by omega)
  have hrec : (fetchRecord c v.rnd ⟨v.setup.clientAt v.rnd i, false, buf⟩
      ((v.setup.flight v.rnd).getD i [])).run outbox [] =
        ((⟨v.setup.clientAt v.rnd (i + 1), false, buf⟩, .on, none), []) := by
    rw [fetchRecord, if_neg hne]
    simp only [Bool.false_eq_true, if_false, Calls.run_bind, v.setup.client_hears v.rnd hi]
    rfl
  have hreq : (sendRequest c v.meth v.path ⟨v.setup.clientAt v.rnd (i + 1), false, buf⟩ false).run outbox [] =
      ((⟨v.setup.clientAt v.rnd (i + 1), false, buf⟩, false, true), []) := by
    simp [sendRequest]
  exact hear rfl rfl (v.records_short.2.1 _ hmem)
    (v.fetchRound_on ⟨⟨v.setup.clientAt v.rnd i, false, buf⟩, false, none, none⟩ hrec hreq)

/-- The last record of the flight: the client answers and asks. -/
theorem client_hears_fin :
    (v.procs false).take (v.clientHs (v.setup.clientAt v.rnd 3)) (.record ((v.setup.flight v.rnd).getD 3 [])) =
      (v.clientWaiting false, v.asked) := by
  obtain ⟨hmem, hne⟩ := v.flight_mem (i := 3) (by omega)
  obtain ⟨hlen, hreq_ne⟩ := v.request_length
  have hrec : (fetchRecord c v.rnd ⟨v.setup.client3 v.rnd, false, buf⟩
      ((v.setup.flight v.rnd).getD 3 [])).run outbox [] =
        ((⟨v.setup.client5 v.rnd, true, buf⟩, .on, none), [.record (v.setup.answer v.rnd)]) := by
    rw [fetchRecord, if_neg hne]
    simp only [Bool.false_eq_true, if_false, Calls.run_bind, v.setup.client_hears_fin v.rnd]
    rfl
  have hidle : Idle (v.setup.client5 v.rnd) := (v.setup.mirrored v.rnd).sender
  have hmax : v.request.length ≤ btlsMaxMsg := hlen.trans (by decide)
  obtain ⟨hone, hrecs, -⟩ := sealRecs_short (c := c) (v.setup.client5 v.rnd).sendKey (v.setup.client5 v.rnd).sendSeq
    (hlen.trans (by decide : 532 ≤ 979))
  have hsend := hidle.appSend c hreq_ne hmax [.record (v.setup.answer v.rnd)]
  rw [hone, hrecs] at hsend
  have hreq : (sendRequest c v.meth v.path ⟨v.setup.client5 v.rnd, true, buf⟩ false).run outbox
      [.record (v.setup.answer v.rnd)] = ((⟨v.clientAsked, true, buf⟩, true, true), v.asked) := by
    have hfits : ¬ biteHdrMax ≤ (requestText v.meth v.path).length := by
      have hlen' : (requestText v.meth v.path).length ≤ 532 := hlen
      rw [biteHdrMax]
      omega
    have hsend' : (appSend c (requestText v.meth v.path) (v.setup.client5 v.rnd)).run outbox
        [.record (v.setup.answer v.rnd)] = _ := hsend
    have hnew : True ∧ ¬ false = true := by decide
    simp only [sendRequest, if_neg hfits, if_pos hnew, Calls.run_bind, hsend']
    rfl
  exact hear rfl rfl (v.records_short.2.1 _ hmem)
    (v.fetchRound_on ⟨⟨v.setup.client3 v.rnd, false, buf⟩, false, none, none⟩ hrec hreq)

/-- A response of one record that the association opens: the client has it and says goodbye. -/
theorem client_hears_response (h : v.response.length ≤ 979) :
    (v.procs false).take (v.clientWaiting false)
        (.record (appRec c v.serverAsked.sendKey 0 (fragment 0 v.response))) = (v.clientServed, [.bye]) := by
  have hne : appRec c v.serverAsked.sendKey 0 (fragment 0 v.response) ≠ [] := List.cons_ne_nil _ _
  have hmirrored : Mirrored v.serverAsked v.clientAsked := by
    have hfresh : v.setup.client.rxLen = 0 := by
      rw [Setup.client]
      rfl
    exact ⟨v.serverAsked_idle, rfl, rfl, rfl, rfl, hfresh⟩
  have hroom : v.response.length ≤ buf.length := by
    rw [buf_length, btlsMaxMsg]
    omega
  have hrecv : btlsRecvApp c (appRec c v.serverAsked.sendKey 0 (fragment 0 v.response)) buf v.clientAsked = _ :=
    hmirrored.recvApp (by omega) hroom
  have hmsg : (v.response ++ buf.drop v.response.length).take v.response.length = v.response := List.take_left
  have hrec : (fetchRecord c v.rnd ⟨v.clientAsked, true, buf⟩
      (appRec c v.serverAsked.sendKey 0 (fragment 0 v.response))).run outbox [] =
        ((v.served.ctx, .on, some v.response), []) := by
    rw [fetchRecord, if_neg hne]
    simp only [if_true, responseRecord, hrecv, hmsg]
    rfl
  have hdata : ¬ Icsp.icspPollData = Icsp.icspPollErr := by decide
  have hround : (fetchRound c v.rnd v.meth v.path ⟨⟨v.clientAsked, true, buf⟩, true, none, none⟩
      Icsp.icspPollData (appRec c v.serverAsked.sendKey 0 (fragment 0 v.response))).run outbox [] =
        (v.served, [.bye]) := by
    rw [fetchRound, if_neg hdata, Calls.run_bind, hrec]
    rfl
  have hlen := (sealRecs_short (c := c) v.serverAsked.sendKey 0 h).2.2
  exact hear (g := v.programs false) (l := v.clientWaiting false) rfl rfl hlen
    ((congrArg (Calls.run outbox · []) (v.client_round _ _ _)).trans hround)

section Moves

variable {v} {x x' : Listener (v.programs false)} {y y' : Listener (v.programs true)} {a : Item}
variable {out q q' l l' : List Item}

theorem client_moves (h : (v.procs false).take x a = (x', out)) :
    Leads 1 (v.pair x y (a :: q) q' l l') (v.pair x' y q (q' ++ out) l (l' ++ out)) := Leads.move_false h

theorem server_moves (h : (v.procs true).take y a = (y', out)) :
    Leads 1 (v.pair x y q (a :: q') l l') (v.pair x y' (q ++ out) q' (l ++ out) l') := Leads.move_true h

theorem client_silent (h : (v.procs false).take x a = (x', [])) :
    Leads 1 (v.pair x y (a :: q) q' l l') (v.pair x' y q q' l l') := by
  simpa using client_moves h

theorem server_silent (h : (v.procs true).take y a = (y', [])) :
    Leads 1 (v.pair x y q (a :: q') l l') (v.pair x y' q q' l l') := by
  simpa using server_moves h

end Moves

/-- The server has sent its flight, of which the client has taken `i` records. -/
def flightPair (i : Nat) : Pair v.procs :=
  v.pair (v.clientHs (v.setup.clientAt v.rnd i)) (v.serverAt (v.setup.server5 v.rnd) false buf false)
    (v.flight.drop i) [] v.flight v.hello

/-- The client has asked. -/
def askedPair : Pair v.procs :=
  v.pair (v.clientWaiting false) (v.serverAt (v.setup.server5 v.rnd) false buf false) [] v.asked v.flight v.fromClient

/-- The server has answered, and nothing of the answer is taken. -/
def answeredPair : Pair v.procs :=
  v.pair (v.clientWaiting false) (v.serverAt v.serverDone true v.respMsg false) v.answered [] v.fromServer v.fromClient

theorem leads_flight : Leads 1 v.start (v.flightPair 0) := server_moves v.server_hears_hello

theorem leads_next {i : Nat} (hi : i < 3) : Leads 1 (v.flightPair i) (v.flightPair (i + 1)) := by
  have hlen : i < v.flight.length := by
    rw [flight, List.length_map]
    exact hi.trans (by decide : 3 < 4)
  have hhead : v.flight.drop i = .record ((v.setup.flight v.rnd).getD i []) :: v.flight.drop (i + 1) := by
    rw [List.drop_eq_getElem_cons hlen]
    simp only [flight, List.getElem_map]
    rw [List.getD_eq_getElem]
  rw [flightPair, hhead]
  exact client_silent (v.client_hears_flight hi)

theorem leads_asked : Leads 1 (v.flightPair 3) v.askedPair := client_moves v.client_hears_fin

theorem leads_answered : Leads 7 v.start v.answeredPair := by
  have hflight : Leads 4 v.start (v.flightPair 3) :=
    ((v.leads_flight.trans (v.leads_next (by decide))).trans (v.leads_next (by decide))).trans
      (v.leads_next (by decide))
  have hanswer : Leads 1 v.askedPair (v.pair (v.clientWaiting false) (v.serverAt (v.setup.server6 v.rnd) true buf false)
      [] [.record v.requestRec] v.flight v.fromClient) := server_moves v.server_hears_answer
  have hreq : Leads 1 (v.pair (v.clientWaiting false) (v.serverAt (v.setup.server6 v.rnd) true buf false) []
      [.record v.requestRec] v.flight v.fromClient) v.answeredPair := server_moves v.server_hears_request
  exact (hflight.trans v.leads_asked).trans (hanswer.trans hreq)

/-- The client has the response and the server has left. -/
def servedPair : Pair v.procs :=
  v.pair v.clientServed (v.serverAt v.serverDone true v.respMsg true) [] [] v.fromServer (v.fromClient ++ [.bye])

/-- The client waits for ever. -/
def stuckPair : Pair v.procs :=
  v.pair (v.clientWaiting true) (v.serverAt v.serverDone true v.respMsg false) [] [] v.fromServer v.fromClient

theorem leads_served (h : v.response.length ≤ 979) : Leads 2 v.answeredPair v.servedPair := by
  have hone := (sealRecs_short (c := c) v.serverAsked.sendKey 0 h).2.1
  have hanswered : v.answered = [.record (appRec c v.serverAsked.sendKey 0 (fragment 0 v.response))] := by
    rw [answered, responseRecs, hone]
    rfl
  have hresp : Leads 1 v.answeredPair (v.pair v.clientServed (v.serverAt v.serverDone true v.respMsg false) [] [.bye]
      v.fromServer (v.fromClient ++ [.bye])) := by
    rw [answeredPair, hanswered]
    exact client_moves (v.client_hears_response h)
  have hbye : Leads 1 (v.pair v.clientServed (v.serverAt v.serverDone true v.respMsg false) [] [.bye]
      v.fromServer (v.fromClient ++ [.bye])) v.servedPair := server_silent v.server_hears_bye
  exact hresp.trans hbye

/-- The client waits while so much is on its way to it. -/
def waitingPair (deaf : Bool) (rs : List Bytes) : Pair v.procs :=
  v.pair (v.clientWaiting deaf) (v.serverAt v.serverDone true v.respMsg false) (rs.map .record) [] v.fromServer
    v.fromClient

/-- A deaf client takes a record and does nothing. -/
theorem leads_deaf_one {deaf : Bool} {r : Bytes} (rs : List Bytes) (h : deaf = true ∨ Icsp.maxOpenable < r.length) :
    Leads 1 (v.waitingPair deaf (r :: rs)) (v.waitingPair true rs) := by
  have hdeaf : (v.procs false).take (v.clientWaiting deaf) (.record r) = (v.clientWaiting true, []) := hear_long rfl h
  exact client_silent hdeaf

theorem leads_deaf (rs : List Bytes) : Leads rs.length (v.waitingPair true rs) v.stuckPair := by
  induction rs with
  | nil => exact .here _
  | cons r rs ih =>
    have hone := v.leads_deaf_one (r := r) rs (.inl rfl)
    rw [List.length_cons, Nat.add_comm]
    exact hone.trans ih

theorem leads_stuck (h : 979 < v.response.length) : Leads v.responseRecs.length v.answeredPair v.stuckPair := by
  obtain ⟨first, rest, hrecs, hlong⟩ := sealRecs_long (c := c) v.serverAsked.sendKey 0 h
  have hrecs' : v.responseRecs = first :: rest := hrecs
  have hanswered : v.answeredPair = v.waitingPair false v.responseRecs := rfl
  rw [hanswered, hrecs', List.length_cons, Nat.add_comm]
  exact (v.leads_deaf_one rest (.inr hlong)).trans (v.leads_deaf rest)

/-- Where every fetch ends. -/
def endPair : Pair v.procs := if v.response.length ≤ 979 then v.servedPair else v.stuckPair

theorem endPair_quiet : v.endPair.Quiet := by
  intro i
  rw [endPair]
  split <;> cases i <;> rfl

theorem leads_end : ∃ k, Leads k v.start v.endPair := by
  rw [endPair]
  split
  · rename_i h
    exact ⟨_, v.leads_answered.trans (v.leads_served h)⟩
  · rename_i h
    exact ⟨_, v.leads_answered.trans (v.leads_stuck (Nat.lt_of_not_le h))⟩

end Visit

end Bite
