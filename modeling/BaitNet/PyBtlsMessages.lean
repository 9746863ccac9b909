import BaitNet.PyBtlsSpec

/-!
# Messages between two sessions of Python

`send_app` cuts a message into the fragments of `btls_send_app` and seals them, and `recv_app` puts them
together. A session has numbers for 2^64 records.
-/
namespace Py.Btls

open Wire Crypto
open Bite (fragment fragments sealRecs seals_append appRec)
open Interop (SameBoxes)

/-- The plaintext of the fragment at byte `off`. -/
def piece (msg : Bytes) (off : Nat) : Bytes :=
  [rtApplication, if off + btlsMaxPayload < msg.length then btlsFragMore else 0] ++ cut msg off (off + btlsMaxPayload)

def pieces (msg : Bytes) (n : Nat) : List Bytes := (List.range n).map fun i => piece msg (btlsMaxPayload * i)

theorem appInners_pieces (msg : Bytes) :
    appInners msg = pieces msg ((msg.length + btlsMaxPayload - 1) / btlsMaxPayload) := rfl

theorem appInners_length (msg : Bytes) :
    (appInners msg).length = (msg.length + btlsMaxPayload - 1) / btlsMaxPayload := by
  rw [appInners_pieces, pieces, List.length_map, List.length_range]

theorem piece_drop (msg : Bytes) (off : Nat) :
    piece msg (btlsMaxPayload + off) = piece (msg.drop btlsMaxPayload) off := by
  have hlt : btlsMaxPayload + off + btlsMaxPayload < msg.length ↔
      off + btlsMaxPayload < (msg.drop btlsMaxPayload).length := by
    rw [List.length_drop]
    omega
  have hcut : cut msg (btlsMaxPayload + off) (btlsMaxPayload + off + btlsMaxPayload) =
      cut (msg.drop btlsMaxPayload) off (off + btlsMaxPayload) := by
    rw [cut, cut, Nat.add_assoc, List.take_drop, List.drop_drop]
  simp only [piece, hlt, hcut]

theorem pieces_succ (msg : Bytes) (n : Nat) :
    pieces msg (n + 1) = piece msg 0 :: pieces (msg.drop btlsMaxPayload) n := by
  rw [pieces, List.range_succ_eq_map, List.map_cons, List.map_map]
  refine congrArg (List.cons _) (List.map_congr_left fun i _ => ?_)
  have hoff : btlsMaxPayload * i.succ = btlsMaxPayload + btlsMaxPayload * i := by
    rw [Nat.succ_eq_add_one]
    ring
  rw [Function.comp_apply, hoff, piece_drop]

/-- Python's fragments are those of `btls.c`. -/
theorem appInners_eq {msg : Bytes} (h : 0 < msg.length) : appInners msg = fragments msg := by
  rw [appInners_pieces]
  induction msg using Bite.fragments.induct with
  | case1 msg hlast =>
    have hone : (msg.length + btlsMaxPayload - 1) / btlsMaxPayload = 1 := by
      have hpos : Bite.btlsMaxPayload = 1290 := rfl
      rw [btlsMaxPayload]
      omega
    have hmore : ¬ 0 + btlsMaxPayload < msg.length := by
      rw [Nat.zero_add]
      exact Nat.not_lt.mpr hlast
    have hcut : cut msg 0 (0 + btlsMaxPayload) = msg := by
      rw [cut, List.drop_zero, Nat.zero_add]
      exact List.take_of_length_le hlast
    rw [hone, pieces_succ, Bite.fragments_last hlast, piece, if_neg hmore, hcut]
    rfl
  | case2 msg hlong ih =>
    have hlong' : btlsMaxPayload < msg.length := Nat.not_le.mp hlong
    have hcount : (msg.length + btlsMaxPayload - 1) / btlsMaxPayload =
        ((msg.drop btlsMaxPayload).length + btlsMaxPayload - 1) / btlsMaxPayload + 1 := by
      rw [List.length_drop]
      rw [btlsMaxPayload] at hlong' ⊢
      omega
    have hrest : 0 < (msg.drop Bite.btlsMaxPayload).length := by
      rw [List.length_drop]
      exact Nat.sub_pos_of_lt hlong'
    have hmore : 0 + btlsMaxPayload < msg.length := by rwa [Nat.zero_add]
    have hcut : cut msg 0 (0 + btlsMaxPayload) = msg.take btlsMaxPayload := by
      rw [cut, List.drop_zero, Nat.zero_add]
    rw [hcount, pieces_succ, Bite.fragments_more hlong', ← ih hrest, piece, if_pos hmore, hcut]
    rfl

variable (nb : PyBox)

/-- Messages sent one after the other, and all their records. -/
def sendAll : List Bytes → Btls → Btls × Except Exn (List Bytes)
  | [], q => (q, .ok [])
  | msg :: msgs, q =>
    match sendApp nb q msg with
    | (q, .error e) => (q, .error e)
    | (q, .ok recs) =>
      let (q, rest) := sendAll msgs q
      (q, rest.map (recs ++ ·))

/-- A list of messages that `send_app` has no objection to. -/
def Sendable (msgs : List Bytes) : Prop := ∀ msg ∈ msgs, 0 < msg.length ∧ msg.length ≤ btlsMaxMsg

/-- The number of records that a list of messages takes. -/
def recordCount (msgs : List Bytes) : Nat := (msgs.flatMap appInners).length

variable {nb}

theorem recordCount_cons (msg : Bytes) (msgs : List Bytes) :
    recordCount (msg :: msgs) = (appInners msg).length + recordCount msgs := by
  rw [recordCount, List.flatMap_cons, List.length_append, recordCount]

theorem appInners_fit (msg : Bytes) : ∀ inner ∈ appInners msg, inner.length ≤ 2 + btlsMaxPayload := by
  intro inner h
  obtain ⟨i, -, rfl⟩ := List.mem_map.mp h
  simp only [cut, List.length_append, List.length_cons, List.length_nil, List.length_drop, List.length_take]
  omega

section Seal

variable {c : TweetNaCl} (same : SameBoxes nb c) {key : Arr 32} {inners : List Bytes}
  (hfit : ∀ inner ∈ inners, inner.length ≤ 2 + btlsMaxPayload) {q : Btls} (hkey : q.sendKey = key.val)
include same hfit hkey

/-- As long as there are numbers, the fragments are sealed one after the other. -/
theorem sealInners_eq (hroom : q.sendSeq + inners.length ≤ 2 ^ 64) :
    sealInners nb inners q =
      ({ q with sendSeq := q.sendSeq + inners.length }, .ok (sealRecs c key (.ofNat q.sendSeq) inners)) := by
  induction inners generalizing q with
  | nil => rfl
  | cons inner inners ih =>
    rw [List.length_cons] at hroom ⊢
    have hone := sealInner_eq same hkey (UInt64.toNat_ofNat_of_lt' (by rw [UInt64.size]; omega)).symm (hfit inner List.mem_cons_self)
    have hrest := @ih (fun x hx => hfit x (List.mem_cons_of_mem inner hx)) { q with sendSeq := q.sendSeq + 1 } hkey
      (by dsimp only; omega)
    simp only [UInt64.ofNat_add, Nat.add_assoc, Nat.add_comm 1] at hrest
    rw [sealInners, hone]
    dsimp only
    rw [hrest]
    rfl

/-- When the numbers run out, there is an exception. -/
theorem sealInners_overflow (hseq : q.sendSeq ≤ 2 ^ 64) (hmany : 2 ^ 64 < q.sendSeq + inners.length) :
    (sealInners nb inners q).2 = .error .overflowError := by
  induction inners generalizing q with
  | nil =>
    rw [List.length_nil] at hmany
    omega
  | cons inner inners ih =>
    rw [List.length_cons] at hmany
    by_cases hlast : 2 ^ 64 ≤ q.sendSeq
    · rw [sealInners, sealInner_overflow hlast]
    · have hone := sealInner_eq same hkey (UInt64.toNat_ofNat_of_lt' (by rw [UInt64.size]; omega)).symm (hfit inner List.mem_cons_self)
      have hrest := @ih (fun x hx => hfit x (List.mem_cons_of_mem inner hx)) { q with sendSeq := q.sendSeq + 1 } hkey
        (by dsimp only; omega) (by dsimp only; omega)
      rw [sealInners, hone]
      dsimp only
      rw [hrest]
      rfl

end Seal

theorem sendApp_eq {q : Btls} {msg : Bytes} (hstate : q.state = .done)
    (hmsg : 0 < msg.length ∧ msg.length ≤ btlsMaxMsg) : sendApp nb q msg = sealInners nb (appInners msg) q := by
  rw [sendApp, if_neg (not_not.mpr hstate), if_neg (not_not.mpr hmsg)]

section Send

variable {c : TweetNaCl} (same : SameBoxes nb c) {key : Arr 32} {msgs : List Bytes} (h : Sendable msgs) {q : Btls}
  (hstate : q.state = .done) (hkey : q.sendKey = key.val)
include same h hstate hkey

/-- The records of all messages, numbered on. -/
theorem sendAll_eq (hroom : q.sendSeq + recordCount msgs ≤ 2 ^ 64) :
    (sendAll nb msgs q).2 = .ok (sealRecs c key (.ofNat q.sendSeq) (msgs.flatMap appInners)) := by
  induction msgs generalizing q with
  | nil => rfl
  | cons msg msgs ih =>
    rw [recordCount_cons] at hroom
    have hfirst := (sendApp_eq hstate (h msg List.mem_cons_self)).trans
      (sealInners_eq same (appInners_fit msg) hkey (by omega))
    have hrest := @ih (fun m hm => h m (List.mem_cons_of_mem msg hm))
      { q with sendSeq := q.sendSeq + (appInners msg).length } hstate hkey (by dsimp only; omega)
    rw [sendAll, hfirst, List.flatMap_cons, (seals_append _ _ _ _).2, ← UInt64.ofNat_add]
    dsimp only
    rw [hrest]
    rfl

theorem sendAll_overflow (hseq : q.sendSeq ≤ 2 ^ 64) (hmany : 2 ^ 64 < q.sendSeq + recordCount msgs) :
    (sendAll nb msgs q).2 = .error .overflowError := by
  induction msgs generalizing q with
  | nil =>
    have hnone : recordCount [] = 0 := rfl
    omega
  | cons msg msgs ih =>
    rw [recordCount_cons] at hmany
    have hfirst := @sendApp_eq nb q msg hstate (h msg List.mem_cons_self)
    by_cases hroom : q.sendSeq + (appInners msg).length ≤ 2 ^ 64
    · have hsealed := hfirst.trans (sealInners_eq same (appInners_fit msg) hkey hroom)
      have hrest := @ih (fun m hm => h m (List.mem_cons_of_mem msg hm))
        { q with sendSeq := q.sendSeq + (appInners msg).length } hstate hkey hroom (by dsimp only; omega)
      rw [sendAll, hsealed]
      dsimp only
      rw [hrest]
      rfl
    · have hfails := sealInners_overflow same (appInners_fit msg) hkey hseq (by omega)
      rw [← hfirst] at hfails
      obtain ⟨q', hq'⟩ : ∃ q', sendApp nb q msg = (q', .error .overflowError) := ⟨_, Prod.ext rfl hfails⟩
      rw [sendAll, hq']

end Send

variable (nb)

/-- Records taken one after the other, and the messages that they complete. -/
def recvAll : List Bytes → Btls → Btls × Except Exn (List Bytes)
  | [], q => (q, .ok [])
  | rec :: recs, q =>
    match recvApp nb q rec with
    | (q, .error e) => (q, .error e)
    | (q, .ok msg) =>
      let (q, rest) := recvAll recs q
      (q, rest.map (msg.toList ++ ·))

/-- What comes out at `b` of the messages that go in at `a`. -/
def deliver (a b : Btls) (msgs : List Bytes) : Except Exn (List Bytes) :=
  (sendAll nb msgs a).2 >>= fun recs => (recvAll nb recs b).2

variable {nb} {c : TweetNaCl} (same : SameBoxes nb c) {key : Arr 32}

/-- A session that has taken `n` more records and has `part` of a message. -/
def took (q : Btls) (n : Nat) (part : Bytes) : Btls := { q with recvSeq := q.recvSeq + n, rxBuf := part }

section Recv

variable {q : Btls} (hstate : q.state = .done) (hkey : q.recvKey = key.val)
include same hstate hkey

/-- A fragment is added to the message, and the last one completes it. -/
theorem recvApp_fragment (flags : UInt8) {data : Bytes} (hdata : data.length ≤ btlsMaxPayload)
    (hseq : q.recvSeq < 2 ^ 64) (hmax : q.rxBuf.length + data.length ≤ btlsMaxMsg) :
    recvApp nb q (appRec c key (.ofNat q.recvSeq) (fragment flags data)) =
      if flags &&& btlsFragMore ≠ 0 then (q.took 1 (q.rxBuf ++ data), .ok none)
      else (q.took 1 [], .ok (some (q.rxBuf ++ data))) := by
  have hlen := Bite.fragment_length flags data
  have hopen := @openRec_eq nb c same q key (.ofNat q.recvSeq) (fragment flags data) hkey (UInt64.toNat_ofNat_of_lt' hseq).symm
    (by omega) (by omega)
  have happ : ¬ (fragment flags data = [] ∨ byteAt (fragment flags data) 0 ≠ rtApplication) := by
    rintro (hnil | hne)
    · cases hnil
    · exact hne rfl
  have hflags : index (fragment flags data) 1 = .ok flags := rfl
  have hrest : (fragment flags data).drop 2 = data := rfl
  rw [recvApp, if_neg (not_not.mpr hstate), hopen]
  simp only [if_neg happ, hflags, hrest, if_neg (Nat.not_lt.mpr hmax)]
  rfl

/-- The fragments of a message complete it, whatever comes behind them. -/
theorem recvAll_fragments {msg : Bytes} (hroom : q.recvSeq + (fragments msg).length ≤ 2 ^ 64)
    (hmax : q.rxBuf.length + msg.length ≤ btlsMaxMsg) (rest : List Bytes) :
    recvAll nb (sealRecs c key (.ofNat q.recvSeq) (fragments msg) ++ rest) q =
      ((recvAll nb rest (q.took (fragments msg).length [])).1,
        (recvAll nb rest (q.took (fragments msg).length [])).2.map ([q.rxBuf ++ msg] ++ ·)) := by
  induction msg using Bite.fragments.induct generalizing q with
  | case1 msg hlast =>
    rw [Bite.fragments_last hlast, List.length_singleton] at hroom
    have hone := recvApp_fragment same hstate hkey 0 hlast (by omega) hmax
    have hzero : ¬ ((0 : UInt8) &&& btlsFragMore ≠ 0) := by decide
    rw [if_neg hzero] at hone
    rw [Bite.fragments_last hlast, sealRecs, List.cons_append, recvAll, hone]
    rfl
  | case2 msg hlong ih =>
    have hlong' : Bite.btlsMaxPayload < msg.length := Nat.not_le.mp hlong
    have htake : (msg.take Bite.btlsMaxPayload).length = Bite.btlsMaxPayload := List.length_take_of_le hlong'.le
    have hdrop : (msg.drop Bite.btlsMaxPayload).length = msg.length - Bite.btlsMaxPayload := List.length_drop
    rw [Bite.fragments_more hlong', List.length_cons] at hroom
    have hone := recvApp_fragment same hstate hkey Bite.btlsFragMore htake.le (by omega) (by omega)
    have hmore : Bite.btlsFragMore &&& btlsFragMore ≠ 0 := by decide
    rw [if_pos hmore] at hone
    have hbuf : (q.rxBuf ++ msg.take Bite.btlsMaxPayload).length + (msg.drop Bite.btlsMaxPayload).length ≤
        btlsMaxMsg := by
      rw [List.length_append]
      omega
    have hrest := @ih (q.took 1 (q.rxBuf ++ msg.take Bite.btlsMaxPayload)) hstate hkey
      (by rw [took]; dsimp only; omega) hbuf
    have hnext : UInt64.ofNat (q.took 1 (q.rxBuf ++ msg.take Bite.btlsMaxPayload)).recvSeq = .ofNat q.recvSeq + 1 :=
      UInt64.ofNat_add q.recvSeq 1
    have htotal : (q.took 1 (q.rxBuf ++ msg.take Bite.btlsMaxPayload)).took
        (fragments (msg.drop Bite.btlsMaxPayload)).length [] =
          q.took ((fragments (msg.drop Bite.btlsMaxPayload)).length + 1) [] := by
      rw [took, took, took, Nat.add_assoc, Nat.add_comm 1]
    have hwhole : (q.took 1 (q.rxBuf ++ msg.take Bite.btlsMaxPayload)).rxBuf ++ msg.drop Bite.btlsMaxPayload =
        q.rxBuf ++ msg := by
      change (q.rxBuf ++ _) ++ _ = _
      rw [List.append_assoc, List.take_append_drop]
    have hnone : ∀ r : Except Exn (List Bytes), r.map ((none : Option Bytes).toList ++ ·) = r := by
      intro r
      cases r <;> rfl
    rw [hnext, htotal, hwhole] at hrest
    rw [Bite.fragments_more hlong', sealRecs, List.cons_append, recvAll, hone]
    dsimp only
    rw [hrest, hnone]
    rfl

/-- The messages that were sent, in order. -/
theorem recvAll_eq {msgs : List Bytes} (h : Sendable msgs) (hbuf : q.rxBuf = [])
    (hroom : q.recvSeq + recordCount msgs ≤ 2 ^ 64) :
    (recvAll nb (sealRecs c key (.ofNat q.recvSeq) (msgs.flatMap appInners)) q).2 = .ok msgs := by
  induction msgs generalizing q with
  | nil => rfl
  | cons msg msgs ih =>
    have hmsg := h msg List.mem_cons_self
    rw [recordCount_cons, appInners_eq hmsg.1] at hroom
    have hfirst := @recvAll_fragments nb c same key q hstate hkey msg (by omega) (by rw [hbuf, List.length_nil]; omega)
    have hrest := @ih (q.took (fragments msg).length []) hstate hkey (fun m hm => h m (List.mem_cons_of_mem msg hm)) rfl
      (by rw [took]; dsimp only; omega)
    have hnext : UInt64.ofNat (q.took (fragments msg).length []).recvSeq =
        .ofNat q.recvSeq + .ofNat (fragments msg).length := UInt64.ofNat_add _ _
    rw [hnext] at hrest
    rw [List.flatMap_cons, appInners_eq hmsg.1, (seals_append _ _ _ _).2, hfirst, hrest, hbuf]
    rfl

end Recv

section Deliver

variable {a b : Btls} (ha : a.state = .done) (hsend : a.sendKey = key.val) {msgs : List Bytes} (h : Sendable msgs)
include same ha hsend h

/-- Between two sessions that are in step every message comes out as it went in. -/
theorem deliver_ok (hb : b.state = .done) (hrecv : b.recvKey = key.val) (hseq : b.recvSeq = a.sendSeq)
    (hbuf : b.rxBuf = []) (hroom : a.sendSeq + recordCount msgs ≤ 2 ^ 64) : deliver nb a b msgs = .ok msgs := by
  have hgot := recvAll_eq same hb hrecv h hbuf (by omega)
  rw [hseq] at hgot
  rw [deliver, sendAll_eq same h ha hsend hroom, Py.ok_bind, hgot]

theorem deliver_overflow (hseq : a.sendSeq ≤ 2 ^ 64) (hmany : 2 ^ 64 < a.sendSeq + recordCount msgs) :
    deliver nb a b msgs = .error .overflowError := by
  rw [deliver, sendAll_overflow same h ha hsend hseq hmany, Py.error_bind]

end Deliver

end Py.Btls
