import BaitNet.BiteLoop
import BaitNet.BiteServed
import BaitNet.BtlsDelivery
import BaitNet.Channels
import BaitNet.Lossless

/-!
# A fetch over channels of records

The programs over associations that hand on what they can open, in order: the handshake, the
request and the response, record by record.
-/
namespace Bite

open Wire Crypto Channels

/-- What one program sends to the other: a record on stream 1, or SHUTDOWN. -/
inductive Item where
  | record (bytes : Bytes)
  | bye
  deriving DecidableEq

/-- What a round sends, in order. -/
def outbox : Handler port (List Item)
  | .send rec, s => (true, s ++ [.record rec])
  | .retransmit, s => ((), s)
  | .shutdown, s => ((), s ++ [.bye])

@[simp] theorem outbox_send (s : List Item) (rec : Bytes) :
    (dataSend rec).run outbox s = (true, s ++ [.record rec]) := rfl

@[simp] theorem outbox_retransmit (s : List Item) : dataRetransmit.run outbox s = ((), s) := rfl

@[simp] theorem outbox_shutdown (s : List Item) : shutdownSend.run outbox s = ((), s ++ [.bye]) := rfl

/-- A program at its association. It is deaf from the first record on that the association could
not open: those behind it wait for it. -/
structure Listener (g : Program) where
  app : g.State
  deaf : Bool

def listen (g : Program) : Proc Item where
  State := Listener g
  take l x :=
    if g.left l.app then (l, [])
    else
      match x with
      | .record r =>
        if l.deaf ∨ Icsp.maxOpenable < r.length then ({ l with deaf := true }, [])
        else
          let (app, out) := (g.round l.app Icsp.icspPollData r).run outbox []
          (⟨app, false⟩, out)
      | .bye =>
        let (app, out) := (g.round l.app Icsp.icspPollClosed []).run outbox []
        ({ l with app }, out)

/-- `run_fetch` as `false`, `run_server` as `true`. -/
def bitePrograms (c : TweetNaCl) (rs : Arr 32) (fs : Bytes → Option Stream) (root meth path : Bytes) : Bool → Program
  | false => fetchProgram c rs meth path
  | true => serverProgram c rs fs root

section Sending

variable (c : TweetNaCl)

/-- Where the sender's loop over a message ends well, its records have gone out in order. -/
theorem appSendLoop_outbox (ptr : Nat) (msg : Bytes) (fuel : Nat) (t : Btls) (s : List Item)
    (h : (sendMsg c ptr msg fuel t).2.2.2 = 0) :
    (appSendLoop c ptr msg fuel t).run outbox s =
      (((sendMsg c ptr msg fuel t).1, true), s ++ (sendMsg c ptr msg fuel t).2.2.1.map .record) := by
  induction fuel generalizing t s with
  | zero => cases h
  | succ fuel ih =>
    rw [sendMsg] at h ⊢
    rw [appSendLoop]
    generalize btlsSendApp c ptr msg t = one at h ⊢
    obtain ⟨t', acts, ret, rec⟩ := one
    dsimp only at h ⊢
    by_cases hmore : ret = 1
    · rw [if_pos hmore] at h ⊢
      have hrest := ih t' (s ++ [.record rec]) h
      simp only [hmore, if_neg (by decide : ¬ (1 : Int) < 0), Calls.run_bind, outbox_send, Bool.true_eq_false, if_false,
        if_true, hrest, List.map_cons, List.append_assoc]
      rfl
    · rw [if_neg hmore] at h ⊢
      dsimp only at h ⊢
      simp only [h, if_neg (by decide : ¬ (0 : Int) < 0), if_neg (by decide : ¬ (0 : Int) = 1), Calls.run_bind, outbox_send,
        Bool.true_eq_false, if_false]
      rfl

theorem Idle.appSend {t : Btls} (h : Idle t) {msg : Bytes} (hne : msg ≠ []) (hmax : msg.length ≤ btlsMaxMsg)
    (s : List Item) :
    (appSend c msg t).run outbox s =
      ((t.sent 0 msg.length 0 (fragments msg).length, true),
        s ++ (sealRecs c t.sendKey t.sendSeq (fragments msg)).map .record) := by
  have hsend := h.sendMsg (c := c) ⟨msgAddr, msg, by decide, List.length_pos_iff.mpr hne, hmax⟩
  have hloop := appSendLoop_outbox c msgAddr msg msg.length t s (by rw [hsend])
  rwa [hsend] at hloop

end Sending

variable {c : TweetNaCl} (p : Setup c) (rs : Arr 32)

namespace Setup

theorem flight_sends (s : List Item) :
    (pumpAll c rs p.server1).run outbox s = ((p.server5 rs, true), s ++ (p.flight rs).map .record) := by
  have hidle := p.server_idle rs rs (j := 5) (by decide)
  have hlast : btlsPump c rs (p.server5 rs) = (p.server5 rs, [], 0, []) := hidle
  simp [pumpAll, pumpLoop, p.server_hello rs, p.server_cert rs rs, p.server_cv rs rs, p.server_fin rs rs, hlast,
    flight]

/-- The server answers the hello with its flight. -/
theorem server_hears_hello (b : Bytes) (s : List Item) :
    (handshakeRecord c rs ⟨p.server, false, b⟩ p.rec0).run outbox s =
      ((⟨p.server5 rs, false, b⟩, .on), s ++ (p.flight rs).map .record) := by
  rw [handshakeRecord, p.server_takes_ch]
  simp only [if_neg (by decide : ¬ (0 : Int) < 0), Calls.run_bind, p.flight_sends rs s]
  rfl

theorem pumpAll_idle {t : Btls} (h : btlsPump c rs t = (t, [], 0, [])) (s : List Item) :
    (pumpAll c rs t).run outbox s = ((t, true), s) := by
  rw [pumpAll, pumpLoop, h]
  rfl

theorem client_hs {i : Nat} (hi : i < 4) : (p.clientAt rs (i + 1)).state = .hs := by
  match i with
  | 0 | 1 | 2 | 3 => rfl
  | n + 4 => omega

/-- The client takes the first three records of the flight and is silent. -/
theorem client_hears {i : Nat} (hi : i < 3) (b : Bytes) (s : List Item) :
    (handshakeRecord c rs ⟨p.clientAt rs i, false, b⟩ ((p.flight rs).getD i [])).run outbox s =
      ((⟨p.clientAt rs (i + 1), false, b⟩, .on), s) := by
  obtain ⟨acts, hfeed, -⟩ := p.client_takes rs (i := i) (by omega)
  have hidle := p.client_idle rs rs (i := i + 1) (by omega)
  have hst := p.client_hs rs (i := i) (by omega)
  rw [handshakeRecord, hfeed]
  simp [pumpAll_idle rs hidle, hst]

/-- On the fourth it answers, and is done. -/
theorem client_hears_fin (b : Bytes) (s : List Item) :
    (handshakeRecord c rs ⟨p.client3 rs, false, b⟩ ((p.flight rs).getD 3 [])).run outbox s =
      ((⟨p.client5 rs, true, b⟩, .on), s ++ [.record (p.answer rs)]) := by
  have hidle := p.client_idle rs rs (i := 5) (by omega)
  have hlast : btlsPump c rs (p.client5 rs) = (p.client5 rs, [], 0, []) := hidle
  have hfeed : btlsFeed c ((p.flight rs).getD 3 []) (p.client3 rs) = _ := p.client_takes_fin rs
  have hpump : (pumpAll c rs (p.client4 rs)).run outbox s = ((p.client5 rs, true), s ++ [.record (p.answer rs)]) := by
    simp [pumpAll, pumpLoop, p.client_answers rs rs, hlast]
  have hdone : (p.client5 rs).state = .done := rfl
  rw [handshakeRecord, hfeed]
  simp [hpump, hdone]

theorem server_hears_answer (b : Bytes) (s : List Item) :
    (handshakeRecord c rs ⟨p.server5 rs, false, b⟩ (p.answer rs)).run outbox s =
      ((⟨p.server6 rs, true, b⟩, .on), s) := by
  have hidle := p.server_idle rs rs (j := 6) (by decide)
  have hlast : btlsPump c rs (p.server6 rs) = (p.server6 rs, [], 0, []) := hidle
  have hdone : (p.server6 rs).state = .done := rfl
  rw [handshakeRecord, p.server_takes_fin]
  simp [pumpAll_idle rs hlast, hdone]

end Setup

/-- `btls_recv_app` on a message of one record. -/
theorem Mirrored.recvApp {a b : Btls} (h : Mirrored a b) {m : Bytes} (hlen : m.length ≤ 1022) {buf : Bytes}
    (hroom : m.length ≤ buf.length) :
    btlsRecvApp c (appRec c a.sendKey a.sendSeq (fragment 0 m)) buf b =
      ({ b with recvSeq := b.recvSeq + 1, rxLen := 0 }, m ++ buf.drop m.length, 1, m.length) := by
  have hready : ¬ (b.state ≠ .done ∨ b.epoch ≠ 2) := by simp [h.done, h.epoch]
  have hfrag := fragment_length 0 m
  have hopen := openRec_appRec (c := c) b (fragment 0 m) (by omega) (by rw [btlsMaxPayload]; omega)
  rw [if_pos (by omega)] at hopen
  have happ : ¬ ((fragment 0 m).length < 2 ∨ byteAt (fragment 0 m) 0 ≠ rtApplication) := by
    rintro (hshort | hne)
    · omega
    · exact hne rfl
  have hflag : byteAt (fragment 0 m) 1 = 0 := rfl
  have hdata : (fragment 0 m).drop 2 = m := rfl
  have hzero : ¬ (0 : UInt8) &&& ~~~ btlsFragMore ≠ 0 := by decide
  have hlast : (0 : UInt8) &&& btlsFragMore = 0 := by decide
  have hfits : ¬ ((0 : UInt8) &&& ~~~ btlsFragMore ≠ 0 ∨ sizeSub buf.length 0 < m.length) := by
    rw [sizeSub_of_le (Nat.zero_le _)]
    exact not_or.mpr ⟨hzero, by omega⟩
  rw [← h.key, ← h.seq, btlsRecvApp, if_neg hready, hopen]
  simp only [if_neg happ, hflag, hdata, h.fresh, if_neg hfits, if_pos hlast, List.take_zero, List.nil_append, Nat.zero_add]

/-- The records of a message that fits one. -/
theorem sealRecs_short (key : Arr 32) (seq : UInt64) {m : Bytes} (h : m.length ≤ 979) :
    (fragments m).length = 1 ∧ sealRecs c key seq (fragments m) = [appRec c key seq (fragment 0 m)] ∧
      (appRec c key seq (fragment 0 m)).length ≤ Icsp.maxOpenable := by
  have hone := fragments_last (h.trans (by decide : 979 ≤ btlsMaxPayload))
  rw [hone, appRec_length, fragment_length, Icsp.maxOpenable]
  exact ⟨rfl, rfl, by omega⟩

/-- The first record of one that does not is too long for the association. -/
theorem sealRecs_long (key : Arr 32) (seq : UInt64) {m : Bytes} (h : 979 < m.length) :
    ∃ first rest, sealRecs c key seq (fragments m) = first :: rest ∧ Icsp.maxOpenable < first.length := by
  by_cases hlast : m.length ≤ btlsMaxPayload
  · refine ⟨appRec c key seq (fragment 0 m), [], by rw [fragments_last hlast]; rfl, ?_⟩
    rw [appRec_length, fragment_length, Icsp.maxOpenable]
    omega
  · refine ⟨_, _, by rw [fragments_more (Nat.not_le.mp hlast)]; rfl, ?_⟩
    rw [appRec_length, fragment_length, List.length_take, Nat.min_eq_left (Nat.le_of_not_le hlast)]
    decide

theorem fragments_length_le (m : Bytes) : (fragments m).length ≤ m.length / btlsMaxPayload + 1 := by
  induction m using fragments.induct with
  | case1 m h =>
    rw [fragments_last h]
    exact Nat.le_add_left 1 _
  | case2 m h ih =>
    have hpos : 0 < btlsMaxPayload := by decide
    rw [fragments_more (Nat.not_le.mp h), List.length_cons, Nat.div_eq_sub_div hpos (Nat.le_of_not_le h)]
    rw [List.length_drop] at ih
    exact Nat.succ_le_succ ih

theorem fragments_short {m inner : Bytes} (h : inner ∈ fragments m) : inner.length ≤ 2 + btlsMaxPayload := by
  induction m using fragments.induct with
  | case1 m hm =>
    rw [fragments_last hm, List.mem_singleton] at h
    rw [h, fragment_length]
    exact Nat.add_le_add_left hm 2
  | case2 m hm ih =>
    rw [fragments_more (Nat.not_le.mp hm)] at h
    rcases List.mem_cons.mp h with rfl | hrest
    · rw [fragment_length]
      exact Nat.add_le_add_left (List.length_take_le _ _) 2
    · exact ih hrest

theorem sealRecs_length (key : Arr 32) (seq : UInt64) (inners : List Bytes) :
    (sealRecs c key seq inners).length = inners.length := by
  induction inners generalizing seq with
  | nil => rfl
  | cons inner inners ih => exact congrArg Nat.succ (ih (seq + 1))

theorem mem_sealRecs {key : Arr 32} {seq : UInt64} {inners : List Bytes} {rec : Bytes}
    (h : rec ∈ sealRecs c key seq inners) : ∃ seq', ∃ inner ∈ inners, rec = appRec c key seq' inner := by
  induction inners generalizing seq with
  | nil => cases h
  | cons inner inners ih =>
    rcases List.mem_cons.mp h with rfl | hrest
    · exact ⟨seq, inner, List.mem_cons_self, rfl⟩
    · obtain ⟨seq', inner', hmem, hrec⟩ := ih hrest
      exact ⟨seq', inner', List.mem_cons_of_mem inner hmem, hrec⟩

section Hear

variable {g : Program} {l : Listener g} {r : Bytes} {app : g.State} {out : List Item}

theorem hear (hleft : g.left l.app = false) (hdeaf : l.deaf = false) (hlen : r.length ≤ Icsp.maxOpenable)
    (h : (g.round l.app Icsp.icspPollData r).run outbox [] = (app, out)) :
    (listen g).take l (.record r) = (⟨app, false⟩, out) := by
  have hopen : ¬ (l.deaf = true ∨ Icsp.maxOpenable < r.length) := by simp [hdeaf, hlen]
  simp [listen, hleft, if_neg hopen, h]

theorem hear_long (hleft : g.left l.app = false) (h : l.deaf = true ∨ Icsp.maxOpenable < r.length) :
    (listen g).take l (.record r) = ({ l with deaf := true }, []) := by
  simp [listen, hleft, if_pos h]

theorem hear_bye (hleft : g.left l.app = false)
    (h : (g.round l.app Icsp.icspPollClosed []).run outbox [] = (app, out)) :
    (listen g).take l .bye = ({ l with app }, out) := by
  simp [listen, hleft, h]

end Hear

end Bite
