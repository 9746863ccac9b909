import BaitNet.BtlsMessages
import BaitNet.BtlsAgreement

/-!
# Delivery of bTLS messages

What reaches the receiver of the messages that the other side sent: all of them over an
honest carrier as long as each fits the buffer in which records are opened, and no more
than a prefix of them whatever the carrier does.
-/
namespace Bite

open Wire Crypto Runs

variable {c : TweetNaCl}

/-- Two sessions between messages, of which the second opens what the first seals. -/
structure Mirrored (a b : Btls) : Prop where
  sender : Idle a
  done : b.state = .done
  epoch : b.epoch = 2
  key : b.recvKey = a.sendKey
  seq : b.recvSeq = a.sendSeq
  fresh : b.rxLen = 0

theorem Mirrored.holds {a : Btls} {s : Inbox} (h : Mirrored a s.t) (hgoing : s.failed = false) :
    Holds s ⟨s.got, []⟩ := by
  constructor
  · exact h.done
  · exact h.epoch
  · exact hgoing
  · rfl
  · rw [h.fresh, List.take_zero]
  · rw [h.fresh]
    exact Nat.zero_le _

/-- A message and the buffer that its receiver has for it. -/
structure Mail extends OutMsg where
  buf : Bytes
  room : bytes.length ≤ buf.length

/-- The records of each message with the buffer for it, in order. -/
def deliveries (recs : List (List Bytes)) (bufs : List Bytes) : List (Bytes × Bytes) :=
  (List.zipWith (fun rs buf => rs.map (·, buf)) recs bufs).flatten

theorem recvStep_failed (s : Inbox) (e : Bytes × Bytes) (h : s.failed = true) : recvStep c s e = s := if_pos h

theorem run_failed (s : Inbox) (es : List (Bytes × Bytes)) (h : s.failed = true) :
    run (recvStep c) s es = s := by
  induction es with
  | nil => rfl
  | cons e es ih => rw [run_cons, recvStep_failed s e h, ih]

/-- The first record of a message that is too long for the opener. -/
theorem long_first {m : Bytes} (h : 1022 < m.length) :
    ∃ inner rest, fragments m = inner :: rest ∧ 1024 < inner.length ∧ inner.length ≤ 2 + btlsMaxPayload := by
  by_cases hlast : m.length ≤ btlsMaxPayload
  · refine ⟨_, _, fragments_last hlast, ?_, ?_⟩
    · rw [fragment_length]
      omega
    · rw [fragment_length]
      omega
  · have hlen : (fragment btlsFragMore (m.take btlsMaxPayload)).length = 2 + btlsMaxPayload := by
      rw [fragment_length, List.length_take, Nat.min_eq_left (Nat.le_of_not_le hlast)]
    refine ⟨_, _, fragments_more (Nat.not_le.mp hlast), ?_, hlen.le⟩
    rw [hlen]
    decide

/-- A message that is too long for the opener ends in an error. -/
theorem Mirrored.long {a : Btls} {s : Inbox} (h : Mirrored a s.t) (hgoing : s.failed = false) (m : OutMsg)
    (buf : Bytes) (hlong : 1022 < m.bytes.length) :
    (run (recvStep c) s ((sealRecs c a.sendKey a.sendSeq (fragments m.bytes)).map (·, buf))).failed = true := by
  obtain ⟨inner, rest, hfirst, hbig, hsmall⟩ := long_first hlong
  have hopen : (openRec c s.t (appRec c a.sendKey a.sendSeq inner)).2 = none := by
    rw [← h.key, ← h.seq, openRec_appRec c s.t inner (by omega) hsmall, if_neg (by omega)]
  have hfail := ((h.holds hgoing).unopened (appRec c a.sendKey a.sendSeq inner, buf) hopen).1
  rw [hfirst, sealRecs, List.map_cons, run_cons, run_failed _ _ hfail]
  exact hfail

theorem short_fragments {m : Bytes} (h : m.length ≤ 1022) : fragments m = [fragment 0 m] :=
  fragments_last (h.trans (by decide))

theorem Mirrored.opens {a b : Btls} (h : Mirrored a b) (m : Bytes) (hshort : m.length ≤ 1022) :
    (openRec c b (appRec c a.sendKey a.sendSeq (fragment 0 m))).2 = some (fragment 0 m) := by
  have hlen := fragment_length 0 m
  rw [← h.key, ← h.seq, openRec_appRec c b _ (by omega) (by rw [btlsMaxPayload]; omega), if_pos (by omega)]

/-- A message that fits is delivered by its one record. -/
theorem Mirrored.short {a : Btls} {s : Inbox} (h : Mirrored a s.t) (hgoing : s.failed = false) (m : Mail)
    (hshort : m.bytes.length ≤ 1022) :
    let s' := run (recvStep c) s ((sealRecs c a.sendKey a.sendSeq (fragments m.bytes)).map (·, m.buf))
    Mirrored (a.sent 0 m.bytes.length 0 (fragments m.bytes).length) s'.t ∧ s'.failed = false ∧
      s'.got = s.got ++ [m.bytes] := by
  intro s'
  have hone := short_fragments hshort
  have hopen := h.opens (c := c) m.bytes hshort
  have happ : ¬ ((fragment 0 m.bytes).length < 2 ∨ byteAt (fragment 0 m.bytes) 0 ≠ rtApplication) := by
    rintro (hlen | hne)
    · rw [fragment_length] at hlen
      omega
    · exact hne rfl
  have hflags : ¬ byteAt (fragment 0 m.bytes) 1 &&& ~~~ btlsFragMore ≠ 0 := by
    have hzero : ¬ (0 : UInt8) &&& ~~~ btlsFragMore ≠ 0 := by decide
    exact hzero
  have hroom : s.t.rxLen + ((fragment 0 m.bytes).drop 2).length ≤ (s.room m.buf).length := by
    have hdata : ((fragment 0 m.bytes).drop 2).length = m.bytes.length := rfl
    have hcap := m.room
    rw [hdata, Inbox.room, if_pos h.fresh, h.fresh]
    omega
  have hrun : s' = recvStep c s (appRec c a.sendKey a.sendSeq (fragment 0 m.bytes), m.buf) := by
    have hrecs : sealRecs c a.sendKey a.sendSeq [fragment 0 m.bytes] =
        [appRec c a.sendKey a.sendSeq (fragment 0 m.bytes)] := rfl
    have hdef : s' = run (recvStep c) s
        ((sealRecs c a.sendKey a.sendSeq (fragments m.bytes)).map (·, m.buf)) := rfl
    rw [hdef, hone, hrecs]
    rfl
  obtain ⟨hholds, hkey, hseq⟩ := (h.holds hgoing).opened
    (appRec c a.sendKey a.sendSeq (fragment 0 m.bytes), m.buf) hopen happ hflags hroom
  rw [← hrun] at hholds hkey hseq
  rw [Assembly.add_last] at hholds
  have hfresh : s'.t.rxLen = 0 := by
    have hpart := congrArg List.length hholds.part
    rw [List.length_take, Nat.min_eq_left hholds.room] at hpart
    exact hpart
  have hnext : s'.t.recvSeq = (a.sent 0 m.bytes.length 0 (fragments m.bytes).length).sendSeq := by
    rw [hseq, h.seq, hone]
    rfl
  exact ⟨⟨h.sender.sent _ _, hholds.done, hholds.epoch, hkey.trans h.key, hnext, hfresh⟩, hholds.going,
    hholds.got⟩

theorem deliveries_cons (recs : List Bytes) (recss : List (List Bytes)) (buf : Bytes) (bufs : List Bytes) :
    deliveries (recs :: recss) (buf :: bufs) = recs.map (·, buf) ++ deliveries recss bufs := by
  rw [deliveries, List.zipWith_cons_cons, List.flatten_cons]
  rfl

section Mails

variable {a : Btls} {s : Inbox} (h : Mirrored a s.t)
include h

/-- The records of a first message and of those after it. -/
theorem Mirrored.sendAll_cons (m : Mail) (ms : List Mail) :
    let a' := a.sent 0 m.bytes.length 0 (fragments m.bytes).length
    let sent := sendAll c (ms.map (·.toOutMsg)) a'
    sendAll c ((m :: ms).map (·.toOutMsg)) a =
      (sent.1, sealActs a.sendKey a.sendSeq (fragments m.bytes) ++ sent.2.1,
        sealRecs c a.sendKey a.sendSeq (fragments m.bytes) :: sent.2.2.1, decide ((0 : Int) = 0) && sent.2.2.2) := by
  intro a' sent
  have hmsg := h.sender.sendMsg (c := c) m.toOutMsg
  rw [List.map_cons, sendAll, hmsg]

theorem Mirrored.run_cons (m : Mail) (ms : List Mail) :
    let a' := a.sent 0 m.bytes.length 0 (fragments m.bytes).length
    run (recvStep c) s (deliveries (sendAll c ((m :: ms).map (·.toOutMsg)) a).2.2.1 ((m :: ms).map (·.buf))) =
      run (recvStep c)
        (run (recvStep c) s ((sealRecs c a.sendKey a.sendSeq (fragments m.bytes)).map (·, m.buf)))
        (deliveries (sendAll c (ms.map (·.toOutMsg)) a').2.2.1 (ms.map (·.buf))) := by
  intro a'
  rw [h.sendAll_cons m ms, List.map_cons]
  dsimp only
  rw [deliveries_cons, run_append]

theorem Mirrored.first_sealed (m : Mail) (ms : List Mail) (hshort : m.bytes.length ≤ 1022) :
    Act.seal a.sendKey a.sendSeq (fragment 0 m.bytes) ∈ (sendAll c ((m :: ms).map (·.toOutMsg)) a).2.1 := by
  rw [h.sendAll_cons m ms, short_fragments hshort]
  exact List.mem_cons_self

end Mails

/-- Messages that fit are all delivered, and the two sessions are in step afterwards. -/
theorem Mirrored.delivered {a : Btls} {s : Inbox} (h : Mirrored a s.t) (hgoing : s.failed = false)
    (ms : List Mail) (hshort : ∀ m ∈ ms, m.bytes.length ≤ 1022) :
    let sent := sendAll c (ms.map (·.toOutMsg)) a
    let s' := run (recvStep c) s (deliveries sent.2.2.1 (ms.map (·.buf)))
    Mirrored sent.1 s'.t ∧ s'.failed = false ∧ s'.got = s.got ++ ms.map (·.bytes) := by
  induction ms generalizing a s with
  | nil => exact ⟨h, hgoing, (List.append_nil _).symm⟩
  | cons m ms ih =>
    intro sent s'
    obtain ⟨hnext, hgoing', hgot⟩ := h.short (c := c) hgoing m (hshort m List.mem_cons_self)
    obtain ⟨hlast, hgoing'', hgot'⟩ := ih hnext hgoing' fun m' hm => hshort m' (List.mem_cons_of_mem _ hm)
    have hrun : s' = _ := h.run_cons m ms
    have hsent : sent.1 = _ := congrArg Prod.fst (h.sendAll_cons m ms)
    rw [hrun, hsent, List.map_cons, List.append_cons, ← hgot]
    exact ⟨hlast, hgoing'', hgot'⟩

/-- One message that does not fit is an error. -/
theorem Mirrored.lost {a : Btls} {s : Inbox} (h : Mirrored a s.t) (hgoing : s.failed = false)
    (ms : List Mail) (m : Mail) (hm : m ∈ ms) (hlong : 1022 < m.bytes.length) :
    (run (recvStep c) s
      (deliveries (sendAll c (ms.map (·.toOutMsg)) a).2.2.1 (ms.map (·.buf)))).failed = true := by
  induction ms generalizing a s with
  | nil => cases hm
  | cons m' ms ih =>
    rw [h.run_cons m' ms]
    by_cases hshort : m'.bytes.length ≤ 1022
    · obtain ⟨hnext, hgoing', -⟩ := h.short (c := c) hgoing m' hshort
      obtain rfl | hm := List.mem_cons.mp hm
      · omega
      · exact ih hnext hgoing' hm
    · have hfail := h.long (c := c) hgoing m'.toOutMsg m'.buf (Nat.not_le.mp hshort)
      rw [run_failed _ _ hfail]
      exact hfail

theorem Mirrored.not_delivered {a b : Btls} (h : Mirrored a b) (ms : List Mail) (m : Mail) (hm : m ∈ ms)
    (hlong : 1022 < m.bytes.length) :
    let sent := sendAll c (ms.map (·.toOutMsg)) a
    let s := run (recvStep c) (newInbox b) (deliveries sent.2.2.1 (ms.map (·.buf)))
    ¬ (sent.2.2.2 = true ∧ s.failed = false ∧ s.got = ms.map (·.bytes)) := by
  rintro sent s ⟨-, hgoing, -⟩
  have hfail := Mirrored.lost (c := c) (s := newInbox b) h rfl ms m hm hlong
  exact absurd (hfail.symm.trans hgoing) Bool.noConfusion

/-- The two sides after a handshake. -/
theorem Setup.mirrored (p : Setup c) (rs : Arr 32) : Mirrored (p.client5 rs) (p.server6 rs) := by
  have hclient : p.client.txMsg = 0 := by
    rw [Setup.client]
    rfl
  have hserver : p.server.rxLen = 0 := by
    rw [Setup.server]
    rfl
  exact ⟨⟨rfl, rfl, hclient⟩, rfl, rfl, rfl, rfl, hserver⟩

/-- A message of `n + 1` zeros. -/
def zeroMail (n : Nat) (h : n < 1024) : Mail where
  ptr := 1
  bytes := List.replicate (n + 1) 0
  ptr_ne := Nat.one_ne_zero
  nonempty := by rw [List.length_replicate]; omega
  fits := by rw [List.length_replicate, btlsMaxMsg]; omega
  buf := List.replicate (n + 1) 0
  room := by rw [List.length_replicate]

theorem zeroMail_length (n : Nat) (h : n < 1024) : (zeroMail n h).bytes.length = n + 1 :=
  List.length_replicate

/-- Sent in order to the other side and received into buffers that are large enough,
all messages are delivered, each whole and in order and without an error, exactly if
none is longer than the 1022 bytes that the opener's buffer leaves. -/
theorem messages_delivered_iff (a b : Btls) (h : Mirrored a b) (ms : List Mail) :
    let sent := sendAll c (ms.map (·.toOutMsg)) a
    let s := run (recvStep c) (newInbox b) (deliveries sent.2.2.1 (ms.map (·.buf)))
    (sent.2.2.2 = true ∧ s.failed = false ∧ s.got = ms.map (·.bytes)) ↔ ∀ m ∈ ms, m.bytes.length ≤ 1022 := by
  intro sent s
  have hsent : sent.2.2.2 = true := (sendAll_acts (ms.map (·.toOutMsg)) a h.sender).2
  constructor
  · intro hall m hm
    by_contra hlong
    exact h.not_delivered ms m hm (Nat.not_le.mp hlong) hall
  · intro hshort
    obtain ⟨-, hgoing, hgot⟩ := Mirrored.delivered (c := c) (s := newInbox b) h rfl ms hshort
    exact ⟨hsent, hgoing, hgot⟩

theorem messages_delivered_two :
    let a := toySetup.client5 (.zero 32)
    let b := toySetup.server6 (.zero 32)
    let ms := [zeroMail 0 (by decide), zeroMail 2 (by decide)]
    let sent := sendAll toy (ms.map (·.toOutMsg)) a
    let s := run (recvStep toy) (newInbox b) (deliveries sent.2.2.1 (ms.map (·.buf)))
    sent.2.2.2 = true ∧ s.failed = false ∧ s.got = [[0], [0, 0, 0]] :=
  (messages_delivered_iff _ _ (toySetup.mirrored (.zero 32)) _).mpr (by decide)

/-- A message of 1023 bytes goes out and is not received. -/
theorem message_1023_lost :
    let a := toySetup.client5 (.zero 32)
    let b := toySetup.server6 (.zero 32)
    let ms := [zeroMail 1022 (by decide)]
    let sent := sendAll toy (ms.map (·.toOutMsg)) a
    let s := run (recvStep toy) (newInbox b) (deliveries sent.2.2.1 (ms.map (·.buf)))
    Mirrored a b ∧ ¬ (sent.2.2.2 = true ∧ s.failed = false ∧ s.got = ms.map (·.bytes)) := by
  have hmirrored := toySetup.mirrored (.zero 32)
  have hlong := (Nat.lt_succ_self 1022).trans_eq (zeroMail_length 1022 (by decide)).symm
  exact ⟨hmirrored, hmirrored.not_delivered _ _ List.mem_cons_self hlong⟩

variable (c)

/-- Ideal encryption: what opens is what was sealed under this key and number. -/
def OpensSealed (acts : List Act) (s : Inbox) (e : Bytes × Bytes) : Prop :=
  s.failed = false → ∀ inner ∈ (openRec c s.t e.1).2, Act.seal s.t.recvKey s.t.recvSeq inner ∈ acts

instance (acts : List Act) (s : Inbox) (e : Bytes × Bytes) : Decidable (OpensSealed c acts s e) :=
  inferInstanceAs (Decidable (s.failed = false → ∀ inner ∈ (openRec c s.t e.1).2,
    Act.seal s.t.recvKey s.t.recvSeq inner ∈ acts))

variable {c}

/-- What has been handed on comes from the first of the plaintexts, and an inbox without
an error has put those together. -/
structure InPrefix (key : Arr 32) (seq : UInt64) (inners : List Bytes) (s : Inbox) : Prop where
  got : s.got <+: (assemble inners).got
  going : s.failed = false → ∃ k ≤ inners.length, Holds s (assemble (inners.take k)) ∧
    s.t.recvKey = key ∧ s.t.recvSeq = seq + .ofNat k

theorem ofNat_add_inj {seq : UInt64} {j k : Nat} (hj : j < 2 ^ 64) (hk : k < 2 ^ 64)
    (h : seq + .ofNat j = seq + .ofNat k) : j = k := by
  have heq := congrArg UInt64.toNat ((UInt64.add_right_inj seq).mp h)
  simp only [UInt64.toNat_ofNat'] at heq
  omega

/-- The next plaintext is the one that opens, since the numbers do not wrap. -/
theorem inPrefix_step {key : Arr 32} {seq : UInt64} {inners : List Bytes} (hfew : inners.length < 2 ^ 64)
    (s : Inbox) (e : Bytes × Bytes) (h : InPrefix key seq inners s)
    (hok : OpensSealed c (sealActs key seq inners) s e) : InPrefix key seq inners (recvStep c s e) := by
  cases hgoing : s.failed with
  | true =>
    rw [recvStep_failed s e hgoing]
    exact h
  | false =>
    obtain ⟨k, hk, hholds, hkey, hseq⟩ := h.going hgoing
    obtain ⟨hfail, hgot⟩ | ⟨inner, hopen, hnext, hkey', hseq'⟩ := hholds.cases (c := c) e
    · constructor
      · rw [hgot]
        exact h.got
      · intro hgoing'
        exact absurd (hfail.symm.trans hgoing') Bool.noConfusion
    · obtain ⟨j, hj, hnum⟩ := mem_sealActs (hok hgoing inner hopen)
      have hjlt : j < inners.length := (List.getElem?_eq_some_iff.mp hj).1
      have hjk : j = k := ofNat_add_inj (by omega) (by omega) (hnum.symm.trans hseq)
      subst hjk
      rw [← assemble_next inners j inner hj] at hnext
      constructor
      · rw [hnext.got]
        exact assemble_take_prefix inners (j + 1)
      · intro _
        have hcount : seq + .ofNat j + 1 = seq + .ofNat (j + 1) := by
          rw [UInt64.add_assoc, UInt64.ofNat_add]
          rfl
        refine ⟨j + 1, hjlt, hnext, hkey'.trans hkey, ?_⟩
        rw [hseq', hseq, hcount]

theorem sealActs_length (key : Arr 32) (seq : UInt64) (inners : List Bytes) :
    (sealActs key seq inners).length = inners.length := by
  induction inners generalizing seq with
  | nil => rfl
  | cons inner inners ih => rw [sealActs, List.length_cons, ih, List.length_cons]

/-- Whatever records are fed to the receiver, up to its first error it hands on a prefix
of the messages that the other side sent, if that sealed fewer than `2 ^ 64` records. -/
theorem received_prefix (a b : Btls) (h : Mirrored a b) (ms : List OutMsg) (es : List (Bytes × Bytes))
    (hfew : (sendAll c ms a).2.1.length < 2 ^ 64)
    (hideal : Along (recvStep c) (OpensSealed c (sendAll c ms a).2.1) (newInbox b) es) :
    (run (recvStep c) (newInbox b) es).got <+: ms.map (·.bytes) := by
  have hacts := (sendAll_acts (c := c) ms a h.sender).1
  rw [hacts, sealActs_length] at hfew
  rw [hacts] at hideal
  have hstart : InPrefix a.sendKey a.sendSeq ((ms.map (·.bytes)).flatMap fragments) (newInbox b) := by
    constructor
    · exact List.nil_prefix
    · intro _
      have hholds : Holds (newInbox b) ⟨[], []⟩ := Mirrored.holds (s := newInbox b) h rfl
      exact ⟨0, Nat.zero_le _, hholds, h.key, h.seq.trans (UInt64.add_zero _).symm⟩
  have hrun := inv_run (inPrefix_step hfew) _ es hstart hideal
  have hgot := hrun.got
  rwa [assemble_fragments] at hgot

/-- A record that comes twice. -/
theorem received_prefix_twice :
    let a := toySetup.client5 (.zero 32)
    let b := toySetup.server6 (.zero 32)
    let ms := [zeroMail 0 (by decide), zeroMail 2 (by decide)].map (·.toOutMsg)
    let es := [(appRec toy a.sendKey 0 (fragment 0 [0]), [7]), (appRec toy a.sendKey 0 (fragment 0 [0]), [7])]
    (run (recvStep toy) (newInbox b) es).got = [[0]] ∧
      (run (recvStep toy) (newInbox b) es).got <+: ms.map (·.bytes) := by
  intro a b ms es
  have hideal : Along (recvStep toy) (OpensSealed toy (sendAll toy ms a).2.1) (newInbox b) es := by
    decide +kernel
  have hfew : (sendAll toy ms a).2.1.length < 2 ^ 64 := by decide +kernel
  have hgot : (run (recvStep toy) (newInbox b) es).got = [[0]] := by decide +kernel
  exact ⟨hgot, received_prefix a b (toySetup.mirrored (.zero 32)) ms es hfew hideal⟩

theorem sendAll_numbers (ms : List OutMsg) (t : Btls) (h : Idle t) :
    (sendAll c ms t).1.sendKey = t.sendKey ∧ (sendAll c ms t).1.sendSeq =
      t.sendSeq + .ofNat ((ms.map (·.bytes)).flatMap fragments).length := by
  induction ms generalizing t with
  | nil => exact ⟨rfl, (UInt64.add_zero _).symm⟩
  | cons m ms ih =>
    obtain ⟨hkey, hseq⟩ := ih _ (h.sent m.bytes.length (fragments m.bytes).length)
    rw [sendAll, h.sendMsg m, List.map_cons, List.flatMap_cons, List.length_append, UInt64.ofNat_add,
      ← UInt64.add_assoc]
    exact ⟨hkey, hseq⟩

/-- An honest carrier keeps to ideal encryption. -/
theorem Mirrored.genuine {a : Btls} {s : Inbox} (h : Mirrored a s.t) (hgoing : s.failed = false)
    (ms : List Mail) (hshort : ∀ m ∈ ms, m.bytes.length ≤ 1022) (acts : List Act)
    (hacts : ∀ x ∈ (sendAll c (ms.map (·.toOutMsg)) a).2.1, x ∈ acts) :
    Along (recvStep c) (OpensSealed c acts) s
      (deliveries (sendAll c (ms.map (·.toOutMsg)) a).2.2.1 (ms.map (·.buf))) := by
  induction ms generalizing a s with
  | nil => trivial
  | cons m ms ih =>
    have hm := hshort m List.mem_cons_self
    obtain ⟨hnext, hgoing', -⟩ := h.short (c := c) hgoing m hm
    have hfirst : OpensSealed c acts s (appRec c a.sendKey a.sendSeq (fragment 0 m.bytes), m.buf) := by
      intro _ inner hinner
      rw [h.opens m.bytes hm, Option.mem_some_iff] at hinner
      rw [← hinner, h.key, h.seq]
      exact hacts _ (h.first_sealed m ms hm)
    have hrest := ih hnext hgoing' (fun m' hm' => hshort m' (List.mem_cons_of_mem _ hm')) fun x hx => by
      apply hacts
      rw [h.sendAll_cons m ms]
      exact List.mem_append_right _ hx
    rw [h.sendAll_cons m ms, List.map_cons]
    dsimp only
    rw [deliveries_cons, along_append]
    rw [short_fragments hm] at hrest ⊢
    exact ⟨⟨hfirst, trivial⟩, hrest⟩

/-- After a whole round of numbers the first record is taken again. -/
theorem Mirrored.replayed {a b : Btls} (h : Mirrored a b) (m : Mail) (hshort : m.bytes.length ≤ 1022)
    (n : Nat) (hpos : n ≠ 0) (hwrap : UInt64.ofNat n = 0) :
    let ms := List.replicate n m
    let sent := sendAll c (ms.map (·.toOutMsg)) a
    let es := deliveries sent.2.2.1 (ms.map (·.buf)) ++
      [(appRec c a.sendKey a.sendSeq (fragment 0 m.bytes), m.buf)]
    Along (recvStep c) (OpensSealed c sent.2.1) (newInbox b) es ∧
      ¬ (run (recvStep c) (newInbox b) es).got <+: ms.map (·.bytes) := by
  intro ms sent es
  have hall : ∀ m' ∈ ms, m'.bytes.length ≤ 1022 := by
    intro m' hm
    rw [(List.mem_replicate.mp hm).2]
    exact hshort
  obtain ⟨hlast, hgoing, hgot⟩ := Mirrored.delivered (c := c) (s := newInbox b) h rfl ms hall
  obtain ⟨hkey, hseq⟩ := sendAll_numbers (c := c) (ms.map (·.toOutMsg)) a h.sender
  have hcount : (((ms.map (·.toOutMsg)).map (·.bytes)).flatMap fragments).length = n := by
    rw [List.map_map, List.map_replicate, List.flatMap_replicate, List.length_flatten, List.map_replicate,
      List.sum_replicate_nat]
    have hone : (fragments m.bytes).length = 1 := by
      rw [short_fragments hshort]
      rfl
    exact (congrArg (n * ·) hone).trans (Nat.mul_one _)
  rw [hcount, hwrap, UInt64.add_zero] at hseq
  have hgenuine := Mirrored.genuine (c := c) (s := newInbox b) h rfl ms hall sent.2.1 fun x hx => hx
  have hagain := hlast.short (c := c) hgoing m hshort
  have hopens := hlast.opens (c := c) m.bytes hshort
  have hrecs : sealRecs c a.sendKey a.sendSeq (fragments m.bytes) =
      [appRec c a.sendKey a.sendSeq (fragment 0 m.bytes)] := by
    rw [short_fragments hshort]
    rfl
  dsimp only at hagain
  rw [hkey, hseq, hrecs] at hagain
  rw [hkey, hseq] at hopens
  constructor
  · rw [along_append]
    have hfirst : Act.seal a.sendKey a.sendSeq (fragment 0 m.bytes) ∈ sent.2.1 := by
      obtain ⟨k, rfl⟩ := Nat.exists_eq_succ_of_ne_zero hpos
      exact Mirrored.first_sealed (s := newInbox b) h m (List.replicate k m) hshort
    constructor
    · exact hgenuine
    · constructor
      · intro _ inner hinner
        rw [hopens, Option.mem_some_iff] at hinner
        rw [← hinner, hlast.key, hlast.seq, hkey, hseq]
        exact hfirst
      · trivial
  · intro hprefix
    have hall' : (run (recvStep c) (newInbox b) es).got = ms.map (·.bytes) ++ [m.bytes] := by
      rw [run_append, ← List.nil_append (ms.map (·.bytes))]
      exact hagain.2.2.trans (congrArg (· ++ [m.bytes]) hgot)
    have hlen := hprefix.length_le
    rw [hall', List.length_append, List.length_singleton] at hlen
    omega

/-- A peer that sends `2 ^ 64` messages of one byte, and the first record once more. -/
theorem replayed_at_wrap :
    let a := toySetup.client5 (.zero 32)
    let b := toySetup.server6 (.zero 32)
    let ms := List.replicate (2 ^ 64) (zeroMail 0 (by decide))
    let sent := sendAll toy (ms.map (·.toOutMsg)) a
    let es := deliveries sent.2.2.1 (ms.map (·.buf)) ++
      [(appRec toy a.sendKey a.sendSeq (fragment 0 (zeroMail 0 (by decide)).bytes),
        (zeroMail 0 (by decide)).buf)]
    Mirrored a b ∧ Along (recvStep toy) (OpensSealed toy sent.2.1) (newInbox b) es ∧
      ¬ (run (recvStep toy) (newInbox b) es).got <+: ms.map (·.bytes) := by
  have hmirrored := toySetup.mirrored (.zero 32)
  have hshort : (zeroMail 0 (by decide)).bytes.length ≤ 1022 := (zeroMail_length 0 _).le.trans (by decide)
  exact ⟨hmirrored, hmirrored.replayed (zeroMail 0 (by decide)) hshort (2 ^ 64) (by decide) (by decide)⟩

end Bite
