import BaitNet.BtlsCalls

/-!
# Messages in bTLS records

The fragments of a message, how they are put together again, what `btls_send_app` makes
of a message and what `btls_recv_app` makes of a fragment.
-/
namespace Bite

open Wire Crypto Runs

/-- The plaintext of an application record. -/
def fragment (flags : UInt8) (data : Bytes) : Bytes := rtApplication :: flags :: data

@[simp] theorem fragment_length (flags : UInt8) (data : Bytes) :
    (fragment flags data).length = 2 + data.length := by
  rw [fragment, List.length_cons, List.length_cons]
  omega

def fragments (m : Bytes) : List Bytes :=
  if m.length ≤ btlsMaxPayload then [fragment 0 m]
  else fragment btlsFragMore (m.take btlsMaxPayload) :: fragments (m.drop btlsMaxPayload)
termination_by m.length
decreasing_by
  rename_i h
  simp only [btlsMaxPayload] at h ⊢
  rw [List.length_drop]
  omega

theorem fragments_last {m : Bytes} (h : m.length ≤ btlsMaxPayload) : fragments m = [fragment 0 m] := by
  rw [fragments, if_pos h]

theorem fragments_more {m : Bytes} (h : btlsMaxPayload < m.length) :
    fragments m = fragment btlsFragMore (m.take btlsMaxPayload) :: fragments (m.drop btlsMaxPayload) := by
  rw [fragments, if_neg (Nat.not_le.mpr h)]

/-- The messages that fragments complete, and what is there of the next one. -/
structure Assembly where
  got : List Bytes
  part : Bytes

def Assembly.add (a : Assembly) (inner : Bytes) : Assembly :=
  if byteAt inner 1 &&& btlsFragMore = 0 then ⟨a.got ++ [a.part ++ inner.drop 2], []⟩
  else ⟨a.got, a.part ++ inner.drop 2⟩

def assemble (inners : List Bytes) : Assembly := inners.foldl Assembly.add ⟨[], []⟩

theorem Assembly.add_last (a : Assembly) (m : Bytes) :
    a.add (fragment 0 m) = ⟨a.got ++ [a.part ++ m], []⟩ := by
  have hflag : byteAt (fragment 0 m) 1 &&& btlsFragMore = 0 := by
    have hzero : (0 : UInt8) &&& btlsFragMore = 0 := by decide
    exact hzero
  rw [Assembly.add, if_pos hflag]
  rfl

theorem Assembly.add_more (a : Assembly) (m : Bytes) :
    a.add (fragment btlsFragMore m) = ⟨a.got, a.part ++ m⟩ := by
  have hflag : ¬ byteAt (fragment btlsFragMore m) 1 &&& btlsFragMore = 0 := by
    have hone : ¬ btlsFragMore &&& btlsFragMore = 0 := by decide
    exact hone
  rw [Assembly.add, if_neg hflag]
  rfl

/-- The fragments of a message give the message. -/
theorem foldl_fragments (m : Bytes) (a : Assembly) :
    (fragments m).foldl Assembly.add a = ⟨a.got ++ [a.part ++ m], []⟩ := by
  induction m using fragments.induct generalizing a with
  | case1 m h => rw [fragments_last h, List.foldl_cons, List.foldl_nil, Assembly.add_last]
  | case2 m h ih =>
    rw [fragments_more (Nat.not_le.mp h), List.foldl_cons, Assembly.add_more, ih, List.append_assoc,
      List.take_append_drop]

theorem assemble_fragments (ms : List Bytes) : assemble (ms.flatMap fragments) = ⟨ms, []⟩ := by
  induction ms using List.reverseRecOn with
  | nil => rfl
  | append_singleton ms m ih =>
    rw [assemble] at ih ⊢
    rw [List.flatMap_append, List.foldl_append, ih, List.flatMap_singleton, foldl_fragments]
    rfl

theorem Assembly.add_prefix (a : Assembly) (inner : Bytes) : a.got <+: (a.add inner).got := by
  rw [Assembly.add]
  split
  · exact List.prefix_append _ _
  · exact List.prefix_rfl

/-- What is complete after some of the fragments stays. -/
theorem assemble_take_prefix (inners : List Bytes) (k : Nat) :
    (assemble (inners.take k)).got <+: (assemble inners).got := by
  have hgrow : ∀ (rest : List Bytes) (a : Assembly), a.got <+: (rest.foldl Assembly.add a).got := by
    intro rest
    induction rest with
    | nil => exact fun a => List.prefix_rfl
    | cons inner rest ih => exact fun a => (a.add_prefix inner).trans (ih _)
  have hsplit : assemble inners = (inners.drop k).foldl Assembly.add (assemble (inners.take k)) := by
    rw [assemble, assemble, ← List.foldl_append, List.take_append_drop]
  rw [hsplit]
  exact hgrow _ _

theorem assemble_next (inners : List Bytes) (k : Nat) (inner : Bytes) (h : inners[k]? = some inner) :
    assemble (inners.take (k + 1)) = (assemble (inners.take k)).add inner := by
  rw [List.take_add_one, h, assemble, List.foldl_append]
  rfl

variable (c : TweetNaCl)

/-- The sealings of plaintexts under one key, numbered on from `seq`. -/
def sealActs (key : Arr 32) : UInt64 → List Bytes → List Act
  | _, [] => []
  | seq, inner :: inners => .seal key seq inner :: sealActs key (seq + 1) inners

def sealRecs (key : Arr 32) : UInt64 → List Bytes → List Bytes
  | _, [] => []
  | seq, inner :: inners => appRec c key seq inner :: sealRecs key (seq + 1) inners

/-- The sender's loop over a message: as long as there is more to send, `btls_send_app`
again. -/
def sendMsg (ptr : Nat) (msg : Bytes) : Nat → Btls → Btls × List Act × List Bytes × Int
  | 0, t => (t, [], [], 1)
  | fuel + 1, t =>
    let (t, acts, ret, rec) := btlsSendApp c ptr msg t
    if ret = 1 then
      let (t, acts', recs, ret) := sendMsg ptr msg fuel t
      (t, acts ++ acts', rec :: recs, ret)
    else (t, acts, [rec], ret)

variable {c}

/-- A session that is at the byte `off` of a message of `len` bytes. -/
structure AtOffset (t : Btls) (ptr len off : Nat) : Prop where
  done : t.state = .done
  epoch : t.epoch = 2
  place : t.txMsg = 0 ∧ off = 0 ∨ t.txMsg = ptr ∧ t.txLen = len ∧ t.txOff = off

/-- A fragment, the last one or not. -/
theorem btlsSendApp_fragment (t : Btls) (ptr : Nat) (msg : Bytes) (off : Nat) (hptr : ptr ≠ 0)
    (hmax : msg.length ≤ btlsMaxMsg) (hoff : off < msg.length) (h : AtOffset t ptr msg.length off) :
    btlsSendApp c ptr msg t =
      if msg.length - off ≤ btlsMaxPayload then
        ({ t with txMsg := 0, txLen := msg.length, txOff := 0, sendSeq := t.sendSeq + 1 },
          [.seal t.sendKey t.sendSeq (fragment 0 (msg.drop off))], 0,
          appRec c t.sendKey t.sendSeq (fragment 0 (msg.drop off)))
      else
        ({ t with txMsg := ptr, txLen := msg.length, txOff := off + btlsMaxPayload, sendSeq := t.sendSeq + 1 },
          [.seal t.sendKey t.sendSeq (fragment btlsFragMore ((msg.drop off).take btlsMaxPayload))], 1,
          appRec c t.sendKey t.sendSeq (fragment btlsFragMore ((msg.drop off).take btlsMaxPayload))) := by
  have hready : ¬ (ptr = 0 ∨ t.state ≠ .done ∨ t.epoch ≠ 2 ∨ msg.length = 0 ∨ btlsMaxMsg < msg.length) := by
    simp only [h.done, h.epoch, hptr, not_or, not_true_eq_false, not_false_eq_true, ne_eq, true_and]
    omega
  have hsame : ¬ (t.txMsg ≠ 0 ∧ (ptr ≠ t.txMsg ∨ msg.length ≠ t.txLen)) := by
    rintro ⟨hbusy, hother⟩
    obtain ⟨hidle, -⟩ | ⟨hmsg, hlen, -⟩ := h.place
    · exact hbusy hidle
    · obtain hne | hne := hother
      · exact hne hmsg.symm
      · exact hne hlen.symm
  have hload : (if t.txMsg = 0 then { t with txMsg := ptr, txLen := msg.length, txOff := 0 } else t) =
      { t with txMsg := ptr, txLen := msg.length, txOff := off } := by
    obtain ⟨hidle, rfl⟩ | ⟨rfl, hlen, rfl⟩ := h.place
    · rw [if_pos hidle]
    · rw [if_neg hptr, ← hlen]
  rw [btlsSendApp, if_neg hready, if_neg hsame]
  dsimp only
  rw [hload, sealApp_chunk]
  dsimp only
  have hlen : (msg.drop off).length = msg.length - off := List.length_drop
  by_cases hlast : msg.length - off ≤ btlsMaxPayload
  · have hchunk : sendChunk { t with txMsg := ptr, txLen := msg.length, txOff := off } = msg.length - off :=
      Nat.min_eq_left hlast
    have hmore : ¬ off + (msg.length - off) < msg.length := by omega
    have hslice : slice msg off (msg.length - off) = msg.drop off := by
      rw [slice, List.takeD_eq_take _ hlen.ge, ← hlen, List.take_length]
    rw [hchunk, if_neg hmore, if_neg hmore, if_pos hlast, hslice]
    rfl
  · have hchunk : sendChunk { t with txMsg := ptr, txLen := msg.length, txOff := off } = btlsMaxPayload :=
      Nat.min_eq_right (Nat.le_of_not_le hlast)
    have hmore : off + btlsMaxPayload < msg.length := by omega
    have hslice : slice msg off btlsMaxPayload = (msg.drop off).take btlsMaxPayload :=
      List.takeD_eq_take _ (by omega)
    rw [hchunk, if_pos hmore, if_pos hmore, if_neg hlast, hslice]
    rfl

/-- A session that has sealed `n` records of a message. -/
def Btls.sent (t : Btls) (ptr len off n : Nat) : Btls :=
  { t with txMsg := ptr, txLen := len, txOff := off, sendSeq := t.sendSeq + .ofNat n }

theorem Btls.sent_sent (t : Btls) (ptr len off n ptr' len' off' n' : Nat) :
    (t.sent ptr len off n).sent ptr' len' off' n' = t.sent ptr' len' off' (n + n') := by
  have hseq : t.sendSeq + .ofNat n + .ofNat n' = t.sendSeq + .ofNat (n + n') := by
    rw [UInt64.add_assoc, UInt64.ofNat_add]
  rw [Btls.sent, Btls.sent, Btls.sent]
  dsimp only
  rw [hseq]

/-- The whole loop: one record a fragment, and the session is ready for the next message. -/
theorem sendMsg_spec (ptr : Nat) (msg : Bytes) (hptr : ptr ≠ 0) (hmax : msg.length ≤ btlsMaxMsg)
    (fuel : Nat) (t : Btls) (off : Nat) (hoff : off < msg.length) (hfuel : msg.length - off ≤ fuel)
    (h : AtOffset t ptr msg.length off) :
    sendMsg c ptr msg fuel t =
      (t.sent 0 msg.length 0 (fragments (msg.drop off)).length,
        sealActs t.sendKey t.sendSeq (fragments (msg.drop off)),
        sealRecs c t.sendKey t.sendSeq (fragments (msg.drop off)), 0) := by
  induction fuel generalizing t off with
  | zero => omega
  | succ fuel ih =>
    have hone := btlsSendApp_fragment (c := c) t ptr msg off hptr hmax hoff h
    have hlen : (msg.drop off).length = msg.length - off := List.length_drop
    by_cases hlast : msg.length - off ≤ btlsMaxPayload
    · rw [if_pos hlast] at hone
      rw [sendMsg, hone, fragments_last (by rw [hlen]; exact hlast)]
      rfl
    · rw [if_neg hlast] at hone
      have hpos : 0 < btlsMaxPayload := by decide
      have hnext : AtOffset (t.sent ptr msg.length (off + btlsMaxPayload) 1) ptr msg.length
          (off + btlsMaxPayload) := ⟨h.done, h.epoch, .inr ⟨rfl, rfl, rfl⟩⟩
      have hrest := ih _ _ (by omega) (by omega) hnext
      rw [Btls.sent_sent, ← List.drop_drop, Nat.add_comm 1] at hrest
      rw [sendMsg, hone, fragments_more (by omega)]
      dsimp only
      rw [if_pos rfl]
      have hstate : ({ t with
          txMsg := ptr, txLen := msg.length, txOff := off + btlsMaxPayload
          sendSeq := t.sendSeq + 1 } : Btls) = t.sent ptr msg.length (off + btlsMaxPayload) 1 := rfl
      rw [hstate, hrest]
      rfl

variable (c)

/-- A message at its address in the sender's memory. -/
structure OutMsg where
  ptr : Nat
  bytes : Bytes
  ptr_ne : ptr ≠ 0
  nonempty : 1 ≤ bytes.length
  fits : bytes.length ≤ btlsMaxMsg

/-- Messages sent one after the other: the sealings, the records of each message and
whether every message went out whole. -/
def sendAll : List OutMsg → Btls → Btls × List Act × List (List Bytes) × Bool
  | [], t => (t, [], [], true)
  | m :: ms, t =>
    let (t, acts, recs, ret) := sendMsg c m.ptr m.bytes m.bytes.length t
    let (t, acts', rest, ok) := sendAll ms t
    (t, acts ++ acts', recs :: rest, decide (ret = 0) && ok)

variable {c}

/-- A session in the application epoch that is between two messages it sends. -/
structure Idle (t : Btls) : Prop where
  done : t.state = .done
  epoch : t.epoch = 2
  free : t.txMsg = 0

theorem Idle.sent {t : Btls} (h : Idle t) (len n : Nat) : Idle (t.sent 0 len 0 n) := ⟨h.done, h.epoch, rfl⟩

theorem Idle.sendMsg {t : Btls} (h : Idle t) (m : OutMsg) :
    sendMsg c m.ptr m.bytes m.bytes.length t =
      (t.sent 0 m.bytes.length 0 (fragments m.bytes).length,
        sealActs t.sendKey t.sendSeq (fragments m.bytes),
        sealRecs c t.sendKey t.sendSeq (fragments m.bytes), 0) :=
  sendMsg_spec m.ptr m.bytes m.ptr_ne m.fits m.bytes.length t 0 m.nonempty (Nat.sub_le _ _)
    ⟨h.done, h.epoch, .inl ⟨h.free, rfl⟩⟩

/-- The second part goes on where the numbers of the first one end. -/
theorem seals_append (key : Arr 32) (seq : UInt64) (xs ys : List Bytes) :
    sealActs key seq (xs ++ ys) = sealActs key seq xs ++ sealActs key (seq + .ofNat xs.length) ys ∧
      sealRecs c key seq (xs ++ ys) = sealRecs c key seq xs ++ sealRecs c key (seq + .ofNat xs.length) ys := by
  induction xs generalizing seq with
  | nil =>
    have hzero : seq + .ofNat ([] : List Bytes).length = seq := UInt64.add_zero seq
    rw [hzero]
    exact ⟨rfl, rfl⟩
  | cons x xs ih =>
    have hseq : seq + 1 + .ofNat xs.length = seq + .ofNat (x :: xs).length := by
      rw [List.length_cons, Nat.add_comm, UInt64.ofNat_add, UInt64.add_assoc]
      rfl
    obtain ⟨hacts, hrecs⟩ := ih (seq + 1)
    rw [List.cons_append, sealActs, sealRecs, hacts, hrecs, hseq]
    exact ⟨rfl, rfl⟩

/-- Everything that is sealed for a list of messages. -/
theorem sendAll_acts (ms : List OutMsg) (t : Btls) (h : Idle t) :
    (sendAll c ms t).2.1 = sealActs t.sendKey t.sendSeq ((ms.map (·.bytes)).flatMap fragments) ∧
      (sendAll c ms t).2.2.2 = true := by
  induction ms generalizing t with
  | nil => exact ⟨rfl, rfl⟩
  | cons m ms ih =>
    obtain ⟨hacts, hok⟩ := ih _ (h.sent m.bytes.length (fragments m.bytes).length)
    rw [sendAll, h.sendMsg m, List.map_cons, List.flatMap_cons, (seals_append (c := c) _ _ _ _).1]
    dsimp only
    rw [hacts, hok]
    exact ⟨rfl, rfl⟩

theorem mem_sealActs {key key' : Arr 32} {seq n : UInt64} {inner : Bytes} {inners : List Bytes}
    (h : Act.seal key n inner ∈ sealActs key' seq inners) :
    ∃ j, inners[j]? = some inner ∧ n = seq + .ofNat j := by
  induction inners generalizing seq with
  | nil => cases h
  | cons x inners ih =>
    obtain h | h := List.mem_cons.mp h
    · cases h
      exact ⟨0, rfl, (UInt64.add_zero _).symm⟩
    · obtain ⟨j, hj, hn⟩ := ih h
      refine ⟨j + 1, hj, ?_⟩
      rw [hn, UInt64.add_assoc, Nat.add_comm j, UInt64.ofNat_add]
      rfl

variable (c)

/-- A session that receives, the buffer of the message that it is receiving, what it has
handed on and whether a call has failed. -/
structure Inbox where
  t : Btls
  buf : Bytes
  got : List Bytes
  failed : Bool
  deriving DecidableEq

/-- The buffer for the next record: a fresh one where a message begins. -/
def Inbox.room (s : Inbox) (fresh : Bytes) : Bytes := if s.t.rxLen = 0 then fresh else s.buf

/-- A record for `btls_recv_app`, and a buffer in case a message begins; after an error
there are no more calls. -/
def recvStep (s : Inbox) (e : Bytes × Bytes) : Inbox :=
  if s.failed then s
  else
    let (t, buf, ret, len) := btlsRecvApp c e.1 (s.room e.2) s.t
    { t, buf, got := if ret = 1 then s.got ++ [buf.take len] else s.got, failed := decide (ret = -1) }

def newInbox (t : Btls) : Inbox := ⟨t, [], [], false⟩

variable {c}

theorem openRec_some {t t' : Btls} {rec inner : Bytes} (h : openRec c t rec = (t', some inner)) :
    t' = { t with recvSeq := t.recvSeq + 1 } := by
  rw [openRec] at h
  split at h
  · cases h
  · dsimp only at h
    split at h
    · cases h
    · exact (Prod.ext_iff.mp h).1.symm

/-- An inbox that has put the plaintexts behind `a` together. -/
structure Holds (s : Inbox) (a : Assembly) : Prop where
  done : s.t.state = .done
  epoch : s.t.epoch = 2
  going : s.failed = false
  got : s.got = a.got
  part : s.buf.take s.t.rxLen = a.part
  room : s.t.rxLen ≤ s.buf.length

/-- What stands in the buffer after a fragment was written behind the first `n` bytes. -/
theorem written_take (buf data : Bytes) (n : Nat) (h : n + data.length ≤ buf.length) :
    (buf.take n ++ data ++ buf.drop (n + data.length)).take (n + data.length) = buf.take n ++ data ∧
      n + data.length ≤ (buf.take n ++ data ++ buf.drop (n + data.length)).length := by
  have hlen : (buf.take n ++ data).length = n + data.length := by
    rw [List.length_append, List.length_take, Nat.min_eq_left (by omega)]
  constructor
  · exact List.take_left' hlen
  · rw [List.length_append, hlen]
    omega

section Step

variable {s : Inbox} {a : Assembly} (h : Holds s a) (e : Bytes × Bytes)
include h

theorem Holds.room_part : (s.room e.2).take s.t.rxLen = a.part ∧ s.t.rxLen ≤ (s.room e.2).length := by
  have hpart := h.part
  rw [Inbox.room]
  split
  · rename_i hzero
    rw [hzero, List.take_zero] at hpart
    rw [hzero, List.take_zero]
    exact ⟨hpart, Nat.zero_le _⟩
  · exact ⟨hpart, h.room⟩

theorem Holds.recvStep : recvStep c s e =
    let r := btlsRecvApp c e.1 (s.room e.2) s.t
    { t := r.1, buf := r.2.1, got := if r.2.2.1 = 1 then s.got ++ [r.2.1.take r.2.2.2] else s.got
      failed := decide (r.2.2.1 = -1) } := by
  have hgoing : ¬ s.failed = true := by
    rw [h.going]
    exact Bool.noConfusion
  rw [Bite.recvStep, if_neg hgoing]

/-- A fragment that fits is added. -/
theorem Holds.opened {inner : Bytes} (hopen : (openRec c s.t e.1).2 = some inner)
    (happ : ¬ (inner.length < 2 ∨ byteAt inner 0 ≠ rtApplication))
    (hflags : ¬ byteAt inner 1 &&& ~~~ btlsFragMore ≠ 0)
    (hroom : s.t.rxLen + (inner.drop 2).length ≤ (s.room e.2).length) :
    Holds (Bite.recvStep c s e) (a.add inner) ∧
      (Bite.recvStep c s e).t.recvKey = s.t.recvKey ∧
      (Bite.recvStep c s e).t.recvSeq = s.t.recvSeq + 1 := by
  have hnot : ¬ (s.t.state ≠ .done ∨ s.t.epoch ≠ 2) := by simp [h.done, h.epoch]
  obtain ⟨hpart, hle⟩ := h.room_part e
  have hfits : ¬ (byteAt inner 1 &&& ~~~ btlsFragMore ≠ 0 ∨
      sizeSub (s.room e.2).length s.t.rxLen < (inner.drop 2).length) := by
    rw [sizeSub_of_le hle]
    rintro (hbad | hlong)
    · exact hflags hbad
    · omega
  have hwritten := written_take (s.room e.2) (inner.drop 2) s.t.rxLen hroom
  rw [hpart] at hwritten
  rw [h.recvStep, btlsRecvApp, if_neg hnot]
  cases hrec : openRec c s.t e.1 with
  | mk t' opened =>
    rw [hrec] at hopen
    dsimp only at hopen
    subst hopen
    have ht := openRec_some hrec
    subst ht
    dsimp only
    rw [if_neg happ, if_neg hfits]
    by_cases hlast : byteAt inner 1 &&& btlsFragMore = 0
    · have hadd : a.add inner = ⟨a.got ++ [a.part ++ inner.drop 2], []⟩ := by
        rw [Assembly.add, if_pos hlast]
      rw [if_pos hlast, hadd, ← h.got]
      dsimp only
      rw [if_pos rfl, hpart, hwritten.1]
      exact ⟨⟨h.done, h.epoch, rfl, rfl, List.take_zero, Nat.zero_le _⟩, rfl, rfl⟩
    · have hadd : a.add inner = ⟨a.got, a.part ++ inner.drop 2⟩ := by
        rw [Assembly.add, if_neg hlast]
      rw [if_neg hlast, hadd, hpart]
      exact ⟨⟨h.done, h.epoch, rfl, h.got, hwritten.1, hwritten.2⟩, rfl, rfl⟩

/-- A record that does not open is an error. -/
theorem Holds.unopened (hopen : (openRec c s.t e.1).2 = none) :
    (Bite.recvStep c s e).failed = true ∧ (Bite.recvStep c s e).got = s.got := by
  have hnot : ¬ (s.t.state ≠ .done ∨ s.t.epoch ≠ 2) := by simp [h.done, h.epoch]
  rw [h.recvStep, btlsRecvApp, if_neg hnot]
  cases hrec : openRec c s.t e.1 with
  | mk t' opened =>
    rw [hrec] at hopen
    dsimp only at hopen
    subst hopen
    exact ⟨rfl, rfl⟩

/-- A record fails, or it opens and its plaintext is added. -/
theorem Holds.cases :
    ((Bite.recvStep c s e).failed = true ∧ (Bite.recvStep c s e).got = s.got) ∨
      ∃ inner, (openRec c s.t e.1).2 = some inner ∧ Holds (Bite.recvStep c s e) (a.add inner) ∧
        (Bite.recvStep c s e).t.recvKey = s.t.recvKey ∧
        (Bite.recvStep c s e).t.recvSeq = s.t.recvSeq + 1 := by
  cases hopen : (openRec c s.t e.1).2 with
  | none => exact .inl (h.unopened e hopen)
  | some inner =>
    have hnot : ¬ (s.t.state ≠ .done ∨ s.t.epoch ≠ 2) := by simp [h.done, h.epoch]
    have hle := (h.room_part e).2
    by_cases happ : inner.length < 2 ∨ byteAt inner 0 ≠ rtApplication
    · left
      rw [h.recvStep, btlsRecvApp, if_neg hnot]
      cases hrec : openRec c s.t e.1 with
      | mk t' opened =>
        rw [hrec] at hopen
        dsimp only at hopen
        subst hopen
        dsimp only
        rw [if_pos happ]
        exact ⟨rfl, rfl⟩
    · by_cases hfits : byteAt inner 1 &&& ~~~ btlsFragMore ≠ 0 ∨
          sizeSub (s.room e.2).length s.t.rxLen < (inner.drop 2).length
      · left
        rw [h.recvStep, btlsRecvApp, if_neg hnot]
        cases hrec : openRec c s.t e.1 with
        | mk t' opened =>
          rw [hrec] at hopen
          dsimp only at hopen
          subst hopen
          have ht := openRec_some hrec
          subst ht
          dsimp only
          rw [if_neg happ, if_pos hfits]
          exact ⟨rfl, rfl⟩
      · rw [sizeSub_of_le hle, not_or] at hfits
        exact .inr ⟨inner, rfl, h.opened e hopen happ hfits.1 (by omega)⟩

end Step

end Bite
