import BaitNet.Forgery
import BaitNet.Genuine
import BaitNet.Runs
import BaitNet.SeqGate

/-!
# Ordered delivery between two associations

Two associations with mirrored keys send to each other over a network that
loses, duplicates and reorders their DATA frames and adds others that do not
authenticate. What each side is given on a stream is a prefix of what the other
side put on the wire for it. The two directions share nothing but the stream
table, so the invariant is stated for one of them and used twice.
-/
namespace Icsp

open Wire Crypto Runs

/-- A numbered message and the frame in which it left, if it did. -/
structure Logged where
  m : DataMsg
  frame : Option Bytes
  deriving DecidableEq

/-- One end: its association, every message it numbered and what its caller got. -/
structure Peer where
  assoc : IcspAssoc
  log : List Logged
  got : List (UInt16 × Bytes)

/-- The numbered messages of stream `s`. -/
def Peer.logOn (x : Peer) (s : UInt16) : List Logged := x.log.filter (fun e => e.m.streamId = s)

/-- The messages of stream `s` that went out in a frame. -/
def Peer.sentOn (x : Peer) (s : UInt16) : List Bytes :=
  ((x.logOn s).filter (·.frame.isSome)).map (·.m.msg)

/-- The messages received on stream `s`. -/
def Peer.gotOn (x : Peer) (s : UInt16) : List Bytes :=
  (x.got.filter (fun e => e.1 = s)).map (·.2)

variable (c : TweetNaCl)

/-- `icsp_data_send`; a call that is not refused seals its message. -/
def Peer.send (io : Io) (stream : UInt16) (data : Bytes) (x : Peer) : Peer :=
  let (a, acts, _) := icspDataSend c io x.assoc stream data
  { x with
    assoc := a
    log := if acts = [] then x.log else
      x.log ++ [⟨⟨x.assoc.nextTsn, stream, sendSeq x.assoc stream, data⟩, (txFrames acts).head?⟩] }

/-- `icsp_data_handle`; the caller has a message when the result is positive. -/
def Peer.recv (p : RxCall) (x : Peer) : Peer :=
  let (a, r) := handleCall c x.assoc p
  { x with assoc := a, got := if 0 < r.ret then x.got ++ [(r.outStream, r.out)] else x.got }

structure Pair where
  left : Peer
  right : Peer

inductive PairEv where
  | send (atLeft : Bool) (io : Io) (stream : UInt16) (data : Bytes)
  | recv (atLeft : Bool) (p : RxCall)

def pairStep (st : Pair) : PairEv → Pair
  | .send true io s data => { st with left := st.left.send c io s data }
  | .send false io s data => { st with right := st.right.send c io s data }
  | .recv true p => { st with left := st.left.recv c p }
  | .recv false p => { st with right := st.right.recv c p }

/-- The call is a frame that `x` emitted, into a buffer with room for its message. -/
def FromPeer (x : Peer) (p : RxCall) : Prop :=
  ∃ e ∈ x.log, ∃ frame stale outlen, e.frame = some frame ∧ p = rxFrame frame stale outlen ∧
    e.m.msg.length ≤ outlen

/-- Messages are not empty; what arrives is a frame of the other side, or does not
authenticate. -/
def PairOk (st : Pair) : PairEv → Prop
  | .send _ _ _ data => data ≠ []
  | .recv true p => FromPeer st.right p ∨ Unauthentic c st.left.assoc p.payload p.plen
  | .recv false p => FromPeer st.left p ∨ Unauthentic c st.right.assoc p.payload p.plen

/-- Send calls of one side on one stream. -/
def sendCalls (atLeft : Bool) (s : UInt16) : List PairEv → Nat
  | [] => 0
  | .send l _ stream _ :: es => (if l = atLeft ∧ stream = s then 1 else 0) + sendCalls atLeft s es
  | .recv _ _ :: es => sendCalls atLeft s es

/-- Mirrored keys, one association id and fresh data planes; the TSNs start anywhere. -/
structure Mirrored (a b : IcspAssoc) : Prop where
  hasKey : a.hasKey = true ∧ b.hasKey = true
  assocId : a.assocId = b.assocId
  forth : a.sendKey = b.recvKey
  back : b.sendKey = a.recvKey
  freshLeft : a.toDataPlane = { DataPlane.zero with nextTsn := a.nextTsn }
  freshRight : b.toDataPlane = { DataPlane.zero with nextTsn := b.nextTsn }

def Pair.init (a b : IcspAssoc) : Pair := ⟨⟨a, [], []⟩, ⟨b, [], []⟩⟩

/-- The traffic from `x` to `y`. -/
structure Flow (x y : Peer) : Prop where
  hasKey : y.assoc.hasKey = true
  assocId : y.assoc.assocId = x.assoc.assocId
  key : y.assoc.recvKey = x.assoc.sendKey
  /-- stream sequence numbers are positions, and the sender's counters follow -/
  numbered : ∀ s, SeqGate.Numbered (2 ^ 16) (·.m.seq.toNat) (x.logOn s)
  sendSeq : ∀ s, (sendSeq x.assoc s).toNat = (x.logOn s).length % 2 ^ 16
  /-- a frame that left is the frame of its message under the present key -/
  frames : ∀ e ∈ x.log, ∀ f, e.frame = some f →
    e.m.msg.length ≤ maxSendable ∧ e.m.msg ≠ [] ∧
      ∃ a : IcspAssoc, a.assocId = x.assoc.assocId ∧ a.sendKey = x.assoc.sendKey ∧ f = dataFrame c a e.m
  /-- the receiver's counters are the numbers of messages it handed on -/
  recvSeq : ∀ s, (recvSeq y.assoc s).toNat = (y.gotOn s).length % 2 ^ 16
  short : ∀ s, (y.gotOn s).length ≤ (x.logOn s).length
  /-- these are the first ones of their stream; each went out and is now refused -/
  got : ∀ s, y.gotOn s = ((x.logOn s).take (y.gotOn s).length).map (·.m.msg)
  taken : ∀ s, ∀ e ∈ (x.logOn s).take (y.gotOn s).length,
    e.frame.isSome = true ∧ TsnSeen y.assoc e.m.tsn

variable {c} {x y : Peer}

/-- Only what the sender's numbering depends on matters of the sending end. -/
theorem Flow.sender (h : Flow c x y) {a : IcspAssoc} (hk : RxKeeps x.assoc a)
    (g : List (UInt16 × Bytes)) : Flow c { x with assoc := a, got := g } y := by
  obtain ⟨d, rfl⟩ := hk.dataPlane
  exact { h with
    assocId := h.assocId
    key := h.key
    sendSeq := fun s => by rw [hk.sendSeq s]; exact h.sendSeq s
    frames := h.frames }

/-- Only keys, counters and the window matter of the receiving end. -/
theorem Flow.receiver (h : Flow c x y) {a : IcspAssoc} (hks : a.toKeyState = y.assoc.toKeyState)
    (hid : a.assocId = y.assoc.assocId) (hrecv : ∀ j, Icsp.recvSeq a j = Icsp.recvSeq y.assoc j)
    (hseen : ∀ u, TsnSeen y.assoc u → TsnSeen a u) (l : List Logged) :
    Flow c x { y with assoc := a, log := l } :=
  { h with
    hasKey := by rw [← h.hasKey]; exact congrArg KeyState.hasKey hks
    assocId := hid.trans h.assocId
    key := by rw [← h.key]; exact congrArg KeyState.recvKey hks
    recvSeq := fun s => by rw [hrecv s]; exact h.recvSeq s
    taken := fun s e he => ⟨(h.taken s e he).1, hseen _ (h.taken s e he).2⟩ }

theorem logOn_append (x : Peer) (e : Logged) (s : UInt16) :
    ({ x with log := x.log ++ [e] } : Peer).logOn s =
      if e.m.streamId = s then x.logOn s ++ [e] else x.logOn s := by
  simp only [Peer.logOn, List.filter_append, List.filter_singleton]
  by_cases h : e.m.streamId = s
  · simp only [h, decide_true, cond_true, if_true]
  · simp only [h, decide_false, cond_false, if_false, List.append_nil]

/-- A send that is not refused extends the log by the next number. -/
theorem Flow.logged (h : Flow c x y) {a : IcspAssoc} (e : Logged)
    (hid : a.assocId = x.assoc.assocId) (hkey : a.sendKey = x.assoc.sendKey)
    (hseq : e.m.seq = Icsp.sendSeq x.assoc e.m.streamId)
    (hnext : ∀ j, Icsp.sendSeq a j =
      if j = e.m.streamId then Icsp.sendSeq x.assoc j + 1 else Icsp.sendSeq x.assoc j)
    (hframe : ∀ f, e.frame = some f →
      e.m.msg.length ≤ maxSendable ∧ e.m.msg ≠ [] ∧ f = dataFrame c x.assoc e.m) :
    Flow c { x with assoc := a, log := x.log ++ [e] } y := by
  have hon := logOn_append x e
  have htake : ∀ s, (({ x with log := x.log ++ [e] } : Peer).logOn s).take (y.gotOn s).length =
      (x.logOn s).take (y.gotOn s).length := by
    intro s
    rw [hon s]
    split
    · rw [List.take_append_of_le_length (h.short s)]
    · rfl
  refine
    { hasKey := h.hasKey
      assocId := h.assocId.trans hid.symm
      key := h.key.trans hkey.symm
      numbered := ?_
      sendSeq := ?_
      frames := ?_
      recvSeq := h.recvSeq
      short := ?_
      got := fun s => (h.got s).trans (by rw [← htake s]; rfl)
      taken := fun s e' he => h.taken s e' (by rw [← htake s]; exact he) }
  · intro s
    show SeqGate.Numbered _ _ (({ x with log := x.log ++ [e] } : Peer).logOn s)
    rw [hon s]
    split
    · rename_i hs
      subst hs
      exact SeqGate.numbered_append (h.numbered _) (by rw [hseq]; exact h.sendSeq _)
    · exact h.numbered s
  · intro s
    show _ = (({ x with log := x.log ++ [e] } : Peer).logOn s).length % 2 ^ 16
    rw [hon s, hnext s]
    have hold := h.sendSeq s
    by_cases hs : s = e.m.streamId
    · rw [if_pos hs, if_pos hs.symm, List.length_append, List.length_singleton, UInt16.toNat_add,
        UInt16.toNat_one, hold]
      omega
    · rw [if_neg hs, if_neg (fun h => hs h.symm), hold]
  · intro e' he' f hf
    rcases List.mem_append.mp he' with hmem | hmem
    · obtain ⟨hlen, hne, a', hid', hkey', hf'⟩ := h.frames e' hmem f hf
      exact ⟨hlen, hne, a', hid'.trans hid.symm, hkey'.trans hkey.symm, hf'⟩
    · obtain rfl := List.mem_singleton.mp hmem
      obtain ⟨hlen, hne, hf'⟩ := hframe f hf
      exact ⟨hlen, hne, x.assoc, hid.symm, hkey.symm, hf'⟩
  · intro s
    show _ ≤ (({ x with log := x.log ++ [e] } : Peer).logOn s).length
    have hold := h.short s
    rw [hon s]
    split
    · rw [List.length_append]
      omega
    · exact hold

theorem Peer.send_refused {io : Io} {stream : UInt16} {data : Bytes} {a : IcspAssoc} {r : Int}
    (h : icspDataSend c io x.assoc stream data = (a, [], r)) :
    x.send c io stream data = { x with assoc := a } := by
  rw [Peer.send, h]
  rfl

theorem Peer.send_sealed {io : Io} {stream : UInt16} {data : Bytes} {a : IcspAssoc} {act : Act}
    {acts : List Act} {r : Int} (h : icspDataSend c io x.assoc stream data = (a, act :: acts, r)) :
    x.send c io stream data =
      { x with
        assoc := a
        log := x.log ++ [⟨⟨x.assoc.nextTsn, stream, Icsp.sendSeq x.assoc stream, data⟩,
          (txFrames (act :: acts)).head?⟩] } := by
  rw [Peer.send, h]
  rfl

/-- Sending keeps the direction it belongs to. -/
theorem Flow.send_from (h : Flow c x y) (io : Io) (stream : UInt16) (data : Bytes) (hne : data ≠ []) :
    Flow c (x.send c io stream data) y := by
  rcases icspDataSend_cases c io x.assoc stream data with ⟨ss, hsend, -, hseq⟩ |
      ⟨-, -, -, ss, hsend, -, hseq⟩
  · rw [Peer.send_refused hsend]
    exact h.sender (a := { x.assoc with streams := ss }) ⟨⟨_, rfl⟩, rfl, hseq⟩ x.got
  · have hcases := sealSend_cases c io x.assoc
      ⟨x.assoc.nextTsn, stream, Icsp.sendSeq x.assoc stream, data⟩
    rcases hcases with ⟨hs, hlen, -⟩ | hs
    · rw [hs] at hsend
      rw [Peer.send_sealed hsend]
      refine h.logged _ rfl rfl rfl hseq ?_
      intro f hf
      obtain rfl := Option.some.inj hf
      exact ⟨hlen, hne, rfl⟩
    · rw [hs] at hsend
      rw [Peer.send_sealed hsend]
      refine h.logged _ rfl rfl rfl hseq ?_
      intro f hf
      exact nomatch hf

/-- Sending keeps the opposite direction. -/
theorem Flow.send_to (h : Flow c x y) (io : Io) (stream : UInt16) (data : Bytes) :
    Flow c x (y.send c io stream data) := by
  rcases icspDataSend_cases c io y.assoc stream data with ⟨ss, hsend, hseq, -⟩ |
      ⟨-, -, -, ss, hsend, hseq, -⟩
  · rw [Peer.send_refused hsend]
    exact h.receiver (a := { y.assoc with streams := ss }) rfl rfl hseq (fun _ hu => hu) y.log
  · rcases sealSend_cases c io y.assoc ⟨y.assoc.nextTsn, stream, Icsp.sendSeq y.assoc stream, data⟩
      with ⟨hs, -⟩ | hs <;>
    · rw [hs] at hsend
      rw [Peer.send_sealed hsend]
      refine h.receiver ?_ ?_ ?_ ?_ _
      · rfl
      · rfl
      · exact hseq
      · exact fun _ hu => hu

/-- Receiving keeps the opposite direction, whatever arrives. -/
theorem Flow.recv_from (h : Flow c x y) (p : RxCall) : Flow c (x.recv c p) y :=
  h.sender (handleCall_keeps c x.assoc p) _

/-- The two ways in which nothing is handed on. -/
theorem Peer.recv_nothing {p : RxCall} {a : IcspAssoc} {r : DataRet}
    (h : handleCall c y.assoc p = (a, r)) (hr : r.ret ≤ 0) :
    y.recv c p = { y with assoc := a } := by
  rw [Peer.recv, h]
  simp only [if_neg (Int.not_lt.mpr hr)]

theorem Peer.recv_message {p : RxCall} {a : IcspAssoc} {r : DataRet}
    (h : handleCall c y.assoc p = (a, r)) (hr : 0 < r.ret) :
    y.recv c p = { y with assoc := a, got := y.got ++ [(r.outStream, r.out)] } := by
  rw [Peer.recv, h]
  simp only [if_pos hr]

theorem gotOn_append (y : Peer) (e : UInt16 × Bytes) (s : UInt16) :
    ({ y with got := y.got ++ [e] } : Peer).gotOn s =
      if e.1 = s then y.gotOn s ++ [e.2] else y.gotOn s := by
  simp only [Peer.gotOn, List.filter_append, List.filter_singleton]
  by_cases h : e.1 = s
  · simp only [h, decide_true, cond_true, if_true, List.map_append, List.map_singleton]
  · simp only [h, decide_false, cond_false, if_false, List.append_nil]

/-- A payload that does not authenticate hands nothing on and loses no window mark. -/
theorem Flow.recv_noise (h : Flow c x y) (p : RxCall)
    (hu : Unauthentic c y.assoc p.payload p.plen) : Flow c x (y.recv c p) := by
  obtain ⟨t, m, q, hst, hret, -, -, -, hmono⟩ := handleCall_unauth c y.assoc p h.hasKey hu
  rw [Peer.recv_nothing (a := { y.assoc with rwTsn := t, rwMask := m, sendq := q }) (by rw [← hst]) hret]
  exact h.receiver (a := { y.assoc with rwTsn := t, rwMask := m, sendq := q }) rfl rfl (fun _ => rfl)
    hmono y.log

/-- The message the receiver waits for on its stream goes to the caller. -/
theorem Flow.recv_next (h : Flow c x y) (hshort : ∀ s, (x.logOn s).length ≤ 2 ^ 16) {e : Logged}
    (he : e ∈ x.log) (hf : e.frame.isSome = true) {a : IcspAssoc}
    (hks : a.toKeyState = y.assoc.toKeyState) (hid : a.assocId = y.assoc.assocId)
    (hseq : e.m.seq = Icsp.recvSeq y.assoc e.m.streamId)
    (hrecv : ∀ j, Icsp.recvSeq a j =
      if j = e.m.streamId then Icsp.recvSeq y.assoc j + 1 else Icsp.recvSeq y.assoc j)
    (hnew : ¬ TsnSeen y.assoc e.m.tsn) (hrec : TsnSeen a e.m.tsn)
    (hseen : ∀ u, TsnSeen y.assoc u → TsnSeen a u) :
    Flow c x { y with assoc := a, got := y.got ++ [(e.m.streamId, e.m.msg)] } := by
  have hon := gotOn_append y (e.m.streamId, e.m.msg)
  have hmem : e ∈ x.logOn e.m.streamId := by
    simp only [Peer.logOn, List.mem_filter, he, decide_true, and_self]
  have hnum : e.m.seq.toNat = (y.gotOn e.m.streamId).length % 2 ^ 16 := by
    rw [hseq]
    exact h.recvSeq _
  obtain ⟨hlt, htake⟩ := SeqGate.take_next (h.numbered e.m.streamId) (hshort _) hmem
    (h.short _) hnum (fun hold => hnew (h.taken _ e hold).2)
  refine
    { hasKey := by rw [← h.hasKey]; exact congrArg KeyState.hasKey hks
      assocId := hid.trans h.assocId
      key := by rw [← h.key]; exact congrArg KeyState.recvKey hks
      numbered := h.numbered
      sendSeq := h.sendSeq
      frames := h.frames
      recvSeq := ?_
      short := ?_
      got := ?_
      taken := ?_ }
  · intro s
    show _ = (({ y with got := y.got ++ [(e.m.streamId, e.m.msg)] } : Peer).gotOn s).length % 2 ^ 16
    have hold := h.recvSeq s
    rw [hon s, hrecv s]
    by_cases hs : s = e.m.streamId
    · rw [if_pos hs, if_pos hs.symm, List.length_append, List.length_singleton, UInt16.toNat_add,
        UInt16.toNat_one, hold]
      omega
    · rw [if_neg hs, if_neg (fun h => hs h.symm), hold]
  · intro s
    show (({ y with got := y.got ++ [(e.m.streamId, e.m.msg)] } : Peer).gotOn s).length ≤ _
    have hold := h.short s
    rw [hon s]
    split
    · rename_i hs
      subst hs
      rw [List.length_append, List.length_singleton]
      exact hlt
    · exact hold
  · intro s
    show ({ y with got := y.got ++ [(e.m.streamId, e.m.msg)] } : Peer).gotOn s =
      ((x.logOn s).take (({ y with got := y.got ++ [(e.m.streamId, e.m.msg)] } : Peer).gotOn s).length).map _
    rw [hon s]
    split
    · rename_i hs
      subst hs
      rw [List.length_append, List.length_singleton, htake, List.map_append, ← h.got]
      rfl
    · exact h.got s
  · intro s e'
    show e' ∈ (x.logOn s).take (({ y with got := y.got ++ [(e.m.streamId, e.m.msg)] } : Peer).gotOn s).length → _
    rw [hon s]
    split
    · rename_i hs
      subst hs
      rw [List.length_append, List.length_singleton, htake]
      intro he'
      rcases List.mem_append.mp he' with hold | hlast
      · exact ⟨(h.taken _ e' hold).1, hseen _ (h.taken _ e' hold).2⟩
      · obtain rfl := List.mem_singleton.mp hlast
        exact ⟨hf, hrec⟩
    · exact fun hold => ⟨(h.taken s e' hold).1, hseen _ (h.taken s e' hold).2⟩

/-- A frame of `x`, whenever and however often it arrives. -/
theorem Flow.recv_genuine (h : Flow c x y) (hshort : ∀ s, (x.logOn s).length ≤ 2 ^ 16) {p : RxCall}
    (hp : FromPeer x p) : Flow c x (y.recv c p) := by
  obtain ⟨e, he, f, stale, outlen, hf, rfl, hcap⟩ := hp
  obtain ⟨hlen, hne, a, hid, hkey, rfl⟩ := h.frames e he f hf
  have hout := handleCall_outcome c e.m stale outlen h.hasKey (h.assocId.trans hid.symm)
    (h.key.trans hkey.symm) hlen
  rw [DataMsg.rx] at hout
  generalize hx : handleCall c y.assoc (rxFrame (dataFrame c a e.m) stale outlen) = res at hout
  cases hout with
  | seen hs =>
    rw [Peer.recv_nothing hx le_rfl]
    exact h
  | lost w hw hlong =>
    obtain ⟨-, -, hmono⟩ := replayWindow_some hw
    rw [Peer.recv_nothing hx le_rfl]
    exact h.receiver (a := { y.assoc with rwTsn := w.1, rwMask := w.2 }) rfl rfl (fun _ => rfl) hmono y.log
  | delivered w ss hw hfit hseq hrecv hsend =>
    obtain ⟨hnew, hrec, hmono⟩ := replayWindow_some hw
    have hpos : 0 < e.m.msg.length := List.length_pos_iff.mpr hne
    have hmin : min outlen e.m.msg.length = e.m.msg.length := Nat.min_eq_right hcap
    rw [hmin, List.take_length] at hx
    rw [Peer.recv_message hx (by simpa using hpos)]
    exact h.recv_next hshort he (by rw [hf]; rfl) rfl rfl hseq hrecv hnew hrec hmono
  | noSlot w hw hfit hslot =>
    obtain ⟨-, -, hmono⟩ := replayWindow_some hw
    rw [Peer.recv_nothing hx le_rfl]
    refine h.receiver ?_ ?_ ?_ ?_ y.log
    · rfl
    · rfl
    · exact fun _ => rfl
    · exact hmono
  | buffered w ss hw hfit hseq hrecv hsend =>
    obtain ⟨-, -, hmono⟩ := replayWindow_some hw
    rw [Peer.recv_nothing hx le_rfl]
    refine h.receiver ?_ ?_ ?_ ?_ y.log
    · rfl
    · rfl
    · exact hrecv
    · exact hmono

/-- What was handed on of a stream is a prefix of what was sent on it. -/
theorem Flow.gotOn_sentOn (h : Flow c x y) (s : UInt16) : y.gotOn s <+: x.sentOn s := by
  have hpre := SeqGate.take_prefix_filter (·.frame.isSome) (x.logOn s) (y.gotOn s).length
    (fun e he => (h.taken s e he).1)
  rw [h.got s]
  exact hpre.map _

structure PairInv (c : TweetNaCl) (st : Pair) : Prop where
  forth : Flow c st.left st.right
  back : Flow c st.right st.left

/-- Two associations that just came out of a handshake. -/
theorem flow_init {a b : IcspAssoc} (hk : b.hasKey = true) (hid : b.assocId = a.assocId)
    (hkey : b.recvKey = a.sendKey) (ha : a.streams = []) (hb : b.streams = []) :
    Flow c ⟨a, [], []⟩ ⟨b, [], []⟩ := by
  have hsend : ∀ s, Icsp.sendSeq a s = 0 := by
    intro s
    rw [Icsp.sendSeq, findStream, ha]
    rfl
  have hrecv : ∀ s, Icsp.recvSeq b s = 0 := by
    intro s
    rw [Icsp.recvSeq, findStream, hb]
    rfl
  exact
    { hasKey := hk
      assocId := hid
      key := hkey
      numbered := fun _ => SeqGate.numbered_nil _ _
      sendSeq := fun s => by rw [hsend s]; rfl
      frames := fun _ he => by cases he
      recvSeq := fun s => by rw [hrecv s]; rfl
      short := fun _ => le_rfl
      got := fun _ => rfl
      taken := fun _ _ he => by cases he }

theorem pairInv_init {a b : IcspAssoc} (h : Mirrored a b) : PairInv c (Pair.init a b) := by
  have ha : a.streams = [] := congrArg DataPlane.streams h.freshLeft
  have hb : b.streams = [] := congrArg DataPlane.streams h.freshRight
  exact ⟨flow_init h.hasKey.2 h.assocId.symm h.forth.symm ha hb,
    flow_init h.hasKey.1 h.assocId h.back.symm hb ha⟩

/-- Each side has numbered at most 65536 messages on each stream. -/
def Numberable (st : Pair) : Prop :=
  ∀ s, (st.left.logOn s).length ≤ 2 ^ 16 ∧ (st.right.logOn s).length ≤ 2 ^ 16

theorem pairInv_step {st : Pair} (h : PairInv c st) (hn : Numberable st) (ev : PairEv)
    (hok : PairOk c st ev) : PairInv c (pairStep c st ev) := by
  cases ev with
  | send atLeft io s data =>
    cases atLeft with
    | true => exact ⟨h.forth.send_from io s data hok, h.back.send_to io s data⟩
    | false => exact ⟨h.forth.send_to io s data, h.back.send_from io s data hok⟩
  | recv atLeft p =>
    cases atLeft with
    | true =>
      refine ⟨h.forth.recv_from p, ?_⟩
      rcases hok with hp | hu
      · exact h.back.recv_genuine (fun s => (hn s).2) hp
      · exact h.back.recv_noise p hu
    | false =>
      refine ⟨?_, h.back.recv_from p⟩
      rcases hok with hp | hu
      · exact h.forth.recv_genuine (fun s => (hn s).1) hp
      · exact h.forth.recv_noise p hu

/-- A send numbers at most one message. -/
theorem send_logOn_le (io : Io) (stream : UInt16) (data : Bytes) (x : Peer) (s : UInt16) :
    ((x.send c io stream data).logOn s).length ≤
      (x.logOn s).length + if stream = s then 1 else 0 := by
  generalize hr : icspDataSend c io x.assoc stream data = r
  obtain ⟨a, acts, ret⟩ := r
  cases acts with
  | nil =>
    rw [Peer.send_refused hr]
    exact Nat.le_add_right _ _
  | cons act acts =>
    rw [Peer.send_sealed hr]
    show (({ x with log := x.log ++ [_] } : Peer).logOn s).length ≤ _
    rw [logOn_append]
    split
    · rw [List.length_append, List.length_singleton]
    · exact Nat.le_add_right _ _

/-- `sendCalls` bounds what is yet to be numbered. -/
def Budget (st : Pair) (es : List PairEv) : Prop :=
  ∀ s, (st.left.logOn s).length + sendCalls true s es ≤ 2 ^ 16 ∧
    (st.right.logOn s).length + sendCalls false s es ≤ 2 ^ 16

theorem Budget.numberable {st : Pair} {es : List PairEv} (h : Budget st es) : Numberable st :=
  fun s => ⟨Nat.le_trans (Nat.le_add_right _ _) (h s).1, Nat.le_trans (Nat.le_add_right _ _) (h s).2⟩

theorem Budget.step {st : Pair} {ev : PairEv} {es : List PairEv} (h : Budget st (ev :: es)) :
    Budget (pairStep c st ev) es := by
  intro s
  obtain ⟨hl, hr⟩ := h s
  cases ev with
  | send atLeft io stream data =>
    cases atLeft with
    | true =>
      have hone := send_logOn_le (c := c) io stream data st.left s
      simp only [sendCalls, true_and] at hl
      have hl' : ((st.left.send c io stream data).logOn s).length + sendCalls true s es ≤ 2 ^ 16 := by
        omega
      simp only [sendCalls, Bool.true_eq_false, false_and, if_false, Nat.zero_add] at hr
      exact ⟨hl', hr⟩
    | false =>
      have hone := send_logOn_le (c := c) io stream data st.right s
      simp only [sendCalls, true_and] at hr
      have hr' : ((st.right.send c io stream data).logOn s).length + sendCalls false s es ≤ 2 ^ 16 := by
        omega
      simp only [sendCalls, Bool.false_eq_true, false_and, if_false, Nat.zero_add] at hl
      exact ⟨hl, hr'⟩
  | recv atLeft p =>
    cases atLeft with
    | true => exact ⟨hl, hr⟩
    | false => exact ⟨hl, hr⟩

theorem pairInv_run (es : List PairEv) (st : Pair) (h : PairInv c st) (hb : Budget st es)
    (hok : Along (pairStep c) (PairOk c) st es) : PairInv c (run (pairStep c) st es) := by
  induction es generalizing st with
  | nil => exact h
  | cons ev es ih =>
    exact ih _ (pairInv_step h hb.numberable ev hok.1) hb.step hok.2

/-- Whatever the network does, on every stream each side has been handed a prefix
of what the other side sent on it. -/
theorem delivered_prefix_of_sent (c : TweetNaCl) (a b : IcspAssoc) (h : Mirrored a b)
    (es : List PairEv) (hcalls : ∀ atLeft s, sendCalls atLeft s es ≤ 65536)
    (hok : Along (pairStep c) (PairOk c) (Pair.init a b) es) (s : UInt16) :
    let st := run (pairStep c) (Pair.init a b) es
    st.right.gotOn s <+: st.left.sentOn s ∧ st.left.gotOn s <+: st.right.sentOn s := by
  have hb : Budget (Pair.init a b) es := by
    intro s
    have hl := hcalls true s
    have hr := hcalls false s
    simp only [Pair.init, Peer.logOn, List.filter_nil, List.length_nil, Nat.zero_add]
    exact ⟨hl, hr⟩
  have hinv := pairInv_run es _ (pairInv_init h) hb hok
  exact ⟨hinv.forth.gotOn_sentOn s, hinv.back.gotOn_sentOn s⟩

/-- Two messages that arrive in the wrong order, the second of them twice: the first
is handed on. -/
theorem delivered_prefix_of_sent_swapped :
    let a := { IcspAssoc.zero with hasKey := true, nextTsn := 1 }
    let b := { IcspAssoc.zero with hasKey := true }
    let frame m := dataFrame toy a m
    let rx m := PairEv.recv false (rxFrame (frame m) [] 1400)
    let m₀ : DataMsg := ⟨1, 3, 0, [7]⟩
    let m₁ : DataMsg := ⟨2, 3, 1, [8]⟩
    let st := run (pairStep toy) (Pair.init a b)
      [.send true (.quiet 0) 3 [7], .send true (.quiet 0) 3 [8], rx m₁, rx m₀, rx m₁]
    st.right.gotOn 3 = [[7]] ∧ st.right.gotOn 3 <+: st.left.sentOn 3 := by
  intro a b frame rx m₀ m₁ st
  refine ⟨by decide +kernel, (delivered_prefix_of_sent toy a b ?_ _ ?_ ?_ 3).1⟩
  · exact ⟨⟨rfl, rfl⟩, rfl, rfl, rfl, rfl, rfl⟩
  · intro atLeft s
    simp only [sendCalls, rx]
    split <;> omega
  · refine ⟨List.cons_ne_nil _ _, List.cons_ne_nil _ _, .inl ?_, .inl ?_, .inl ?_, trivial⟩
    · exact ⟨⟨m₁, frame m₁⟩, by decide +kernel, frame m₁, [], 1400, rfl, rfl, by decide⟩
    · exact ⟨⟨m₀, frame m₀⟩, by decide +kernel, frame m₀, [], 1400, rfl, rfl, by decide⟩
    · exact ⟨⟨m₁, frame m₁⟩, by decide +kernel, frame m₁, [], 1400, rfl, rfl, by decide⟩

end Icsp
