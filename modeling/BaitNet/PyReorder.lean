import BaitNet.StreamReset
import BaitNet.ReplayWindows

/-!
# The reorder buffer of the Python session

`_handle_data` buffers what does not come in order and hands it on together with what it waited for, in
one piece. So an application gets the messages of a stream one by one only if they arrive in the order in
which they were sent.
-/
namespace Interop

open Wire Link Crypto

variable {nb : Py.PyBox} {c : TweetNaCl} {s : Session} {i : Bool} {q : Py.Assoc}

/-- What no message changes about an association. -/
def Linked (s : Session) (i : Bool) (q : Py.Assoc) : Prop :=
  PyReads s i { q with streams := [], rcvbuf := [], rwTsn := 0, rwMask := 0, nextTsn := 0 } (.new 0)

/-- Nothing of the stream waits. -/
def Emptied (q : Py.Assoc) (sid : ℕ) : Prop := (q.rcvbuf.lookup sid).getD [] = []

def expected (q : Py.Assoc) (sid : ℕ) : ℕ := (Py.stream q.streams sid).2.recvSeq

theorem lookup_map_set {α : Type*} (l : List (ℕ × α)) (sid j : ℕ) (x : α) :
    (l.map fun e => if e.1 = sid then (sid, x) else e).lookup j =
      (l.lookup j).map fun y => if j = sid then x else y := by
  have hsame : (fun e : ℕ × α => if e.1 = sid then (sid, x) else e) =
      fun e => if e.1 = sid then (e.1, x) else e := by
    funext e
    split
    · rename_i he
      rw [he]
    · rfl
  rw [hsame]
  exact lookup_map_at l sid j fun _ => x

theorem lookup_buffer (rcvbuf : List (ℕ × List (ℕ × Bytes))) {sid j : ℕ} (h : j ≠ sid) (seq : ℕ) (data : Bytes) :
    (Py.buffer rcvbuf sid seq data).lookup j = rcvbuf.lookup j := by
  have hb : (j == sid) = false := beq_false_of_ne h
  rw [Py.buffer]
  cases rcvbuf.lookup sid with
  | none =>
    simp only
    rw [List.lookup_append, List.lookup_cons, hb]
    exact Option.or_none
  | some buf =>
    simp only
    rw [lookup_map_set]
    simp only [if_neg h, Option.map_id']

/-- What `acceptData` does whatever comes: it hands on at most one piece, on the message's stream. -/
theorem acceptData_frame (q : Py.Assoc) (tsn sid seq : ℕ) (data : Bytes) :
    (∃ streams rcvbuf cum, (Py.acceptData q tsn sid seq data).1 =
        { q with streams := streams, rcvbuf := rcvbuf, cumTsn := cum } ∧
      cum ≤ max q.cumTsn tsn) ∧
      (∀ j, j ≠ sid → expected (Py.acceptData q tsn sid seq data).1 j = expected q j ∧
        (Py.acceptData q tsn sid seq data).1.rcvbuf.lookup j = q.rcvbuf.lookup j) ∧
      ∀ got ∈ (Py.acceptData q tsn sid seq data).2, got.1 = sid := by
  rw [Py.acceptData]
  simp only
  split
  · refine ⟨⟨_, _, _, rfl, le_max_left ..⟩, fun j hj => ⟨?_, lookup_buffer _ hj _ _⟩, fun got hgot => nomatch hgot⟩
    rw [expected, expected, stream_stream]
  · refine ⟨⟨_, _, _, rfl, le_rfl⟩, fun j hj => ⟨?_, ?_⟩, fun got hgot => ?_⟩
    · simp only [expected, stream_setRecv, if_neg hj]
    · simp only [lookup_map_set, if_neg hj, Option.map_id']
    · rw [← Option.some.inj hgot]

/-- The awaited message, with nothing of its stream buffered, is handed on alone. -/
theorem acceptData_next (q : Py.Assoc) (tsn sid : ℕ) (data : Bytes) (h : Emptied q sid) :
    (Py.acceptData q tsn sid (expected q sid) data).2 = some (sid, data) ∧
      expected (Py.acceptData q tsn sid (expected q sid) data).1 sid = (expected q sid + 1) % 2 ^ 16 ∧
      Emptied (Py.acceptData q tsn sid (expected q sid) data).1 sid := by
  have hmask : (expected q sid + 1) &&& 0xFFFF = (expected q sid + 1) % 2 ^ 16 := Nat.and_two_pow_sub_one_eq_mod _ 16
  have heq : Py.acceptData q tsn sid (expected q sid) data =
      ({ q with
          rcvbuf := q.rcvbuf.map fun e => if e.1 = sid then (sid, []) else e
          streams := Py.setRecv sid ((expected q sid + 1) &&& 0xFFFF) (Py.stream q.streams sid).1
          cumTsn := max q.cumTsn tsn }, some (sid, data)) := by
    rw [Emptied] at h
    unfold Py.acceptData expected
    simp only [ne_eq, not_true_eq_false, if_false, h, List.length_nil, Py.popNext, List.flatten_nil, List.append_nil]
  rw [heq, ← hmask]
  refine ⟨rfl, ?_, ?_⟩
  · rw [expected]
    simp only [stream_setRecv, if_true]
  · rw [Emptied]
    simp only [lookup_map_set, if_true]
    cases q.rcvbuf.lookup sid with
    | none => rfl
    | some buf => rfl

/-- Any other message is handed on later or never. -/
theorem acceptData_other (q : Py.Assoc) {tsn sid seq : ℕ} (data : Bytes) (h : seq ≠ expected q sid) :
    (Py.acceptData q tsn sid seq data).2 = none := by
  have hne : seq ≠ (Py.stream q.streams sid).2.recvSeq := h
  unfold Py.acceptData
  simp only [if_pos hne]

theorem linked_accept (h : Linked s i q) {tsn : ℕ} (htsn : tsn < 2 ^ 32) (sid seq : ℕ) (data : Bytes) :
    Linked s i (Py.acceptData q tsn sid seq data).1 := by
  obtain ⟨⟨streams, rcvbuf, cum, heq, hcum⟩, -⟩ := acceptData_frame q tsn sid seq data
  have hlt : q.cumTsn < 2 ^ 32 := h.cumTsn
  rw [heq]
  exact { h with cumTsn := lt_of_le_of_lt hcum (max_lt hlt htsn) }

/-- What `_handle_data` makes of a message in the frame at hand. -/
def taken (io : Py.Io) (s : Session) (i : Bool) (q : Py.Assoc) (m : Icsp.DataMsg) : Py.Assoc × Option (ℕ × Bytes) :=
  let q := pyHeard io q (s.mac (!i)) (s.addr (!i))
  match Py.replayWindow q.rwTsn q.rwMask m.tsn.toNat with
  | none => (q, none)
  | some p => Py.acceptData { q with rwTsn := p.1, rwMask := p.2 } m.tsn.toNat m.streamId.toNat m.seq.toNat m.msg

theorem linked_taken (h : Linked s i q) (io : Py.Io) (m : Icsp.DataMsg) : Linked s i (taken io s i q m).1 := by
  have hheard : Linked s i (pyHeard io q (s.mac (!i)) (s.addr (!i))) := PyReads.heard h io
  rw [taken]
  cases Py.replayWindow (pyHeard io q (s.mac (!i)) (s.addr (!i))).rwTsn
      (pyHeard io q (s.mac (!i)) (s.addr (!i))).rwMask m.tsn.toNat with
  | none => exact hheard
  | some p =>
    have hadmitted : Linked s i { pyHeard io q (s.mac (!i)) (s.addr (!i)) with rwTsn := p.1, rwMask := p.2 } := hheard
    exact linked_accept hadmitted m.tsn.toNat_lt _ _ _

theorem handleData_taken (same : SameBoxes nb c) (h : Linked s i q) (io : Py.Io) (m : Icsp.DataMsg)
    (hfit : m.msg.length ≤ Icsp.maxSendable) :
    Py.handleData nb (pyHeard io q (s.mac (!i)) (s.addr (!i)))
        (Icsp.dataHeader m.tsn m.streamId m.seq ++ m.box c s.assocId (s.key (!i))) =
      ((taken io s i q m).1, .ok (taken io s i q m).2) := by
  have hid : (pyHeard io q (s.mac (!i)) (s.addr (!i))).assocId = s.assocId.toNat := h.assocId
  have hkey : (pyHeard io q (s.mac (!i)) (s.addr (!i))).recvKey = (s.key (!i)).val := h.recvKey
  rw [taken]
  cases hwindow : Py.replayWindow (pyHeard io q (s.mac (!i)) (s.addr (!i))).rwTsn
      (pyHeard io q (s.mac (!i)) (s.addr (!i))).rwMask m.tsn.toNat with
  | none =>
    obtain ⟨htsn, -⟩ := dataHeader_numbers m (m.box c s.assocId (s.key (!i)))
    rw [Py.handleData]
    simp only [htsn, hwindow, ite_self]
  | some p => exact handleData_open same hid hkey m hfit hwindow

/-- A frame with a message. -/
theorem poll_data (same : SameBoxes nb c) (h : Linked s i q) (io : Py.Io) {m : Icsp.DataMsg} {frame : Bytes}
    (hframe : Frames c s (!i) (.data m) frame) (hfit : m.msg.length ≤ Icsp.maxSendable) :
    ∃ sack, Py.poll nb io q frame = ((taken io s i q m).1, sack,
      .ok ((taken io s i q m).2.toList.map fun got => .data got.1 got.2)) := by
  have hfit' : m.msg.length ≤ 1336 := hfit
  have hbody : (Icsp.dataHeader m.tsn m.streamId m.seq ++ m.box c s.assocId (s.key (!i))).length =
      48 + m.msg.length := by
    rw [List.length_append, Icsp.dataHeader_length, Icsp.DataMsg.box, ed25519Secretbox_length, m.clear_length]
    omega
  have hchunk : (Msg.data m).chunk c s (!i) =
      Icsp.icspChunkPut Py.chunkData (Icsp.dataHeader m.tsn m.streamId m.seq ++ m.box c s.assocId (s.key (!i))).length ++
        (Icsp.dataHeader m.tsn m.streamId m.seq ++ m.box c s.assocId (s.key (!i))) := by
    rw [hbody]
    rfl
  have hhandle : Py.handleChunk nb io (pyHeard io q (s.mac (!i)) (s.addr (!i))) Py.chunkData
      (Icsp.dataHeader m.tsn m.streamId m.seq ++ m.box c s.assocId (s.key (!i))) =
        ((taken io s i q m).1, [], .ok ((taken io s i q m).2.toList.map fun got => .data got.1 got.2)) := by
    rw [Py.handleChunk, if_pos rfl, handleData_taken same h io m hfit]
    cases (taken io s i q m).2 with
    | none => rfl
    | some got => rfl
  have hlinked := linked_taken h io m
  obtain ⟨sack, cum, hsack, -⟩ := sendSack_frames (c := c) hlinked
  have hsack' : Py.sendSack (taken io s i q m).1 = .ok sack := hsack
  have hmac : q.mac = (s.mac i).val := h.mac
  have hkey : (taken io s i q m).1.sendKey ≠ [] := hlinked.sendKey_ne
  exact ⟨_, (poll_frames hmac io hframe hchunk (by omega) hhandle hkey).2 rfl sack hsack'⟩

/-- The association after messages with the TSNs `pre`, as its window sees it. -/
def Heard (q : Py.Assoc) (pre : List ℕ) : Prop :=
  ∃ acc, Window.Tracks 32 (q.rwTsn, q.rwMask % 2 ^ 32) acc ∧ Window.Alike 32 acc pre

/-- One message against the stream `sid`: what it hands on, and what is expected next. -/
structure Polled (sid : UInt16) (pre : List ℕ) (q : Py.Assoc) (m : Icsp.DataMsg) (q' : Py.Assoc)
    (o : Option (ℕ × Bytes)) : Prop where
  heard : Heard q' (m.tsn.toNat :: pre)
  stream : ∀ got ∈ o, got.1 = m.streamId.toNat
  apart : m.streamId ≠ sid → expected q' sid.toNat = expected q sid.toNat ∧
    (Emptied q sid.toNat → Emptied q' sid.toNat)
  next : Window.Fresh 32 pre m.tsn.toNat → m.streamId = sid → m.seq.toNat = expected q sid.toNat →
    Emptied q sid.toNat → o = some (sid.toNat, m.msg) ∧
      expected q' sid.toNat = (expected q sid.toNat + 1) % 2 ^ 16 ∧ Emptied q' sid.toNat
  given : m.streamId = sid → o ≠ none → Window.Fresh 32 pre m.tsn.toNat ∧ m.seq.toNat = expected q sid.toNat

theorem taken_polled (sid : UInt16) {pre : List ℕ} (hpre : Heard q pre) (io : Py.Io) (m : Icsp.DataMsg) :
    Polled sid pre q m (taken io s i q m).1 (taken io s i q m).2 := by
  obtain ⟨acc, htracks, halike⟩ := hpre
  have hoffer := Py.replayWindow_offer q.rwTsn q.rwMask m.tsn.toNat
  have hfresh : (Py.replayWindow q.rwTsn q.rwMask m.tsn.toNat).isSome = true ↔ Window.Fresh 32 pre m.tsn.toNat := by
    rw [← halike.fresh, ← htracks.fresh_iff, hoffer, Option.isSome_map]
  have heard : Py.replayWindow (pyHeard io q (s.mac (!i)) (s.addr (!i))).rwTsn
      (pyHeard io q (s.mac (!i)) (s.addr (!i))).rwMask m.tsn.toNat =
        Py.replayWindow q.rwTsn q.rwMask m.tsn.toNat := rfl
  rw [taken]
  simp only [heard]
  cases hwindow : Py.replayWindow q.rwTsn q.rwMask m.tsn.toNat with
  | none =>
    have hstale : ¬ Window.Fresh 32 pre m.tsn.toNat := fun hf => by
      rw [← hfresh, hwindow] at hf
      cases hf
    exact {
      heard := ⟨acc, htracks, halike.stale hstale⟩
      stream := fun got hgot => nomatch hgot
      apart := fun _ => ⟨rfl, id⟩
      next := fun hf => absurd hf hstale
      given := fun _ ho => absurd rfl ho }
  | some p =>
    have hf : Window.Fresh 32 pre m.tsn.toNat := hfresh.mp (by rw [hwindow, Option.isSome_some])
    have hadmit : Window.offer 32 q.rwTsn (q.rwMask % 2 ^ 32) m.tsn.toNat = some (p.1, p.2 % 2 ^ 32) := by
      rw [hoffer, hwindow, Option.map_some]
    have htracks' := htracks.step (by decide) hadmit
    obtain ⟨⟨streams, rcvbuf, cum, heq, -⟩, hapart, hstream⟩ := acceptData_frame
      { pyHeard io q (s.mac (!i)) (s.addr (!i)) with rwTsn := p.1, rwMask := p.2 }
      m.tsn.toNat m.streamId.toNat m.seq.toNat m.msg
    have hexp : expected { pyHeard io q (s.mac (!i)) (s.addr (!i)) with rwTsn := p.1, rwMask := p.2 } sid.toNat =
        expected q sid.toNat := rfl
    refine {
      heard := ⟨m.tsn.toNat :: acc, by rw [heq]; exact htracks', halike.fresh_cons _⟩
      stream := hstream
      apart := fun hne => ?_
      next := fun _ hsid hseq hempty => ?_
      given := fun hsid ho => ⟨hf, by_contra fun hseq => ho ?_⟩ }
    · have hnat : sid.toNat ≠ m.streamId.toNat := fun h => hne (UInt16.toNat_inj.mp h).symm
      obtain ⟨hsame, hlookup⟩ := hapart sid.toNat hnat
      refine ⟨hsame, fun hempty => ?_⟩
      rw [Emptied, hlookup]
      exact hempty
    · have h := acceptData_next { pyHeard io q (s.mac (!i)) (s.addr (!i)) with rwTsn := p.1, rwMask := p.2 }
        m.tsn.toNat sid.toNat m.msg hempty
      rw [hexp] at h
      rw [hsid, hseq]
      exact h
    · rw [hsid]
      exact acceptData_other _ _ (by rwa [hexp])

/-- The messages that `poll` hands on, one frame after the other. -/
def pollAll (nb : Py.PyBox) : Py.Assoc → List (Py.Io × Bytes) → List (ℕ × Bytes)
  | _, [] => []
  | q, (io, frame) :: rest =>
    let r := Py.poll nb io q frame
    dataEvents (r.2.2.toOption.getD []) ++ pollAll nb r.1 rest

/-- `n` calls of `recv_record`, up to the first one that gives no record. -/
def recvRecords (nb : Py.PyBox) : ℕ → Py.Assoc → List (Py.Io × Bytes) → List Bytes
  | 0, _, _ => []
  | n + 1, q, frames =>
    match Py.recvRecord nb q frames with
    | (q', rest, .ok (some record)) => record :: recvRecords nb n q' rest
    | _ => []

theorem dataEvents_map (o : Option (ℕ × Bytes)) :
    dataEvents (o.toList.map fun got => .data got.1 got.2) = o.toList := by
  cases o with
  | none => rfl
  | some got => rfl

/-- One message of the run and its frame. -/
structure Parcel where
  m : Icsp.DataMsg
  frame : Bytes
  deriving DecidableEq

/-- A parcel with its place among all that were sent, as it arrives. -/
abbrev Arrival := Py.Io × (Parcel × ℕ)

/-- The frame of a genuine message. -/
def Genuine (c : TweetNaCl) (s : Session) (i : Bool) (x : Parcel) : Prop :=
  Frames c s i (.data x.m) x.frame ∧ x.m.msg.length ≤ Icsp.maxSendable

def frames (ks : List Arrival) : List (Py.Io × Bytes) := ks.map fun k => (k.1, k.2.1.frame)

/-- One frame of a run. -/
theorem frames_cons (same : SameBoxes nb c) (sid : UInt16) (h : Linked s i q) {pre : List ℕ} (hpre : Heard q pre)
    {k : Arrival} (hk : Genuine c s (!i) k.2.1) (rest : List Arrival) :
    ∃ q' o, Linked s i q' ∧ Polled sid pre q k.2.1.m q' o ∧
      pollAll nb q (frames (k :: rest)) = o.toList ++ pollAll nb q' (frames rest) ∧
      Py.recvRecord nb q (frames (k :: rest)) =
        match Py.firstRecord (o.toList.map fun got => .data got.1 got.2) with
        | some record => (q', frames rest, .ok record)
        | none => Py.recvRecord nb q' (frames rest) := by
  obtain ⟨sack, hpoll⟩ := poll_data same h k.1 hk.1 hk.2
  refine ⟨_, _, linked_taken h k.1 k.2.1.m, taken_polled sid hpre k.1 k.2.1.m, ?_, ?_⟩
  · simp only [frames, List.map_cons, pollAll, hpoll, Except.toOption, Option.getD_some, dataEvents_map]
  · cases hfirst : Py.firstRecord ((taken k.1 s i q k.2.1.m).2.toList.map fun got => .data got.1 got.2) with
    | none => simp only [frames, List.map_cons, Py.recvRecord, hpoll, hfirst]
    | some record => simp only [frames, List.map_cons, Py.recvRecord, hpoll, hfirst]

/-- What a run hands on of the stream. -/
def givenOn (nb : Py.PyBox) (q : Py.Assoc) (sid : UInt16) (ks : List Arrival) : List Bytes :=
  ((pollAll nb q (frames ks)).filter fun got => got.1 = sid.toNat).map Prod.snd

/-- The messages of the stream among the arrivals, in their order. -/
def onStream (sid : UInt16) (xs : List (Parcel × ℕ)) : List (Parcel × ℕ) := xs.filter fun x => x.1.m.streamId = sid

/-- `recv_record` hands on what `handle` does. -/
theorem recvRecords_eq (same : SameBoxes nb c) {sid : UInt16} (hsid : sid.toNat = Py.streamData)
    (ks : List Arrival) (hgen : ∀ k ∈ ks, Genuine c s (!i) k.2.1) {q : Py.Assoc} (h : Linked s i q) {pre : List ℕ}
    (hpre : Heard q pre) {n : ℕ} (hn : ks.length ≤ n) :
    recvRecords nb n q (frames ks) = givenOn nb q sid ks := by
  induction ks generalizing q pre n with
  | nil =>
    cases n with
    | zero => rfl
    | succ n => rfl
  | cons k ks ih =>
    obtain ⟨q', o, hlinked, hpolled, hall, hrecord⟩ :=
      frames_cons same sid h hpre (hgen k (.head _)) ks
    have ih' := fun (m : ℕ) (hm : ks.length ≤ m) =>
      ih (fun j hj => hgen j (.tail _ hj)) hlinked hpolled.heard hm
    rw [List.length_cons] at hn
    obtain ⟨n, rfl⟩ : ∃ m, n = m + 1 := ⟨n - 1, by omega⟩
    rw [givenOn, hall, List.filter_append, List.map_append]
    change _ = _ ++ givenOn nb q' sid ks
    rw [recvRecords, hrecord]
    cases o with
    | none =>
      have hskip := ih' (n + 1) (by omega)
      rw [recvRecords] at hskip
      exact hskip
    | some got =>
      obtain ⟨j, data⟩ := got
      by_cases hj : j = Py.streamData
      · obtain rfl := hj
        have hrec : Py.firstRecord [Py.Event.data Py.streamData data] = some (some data) := rfl
        simp only [Option.toList_some, List.map_cons, List.map_nil, hrec, hsid, decide_true, List.filter_cons_of_pos,
          List.filter_nil, List.singleton_append, ih' n (by omega)]
      · have hrec : Py.firstRecord [Py.Event.data j data] = none := by
          rw [Py.firstRecord, if_neg hj]
          rfl
        have hskip := ih' (n + 1) (by omega)
        rw [recvRecords] at hskip
        simp only [Option.toList_some, List.map_cons, List.map_nil, hrec, hsid, hj, decide_false,
          Bool.false_eq_true, not_false_eq_true, List.filter_cons_of_neg, List.filter_nil, List.nil_append]
        exact hskip

/-- The messages of the stream among the arrivals. -/
def arrivedOn (sid : UInt16) (ks : List Arrival) : List (Parcel × ℕ) := onStream sid (ks.map Prod.snd)

/-- Each message of the stream is fresh for the window when it comes. -/
def Timely (sid : UInt16) : List ℕ → List Arrival → Prop
  | _, [] => True
  | pre, k :: ks =>
    (k.2.1.m.streamId = sid → Window.Fresh 32 pre k.2.1.m.tsn.toNat) ∧ Timely sid (k.2.1.m.tsn.toNat :: pre) ks

def timelyDecidable (sid : UInt16) : (pre : List ℕ) → (ks : List Arrival) → Decidable (Timely sid pre ks)
  | _, [] => .isTrue trivial
  | pre, k :: ks =>
    have := timelyDecidable sid (k.2.1.m.tsn.toNat :: pre) ks
    inferInstanceAs (Decidable (_ ∧ _))

instance (sid : UInt16) (pre : List ℕ) (ks : List Arrival) : Decidable (Timely sid pre ks) := timelyDecidable sid pre ks

/-- The stream's numbers from `j` on. -/
def Numbered (j : ℕ) (xs : List (Parcel × ℕ)) : Prop :=
  ∀ r x, xs[r]? = some x → x.1.m.seq.toNat = (j + r) % 2 ^ 16

theorem arrivedOn_cons (sid : UInt16) (k : Arrival) (ks : List Arrival) :
    arrivedOn sid (k :: ks) = if k.2.1.m.streamId = sid then k.2 :: arrivedOn sid ks else arrivedOn sid ks := by
  rw [arrivedOn, onStream, List.map_cons, List.filter_cons]
  simp only [decide_eq_true_eq]
  rfl

theorem numbered_cons {j : ℕ} {x : Parcel × ℕ} {xs : List (Parcel × ℕ)} :
    Numbered j (x :: xs) ↔ x.1.m.seq.toNat = j % 2 ^ 16 ∧ Numbered (j + 1) xs := by
  constructor
  · intro h
    refine ⟨h 0 x rfl, fun r y hy => ?_⟩
    rw [h (r + 1) y hy, Nat.add_right_comm, Nat.add_assoc]
  · rintro ⟨hx, hxs⟩ r y hy
    cases r with
    | zero =>
      obtain rfl : x = y := Option.some.inj hy
      exact hx
    | succ r => rw [hxs r y hy, Nat.add_right_comm, Nat.add_assoc]

/-- One arrival. -/
theorem givenOn_cons (same : SameBoxes nb c) (sid : UInt16) (h : Linked s i q) {pre : List ℕ} (hpre : Heard q pre)
    {k : Arrival} (hk : Genuine c s (!i) k.2.1) (ks : List Arrival) :
    ∃ q', Linked s i q' ∧ Heard q' (k.2.1.m.tsn.toNat :: pre) ∧
      (k.2.1.m.streamId ≠ sid → givenOn nb q sid (k :: ks) = givenOn nb q' sid ks ∧
        expected q' sid.toNat = expected q sid.toNat ∧ (Emptied q sid.toNat → Emptied q' sid.toNat)) ∧
      (k.2.1.m.streamId = sid → Window.Fresh 32 pre k.2.1.m.tsn.toNat →
        k.2.1.m.seq.toNat = expected q sid.toNat → Emptied q sid.toNat →
          givenOn nb q sid (k :: ks) = k.2.1.m.msg :: givenOn nb q' sid ks ∧
          expected q' sid.toNat = (expected q sid.toNat + 1) % 2 ^ 16 ∧ Emptied q' sid.toNat) ∧
      (givenOn nb q sid (k :: ks) = givenOn nb q' sid ks ∨
        Window.Fresh 32 pre k.2.1.m.tsn.toNat ∧ k.2.1.m.seq.toNat = expected q sid.toNat ∧
          ∃ data, givenOn nb q sid (k :: ks) = data :: givenOn nb q' sid ks) := by
  obtain ⟨q', o, hlinked, hpolled, hall, -⟩ := frames_cons same sid h hpre hk ks
  have hgiven : givenOn nb q sid (k :: ks) =
      (o.toList.filter fun got => got.1 = sid.toNat).map Prod.snd ++ givenOn nb q' sid ks := by
    rw [givenOn, hall, List.filter_append, List.map_append]
    rfl
  refine ⟨q', hlinked, hpolled.heard, fun hne => ?_, fun hsid hfresh hseq hempty => ?_, ?_⟩
  · refine ⟨?_, hpolled.apart hne⟩
    cases o with
    | none => exact hgiven
    | some got =>
      have hgot : got.1 ≠ sid.toNat := by
        rw [hpolled.stream got rfl]
        exact fun heq => hne (UInt16.toNat_inj.mp heq)
      simpa [hgot] using hgiven
  · obtain ⟨rfl, hexp, hempty'⟩ := hpolled.next hfresh hsid hseq hempty
    refine ⟨?_, hexp, hempty'⟩
    simpa using hgiven
  · cases o with
    | none => exact .inl hgiven
    | some got =>
      by_cases hgot : got.1 = sid.toNat
      · have hsid : k.2.1.m.streamId = sid := by
          rw [hpolled.stream got rfl] at hgot
          exact UInt16.toNat_inj.mp hgot
        obtain ⟨hfresh, hseq⟩ := hpolled.given hsid (Option.some_ne_none _)
        exact .inr ⟨hfresh, hseq, got.2, by simpa [hgot] using hgiven⟩
      · exact .inl (by simpa [hgot] using hgiven)

/-- What comes in order and in time is handed on message by message. -/
theorem givenOn_inOrder (same : SameBoxes nb c) (sid : UInt16) (ks : List Arrival)
    (hgen : ∀ k ∈ ks, Genuine c s (!i) k.2.1) {q : Py.Assoc} (h : Linked s i q) {pre : List ℕ} (hpre : Heard q pre)
    (hempty : Emptied q sid.toNat) {j : ℕ} (hexp : expected q sid.toNat = j % 2 ^ 16)
    (hnum : Numbered j (arrivedOn sid ks)) (htime : Timely sid pre ks) :
    givenOn nb q sid ks = (arrivedOn sid ks).map fun x => x.1.m.msg := by
  induction ks generalizing q pre j with
  | nil => rfl
  | cons k ks ih =>
    obtain ⟨q', hlinked, hpre', hapart, hnext, -⟩ := givenOn_cons same sid h hpre (hgen k (.head _)) ks
    have ih' := @ih (fun x hx => hgen x (.tail _ hx)) q' hlinked _ hpre'
    rw [arrivedOn_cons] at hnum ⊢
    by_cases hsid : k.2.1.m.streamId = sid
    · rw [if_pos hsid] at hnum ⊢
      obtain ⟨hseq, hnum'⟩ := numbered_cons.mp hnum
      obtain ⟨hgiven, hexp', hempty'⟩ := hnext hsid (htime.1 hsid) (hseq.trans hexp.symm) hempty
      rw [hexp, Nat.mod_add_mod] at hexp'
      rw [hgiven, List.map_cons, ih' hempty' hexp' hnum' htime.2]
    · rw [if_neg hsid] at hnum ⊢
      obtain ⟨hgiven, hexp', hempty'⟩ := hapart hsid
      rw [hgiven, ih' (hempty' hempty) (hexp'.trans hexp) hnum htime.2]

/-- No arrival is handed on twice. -/
theorem givenOn_length_le (same : SameBoxes nb c) (sid : UInt16) (ks : List Arrival)
    (hgen : ∀ k ∈ ks, Genuine c s (!i) k.2.1) {q : Py.Assoc} (h : Linked s i q) {pre : List ℕ} (hpre : Heard q pre) :
    (givenOn nb q sid ks).length ≤ (arrivedOn sid ks).length := by
  induction ks generalizing q pre with
  | nil => exact Nat.le_refl _
  | cons k ks ih =>
    obtain ⟨q', hlinked, hpre', hapart, -, hgiven⟩ := givenOn_cons same sid h hpre (hgen k (.head _)) ks
    have ih' := ih (fun x hx => hgen x (.tail _ hx)) hlinked hpre'
    rw [arrivedOn_cons]
    by_cases hsid : k.2.1.m.streamId = sid
    · rw [if_pos hsid, List.length_cons]
      rcases hgiven with hgiven | ⟨-, -, data, hgiven⟩
      · rw [hgiven]
        omega
      · rw [hgiven, List.length_cons]
        omega
    · rw [if_neg hsid, (hapart hsid).1]
      exact ih'

/-- Places that increase are apart. -/
theorem place_le {x y : Parcel × ℕ} {xs : List (Parcel × ℕ)} (h : (x :: xs).Pairwise fun a b => a.2 < b.2) {r : ℕ}
    (hy : (x :: xs)[r]? = some y) : x.2 + r ≤ y.2 := by
  induction r generalizing x xs with
  | zero =>
    obtain rfl : x = y := Option.some.inj hy
    exact Nat.le_refl _
  | succ r ih =>
    cases xs with
    | nil => cases hy
    | cons z xs =>
      have hlt : x.2 < z.2 := (List.pairwise_cons.mp h).1 z (.head _)
      have hle := ih (List.pairwise_cons.mp h).2 hy
      omega

/-- Where every message of the stream is handed on, they came in order and in time. -/
theorem inOrder_of_givenOn (same : SameBoxes nb c) (sid : UInt16) (ks : List Arrival)
    (hgen : ∀ k ∈ ks, Genuine c s (!i) k.2.1) {q : Py.Assoc} (h : Linked s i q) {pre : List ℕ} (hpre : Heard q pre)
    (hempty : Emptied q sid.toNat) {j : ℕ} (hexp : expected q sid.toNat = j % 2 ^ 16) {todo : List (Parcel × ℕ)}
    (hperm : (arrivedOn sid ks).Perm todo) (hnum : Numbered j todo) (hsorted : todo.Pairwise fun a b => a.2 < b.2)
    (hnear : (ks.map fun k => k.2.2).Pairwise fun a b => a < b + 32)
    (hall : todo.length ≤ (givenOn nb q sid ks).length) : arrivedOn sid ks = todo ∧ Timely sid pre ks := by
  induction ks generalizing q pre j todo with
  | nil => exact ⟨hperm.nil_eq, trivial⟩
  | cons k ks ih =>
    obtain ⟨q', hlinked, hpre', hapart, hnext, hgiven⟩ := givenOn_cons same sid h hpre (hgen k (.head _)) ks
    have hrest : ∀ x ∈ ks, Genuine c s (!i) x.2.1 := fun x hx => hgen x (.tail _ hx)
    have hle := givenOn_length_le same sid ks hrest hlinked hpre'
    obtain ⟨hnear0, hnear'⟩ := List.pairwise_cons.mp hnear
    rw [arrivedOn_cons] at hperm ⊢
    by_cases hsid : k.2.1.m.streamId = sid
    · rw [if_pos hsid] at hperm ⊢
      have hlen := hperm.length_eq
      rw [List.length_cons] at hlen
      obtain ⟨hfresh, hseq⟩ : Window.Fresh 32 pre k.2.1.m.tsn.toNat ∧ k.2.1.m.seq.toNat = expected q sid.toNat := by
        rcases hgiven with hgiven | ⟨hfresh, hseq, -⟩
        · rw [hgiven] at hall
          omega
        · exact ⟨hfresh, hseq⟩
      obtain ⟨hgiven', hexp', hempty'⟩ := hnext hsid hfresh hseq hempty
      rw [hexp, Nat.mod_add_mod] at hexp'
      rw [hgiven', List.length_cons] at hall
      cases todo with
      | nil => cases hperm.eq_nil
      | cons x todo =>
        -- the number of `k` says which message of the stream it is, up to 2^16
        have hkx : k.2 = x := by
          obtain ⟨r, hr⟩ := List.getElem?_of_mem (hperm.subset (.head _))
          have hseq' := hnum r k.2 hr
          have hplace := place_le hsorted hr
          by_contra hne
          have hx : x ∈ arrivedOn sid ks :=
            (List.mem_cons.mp (hperm.symm.subset (.head _))).resolve_left fun heq => hne heq.symm
          obtain ⟨kx, hkx, rfl⟩ := List.mem_map.mp (List.mem_of_mem_filter hx)
          have hlt : k.2.2 < kx.2.2 + 32 := hnear0 kx.2.2 (List.mem_map.mpr ⟨kx, hkx, rfl⟩)
          have hzero : r = 0 := by omega
          subst hzero
          exact hne (Option.some.inj hr).symm
        subst hkx
        obtain ⟨heq, htime⟩ := ih hrest hlinked hpre' hempty' hexp' (List.Perm.cons_inv hperm)
          (numbered_cons.mp hnum).2 (List.pairwise_cons.mp hsorted).2 hnear' (by
            rw [List.length_cons] at hall
            omega)
        exact ⟨by rw [heq], fun _ => hfresh, htime⟩
    · rw [if_neg hsid] at hperm ⊢
      obtain ⟨hgiven', hexp', hempty'⟩ := hapart hsid
      obtain ⟨heq, htime⟩ := ih hrest hlinked hpre' (hempty' hempty) (hexp'.trans hexp) hperm hnum hsorted hnear'
        (hgiven' ▸ hall)
      exact ⟨heq, fun h => absurd h hsid, htime⟩

structure Send where
  io : Py.Io
  sid : UInt16
  data : Bytes

/-- Each message that `data_send` takes, with its numbers and its frame. -/
def sendAll (nb : Py.PyBox) : Py.Assoc → List Send → List Parcel
  | _, [] => []
  | a, x :: xs =>
    let r := Py.dataSend nb.toPyNaCl x.io a x.sid.toNat x.data
    let m : Icsp.DataMsg := ⟨.ofNat a.nextTsn, x.sid, .ofNat (Py.stream a.streams x.sid.toNat).2.sendSeq, x.data⟩
    r.2.1.map (Parcel.mk m) ++ sendAll nb r.1 xs

/-- The messages of the stream and their places, from `k` on. -/
def sentOn (sid : UInt16) (sent : List Parcel) (k : ℕ) : List (Parcel × ℕ) := onStream sid (sent.zipIdx k)

theorem sentOn_cons (sid : UInt16) (x : Parcel) (sent : List Parcel) (k : ℕ) :
    sentOn sid (x :: sent) k = if x.m.streamId = sid then (x, k) :: sentOn sid sent (k + 1) else sentOn sid sent (k + 1) := by
  rw [sentOn, onStream, List.zipIdx_cons, List.filter_cons]
  simp only [decide_eq_true_eq]
  rfl

theorem sentOn_sorted (sid : UInt16) (sent : List Parcel) (k : ℕ) :
    (sentOn sid sent k).Pairwise fun a b => a.2 < b.2 := by
  refine List.Pairwise.filter _ ?_
  have h : (List.range' k sent.length).Pairwise (· < ·) := List.pairwise_lt_range'
  rw [← List.zipIdx_map_snd] at h
  exact List.pairwise_map.mp h

/-- What leaves is genuine, and numbered by stream. -/
theorem sendAll_sent (same : SameBoxes nb c) (sid : UInt16) (xs : List Send) {a : Py.Assoc} {v : Counters}
    (h : PyReads s i a v) {j : ℕ} (hj : (v.sendSeq sid).toNat = j % 2 ^ 16) (k : ℕ) :
    (∀ x ∈ sendAll nb a xs, Genuine c s i x) ∧ Numbered j (sentOn sid (sendAll nb a xs) k) := by
  induction xs generalizing a v j k with
  | nil => exact ⟨fun _ hx => (nomatch hx), fun _ _ hx => (nomatch hx)⟩
  | cons x xs ih =>
    rw [sendAll]
    rcases dataSend_reads same.toSamePrimitives h x.io x.sid x.data with
      ⟨frame, hframes, hframe, hfit, hsent⟩ | ⟨hframes, -, n, -, -, hkept⟩
    · have hm : (⟨.ofNat a.nextTsn, x.sid, .ofNat (Py.stream a.streams x.sid.toNat).2.sendSeq, x.data⟩ : Icsp.DataMsg) =
          v.msg x.sid x.data := by
        have htsn : UInt32.ofNat a.nextTsn = .ofNat v.next := by
          rw [h.nextTsn]
          exact UInt32.toNat_inj.mp (by simp)
        rw [htsn, h.sendSeq, UInt16.ofNat_toNat]
        rfl
      simp only [hframes, hm, List.map_cons, List.map_nil, List.singleton_append]
      have hnext : ((v.sent x.sid).sendSeq sid).toNat = (if x.sid = sid then j + 1 else j) % 2 ^ 16 := by
        simp only [Counters.sent, bump]
        by_cases hsid : x.sid = sid
        · rw [if_pos hsid, if_pos hsid.symm, UInt16.toNat_add, hj]
          exact Nat.mod_add_mod j (2 ^ 16) 1
        · rw [if_neg hsid, if_neg fun h => hsid h.symm, hj]
      obtain ⟨hgen, hnum⟩ := ih hsent hnext (k + 1)
      refine ⟨fun y hy => ?_, ?_⟩
      · rcases List.mem_cons.mp hy with rfl | hy
        · exact ⟨hframe, hfit⟩
        · exact hgen y hy
      · rw [sentOn_cons]
        have hsid : (v.msg x.sid x.data).streamId = x.sid := rfl
        rw [hsid]
        split
        · rename_i heq
          subst heq
          rw [if_pos rfl] at hnum
          exact numbered_cons.mpr ⟨hj, hnum⟩
        · rename_i hne
          rw [if_neg hne] at hnum
          exact hnum
    · simp only [hframes, List.map_nil, List.nil_append]
      exact ih hkept hj k

/-- What an application is to have of the stream after the arrivals `p`: its messages up to the first
one that is missing. -/
def due (sid : UInt16) (sent : List Parcel) (p : List Arrival) : List Bytes :=
  ((sentOn sid sent 0).takeWhile fun x => x.2 ∈ p.map fun k => k.2.2).map fun x => x.1.m.msg

/-- At every point of the arrivals `handle` has handed on what is due, one message a time, and so would
`recv_record`. -/
def Released (nb : Py.PyBox) (q : Py.Assoc) (sid : UInt16) (sent : List Parcel) (ks : List Arrival) : Prop :=
  ∀ p r, ks = p ++ r → givenOn nb q sid p = due sid sent p ∧
    (sid.toNat = Py.streamData → recvRecords nb p.length q (frames p) = due sid sent p)

theorem timely_append {sid : UInt16} {pre : List ℕ} {p r : List Arrival} (h : Timely sid pre (p ++ r)) :
    Timely sid pre p := by
  induction p generalizing pre with
  | nil => trivial
  | cons k p ih => exact ⟨h.1, ih h.2⟩

theorem mem_arrivedOn {sid : UInt16} {ks : List Arrival} {x : Parcel × ℕ} (h : x ∈ arrivedOn sid ks) :
    x.2 ∈ ks.map fun k => k.2.2 := by
  obtain ⟨k, hk, rfl⟩ := List.mem_map.mp (List.mem_of_mem_filter h)
  exact List.mem_map.mpr ⟨k, hk, rfl⟩

theorem arrivedOn_append (sid : UInt16) (p r : List Arrival) :
    arrivedOn sid (p ++ r) = arrivedOn sid p ++ arrivedOn sid r := by
  rw [arrivedOn, List.map_append, onStream, List.filter_append]
  rfl

theorem due_append {sid : UInt16} {sent : List Parcel} {p r : List Arrival}
    (h : sentOn sid sent 0 = arrivedOn sid p ++ arrivedOn sid r)
    (hnodup : ((p ++ r).map fun k => k.2.2).Nodup) :
    due sid sent p = (arrivedOn sid p).map fun x => x.1.m.msg := by
  rw [due, h, List.takeWhile_append_of_pos fun x hx => decide_eq_true (mem_arrivedOn hx)]
  have hrest : ((arrivedOn sid r).takeWhile fun x => x.2 ∈ p.map fun k => k.2.2) = [] := by
    cases hr : arrivedOn sid r with
    | nil => rfl
    | cons x xs =>
      have hx : x ∈ arrivedOn sid r := by
        rw [hr]
        exact .head _
      rw [List.map_append] at hnodup
      have hnot : x.2 ∉ p.map fun k => k.2.2 := fun hp => List.disjoint_of_nodup_append hnodup hp (mem_arrivedOn hx)
      rw [List.takeWhile_cons, decide_eq_false hnot]
      rfl
  rw [hrest, List.append_nil]

/-- The messages of a stream are released exactly where they arrive in the order in which they were sent, each
of them while it is fresh for the window. -/
theorem released_iff (same : SameBoxes nb c) {a : Py.Assoc} {tq ta : UInt32} (hq : PyReads s i q (.new tq))
    (ha : PyReads s (!i) a (.new ta)) (xs : List Send) (ks : List Arrival)
    (hperm : (ks.map Prod.snd).Perm (sendAll nb a xs).zipIdx)
    (hnear : (ks.map fun k => k.2.2).Pairwise fun x y => x < y + 32) (sid : UInt16) :
    Released nb q sid (sendAll nb a xs) ks ↔
      ((arrivedOn sid ks).Pairwise fun x y => x.2 < y.2) ∧ Timely sid [] ks := by
  have hlinked : Linked s i q := { hq with
    nextTsn := rfl, sendSeq := fun _ => rfl, recvSeq := fun _ => rfl, rcvbuf := rfl, window := .inl ⟨rfl, rfl⟩ }
  have hheard : Heard q [] := by
    refine ⟨[], ?_, .refl _⟩
    rcases hq.window with ⟨htsn, hmask⟩ | hlow
    · rw [htsn, hmask]
      exact Window.tracks_empty (by decide)
    · exact absurd hlow (Nat.not_lt_zero _)
  have hempty : Emptied q sid.toNat := by
    rw [Emptied, hq.rcvbuf]
    rfl
  have hexp : expected q sid.toNat = 0 % 2 ^ 16 := hq.recvSeq sid
  obtain ⟨hsent, hnum⟩ := sendAll_sent same sid xs ha rfl 0
  have hgen : ∀ k ∈ ks, Genuine c s (!i) k.2.1 := fun k hk =>
    hsent _ (List.fst_mem_of_mem_zipIdx (hperm.subset (List.mem_map.mpr ⟨k, hk, rfl⟩)))
  have hon : (arrivedOn sid ks).Perm (sentOn sid (sendAll nb a xs) 0) := hperm.filter _
  have hsorted := sentOn_sorted sid (sendAll nb a xs) 0
  constructor
  · intro hreleased
    have hdue : (due sid (sendAll nb a xs) ks).length = (sentOn sid (sendAll nb a xs) 0).length := by
      have hall : ((sentOn sid (sendAll nb a xs) 0).takeWhile fun x => x.2 ∈ ks.map fun k => k.2.2) =
          sentOn sid (sendAll nb a xs) 0 :=
        List.takeWhile_eq_self_iff.mpr fun x hx => decide_eq_true (mem_arrivedOn (hon.mem_iff.mpr hx))
      rw [due, List.length_map, hall]
    obtain ⟨heq, htime⟩ := inOrder_of_givenOn same sid ks hgen hlinked hheard hempty hexp hon hnum hsorted hnear
      (by rw [(hreleased ks [] (List.append_nil ks).symm).1, hdue])
    exact ⟨heq ▸ hsorted, htime⟩
  · rintro ⟨horder, htime⟩ p r rfl
    have heq : arrivedOn sid (p ++ r) = sentOn sid (sendAll nb a xs) 0 :=
      hon.eq_of_pairwise (fun x y _ _ hxy hyx => absurd hxy (Nat.lt_asymm hyx)) horder hsorted
    rw [arrivedOn_append] at heq
    have hnodup : ((p ++ r).map fun k => k.2.2).Nodup := by
      have hindex := hperm.map Prod.snd
      rw [List.zipIdx_map_snd, List.map_map] at hindex
      exact hindex.nodup_iff.mpr List.nodup_range'
    have hnum' : Numbered 0 (arrivedOn sid p) := fun n x hx => by
      refine hnum n x ?_
      rw [← heq, List.getElem?_append_left (List.getElem?_eq_some_iff.mp hx).1, hx]
    have hgiven := givenOn_inOrder same sid p (fun k hk => hgen k (List.mem_append_left _ hk)) hlinked hheard
      hempty hexp hnum' (timely_append htime)
    have hdue := hgiven.trans (due_append heq.symm hnodup).symm
    refine ⟨hdue, fun hsid => ?_⟩
    rw [recvRecords_eq same hsid p (fun k hk => hgen k (List.mem_append_left _ hk)) hlinked hheard le_rfl, hdue]

/-- Two messages of the toy session on the stream of the records. -/
def toySends : List Send := [[65], [66]].map (Send.mk ((toyCircumstances 1).py 0) 1)

def toySent : List Parcel := sendAll toyBox (freshPy toySession false 1) toySends

def toyArrivals (order : List ℕ) : List Arrival :=
  order.filterMap fun k => toySent[k]?.map fun x => ((toyCircumstances 1).py 0, x, k)

theorem released_in_order : Released toyBox (freshPy toySession true 1) 1 toySent (toyArrivals [0, 1]) := by
  have hreads (i : Bool) : PyReads toySession i (freshPy toySession i 1) (.new 1) :=
    @freshState_reads toyBox toyNaCl (toyCircumstances 1) toySession i 1 .python
  have hperm : ((toyArrivals [0, 1]).map Prod.snd).Perm
      (sendAll toyBox (freshPy toySession false 1) toySends).zipIdx := by decide +kernel
  have hnear : ((toyArrivals [0, 1]).map fun k => k.2.2).Pairwise fun x y => x < y + 32 := by decide +kernel
  have hcond : ((arrivedOn 1 (toyArrivals [0, 1])).Pairwise fun x y => x.2 < y.2) ∧ Timely 1 [] (toyArrivals [0, 1]) := by
    decide +kernel
  exact (released_iff toyBox_same (hreads true) (hreads false) toySends (toyArrivals [0, 1]) hperm hnear 1).mpr hcond

/-- Two messages that change places come as one. -/
theorem swapped_messages_glued :
    ((toyArrivals [1, 0]).map Prod.snd).Perm toySent.zipIdx ∧
      ((toyArrivals [1, 0]).map fun k => k.2.2).Pairwise (fun x y => x < y + 32) ∧
      givenOn toyBox (freshPy toySession true 1) 1 (toyArrivals [1, 0]) = [[65, 66]] ∧
      recvRecords toyBox 2 (freshPy toySession true 1) (frames (toyArrivals [1, 0])) = [[65, 66]] ∧
      due 1 toySent (toyArrivals [1, 0]) = [[65], [66]] ∧
      ¬ Released toyBox (freshPy toySession true 1) 1 toySent (toyArrivals [1, 0]) := by
  have hgiven : givenOn toyBox (freshPy toySession true 1) 1 (toyArrivals [1, 0]) = [[65, 66]] := by decide +kernel
  have hdue : due 1 toySent (toyArrivals [1, 0]) = [[65], [66]] := by decide +kernel
  refine ⟨by decide +kernel, by decide +kernel, hgiven, by decide +kernel, hdue, fun h => ?_⟩
  have heq := (h _ [] (List.append_nil _).symm).1
  rw [hgiven, hdue] at heq
  cases heq

end Interop
