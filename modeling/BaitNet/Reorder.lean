import BaitNet.Ordered

/-!
# The reorder buffer

A handful of messages of one stream reach a fresh receiver in some order. What
does not come in order goes into `rcvq`, and no operation takes it out again: all
messages are handed on only if each of them arrives when it is awaited.
-/
namespace Icsp

open Wire Crypto Runs

/-- Message `i` of a stream, with the sequence number `i` and the TSN `t0 + i`. -/
def numberedMsg (t0 : UInt32) (sid : UInt16) (msgs : List Bytes) (i : Nat) : DataMsg :=
  ⟨t0 + .ofNat i, sid, .ofNat i, msgs.getD i []⟩

/-- One arrival: which message, what follows it in the receive buffer and the room
for the caller's copy. -/
structure Arrival where
  idx : Nat
  stale : Bytes
  outlen : Nat

variable (c : TweetNaCl)

def Arrival.call (src : Nat → IcspAssoc) (t0 : UInt32) (sid : UInt16) (msgs : List Bytes)
    (v : Arrival) : RxCall :=
  (numberedMsg t0 sid msgs v.idx).rx c (src v.idx) v.stale v.outlen

/-- A receiver handles one call after the other. -/
def recvAll (y : Peer) (calls : List RxCall) : Peer := run (fun y p => y.recv c p) y calls

/-- After the calls, and possibly more calls that repeat them or do not authenticate,
the caller has every message once and in order and nothing waits in `rcvq`. -/
def Released (y : Peer) (sid : UInt16) (msgs : List Bytes) (calls : List RxCall) : Prop :=
  ∃ later : List RxCall,
    (∀ p ∈ later, p ∈ calls ∨ Unauthentic c y.assoc p.payload p.plen) ∧
    (recvAll c y (calls ++ later)).got = msgs.map (fun m => (sid, m)) ∧
    (recvAll c y (calls ++ later)).assoc.rcvq = []

/-- The frames of at most `ICSP_RCVQ` messages of one stream reach a fresh receiver,
each once, in any order; every message fits both ends. -/
structure Reordering (b : IcspAssoc) (src : Nat → IcspAssoc) (msgs : List Bytes)
    (arrivals : List Arrival) : Prop where
  hasKey : b.hasKey = true
  fresh : b.toDataPlane = { DataPlane.zero with nextTsn := b.nextTsn }
  assocId : ∀ i, (src i).assocId = b.assocId
  key : ∀ i, (src i).sendKey = b.recvKey
  few : msgs.length ≤ icspRcvq
  fits : ∀ m ∈ msgs, m.length ≤ maxOpenable
  room : ∀ v ∈ arrivals, (msgs.getD v.idx []).length ≤ v.outlen
  perm : (arrivals.map (·.idx)).Perm (List.range msgs.length)

variable {c} {b : IcspAssoc} {src : Nat → IcspAssoc} {t0 : UInt32} {sid : UInt16} {msgs : List Bytes}
variable {arrivals : List Arrival}

theorem Reordering.idx_lt (h : Reordering b src msgs arrivals) {v : Arrival} (hv : v ∈ arrivals) :
    v.idx < msgs.length :=
  List.mem_range.mp (h.perm.mem_iff.mp (List.mem_map_of_mem hv))

theorem Reordering.fits_getD (h : Reordering b src msgs arrivals) (i : Nat) :
    (msgs.getD i []).length ≤ maxOpenable := by
  by_cases hi : i < msgs.length
  · rw [List.getD_eq_getElem _ _ hi]
    exact h.fits _ (List.getElem_mem hi)
  · rw [List.getD_eq_default _ _ (by omega)]
    exact Nat.zero_le _

/-- A receiver that still has the keys of `b`. -/
def SameKeys (b a : IcspAssoc) : Prop := a.toKeyState = b.toKeyState ∧ a.assocId = b.assocId

theorem SameKeys.recv {y : Peer} (h : SameKeys b y.assoc) (p : RxCall) :
    SameKeys b (y.recv c p).assoc := by
  obtain ⟨d, hd⟩ := (handleCall_keeps c y.assoc p).dataPlane
  have hy : (y.recv c p).assoc = { y.assoc with toDataPlane := d } := hd
  rw [hy]
  exact h

theorem SameKeys.unauthentic {a : IcspAssoc} (h : SameKeys b a) {payload : Bytes} {plen : Nat}
    (hu : Unauthentic c b payload plen) : Unauthentic c a payload plen := by
  intro ch hmem hd
  rw [openData_congr c ch h.2 (congrArg KeyState.recvKey h.1)]
  exact hu ch hmem hd

/-- The outcome of an arrival. -/
theorem Reordering.outcome (h : Reordering b src msgs arrivals) (t0 : UInt32) (sid : UInt16)
    {y : Peer} (hy : SameKeys b y.assoc) (v : Arrival) :
    RxOutcome y.assoc (numberedMsg t0 sid msgs v.idx) v.outlen
      (handleCall c y.assoc (v.call c src t0 sid msgs)) := by
  have hfit : (numberedMsg t0 sid msgs v.idx).msg.length ≤ maxSendable := by
    have := h.fits_getD v.idx
    simp only [numberedMsg, maxOpenable, maxSendable] at this ⊢
    omega
  exact handleCall_outcome c _ v.stale v.outlen
    ((congrArg KeyState.hasKey hy.1).trans h.hasKey) (hy.2.trans (h.assocId _).symm)
    ((congrArg KeyState.recvKey hy.1).trans (h.key _).symm) hfit

theorem rxOutcome_seen {m : DataMsg} {outlen : Nat} {a : IcspAssoc} {res : IcspAssoc × DataRet}
    (h : RxOutcome a m outlen res) :
    TsnSeen res.1 m.tsn ∧ ∀ u, TsnSeen a u → TsnSeen res.1 u := by
  cases h with
  | seen hs => exact ⟨hs, fun _ hu => hu⟩
  | lost w hw hlong =>
    obtain ⟨-, hrec, hmono⟩ := replayWindow_some hw
    exact ⟨hrec, hmono⟩
  | delivered w ss hw hfit hseq hrecv hsend =>
    obtain ⟨-, hrec, hmono⟩ := replayWindow_some hw
    exact ⟨hrec, hmono⟩
  | noSlot w hw hfit hslot =>
    obtain ⟨-, hrec, hmono⟩ := replayWindow_some hw
    exact ⟨hrec, hmono⟩
  | buffered w ss hw hfit hseq hrecv hsend =>
    obtain ⟨-, hrec, hmono⟩ := replayWindow_some hw
    exact ⟨hrec, hmono⟩

/-- After a list of arrivals, each of their TSNs is refused. -/
theorem Reordering.all_seen (h : Reordering b src msgs arrivals) (t0 : UInt32) (sid : UInt16)
    (vs : List Arrival) (y : Peer) (hy : SameKeys b y.assoc) :
    SameKeys b (recvAll c y (vs.map (·.call c src t0 sid msgs))).assoc ∧
      (∀ u, TsnSeen y.assoc u → TsnSeen (recvAll c y (vs.map (·.call c src t0 sid msgs))).assoc u) ∧
      ∀ v ∈ vs, TsnSeen (recvAll c y (vs.map (·.call c src t0 sid msgs))).assoc
        (numberedMsg t0 sid msgs v.idx).tsn := by
  induction vs generalizing y with
  | nil => exact ⟨hy, fun _ hu => hu, fun _ hv => nomatch hv⟩
  | cons v vs ih =>
    obtain ⟨hrec, hmono⟩ := rxOutcome_seen (h.outcome (c := c) t0 sid hy v)
    obtain ⟨hkeys, hmono', hall⟩ := ih (y.recv c (v.call c src t0 sid msgs)) (hy.recv _)
    refine ⟨hkeys, fun u hu => hmono' u (hmono u hu), ?_⟩
    intro v' hv'
    rcases List.mem_cons.mp hv' with rfl | hmem
    · exact hmono' _ hrec
    · exact hall v' hmem

/-- Repeated and foreign calls hand nothing on. -/
theorem Reordering.later (h : Reordering b src msgs arrivals) (later : List RxCall) (y : Peer)
    (hy : SameKeys b y.assoc)
    (hseen : ∀ v ∈ arrivals, TsnSeen y.assoc (numberedMsg t0 sid msgs v.idx).tsn)
    (hl : ∀ p ∈ later, p ∈ arrivals.map (·.call c src t0 sid msgs) ∨
      Unauthentic c b p.payload p.plen) :
    (recvAll c y later).got = y.got := by
  induction later generalizing y with
  | nil => rfl
  | cons p later ih =>
    have hone : (y.recv c p).got = y.got ∧ ∀ u, TsnSeen y.assoc u → TsnSeen (y.recv c p).assoc u := by
      rcases hl p List.mem_cons_self with hmem | hu
      · obtain ⟨v, hv, rfl⟩ := List.mem_map.mp hmem
        have hout := h.outcome (c := c) t0 sid hy v
        generalize hx : handleCall c y.assoc (v.call c src t0 sid msgs) = res at hout
        cases hout with
        | seen hs =>
          rw [Peer.recv_nothing hx le_rfl]
          exact ⟨rfl, fun _ hu => hu⟩
        | lost w hw => exact absurd (hseen v hv) (replayWindow_some hw).1
        | delivered w ss hw => exact absurd (hseen v hv) (replayWindow_some hw).1
        | noSlot w hw => exact absurd (hseen v hv) (replayWindow_some hw).1
        | buffered w ss hw => exact absurd (hseen v hv) (replayWindow_some hw).1
      · have hk : y.assoc.hasKey = true := (congrArg KeyState.hasKey hy.1).trans h.hasKey
        obtain ⟨t, k, q, hst, hret, -, -, -, hmono⟩ :=
          handleCall_unauth c y.assoc p hk (hy.unauthentic hu)
        rw [Peer.recv_nothing (a := { y.assoc with rwTsn := t, rwMask := k, sendq := q })
          (by rw [← hst]) hret]
        exact ⟨rfl, hmono⟩
    have hrest := ih (y.recv c p) (hy.recv p) (fun v hv => hone.2 _ (hseen v hv))
      (fun p' hp' => hl p' (List.mem_cons_of_mem _ hp'))
    exact hrest.trans hone.1

/-- The first `j` messages were handed on and nothing else happened. -/
structure InOrder (b : IcspAssoc) (t0 : UInt32) (sid : UInt16) (msgs : List Bytes) (y : Peer)
    (j : Nat) : Prop where
  keys : SameKeys b y.assoc
  recvSeq : recvSeq y.assoc sid = .ofNat j
  got : y.got = (msgs.take j).map (fun m => (sid, m))
  rcvq : y.assoc.rcvq = []
  window : (j = 0 ∧ y.assoc.rwTsn = 0 ∧ y.assoc.rwMask = 0 ∧ y.assoc.streams = []) ∨
    (0 < j ∧ y.assoc.rwTsn.toNat + 1 = t0.toNat + j)

theorem tsn_toNat {t0 : UInt32} {i : Nat} (h : t0.toNat + i < 2 ^ 32) :
    (t0 + .ofNat i).toNat = t0.toNat + i := by
  rw [UInt32.toNat_add, UInt32.toNat_ofNat', Nat.mod_eq_of_lt (by omega : i < 2 ^ 32),
    Nat.mod_eq_of_lt h]

/-- The awaited message is new to the window unless the TSNs wrapped. -/
theorem InOrder.seen_iff {y : Peer} {j : Nat} (h : InOrder b t0 sid msgs y j) (hj : j < 2 ^ 16) :
    TsnSeen y.assoc (t0 + .ofNat j) ↔ 2 ^ 32 ≤ t0.toNat + j := by
  have hlt := t0.toNat_lt
  rcases h.window with ⟨rfl, htop, hmask, -⟩ | ⟨hpos, htop⟩
  · have h0 : (t0 + .ofNat 0) = t0 := by simp
    rw [TsnSeen, htop, hmask, h0, Window.Seen]
    simp only [UInt32.toNat_zero, Nat.zero_testBit]
    constructor
    · rintro ⟨hle, hbit⟩
      exact absurd (hbit (by omega)) (by simp)
    · intro hwrap
      omega
  · have htoplt := y.assoc.rwTsn.toNat_lt
    by_cases hwrap : t0.toNat + j < 2 ^ 32
    · rw [TsnSeen, tsn_toNat hwrap, Window.Seen]
      constructor
      · rintro ⟨hle, -⟩
        omega
      · intro hge
        omega
    · have hzero : (t0 + .ofNat j).toNat = 0 := by
        rw [UInt32.toNat_add, UInt32.toNat_ofNat', Nat.mod_eq_of_lt (by omega : j < 2 ^ 32)]
        omega
      rw [TsnSeen, hzero, Window.Seen]
      constructor
      · exact fun _ => by omega
      · exact fun _ => ⟨Nat.zero_le _, fun hnear => by omega⟩

/-- There is always a slot: the stream has one, or none is taken. -/
theorem InOrder.slot {y : Peer} {j : Nat} (h : InOrder b t0 sid msgs y j) (hj : j < 2 ^ 16) :
    (getStream y.assoc sid).2 ≠ none := by
  intro hnone
  cases hfind : findStream y.assoc sid with
  | some s =>
    rw [getStream, hfind] at hnone
    cases hnone
  | none =>
    rcases h.window with ⟨-, -, -, hempty⟩ | ⟨hpos, -⟩
    · rw [getStream, hfind] at hnone
      simp only [hempty, List.length_nil, icspMaxStreams] at hnone
      cases hnone
    · have hseq := congrArg UInt16.toNat h.recvSeq
      rw [Icsp.recvSeq, hfind, UInt16.toNat_ofNat', Nat.mod_eq_of_lt hj] at hseq
      have hzero : j = 0 := hseq.symm
      omega

/-- A call hands on one message at most. -/
theorem recv_got_le (y : Peer) (p : RxCall) : (y.recv c p).got.length ≤ y.got.length + 1 := by
  rw [Peer.recv]
  dsimp only
  split
  · rw [List.length_append, List.length_singleton]
  · omega

/-- The call for `v` hands on a message. -/
def Delivers (c : TweetNaCl) (y : Peer) (p : RxCall) : Prop :=
  (y.recv c p).got.length = y.got.length + 1

instance (y : Peer) (p : RxCall) : Decidable (Delivers c y p) :=
  inferInstanceAs (Decidable (_ = _))

/-- It does so exactly when `v` is the awaited message, not empty, and its TSN did
not wrap. -/
theorem InOrder.delivers_iff (h : Reordering b src msgs arrivals) {y : Peer} {j : Nat}
    (hi : InOrder b t0 sid msgs y j) (hj : j < msgs.length) {v : Arrival} (hv : v ∈ arrivals) :
    (Delivers c y (v.call c src t0 sid msgs) ↔
      v.idx = j ∧ t0.toNat + j < 2 ^ 32 ∧ msgs.getD j [] ≠ []) ∧
    (Delivers c y (v.call c src t0 sid msgs) →
      InOrder b t0 sid msgs (y.recv c (v.call c src t0 sid msgs)) (j + 1)) := by
  have hfew := h.few
  have hvlt := h.idx_lt hv
  simp only [icspRcvq] at hfew
  have hseqiff : (numberedMsg t0 sid msgs v.idx).seq = Icsp.recvSeq y.assoc sid ↔ v.idx = j := by
    rw [hi.recvSeq, ← UInt16.toNat_inj]
    simp only [numberedMsg, UInt16.toNat_ofNat']
    omega
  have hseen := hi.seen_iff (by omega)
  have hkeys := hi.keys.recv (c := c) (v.call c src t0 sid msgs)
  have hout := h.outcome (c := c) t0 sid hi.keys v
  have hfits := h.fits_getD v.idx
  generalize hx : handleCall c y.assoc (v.call c src t0 sid msgs) = res at hout
  -- every outcome but one hands nothing on
  have hnot : (y.recv c (v.call c src t0 sid msgs)).got = y.got →
      ¬ Delivers c y (v.call c src t0 sid msgs) := by
    intro heq hd
    rw [Delivers, heq] at hd
    omega
  cases hout with
  | seen hs =>
    have hno := hnot (by rw [Peer.recv_nothing hx le_rfl])
    refine ⟨⟨fun hd => absurd hd hno, ?_⟩, fun hd => absurd hd hno⟩
    rintro ⟨rfl, hwrap, -⟩
    have := hseen.mp hs
    omega
  | lost w hw hlong =>
    exact absurd hlong (by simp only [numberedMsg]; omega)
  | noSlot w hw hfit hslot => exact absurd hslot (hi.slot (by omega))
  | buffered w ss hw hfit hseq hrecv hsend =>
    have hno := hnot (by rw [Peer.recv_nothing hx le_rfl])
    exact ⟨⟨fun hd => absurd hd hno, fun hc => absurd (hseqiff.mpr hc.1) hseq⟩,
      fun hd => absurd hd hno⟩
  | delivered w ss hw hfit hseq hrecv hsend =>
    have hidx : v.idx = j := hseqiff.mp hseq
    have hroom := h.room v hv
    obtain ⟨hnew, -, -⟩ := replayWindow_some hw
    have hnowrap : t0.toNat + j < 2 ^ 32 := by
      by_contra hwrap
      refine hnew ?_
      rw [numberedMsg, hidx]
      exact hseen.mpr (by omega)
    have hmin : min v.outlen (numberedMsg t0 sid msgs v.idx).msg.length =
        (msgs.getD j []).length := by
      simp only [numberedMsg, ← hidx]
      exact Nat.min_eq_right hroom
    rw [hmin] at hx
    by_cases hempty : msgs.getD j [] = []
    · have hno := hnot (by
        rw [Peer.recv_nothing hx]
        simp only [hempty, List.length_nil]
        exact le_rfl)
      exact ⟨⟨fun hd => absurd hd hno, fun hc => absurd hempty hc.2.2⟩, fun hd => absurd hd hno⟩
    · have hpos : 0 < (msgs.getD j []).length := List.length_pos_iff.mpr hempty
      have hrecv' := Peer.recv_message (c := c) hx (by simpa using hpos)
      have hd : Delivers c y (v.call c src t0 sid msgs) := by
        rw [Delivers, hrecv', List.length_append, List.length_singleton]
      refine ⟨⟨fun _ => ⟨hidx, hnowrap, hempty⟩, fun _ => hd⟩, fun _ => ?_⟩
      have hget : msgs.getD j [] = msgs[j] := List.getD_eq_getElem _ _ hj
      have htop := replayWindow_top hw
      have htsn : (numberedMsg t0 sid msgs v.idx).tsn.toNat = t0.toNat + j := by
        rw [numberedMsg, hidx]
        exact tsn_toNat hnowrap
      have hmsg : (numberedMsg t0 sid msgs v.idx).msg.take (msgs.getD j []).length = msgs[j] := by
        rw [numberedMsg, hidx, List.take_length, hget]
      rw [hmsg] at hrecv'
      exact
        { keys := hkeys
          recvSeq := by
            rw [hrecv']
            show Icsp.recvSeq { y.assoc with streams := ss } sid = _
            have hon := hrecv sid
            simp only [numberedMsg, if_true, hi.recvSeq] at hon
            rw [hon, UInt16.ofNat_add, UInt16.ofNat_one]
          got := by
            rw [hrecv', hi.got, List.take_succ_eq_append_getElem hj, List.map_append]
            rfl
          rcvq := by
            rw [hrecv']
            exact hi.rcvq
          window := by
            refine .inr ⟨Nat.succ_pos j, ?_⟩
            rw [hrecv']
            show w.1.toNat + 1 = _
            rw [htop, htsn]
            rcases hi.window with ⟨rfl, hz, -, -⟩ | ⟨hpos, hz⟩
            · rw [hz]
              simp
            · omega }

/-- All arrivals of a list hand on a message exactly when they come in order. -/
theorem InOrder.along_iff (h : Reordering b src msgs arrivals) (vs : List Arrival) (y : Peer) (j : Nat)
    (hi : InOrder b t0 sid msgs y j) (hvs : ∀ v ∈ vs, v ∈ arrivals) (hlen : j + vs.length ≤ msgs.length) :
    (Along (fun y p => y.recv c p) (Delivers c) y (vs.map (·.call c src t0 sid msgs)) ↔
      vs.map (·.idx) = List.range' j vs.length ∧
        ∀ k, j ≤ k → k < j + vs.length → t0.toNat + k < 2 ^ 32 ∧ msgs.getD k [] ≠ []) ∧
    (Along (fun y p => y.recv c p) (Delivers c) y (vs.map (·.call c src t0 sid msgs)) →
      InOrder b t0 sid msgs (recvAll c y (vs.map (·.call c src t0 sid msgs))) (j + vs.length)) := by
  induction vs generalizing y j with
  | nil =>
    refine ⟨⟨fun _ => ⟨rfl, fun k hk hlt => absurd hlt (by simpa using hk)⟩, fun _ => trivial⟩, ?_⟩
    exact fun _ => hi
  | cons v vs ih =>
    rw [List.length_cons] at hlen
    obtain ⟨hiff, hnext⟩ := hi.delivers_iff (c := c) h (by omega) (hvs v List.mem_cons_self)
    have hrest := fun hd => ih (y.recv c (v.call c src t0 sid msgs)) (j + 1) (hnext hd)
      (fun v' hv' => hvs v' (List.mem_cons_of_mem _ hv')) (by omega)
    refine ⟨⟨?_, ?_⟩, ?_⟩
    · rintro ⟨hd, ha⟩
      obtain ⟨hidx, hwrap, hne⟩ := hiff.mp hd
      obtain ⟨hids, hall⟩ := (hrest hd).1.mp ha
      refine ⟨?_, ?_⟩
      · rw [List.map_cons, List.length_cons, List.range'_succ, hidx, hids]
      · intro k hk hlt
        rw [List.length_cons] at hlt
        by_cases hkj : k = j
        · subst hkj
          exact ⟨hwrap, hne⟩
        · exact hall k (by omega) (by omega)
    · rintro ⟨hids, hall⟩
      rw [List.map_cons, List.length_cons, List.range'_succ] at hids
      obtain ⟨hidx, hids⟩ := List.cons.inj hids
      have hj := hall j le_rfl (by rw [List.length_cons]; omega)
      have hd := hiff.mpr ⟨hidx, hj.1, hj.2⟩
      refine ⟨hd, (hrest hd).1.mpr ⟨hids, ?_⟩⟩
      intro k hk hlt
      exact hall k (by omega) (by rw [List.length_cons]; omega)
    · rintro ⟨hd, ha⟩
      have := (hrest hd).2 ha
      rw [List.length_cons, show j + (vs.length + 1) = j + 1 + vs.length by omega]
      exact this

theorem recvAll_got_le (calls : List RxCall) (y : Peer) :
    (recvAll c y calls).got.length ≤ y.got.length + calls.length := by
  induction calls generalizing y with
  | nil => exact le_rfl
  | cons p calls ih =>
    have h1 := recv_got_le (c := c) y p
    have h2 := ih (y.recv c p)
    rw [List.length_cons]
    exact Nat.le_trans h2 (by omega)

/-- Calls that together hand on as many messages as there are calls each hand on
one. -/
theorem along_of_full (calls : List RxCall) (y : Peer)
    (hfull : (recvAll c y calls).got.length = y.got.length + calls.length) :
    Along (fun y p => y.recv c p) (Delivers c) y calls := by
  induction calls generalizing y with
  | nil => trivial
  | cons p calls ih =>
    have h1 := recv_got_le (c := c) y p
    have h2 := recvAll_got_le (c := c) calls (y.recv c p)
    have h3 : (recvAll c (y.recv c p) calls).got.length = y.got.length + (calls.length + 1) := hfull
    have hd : Delivers c y p := by
      rw [Delivers]
      omega
    exact ⟨hd, ih (y.recv c p) (by rw [h3, hd]; omega)⟩

theorem inOrder_init (h : Reordering b src msgs arrivals) (t0 : UInt32) (sid : UInt16) :
    InOrder b t0 sid msgs ⟨b, [], []⟩ 0 := by
  have hs : b.streams = [] := congrArg DataPlane.streams h.fresh
  exact
    { keys := ⟨rfl, rfl⟩
      recvSeq := by
        rw [Icsp.recvSeq, findStream, hs]
        rfl
      got := rfl
      rcvq := congrArg DataPlane.rcvq h.fresh
      window := .inl ⟨rfl, congrArg DataPlane.rwTsn h.fresh, congrArg DataPlane.rwMask h.fresh, hs⟩ }

theorem Reordering.length_eq (h : Reordering b src msgs arrivals) :
    arrivals.length = msgs.length := by
  have hl := h.perm.length_eq
  rwa [List.length_map, List.length_range] at hl

/-- The messages are released exactly when every arrival hands one on: what is
buffered stays in `rcvq`, and its TSN is refused from then on. -/
theorem released_iff_along (h : Reordering b src msgs arrivals) :
    Released c ⟨b, [], []⟩ sid msgs (arrivals.map (·.call c src t0 sid msgs)) ↔
      Along (fun y p => y.recv c p) (Delivers c) ⟨b, [], []⟩
        (arrivals.map (·.call c src t0 sid msgs)) := by
  have hlen := h.length_eq
  constructor
  · rintro ⟨later, hl, hgot, -⟩
    obtain ⟨hkeys, -, hseen⟩ := h.all_seen (c := c) t0 sid arrivals ⟨b, [], []⟩ ⟨rfl, rfl⟩
    have hsame := h.later later _ hkeys hseen hl
    rw [recvAll, run_append] at hgot
    have hfull : (recvAll c ⟨b, [], []⟩ (arrivals.map (·.call c src t0 sid msgs))).got =
        msgs.map (fun m => (sid, m)) := hsame.symm.trans hgot
    refine along_of_full _ _ ?_
    rw [hfull, List.length_map, List.length_map, hlen]
    exact (Nat.zero_add _).symm
  · intro ha
    have hin := (InOrder.along_iff h arrivals ⟨b, [], []⟩ 0 (inOrder_init h t0 sid) (fun _ hv => hv)
      (by omega)).2 ha
    rw [hlen, Nat.zero_add] at hin
    refine ⟨[], fun _ hp => (nomatch hp), ?_, ?_⟩
    · rw [List.append_nil, hin.got, List.take_length]
    · rw [List.append_nil, hin.rcvq]

/-- All messages are released exactly when they arrive in sending order, none of
them is empty and their TSNs do not wrap. -/
theorem reordering_released_iff (c : TweetNaCl) (b : IcspAssoc) (src : Nat → IcspAssoc) (t0 : UInt32)
    (sid : UInt16) (msgs : List Bytes) (arrivals : List Arrival) (h : Reordering b src msgs arrivals) :
    Released c ⟨b, [], []⟩ sid msgs (arrivals.map (·.call c src t0 sid msgs)) ↔
      arrivals.map (·.idx) = List.range msgs.length ∧ t0.toNat + msgs.length ≤ 2 ^ 32 ∧
        ∀ m ∈ msgs, m ≠ [] := by
  have hlen := h.length_eq
  have ht0 := t0.toNat_lt
  have halong := (InOrder.along_iff (c := c) h arrivals ⟨b, [], []⟩ 0 (inOrder_init h t0 sid)
    (fun _ hv => hv) (by omega)).1
  rw [released_iff_along h, halong, hlen, ← List.range_eq_range']
  refine and_congr_right fun _ => ⟨?_, ?_⟩
  · intro hall
    refine ⟨?_, ?_⟩
    · by_cases hz : msgs.length = 0
      · omega
      · have := (hall (msgs.length - 1) (Nat.zero_le _) (by omega)).1
        omega
    · intro m hm
      obtain ⟨k, hk, rfl⟩ := List.mem_iff_getElem.mp hm
      have := (hall k (Nat.zero_le _) (by omega)).2
      rwa [List.getD_eq_getElem _ _ hk] at this
  · rintro ⟨hwrap, hne⟩ k - hk
    rw [Nat.zero_add] at hk
    refine ⟨by omega, ?_⟩
    rw [List.getD_eq_getElem _ _ hk]
    exact hne _ (List.getElem_mem hk)

/-! Two messages, from the sends to the receiver. -/

def reorderSrc : IcspAssoc := { IcspAssoc.zero with hasKey := true, nextTsn := 40 }
def reorderDst : IcspAssoc := { IcspAssoc.zero with hasKey := true }

theorem reordering_pair (arrivals : List Arrival)
    (hperm : (arrivals.map (·.idx)).Perm (List.range 2)) (hroom : ∀ v ∈ arrivals, v.outlen = 1400) :
    Reordering reorderDst (fun _ => reorderSrc) [[1], [2]] arrivals where
  hasKey := rfl
  fresh := rfl
  assocId := fun _ => rfl
  key := fun _ => rfl
  few := by decide
  fits := by decide
  room := by
    intro v hv
    have hidx := List.mem_range.mp (hperm.mem_iff.mp (List.mem_map_of_mem hv))
    rw [hroom v hv]
    interval_cases v.idx <;> decide
  perm := hperm

theorem reordering_released_in_order :
    Released toy ⟨reorderDst, [], []⟩ 5 [[1], [2]]
      ([⟨0, [], 1400⟩, ⟨1, [], 1400⟩].map
        (Arrival.call toy (fun _ => reorderSrc) 40 5 [[1], [2]])) :=
  (reordering_released_iff toy reorderDst (fun _ => reorderSrc) 40 5 [[1], [2]]
    [⟨0, [], 1400⟩, ⟨1, [], 1400⟩] (reordering_pair _ (by decide) (by decide))).mpr (by decide)

/-- The same two frames the other way round: the second message stays in `rcvq`
although it was acknowledged, whatever is called later. -/
theorem reordering_swapped_stuck :
    let frames := sentFrames toy (.quiet 0) reorderSrc 5 [1] ++
      sentFrames toy (.quiet 0) (icspDataSend toy (.quiet 0) reorderSrc 5 [1]).1 5 [2]
    let calls := frames.reverse.map (rxFrame · [] 1400)
    (recvAll toy ⟨reorderDst, [], []⟩ calls).got = [(5, [1])] ∧
      (recvAll toy ⟨reorderDst, [], []⟩ calls).assoc.rcvq.map (·.data) = [[2]] ∧
      (recvAll toy ⟨reorderDst, [], []⟩ calls).assoc.cumTsn = 41 ∧
      ¬ Released toy ⟨reorderDst, [], []⟩ 5 [[1], [2]] calls := by
  intro frames calls
  refine ⟨by decide +kernel, by decide +kernel, by decide +kernel, ?_⟩
  have hcalls : calls = [⟨1, [], 1400⟩, ⟨0, [], 1400⟩].map
      (Arrival.call toy (fun _ => reorderSrc) 40 5 [[1], [2]]) := by decide +kernel
  rw [hcalls, released_iff_along (reordering_pair _ (by decide) (by decide))]
  decide +kernel

end Icsp
