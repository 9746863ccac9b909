import BaitNet.EstablishedC
import BaitNet.EstablishedPy
import BaitNet.Interoperable

/-!
# Resets of a stream

A STREAM-RESET that finds the counters it clears at 0 leaves two established ends in step,
whichever implementations they are. Any other one does not: `icsp_stream_reset` sends the
chunk and keeps the counters of its own side.
-/
namespace Interop

open Wire Link Crypto

variable (nb : Py.PyBox) (c : TweetNaCl)

def endOf (e : Circumstances) : Impl → End
  | .c => cEnd c e
  | .python => pyEnd nb e

/-- The sizes at which a sender changes its sequence number only for what leaves. -/
def keepsOf : Impl → Nat → Prop
  | .c => cKeeps
  | .python => fun _ => True

/-- The sizes of what a receiver opens. -/
def opensOf : Impl → Nat → Prop
  | .c => cOpens
  | .python => fun _ => True

instance : ∀ x, DecidablePred (keepsOf x)
  | .c => inferInstanceAs (DecidablePred cKeeps)
  | .python => fun _ => .isTrue trivial

instance : ∀ x, DecidablePred (opensOf x)
  | .c => inferInstanceAs (DecidablePred cOpens)
  | .python => fun _ => .isTrue trivial

variable {nb c}

/-- An end `i` of the session with these counters. -/
def Reads (e : Circumstances) (s : Session) (i : Bool) : (x : Impl) → Reading (endOf nb c e x)
  | .c => fun st v => CReads s i st.2.assoc v
  | .python => fun st v => PyReads s i st.2 v

theorem endOf_role (same : SameBoxes nb c) (e : Circumstances) (s : Session) (i : Bool) (x : Impl) :
    Role c (endOf nb c e x) s i (keepsOf x) (opensOf x) (Reads e s i x) := by
  cases x with
  | c => exact cEnd_role c e s i
  | python => exact pyEnd_role same e s i

/-- The counters of a new association. -/
def Counters.new (tsn : UInt32) : Counters := ⟨fun _ => 0, fun _ => 0, tsn.toNat, 0⟩

/-- Two ends, nothing sent yet and nothing in flight. -/
structure Fresh (e : Bool → Circumstances) (impl : Bool → Impl) (s : Session) (tsn : Bool → UInt32)
    (n : Net fun i => endOf nb c (e i) (impl i)) : Prop where
  reads : ∀ i, Reads (e i) s i (impl i) (n.st i) (.new (tsn i))
  idle : ∀ i, n.wire i = []

variable {e : Bool → Circumstances} {impl : Bool → Impl} {s : Session} {tsn : Bool → UInt32}
  {n : Net fun i => endOf nb c (e i) (impl i)}

theorem Fresh.inStep (h : Fresh e impl s tsn n) :
    InStep c (fun i => opensOf (impl i)) s (fun i => Reads (e i) s i (impl i)) n (fun i => .new (tsn i)) fun _ => [] where
  reading := h.reads
  wire i := by
    rw [h.idle i]
    exact .nil
  feed i := ⟨rfl, Nat.zero_le _⟩

def freshC (s : Session) (i : Bool) (tsn : UInt32) : Icsp.IcspAssoc :=
  { Icsp.IcspAssoc.zero with
    state := .established, hasKey := true, srcMac := s.mac i, srcAddr := s.addr i, dstAddr := s.addr (!i)
    assocId := s.assocId, sendKey := s.key i, recvKey := s.key (!i), nextTsn := tsn }

def freshPy (s : Session) (i : Bool) (tsn : UInt32) : Py.Assoc :=
  { Py.Assoc.new (s.mac i).val [] (s.addr i).toNat 0 (s.addr (!i)).toNat 0 8 8 with
    state := .established, assocId := s.assocId.toNat, sendKey := (s.key i).val, recvKey := (s.key (!i)).val
    nextTsn := tsn.toNat }

def freshState (e : Circumstances) (s : Session) (i : Bool) (tsn : UInt32) : (x : Impl) → (endOf nb c e x).State
  | .c => (0, ⟨freshC s i tsn, .zero⟩)
  | .python => (0, freshPy s i tsn)

variable (nb c) in
/-- Two new associations of a session. -/
def freshNet (e : Bool → Circumstances) (impl : Bool → Impl) (s : Session) (tsn : Bool → UInt32) :
    Net fun i => endOf nb c (e i) (impl i) where
  st i := freshState (e i) s i (tsn i) (impl i)
  wire _ := []
  got _ := []

theorem freshState_reads (e : Circumstances) (s : Session) (i : Bool) (tsn : UInt32) (x : Impl) :
    @Reads nb c e s i x (freshState e s i tsn x) (.new tsn) := by
  cases x with
  | c =>
    exact {
      state := rfl, hasKey := rfl, srcMac := rfl, srcAddr := rfl, assocId := rfl, sendKey := rfl, recvKey := rfl
      nextTsn := (UInt32.ofNat_toNat (x := tsn)).symm, sendSeq := fun _ => rfl, recvSeq := fun _ => rfl
      window := .inl ⟨rfl, rfl⟩ }
  | python =>
    exact {
      mac := rfl, srcAddr := rfl, dstAddr := s.addr_lt (!i), peerMac := fun _ h => nomatch h
      srcPort := Nat.le_of_ble_eq_true rfl, dstPort := Nat.le_of_ble_eq_true rfl
      assocId := rfl, sendKey := rfl, recvKey := rfl, nextTsn := (Nat.mod_eq_of_lt tsn.toNat_lt).symm
      sendSeq := fun _ => rfl, recvSeq := fun _ => rfl, rcvbuf := rfl, cumTsn := Nat.le_of_ble_eq_true rfl
      window := .inl ⟨rfl, rfl⟩ }

/-- Every session, assignment of implementations and pair of first TSNs has such a start. -/
theorem freshNet_fresh (e : Bool → Circumstances) (impl : Bool → Impl) (s : Session) (tsn : Bool → UInt32) :
    Fresh e impl s tsn (freshNet nb c e impl s tsn) where
  reads i := freshState_reads (e i) s i (tsn i) (impl i)
  idle _ := rfl

/-- The toy primitives as PyNaCl has them. -/
def toyBox : Py.PyBox :=
  { pyOf toyNaCl with decrypt := fun key nonce box => toyNaCl.secretboxOpen (List.replicate 16 0 ++ box) nonce key }

theorem toyBox_same : SameBoxes toyBox toyNaCl :=
  { toyNaCl_same with decrypt := fun k n m => toyNaCl.open_secretbox m n k }

def toySession : Session where
  assocId := 5
  mac i := if i then pad 6 [7] else pad 6 [9]
  addr i := if i then 7 else 9
  key i := if i then pad 32 [1] else pad 32 [2]
  mac_ne := by decide
  addr_lt i := by cases i <;> decide

/-- Two new associations at 1, end `false` by `x` and end `true` by `y`. -/
def toyNet (x y : Impl) : Net fun i => endOf toyBox toyNaCl (toyCircumstances 1) (if i then y else x) :=
  freshNet toyBox toyNaCl (fun _ => toyCircumstances 1) (fun i => if i then y else x) toySession fun _ => 1

theorem toyNet_fresh (x y : Impl) :
    Fresh (fun _ => toyCircumstances 1) (fun i => if i then y else x) toySession (fun _ => 1) (toyNet x y) :=
  freshNet_fresh _ _ _ _

/-- End `i` sends a message at once, and the other end hands it on. -/
def NextDelivered {ends : Bool → End} (n : Net ends) (i : Bool) (sid : UInt16) (msg : Bytes) : Prop :=
  (Runs.run Net.step n [.call i (.data sid msg), .deliver (!i)]).got (!i) = n.got (!i) ++ [(sid.toNat, msg)]

instance {ends : Bool → End} (n : Net ends) (i : Bool) (sid : UInt16) (msg : Bytes) :
    Decidable (NextDelivered n i sid msg) := inferInstanceAs (Decidable (_ = _))

theorem keepsOf_fit (x : Impl) {k : Nat} (h : k ≤ Icsp.maxSendable) : keepsOf x k := by
  cases x with
  | c => exact .inl h
  | python => trivial

/-- As long as every reset that arrives finds the counters it clears at 0, no message is of a
size that gets lost and every stream has room: whenever nothing is in flight both ends agree
on the numbers of each stream, and the next message on it is handed on. -/
theorem stream_reset_agreement (same : SameBoxes nb c) (h : Fresh e impl s tsn n) (es : List NetEvent)
    (hok : Runs.Along Net.step (Net.StepOk (fun i => keepsOf (impl i)) fun i => opensOf (impl i)) n es)
    (htsn : ∀ i, (tsn i).toNat + sends i es ≤ 2 ^ 32) (hidle : ∀ i, (Runs.run Net.step n es).wire i = []) :
    ∀ i sid,
      (endOf nb c (e i) (impl i)).sendSeq ((Runs.run Net.step n es).st i) sid =
        (endOf nb c (e (!i)) (impl (!i))).recvSeq ((Runs.run Net.step n es).st (!i)) sid ∧
      ∀ msg, msg ≠ [] → msg.length ≤ Icsp.maxSendable → opensOf (impl (!i)) msg.length →
        (endOf nb c (e i) (impl i)).hasRoom ((Runs.run Net.step n es).st i) sid = true →
        (endOf nb c (e (!i)) (impl (!i))).hasRoom ((Runs.run Net.step n es).st (!i)) sid = true →
        (tsn i).toNat + sends i es < 2 ^ 32 → NextDelivered (Runs.run Net.step n es) i sid msg := by
  have hrole := fun i => endOf_role same (e i) s i (impl i)
  obtain ⟨v, ms, hstep, hnext⟩ := h.inStep.run hrole es hok htsn
  intro i sid
  refine ⟨?_, fun msg hne hfit hopen hroom hroom' hleft => ?_⟩
  · have hagree := (hstep.idle (hidle (!i))).1
    rw [Bool.not_not] at hagree
    rw [((hrole i).counters _ _ (hstep.reading i) sid).1, ((hrole (!i)).counters _ _ (hstep.reading (!i)) sid).2, hagree]
  · exact hstep.next_delivered hrole (hidle (!i)) sid hne hfit (keepsOf_fit _ hfit) hopen
      ((hnext i).trans_lt hleft) hroom hroom'

/-- A reset of a stream that nobody has used, between messages on another one. -/
def quietReset : List NetEvent :=
  [.call false (.data 1 [10]), .call true (.data 1 [20, 21]), .call true (.reset 2 0), .deliver true, .deliver false,
    .deliver false, .deliver false, .deliver true]

theorem stream_reset_agreement_toy :
    (∀ i, (Runs.run Net.step (toyNet .c .python) quietReset).wire i = []) ∧
      NextDelivered (Runs.run Net.step (toyNet .c .python) quietReset) true 1 [30] := by
  have hidle : ∀ i, (Runs.run Net.step (toyNet .c .python) quietReset).wire i = [] := by decide +kernel
  refine ⟨hidle, ?_⟩
  have hnext := (stream_reset_agreement toyBox_same (toyNet_fresh .c .python) quietReset (by decide +kernel)
    (by decide +kernel) hidle true 1).2 [30]
  exact hnext (by decide) (by decide) (by decide) (by decide +kernel) (by decide +kernel) (by decide +kernel)

/-- A message to the end `true`, its SACK, and a reset by the sender. -/
def usedReset : List NetEvent :=
  [.call false (.data 0 [1]), .deliver true, .deliver false, .call false (.reset 0 0), .deliver true]

/-- After a reset of a used stream nothing is in flight, the ends disagree, and the next message
is not handed on. -/
def ResetDisagrees (y : Impl) : Prop :=
  Fresh (fun _ => toyCircumstances 1) (fun i => if i then y else .c) toySession (fun _ => 1) (toyNet .c y) ∧
    (∀ i, (Runs.run Net.step (toyNet .c y) usedReset).wire i = []) ∧
    (endOf toyBox toyNaCl (toyCircumstances 1) .c).sendSeq ((Runs.run Net.step (toyNet .c y) usedReset).st false) 0 ≠
      (endOf toyBox toyNaCl (toyCircumstances 1) y).recvSeq ((Runs.run Net.step (toyNet .c y) usedReset).st true) 0 ∧
    ¬ NextDelivered (Runs.run Net.step (toyNet .c y) usedReset) false 0 [2]

/-- The sender is the C code, the receiver either of the two. -/
theorem stream_reset_disagrees : ResetDisagrees .c ∧ ResetDisagrees .python := by
  constructor
  · refine ⟨toyNet_fresh .c .c, ?_⟩
    decide +kernel
  · refine ⟨toyNet_fresh .c .python, ?_⟩
    decide +kernel

end Interop
