import BaitNet.Exchange
import BaitNet.PyReceive

/-!
# Two ends of an established association

The data phase between two implementations: messages and stream resets on a network that
loses, adds and reorders nothing. `Role` says in terms of counters what an implementation
does, and the invariant `InStep` that a wire carries on from the receiver's counters to the
sender's.
-/
namespace Interop

open Wire Link Crypto

inductive Call where
  | data (sid : UInt16) (msg : Bytes)
  | reset (sid : UInt16) (mode : UInt8)
  deriving DecidableEq

/-- One end. `receive` gives the frames it answers with and the messages it hands on;
`hasRoom` says that a stream has an entry or can get one, `isClear` that a reset of the
stream changes no counter. -/
structure End where
  State : Type
  call : State → Call → State × List Bytes
  receive : State → Bytes → State × List Bytes × List (Nat × Bytes)
  sendSeq : State → UInt16 → Nat
  recvSeq : State → UInt16 → Nat
  hasRoom : State → UInt16 → Bool
  isClear : State → UInt16 → Bool

/-- Both ends, the frames on their way to each, and what each has handed on. -/
structure Net (ends : Bool → End) where
  st : ∀ i, (ends i).State
  wire : Bool → List Bytes
  got : Bool → List (Nat × Bytes)

inductive NetEvent where
  | call (i : Bool) (x : Call)
  | deliver (i : Bool)
  deriving DecidableEq

/-- A call puts its frames on the wire to the other end, and a delivery takes the first
frame off the wire. -/
def Net.step {ends : Bool → End} (n : Net ends) : NetEvent → Net ends
  | .call i x =>
    let r := (ends i).call (n.st i) x
    { n with
      st := Function.update n.st i r.1
      wire := Function.update n.wire (!i) (n.wire (!i) ++ r.2) }
  | .deliver i =>
    match n.wire i with
    | [] => n
    | frame :: rest =>
      let r := (ends i).receive (n.st i) frame
      { st := Function.update n.st i r.1
        wire := Function.update (Function.update n.wire i rest) (!i) (n.wire (!i) ++ r.2.1)
        got := Function.update n.got i (n.got i ++ r.2.2) }

/-- What two ends have in common; `key i` is what end `i` seals with. -/
structure Session where
  assocId : UInt32
  mac : Bool → Arr 6
  addr : Bool → UInt64
  key : Bool → Arr 32
  mac_ne : mac false ≠ mac true
  addr_lt : ∀ i, (addr i).toNat < 2 ^ 40

theorem Session.mac_not (s : Session) (i : Bool) : s.mac (!i) ≠ s.mac i := by
  cases i with
  | false => exact s.mac_ne.symm
  | true => exact s.mac_ne

inductive Msg where
  | data (m : Icsp.DataMsg)
  | reset (sid : UInt16) (mode : UInt8)
  | sack (cum : UInt32)

def resetChunk (sid : UInt16) (mode : UInt8) : Bytes :=
  Icsp.icspChunkPut Icsp.chunkStreamReset 3 ++ (put16 sid ++ [mode])

def sackChunk (cum : UInt32) : Bytes := Icsp.icspChunkPut Icsp.chunkSack 4 ++ put32 cum

def Msg.chunk (c : TweetNaCl) (s : Session) (i : Bool) : Msg → Bytes
  | .data m => m.chunk c s.assocId (s.key i)
  | .reset sid mode => resetChunk sid mode
  | .sack cum => sackChunk cum

def Msg.type : Msg → UInt8
  | .data _ => Icsp.chunkData
  | .reset _ _ => Icsp.chunkStreamReset
  | .sack _ => Icsp.chunkSack

theorem Msg.chunk_type (c : TweetNaCl) (s : Session) (i : Bool) (m : Msg) : byteAt (m.chunk c s i) 0 = m.type := by
  cases m with
  | data m => rfl
  | reset sid mode => rfl
  | sack cum => rfl

/-- The frame is that of end `i` for the message. -/
def Frames (c : TweetNaCl) (s : Session) (i : Bool) (m : Msg) (frame : Bytes) : Prop :=
  ∃ dst sp dp, Carries (s.mac i) (s.addr i) dst (packet sp dp s.assocId (m.chunk c s i)) frame

/-- The counters of one end. `next` is the next TSN before it is reduced, and TSNs from `low`
on are new to the window. -/
structure Counters where
  sendSeq : UInt16 → UInt16
  recvSeq : UInt16 → UInt16
  next : Nat
  low : Nat

def bump (f : UInt16 → UInt16) (sid : UInt16) : UInt16 → UInt16 := fun j => if j = sid then f j + 1 else f j

/-- A message with the next numbers. -/
def Counters.msg (v : Counters) (sid : UInt16) (data : Bytes) : Icsp.DataMsg :=
  ⟨.ofNat v.next, sid, v.sendSeq sid, data⟩

def Counters.sent (v : Counters) (sid : UInt16) : Counters :=
  { v with sendSeq := bump v.sendSeq sid, next := v.next + 1 }

def Counters.received (v : Counters) (m : Icsp.DataMsg) : Counters :=
  { v with recvSeq := bump v.recvSeq m.streamId, low := m.tsn.toNat + 1 }

/-- An end with these counters, in terms of its state. -/
abbrev Reading (x : End) : Type := x.State → Counters → Prop

variable (c : TweetNaCl)

/-- What an implementation does as end `i`. A message that does not leave changes no sequence
number, if its size is one of `keeps`; one of `opens` gets through. -/
structure Role (x : End) (s : Session) (i : Bool) (keeps opens : Nat → Prop) (R : Reading x) : Prop where
  counters : ∀ st v, R st v → ∀ sid,
    x.sendSeq st sid = (v.sendSeq sid).toNat ∧ x.recvSeq st sid = (v.recvSeq sid).toNat
  data : ∀ st v sid msg, R st v → v.next < 2 ^ 32 → keeps msg.length →
    (∃ frame, (x.call st (.data sid msg)).2 = [frame] ∧ Frames c s i (.data (v.msg sid msg)) frame ∧
      msg.length ≤ Icsp.maxSendable ∧ R (x.call st (.data sid msg)).1 (v.sent sid)) ∨
    ((x.call st (.data sid msg)).2 = [] ∧ ¬ (msg.length ≤ Icsp.maxSendable ∧ x.hasRoom st sid = true) ∧
      ∃ k, k ≤ v.next + 1 ∧ v.next ≤ k ∧ R (x.call st (.data sid msg)).1 { v with next := k })
  reset : ∀ st v sid mode, R st v →
    ∃ frame, (x.call st (.reset sid mode)).2 = [frame] ∧ Frames c s i (.reset sid mode) frame ∧
      R (x.call st (.reset sid mode)).1 v
  recvData : ∀ st v m frame, R st v → Frames c s (!i) (.data m) frame → m.seq = v.recvSeq m.streamId →
    v.low ≤ m.tsn.toNat → m.msg.length ≤ Icsp.maxSendable → opens m.msg.length →
    x.hasRoom st m.streamId = true →
    R (x.receive st frame).1 (v.received m) ∧
      (∃ cums : List UInt32, List.Forall₂ (Frames c s i) (cums.map .sack) (x.receive st frame).2.1) ∧
      (m.msg ≠ [] → (x.receive st frame).2.2 = [(m.streamId.toNat, m.msg)])
  recvReset : ∀ st v sid mode frame, R st v → Frames c s (!i) (.reset sid mode) frame →
    x.isClear st sid = true → R (x.receive st frame).1 v ∧ (x.receive st frame).2.1 = []
  recvSack : ∀ st v cum frame, R st v → Frames c s (!i) (.sack cum) frame →
    R (x.receive st frame).1 v ∧ (x.receive st frame).2.1 = []

/-- The messages on a wire take the receiver's sequence numbers to the sender's, with
increasing TSNs. -/
def Feed (opens : Nat → Prop) (w : Counters) : List Msg → Counters → Prop
  | [], v => v.recvSeq = w.sendSeq ∧ v.low ≤ w.next
  | .data m :: ms, v =>
    m.seq = v.recvSeq m.streamId ∧ v.low ≤ m.tsn.toNat ∧ m.msg.length ≤ Icsp.maxSendable ∧
      opens m.msg.length ∧ Feed opens w ms (v.received m)
  | _ :: ms, v => Feed opens w ms v

section Feed

variable {opens : Nat → Prop} {v w : Counters} {ms : List Msg}

/-- The feed only looks at the numbers of the receiving direction. -/
theorem Feed.congr {v' w' : Counters} (h : Feed opens w ms v) (hrecv : v'.recvSeq = v.recvSeq) (hlow : v'.low = v.low)
    (hsend : w'.sendSeq = w.sendSeq) (hnext : w.next ≤ w'.next) : Feed opens w' ms v' := by
  induction ms generalizing v v' with
  | nil => exact ⟨hrecv.trans (h.1.trans hsend.symm), hlow ▸ h.2.trans hnext⟩
  | cons x ms ih =>
    cases x with
    | data m =>
      obtain ⟨hseq, hm, hfit, hopen, hrest⟩ := h
      refine ⟨by rw [hseq, hrecv], hlow ▸ hm, hfit, hopen, ih hrest ?_ rfl⟩
      rw [Counters.received, Counters.received, hrecv]
    | reset sid mode => exact ih h hrecv hlow
    | sack cum => exact ih h hrecv hlow

/-- The next message of the sender at the end of the wire. -/
theorem Feed.send {sid : UInt16} {msg : Bytes} (h : Feed opens w ms v) (hnext : w.next < 2 ^ 32)
    (hfit : msg.length ≤ Icsp.maxSendable) (hopen : opens msg.length) :
    Feed opens (w.sent sid) (ms ++ [.data (w.msg sid msg)]) v := by
  have htsn : (UInt32.ofNat w.next).toNat = w.next := by
    rw [UInt32.toNat_ofNat', Nat.mod_eq_of_lt hnext]
  induction ms generalizing v with
  | nil =>
    refine ⟨by rw [h.1]; rfl, by rw [Counters.msg, htsn]; exact h.2, hfit, hopen, ?_, ?_⟩
    · rw [Counters.received, h.1]
      rfl
    · rw [Counters.received, Counters.msg, htsn]
      exact le_rfl
  | cons x ms ih =>
    cases x with
    | data m => exact ⟨h.1, h.2.1, h.2.2.1, h.2.2.2.1, ih h.2.2.2.2⟩
    | reset sid' mode => exact ih h
    | sack cum => exact ih h

/-- Anything but a message at the end of the wire. -/
theorem Feed.append {ms' : List Msg} (h : Feed opens w ms v) (hms : ∀ m, .data m ∉ ms') :
    Feed opens w (ms ++ ms') v := by
  induction ms generalizing v with
  | nil =>
    rw [List.nil_append]
    induction ms' with
    | nil => exact h
    | cons x ms' ih =>
      have hrest := ih fun m hm => hms m (List.mem_cons_of_mem x hm)
      cases x with
      | data m => exact absurd List.mem_cons_self (hms m)
      | reset sid mode => exact hrest
      | sack cum => exact hrest
  | cons x ms ih =>
    cases x with
    | data m => exact ⟨h.1, h.2.1, h.2.2.1, h.2.2.2.1, ih h.2.2.2.2⟩
    | reset sid mode => exact ih h
    | sack cum => exact ih h

end Feed

/-- The chunk type of an ICSP frame. -/
def frameType (frame : Bytes) : UInt8 := byteAt (framePayload frame) Icsp.icspHeaderLen

/-- The 16-bit number at `i` of the first chunk's data. -/
def frameWord (frame : Bytes) (i : Nat) : UInt16 :=
  get16 ((framePayload frame).drop (Icsp.icspHeaderLen + Icsp.icspChunkHdr)) i

/-- The message leaves or keeps the sequence number, and the receiver opens what leaves. -/
def SendOk (keeps opens : Nat → Prop) (msg : Bytes) : Prop :=
  keeps msg.length ∧ (msg.length ≤ Icsp.maxSendable → opens msg.length)

/-- The receiver has an entry for the stream of a message, and a reset changes no counter. -/
def ArrivalOk (x : End) (st : x.State) (frame : Bytes) : Prop :=
  (frameType frame = Icsp.chunkData → x.hasRoom st (frameWord frame 4) = true) ∧
    (frameType frame = Icsp.chunkStreamReset → x.isClear st (frameWord frame 0) = true)

instance {keeps opens : Nat → Prop} [DecidablePred keeps] [DecidablePred opens] (msg : Bytes) :
    Decidable (SendOk keeps opens msg) := inferInstanceAs (Decidable (_ ∧ (_ → _)))

instance (x : End) (st : x.State) (frame : Bytes) : Decidable (ArrivalOk x st frame) :=
  inferInstanceAs (Decidable ((_ → _) ∧ (_ → _)))

variable {ends : Bool → End} (keeps opens : Bool → Nat → Prop)

/-- The condition on one event. -/
def Net.StepOk (n : Net ends) : NetEvent → Prop
  | .call i (.data _ msg) => SendOk (keeps i) (opens (!i)) msg
  | .call _ (.reset _ _) => True
  | .deliver i => ∀ frame ∈ (n.wire i).head?, ArrivalOk (ends i) (n.st i) frame

instance [∀ i, DecidablePred (keeps i)] [∀ i, DecidablePred (opens i)] (n : Net ends) :
    ∀ e, Decidable (n.StepOk keeps opens e)
  | .call _ (.data _ _) => inferInstanceAs (Decidable (SendOk _ _ _))
  | .call _ (.reset _ _) => .isTrue trivial
  | .deliver i => inferInstanceAs (Decidable (∀ frame ∈ (n.wire i).head?, ArrivalOk (ends i) (n.st i) frame))

/-- How many messages end `i` is asked to send. -/
def sends (i : Bool) (es : List NetEvent) : Nat :=
  es.countP fun
    | .call j (.data _ _) => j = i
    | _ => false

theorem Frames.payload {s : Session} {i : Bool} {m : Msg} {frame : Bytes} (h : Frames c s i m frame) :
    ∃ sp dp, framePayload frame = packet sp dp s.assocId (m.chunk c s i) := by
  obtain ⟨dst, sp, dp, h⟩ := h
  exact ⟨sp, dp, h.payload⟩

variable {s : Session} {R : ∀ i, Reading (ends i)}

/-- Both ends run with counters that the wires between them account for. -/
structure InStep (s : Session) (R : ∀ i, Reading (ends i)) (n : Net ends) (v : Bool → Counters)
    (ms : Bool → List Msg) : Prop where
  reading : ∀ i, R i (n.st i) (v i)
  wire : ∀ i, List.Forall₂ (Frames c s (!i)) (ms i) (n.wire i)
  feed : ∀ i, Feed (opens i) (v (!i)) (ms i) (v i)

theorem forall_ends {P : Bool → Prop} (i : Bool) (h : P i) (h' : P (!i)) : ∀ j, P j := by
  intro j
  cases Bool.eq_or_eq_not j i with
  | inl heq => exact heq ▸ h
  | inr heq => exact heq ▸ h'

theorem Msg.chunk_length_ge (s : Session) (i : Bool) (m : Msg) : 4 ≤ (m.chunk c s i).length := by
  cases m with
  | data m => rw [Msg.chunk, Icsp.DataMsg.chunk_length]; omega
  | reset sid mode => exact Nat.le_of_ble_eq_true rfl
  | sack cum => exact Nat.le_of_ble_eq_true rfl

theorem frameType_frames {s : Session} {i : Bool} {m : Msg} {frame : Bytes} (h : Frames c s i m frame) :
    frameType frame = m.type := by
  obtain ⟨sp, dp, hpay⟩ := h.payload
  have hlen := Msg.chunk_length_ge c s i m
  have htype := packet_type [] sp dp s.assocId (b := m.chunk c s i) 0 (by omega)
  rw [List.append_nil] at htype
  rw [frameType, hpay, ← Msg.chunk_type c s i]
  exact htype

theorem frameWord_frames {s : Session} {i : Bool} {m : Msg} {frame : Bytes} (h : Frames c s i m frame) (j : Nat) :
    frameWord frame j = get16 ((m.chunk c s i).drop 4) j := by
  obtain ⟨sp, dp, hpay⟩ := h.payload
  have hdrop := packet_drop [] sp dp s.assocId (Msg.chunk_length_ge c s i m)
  rw [List.append_nil, List.append_nil] at hdrop
  rw [frameWord, hpay]
  exact congrArg (get16 · j) hdrop

/-- What the condition on an arrival says about a message. -/
theorem arrivalOk_frames {x : End} {st : x.State} {s : Session} {i : Bool} {m : Msg} {frame : Bytes}
    (h : Frames c s i m frame) (hok : ArrivalOk x st frame) :
    match m with
    | .data m => x.hasRoom st m.streamId = true
    | .reset sid _ => x.isClear st sid = true
    | .sack _ => True := by
  have htype := frameType_frames c h
  have hword := frameWord_frames c h
  cases m with
  | data m =>
    have hsid : frameWord frame 4 = m.streamId := (hword 4).trans (Icsp.dataHeader_stream _ _ _ _)
    have hroom := hok.1 htype
    rwa [hsid] at hroom
  | reset sid mode =>
    have hsid : frameWord frame 0 = sid := (hword 0).trans (get16_put16 sid [mode])
    have hclear := hok.2 htype
    rwa [hsid] at hclear
  | sack cum => trivial

section Step

variable {c} {n : Net ends} {v : Bool → Counters} {ms : Bool → List Msg} {keeps opens}
variable (hrole : ∀ i, Role c (ends i) s i (keeps i) (opens i) (R i))
include hrole

/-- A call at end `i`: its frames are for messages that its counters account for. -/
theorem Role.call {i : Bool} {st : (ends i).State} {v : Counters} (x : Call) (hst : R i st v)
    (hok : match x with
      | .data _ msg => SendOk (keeps i) (opens (!i)) msg ∧ v.next < 2 ^ 32
      | .reset _ _ => True) :
    ∃ v' ms', R i ((ends i).call st x).1 v' ∧ List.Forall₂ (Frames c s i) ms' ((ends i).call st x).2 ∧
      v'.recvSeq = v.recvSeq ∧ v'.low = v.low ∧ v.next ≤ v'.next ∧ v'.next ≤ v.next + sends i [.call i x] ∧
      ∀ ms w, Feed (opens (!i)) v ms w → Feed (opens (!i)) v' (ms ++ ms') w := by
  cases x with
  | data sid msg =>
    obtain ⟨⟨hkeeps, hopens⟩, hnext⟩ := hok
    have hcount : sends i [.call i (.data sid msg)] = 1 := by simp [sends]
    rw [hcount]
    rcases (hrole i).data st v sid msg hst hnext hkeeps with ⟨frame, hout, hframe, hfit, hst'⟩ |
      ⟨hout, -, k, hk, hle, hst'⟩
    · refine ⟨v.sent sid, [.data (v.msg sid msg)], hst', ?_, rfl, rfl, Nat.le_succ _, le_rfl, ?_⟩
      · rw [hout]
        exact .cons hframe .nil
      · exact fun ms w hfeed => hfeed.send hnext hfit (hopens hfit)
    · refine ⟨{ v with next := k }, [], hst', ?_, rfl, rfl, hle, hk, fun ms w hfeed => ?_⟩
      · rw [hout]
        exact .nil
      · rw [List.append_nil]
        exact hfeed.congr rfl rfl rfl hle
  | reset sid mode =>
    obtain ⟨frame, hout, hframe, hst'⟩ := (hrole i).reset st v sid mode hst
    refine ⟨v, [.reset sid mode], hst', ?_, rfl, rfl, le_rfl, Nat.le_add_right _ _, fun ms w hfeed => ?_⟩
    · rw [hout]
      exact .cons hframe .nil
    · refine hfeed.append fun m hm => ?_
      cases List.mem_singleton.mp hm

/-- An arrival at end `i`: it takes its message off the feed and sends SACKs only. -/
theorem Role.receive {i : Bool} {st : (ends i).State} {v w : Counters} {m : Msg} {ms : List Msg} {frame : Bytes}
    (hst : R i st v) (hframe : Frames c s (!i) m frame) (hok : ArrivalOk (ends i) st frame)
    (hfeed : Feed (opens i) w (m :: ms) v) :
    ∃ v' cums, R i ((ends i).receive st frame).1 v' ∧
      List.Forall₂ (Frames c s i) (List.map Msg.sack cums) ((ends i).receive st frame).2.1 ∧
      v'.sendSeq = v.sendSeq ∧ v'.next = v.next ∧ Feed (opens i) w ms v' := by
  have harrival := arrivalOk_frames c hframe hok
  cases m with
  | data m =>
    obtain ⟨hseq, hlow, hfit, hopen, hrest⟩ := hfeed
    obtain ⟨hst', ⟨cums, hcums⟩, -⟩ := (hrole i).recvData st v m frame hst hframe hseq hlow hfit hopen harrival
    exact ⟨v.received m, cums, hst', hcums, rfl, rfl, hrest⟩
  | reset sid mode =>
    obtain ⟨hst', hout⟩ := (hrole i).recvReset st v sid mode frame hst hframe harrival
    exact ⟨v, [], hst', hout ▸ .nil, rfl, rfl, hfeed⟩
  | sack cum =>
    obtain ⟨hst', hout⟩ := (hrole i).recvSack st v cum frame hst hframe
    exact ⟨v, [], hst', hout ▸ .nil, rfl, rfl, hfeed⟩

theorem InStep.call (h : InStep c opens s R n v ms) (i : Bool) (x : Call) (hok : n.StepOk keeps opens (.call i x))
    (htsn : ∀ j, (v j).next + sends j [.call i x] ≤ 2 ^ 32) :
    ∃ v' ms', InStep c opens s R (n.step (.call i x)) v' ms' ∧
      ∀ j, (v' j).next ≤ (v j).next + sends j [.call i x] := by
  have hbound := htsn i
  have hcall := Role.call hrole (i := i) x (h.reading i) (by
    cases x with
    | data sid msg =>
      have hcount : sends i [.call i (.data sid msg)] = 1 := by simp [sends]
      exact ⟨hok, by omega⟩
    | reset sid mode => trivial)
  obtain ⟨w, out, hst, hout, hrecv, hlow, hge, hle, hfeed⟩ := hcall
  have hni := Bool.not_ne_self i
  refine ⟨Function.update v i w, Function.update ms (!i) (ms (!i) ++ out), ⟨?_, ?_, ?_⟩, ?_⟩
  · refine forall_ends i ?_ ?_
    · simpa only [Net.step, Function.update_self] using hst
    · simpa only [Net.step, Function.update_of_ne hni] using h.reading (!i)
  · refine forall_ends i ?_ ?_
    · simpa only [Net.step, Function.update_of_ne hni.symm] using h.wire i
    · have hnew : List.Forall₂ (Frames c s (!(!i))) out ((ends i).call (n.st i) x).2 := by
        rw [Bool.not_not]
        exact hout
      simpa only [Net.step, Function.update_self] using List.rel_append (h.wire (!i)) hnew
  · refine forall_ends i ?_ ?_
    · rw [Function.update_of_ne hni, Function.update_self, Function.update_of_ne hni.symm]
      exact (h.feed i).congr hrecv hlow rfl le_rfl
    · rw [Bool.not_not, Function.update_self, Function.update_self, Function.update_of_ne hni]
      have hold := h.feed (!i)
      rw [Bool.not_not] at hold
      exact hfeed _ _ hold
  · refine forall_ends i ?_ ?_
    · rw [Function.update_self]
      exact hle
    · rw [Function.update_of_ne hni]
      exact Nat.le_add_right _ _

theorem InStep.deliver (h : InStep c opens s R n v ms) (i : Bool) (hok : n.StepOk keeps opens (.deliver i)) :
    ∃ v' ms', InStep c opens s R (n.step (.deliver i)) v' ms' ∧ ∀ j, (v' j).next = (v j).next := by
  rw [Net.step]
  rw [Net.StepOk] at hok
  have hwire := h.wire i
  have hfeed := h.feed i
  cases hw : n.wire i with
  | nil => exact ⟨v, ms, h, fun _ => rfl⟩
  | cons frame rest =>
    rw [hw] at hwire hok
    obtain ⟨m, ms', hframe, hrest, hms⟩ := List.forall₂_cons_right_iff.mp hwire
    rw [hms] at hfeed
    obtain ⟨w, cums, hst, hout, hsend, hnext, hfeed'⟩ :=
      Role.receive hrole (h.reading i) hframe (hok frame (Option.mem_some.mpr rfl)) hfeed
    have hni := Bool.not_ne_self i
    have hsacks : ∀ m, Msg.data m ∉ cums.map Msg.sack := by
      intro m hm
      obtain ⟨cum, -, hcum⟩ := List.mem_map.mp hm
      cases hcum
    refine ⟨Function.update v i w, Function.update (Function.update ms i ms') (!i) (ms (!i) ++ cums.map .sack),
      ⟨?_, ?_, ?_⟩, ?_⟩
    · refine forall_ends i ?_ ?_
      · simpa only [Function.update_self] using hst
      · simpa only [Function.update_of_ne hni] using h.reading (!i)
    · refine forall_ends i ?_ ?_
      · simpa only [Function.update_of_ne hni.symm, Function.update_self] using hrest
      · have hnew : List.Forall₂ (Frames c s (!(!i))) (cums.map .sack) ((ends i).receive (n.st i) frame).2.1 := by
          rw [Bool.not_not]
          exact hout
        simpa only [Function.update_self] using List.rel_append (h.wire (!i)) hnew
    · refine forall_ends i ?_ ?_
      · rw [Function.update_of_ne hni, Function.update_self, Function.update_of_ne hni.symm, Function.update_self]
        exact hfeed'
      · rw [Bool.not_not, Function.update_self, Function.update_self, Function.update_of_ne hni]
        have hold := h.feed (!i)
        rw [Bool.not_not] at hold
        exact (hold.append hsacks).congr rfl rfl hsend (Nat.le_of_eq hnext.symm)
    · refine forall_ends i ?_ ?_
      · rw [Function.update_self]
        exact hnext
      · rw [Function.update_of_ne hni]

/-- What an event keeps. -/
theorem InStep.step (h : InStep c opens s R n v ms) (e : NetEvent) (hok : n.StepOk keeps opens e)
    (htsn : ∀ j, (v j).next + sends j [e] ≤ 2 ^ 32) :
    ∃ v' ms', InStep c opens s R (n.step e) v' ms' ∧ ∀ j, (v' j).next ≤ (v j).next + sends j [e] := by
  cases e with
  | call i x => exact h.call hrole i x hok htsn
  | deliver i =>
    obtain ⟨v', ms', hstep, hnext⟩ := h.deliver hrole i hok
    exact ⟨v', ms', hstep, fun j => (hnext j).trans_le (Nat.le_add_right _ _)⟩

/-- What a run keeps. -/
theorem InStep.run (es : List NetEvent) (h : InStep c opens s R n v ms)
    (hok : Runs.Along Net.step (Net.StepOk keeps opens) n es) (htsn : ∀ j, (v j).next + sends j es ≤ 2 ^ 32) :
    ∃ v' ms', InStep c opens s R (Runs.run Net.step n es) v' ms' ∧
      ∀ j, (v' j).next ≤ (v j).next + sends j es := by
  induction es generalizing n v ms with
  | nil => exact ⟨v, ms, h, fun j => Nat.le_add_right _ _⟩
  | cons e es ih =>
    have hcount : ∀ j, sends j (e :: es) = sends j [e] + sends j es := fun j =>
      @List.countP_append _ _ [e] es
    obtain ⟨w, ms', hstep, hle⟩ := h.step hrole e hok.1 fun j => by
      have := htsn j
      rw [hcount j] at this
      omega
    obtain ⟨v', ms'', hrun, hle'⟩ := ih hstep hok.2 fun j => by
      have := htsn j
      have := hle j
      rw [hcount j] at *
      omega
    refine ⟨v', ms'', hrun, fun j => ?_⟩
    have := hle j
    have := hle' j
    rw [hcount j]
    omega

omit hrole in
/-- Nothing in flight towards `i`: it expects the number that the other end will use. -/
theorem InStep.idle (h : InStep c opens s R n v ms) {i : Bool} (hidle : n.wire i = []) :
    (v i).recvSeq = (v (!i)).sendSeq ∧ (v i).low ≤ (v (!i)).next := by
  have hwire := h.wire i
  have hfeed := h.feed i
  rw [hidle, List.forall₂_nil_right_iff] at hwire
  rw [hwire] at hfeed
  exact hfeed

/-- On an idle wire the next message that fits is handed on. -/
theorem InStep.next_delivered (h : InStep c opens s R n v ms) {i : Bool} (hidle : n.wire (!i) = []) (sid : UInt16)
    {msg : Bytes} (hne : msg ≠ []) (hfit : msg.length ≤ Icsp.maxSendable) (hkeeps : keeps i msg.length)
    (hopen : opens (!i) msg.length) (hnext : (v i).next < 2 ^ 32) (hroom : (ends i).hasRoom (n.st i) sid = true)
    (hroom' : (ends (!i)).hasRoom (n.st (!i)) sid = true) :
    (Runs.run Net.step n [.call i (.data sid msg), .deliver (!i)]).got (!i) = n.got (!i) ++ [(sid.toNat, msg)] := by
  have hni := Bool.not_ne_self i
  have htsn : (UInt32.ofNat (v i).next).toNat = (v i).next := by
    rw [UInt32.toNat_ofNat', Nat.mod_eq_of_lt hnext]
  obtain ⟨hrecv, hlow⟩ := h.idle hidle
  rw [Bool.not_not] at hrecv hlow
  rcases (hrole i).data (n.st i) (v i) sid msg (h.reading i) hnext hkeeps with ⟨frame, hout, hframe, -, -⟩ | ⟨-, hno, -⟩
  · have hgot := ((hrole (!i)).recvData (n.st (!i)) (v (!i)) ((v i).msg sid msg) frame (h.reading (!i))
      (by rw [Bool.not_not]; exact hframe) (by rw [hrecv]; rfl) (by rw [Counters.msg, htsn]; exact hlow) hfit hopen
      hroom').2.2 hne
    have hcall : (n.step (.call i (.data sid msg))).wire (!i) = [frame] := by
      simp only [Net.step, Function.update_self, hidle, hout, List.nil_append]
    have hst : (n.step (.call i (.data sid msg))).st (!i) = n.st (!i) := by
      simp only [Net.step, Function.update_of_ne hni]
    have hkept : (n.step (.call i (.data sid msg))).got = n.got := rfl
    rw [Runs.run_cons, Runs.run_cons, Runs.run_nil]
    generalize n.step (.call i (.data sid msg)) = n' at hcall hst hkept
    rw [Net.step, hcall]
    dsimp only
    rw [Function.update_self, hst, hgot, hkept]
    rfl
  · exact absurd ⟨hfit, hroom⟩ hno

end Step

end Interop
