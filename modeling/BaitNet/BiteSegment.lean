import BaitNet.BiteConn

/-!
# Two programs on one segment

Frames arrive in the order in which they were sent, each process polls whenever it likes, and a
poll may find nothing. The segment refines the channels of records: what is sent again, and what
is acknowledged, makes no difference to the programs.
-/
namespace Bite

open Wire Link Crypto Interop Channels Runs

/-- Both processes and the frames on their way to each. -/
structure Segment (g : Bool → Program) where
  proc : ∀ i, Process (g i)
  wire : Bool → List Bytes

inductive SegmentEv where
  | frame (i : Bool)
  | timeout (i : Bool)
  deriving DecidableEq

variable {g : Bool → Program}

section Steps

variable (c : TweetNaCl) (e : Bool → Circumstances)

/-- A round of process `i`; what it sends goes behind the frames on their way to the other. -/
def Segment.round (n : Segment g) (i : Bool) (rx : Icsp.Rx) : Segment g where
  proc := Function.update n.proc i ((n.proc i).round c (e i) rx).1
  wire := Function.update n.wire (!i) (n.wire (!i) ++ ((n.proc i).round c (e i) rx).2)

/-- Process `i` polls: it finds the first frame on its way to it, or nothing. -/
def Segment.step (n : Segment g) : SegmentEv → Segment g
  | .timeout i => n.round c e i .timedOut
  | .frame i =>
    match n.wire i with
    | [] => n
    | frame :: rest =>
      ({ n with wire := Function.update n.wire i rest }).round c e i ((e i).rx (n.proc i).conn.calls frame)

end Steps

def Item.isRecord : Item → Bool
  | .record _ => true
  | .bye => false

/-- How many records are among the items. -/
def records (items : List Item) : Nat := items.countP Item.isRecord

theorem records_append (xs ys : List Item) : records (xs ++ ys) = records xs + records ys := List.countP_append

variable {c : TweetNaCl} {l : Line} {i : Bool}

/-- The frames on their way from end `i` carry the items, from record `n` to record `m`. Between
them come frames that nobody takes notice of, `d` of them before the first item. -/
inductive Flow (c : TweetNaCl) (l : Line) (i : Bool) : Nat → Nat → Nat → List Bytes → List Item → Prop where
  | nil (n : Nat) : Flow c l i 0 n n [] []
  | record {d n m : Nat} {frame rec : Bytes} {frames : List Bytes} {items : List Item}
      (hpost : Posts c l.toSession i (.data (l.msg i n rec)) frame) (rest : Flow c l i d (n + 1) m frames items) :
      Flow c l i 0 n m (frame :: frames) (.record rec :: items)
  | aside {d n m : Nat} {x : Post} {frame : Bytes} {frames : List Bytes} {items : List Item} (hx : Aside l i n x)
      (hpost : Posts c l.toSession i x frame) (rest : Flow c l i d n m frames items) :
      Flow c l i (d + 1) n m (frame :: frames) items
  | bye {d n m : Nat} {frame : Bytes} {frames : List Bytes} {items : List Item}
      (hpost : Posts c l.toSession i .shutdown frame) (rest : Flow c l i d n m frames items) :
      Flow c l i 0 n m (frame :: frames) (.bye :: items)

variable {d d' n m k : Nat} {frames frames' : List Bytes} {items items' : List Item}

theorem Flow.append (h : Flow c l i d n m frames items) (h' : Flow c l i d' m k frames' items') :
    Flow c l i (if items = [] then d + d' else d) n k (frames ++ frames') (items ++ items') := by
  induction h with
  | nil n =>
    rw [if_pos rfl, Nat.zero_add]
    exact h'
  | record hpost rest ih =>
    rw [if_neg (List.cons_ne_nil _ _)]
    exact .record hpost (ih h')
  | aside hx hpost rest ih =>
    have hrest := Flow.aside hx hpost (ih h')
    split at hrest
    · rename_i hnil
      rw [if_pos hnil, Nat.add_right_comm]
      exact hrest
    · rename_i hnil
      rw [if_neg hnil]
      exact hrest
  | bye hpost rest ih =>
    rw [if_neg (List.cons_ne_nil _ _)]
    exact .bye hpost (ih h')

theorem Flow.asides (h : ∀ frame ∈ frames, ∃ x, Aside l i n x ∧ Posts c l.toSession i x frame) :
    Flow c l i frames.length n n frames [] := by
  induction frames with
  | nil => exact .nil n
  | cons frame frames ih =>
    obtain ⟨x, hx, hpost⟩ := h frame List.mem_cons_self
    exact .aside hx hpost (ih fun f hf => h f (List.mem_cons_of_mem frame hf))

theorem Flow.le (h : Flow c l i d n m frames items) : n ≤ m := by
  induction h with
  | nil n => exact le_rfl
  | record hpost rest ih => exact (Nat.le_succ _).trans ih
  | aside hx hpost rest ih => exact ih
  | bye hpost rest ih => exact ih

/-- Without frames there are no items. -/
theorem Flow.none (h : Flow c l i d n m [] items) : items = [] := by
  cases h with
  | nil n => rfl

section Round

variable {e : Circumstances} {sent past : Nat} {deaf : Bool}

/-- The bounds within which the first `items` keep an end's numbers. -/
structure Bounded (first : Nat) (items : List Item) : Prop where
  tsns : first + records items < 2 ^ 32
  seqs : records items < 2 ^ 16
  sizes : ∀ rec, .record rec ∈ items → rec ≠ [] ∧ rec.length ≤ Icsp.maxSendable

/-- The association, and the frames of a round so far, when the round has sent `items` behind the log. -/
structure Sending (c : TweetNaCl) (l : Line) (i : Bool) (past : Nat) (deaf : Bool) (log : List Item)
    (s : Conn × List Bytes) (items : List Item) : Prop where
  flow : ∃ d, Flow c l i d (records log) (records (log ++ items)) s.2 items
  ready : Ready l i (records (log ++ items)) past deaf s.1.host.assoc

variable {log final : List Item}

theorem Sending.step (hb : Bounded (l.first i) final) (x : PortOp) (s : Conn × List Bytes) (items : List Item)
    (h : Sending c l i past deaf log s items) (hfits : log ++ (outbox x items).2 <+: final) :
    (assocPort c e x s).1 = (outbox x items).1 ∧
      Sending c l i past deaf log (assocPort c e x s).2 (outbox x items).2 := by
  obtain ⟨k, out⟩ := s
  have hcount := hfits.sublist.countP_le (p := Item.isRecord)
  cases x with
  | send rec =>
    change log ++ (items ++ [.record rec]) <+: final at hfits
    change records (log ++ (items ++ [.record rec])) ≤ records final at hcount
    have hmem : .record rec ∈ final := hfits.subset (by simp)
    have hlog : records (log ++ (items ++ [.record rec])) = records (log ++ items) + 1 := by
      rw [← List.append_assoc, records_append]
      rfl
    have htsns := hb.tsns
    obtain ⟨⟨frame, hframe, hpost⟩, hret, hready⟩ :=
      h.ready.dataSend (c := c) e k.calls (hb.sizes rec hmem).2 (by omega)
    refine ⟨decide_eq_true hret, ?_, ?_⟩
    · have hone : Flow c l i 0 (records (log ++ items)) (records (log ++ items) + 1) [frame] [.record rec] :=
        .record hpost (.nil _)
      change ∃ d, Flow c l i d (records log) (records (log ++ (items ++ [.record rec])))
        (out ++ Icsp.txFrames (Icsp.icspDataSend c (e.io k.calls) k.host.assoc 1 rec).2.1) (items ++ [.record rec])
      rw [hframe, hlog]
      obtain ⟨d, hflow⟩ := h.flow
      exact ⟨_, hflow.append hone⟩
    · change Ready l i (records (log ++ (items ++ [.record rec]))) past deaf
        (Icsp.icspDataSend c (e.io k.calls) k.host.assoc 1 rec).1
      rw [hlog]
      exact hready
  | retransmit =>
    obtain ⟨hframes, hready⟩ := h.ready.dataRetransmit (c := c) e k.calls
    refine ⟨rfl, ?_, hready⟩
    obtain ⟨d, hflow⟩ := h.flow
    have hall := hflow.append (Flow.asides hframes)
    rw [List.append_nil] at hall
    exact ⟨_, hall⟩
  | shutdown =>
    obtain ⟨⟨frame, hframe, hpost⟩, hready⟩ := h.ready.shutdownSend (c := c) e k.calls
    have hlog : records (log ++ (items ++ [.bye])) = records (log ++ items) := by
      rw [← List.append_assoc, records_append]
      rfl
    refine ⟨rfl, ?_, ?_⟩
    · have hone : Flow c l i 0 (records (log ++ items)) (records (log ++ items)) [frame] [.bye] := .bye hpost (.nil _)
      change ∃ d, Flow c l i d (records log) (records (log ++ (items ++ [.bye])))
        (out ++ Icsp.txFrames (Icsp.icspShutdownSend (e.io k.calls) k.host.assoc).2.1) (items ++ [.bye])
      rw [hframe, hlog]
      obtain ⟨d, hflow⟩ := h.flow
      exact ⟨_, hflow.append hone⟩
    · change Ready l i (records (log ++ (items ++ [.bye]))) past deaf
        (Icsp.icspShutdownSend (e.io k.calls) k.host.assoc).1
      rw [hlog]
      exact hready

/-- A round over the association does what it does over the channels. -/
theorem Sending.run {α : Type} (hb : Bounded (l.first i) final) (r : OnPort α) {s : Conn × List Bytes}
    (h : Sending c l i past deaf log s []) (hfits : log ++ (r.run outbox []).2 <+: final) :
    (r.run (assocPort c e) s).1 = (r.run outbox []).1 ∧
      Sending c l i past deaf log (r.run (assocPort c e) s).2 (r.run outbox []).2 := by
  refine Calls.run_refines (R := Sending c l i past deaf log) (F := fun items => log ++ items <+: final) ?_ ?_ r h hfits
  · intro x items hfit
    refine List.IsPrefix.trans ?_ hfit
    cases x with
    | send rec => exact ⟨[.record rec], (List.append_assoc _ _ _)⟩
    | retransmit => exact List.prefix_rfl
    | shutdown => exact ⟨[.bye], (List.append_assoc _ _ _)⟩
  · exact fun x s items hs hfit => hs.step hb x s items hfit

end Round

/-- A program in a state of `I` that polls in vain only sends again what is old. -/
structure Steady (p : Program) (I : p.State → Prop) : Prop where
  idle : ∀ st, I st → p.left st = false → p.round st Icsp.icspPollTimeout [] = (do dataRetransmit; pure st)
  keeps : ∀ st r pend out, I st → I ((p.round st r pend).run outbox out).1

/-- The channels between the programs. -/
abbrev Spoken (g : Bool → Program) : Type := Pair fun i => listen (g i)

def Spoken.at (t : Spoken g) : ∀ i, Listener (g i) := t.st

def Spoken.of (at' : ∀ i, Listener (g i)) (queue log : Bool → List Item) : Spoken g := ⟨at', queue, log⟩

@[simp] theorem Spoken.at_of (f : ∀ i, Listener (g i)) (queue log : Bool → List Item) : (Spoken.of f queue log).at = f := rfl
@[simp] theorem Spoken.queue_of (f : ∀ i, Listener (g i)) (queue log : Bool → List Item) :
    (Spoken.of f queue log).queue = queue := rfl
@[simp] theorem Spoken.log_of (f : ∀ i, Listener (g i)) (queue log : Bool → List Item) :
    (Spoken.of f queue log).log = log := rfl

/-- How many records have arrived at a process, and how many frames come before the next item. -/
structure Place where
  past : Nat
  lead : Nat

/-- The segment is where the channels are. -/
structure Tracks (c : TweetNaCl) (l : Line) (I : ∀ i, (g i).State → Prop) (s : Segment g) (t : Spoken g)
    (at' : Bool → Place) : Prop where
  app : ∀ i, (s.proc i).app = (t.at i).app
  steady : ∀ i, I i (t.at i).app
  flow : ∀ i, Flow c l (!i) (at' i).lead (at' i).past (records (t.log i)) (s.wire i) (t.queue i)
  ready : ∀ i, (g i).left (t.at i).app = false →
    Ready l i (records (t.log (!i))) (at' i).past (t.at i).deaf (s.proc i).conn.host.assoc

variable {I : ∀ i, (g i).State → Prop} {s : Segment g} {t : Spoken g} {at' : Bool → Place}

/-- The other process's frames stay in front. -/
def behind (t : Spoken g) (at' : Bool → Place) (i : Bool) (lead : Nat) : Place :=
  { at' (!i) with lead := if t.queue (!i) = [] then (at' (!i)).lead + lead else (at' (!i)).lead }

/-- What one process does to both. -/
theorem Tracks.advance (h : Tracks c l I s t at') {i : Bool} {x : Process (g i)} {y : Listener (g i)} {p : Place}
    {lead : Nat} {rest out : List Bytes} {queue items : List Item} (happ : x.app = y.app) (hsteady : I i y.app)
    (hin : Flow c l (!i) p.lead p.past (records (t.log i)) rest queue)
    (hout : Flow c l i lead (records (t.log (!i))) (records (t.log (!i) ++ items)) out items)
    (hready : (g i).left y.app = false → Ready l i (records (t.log (!i) ++ items)) p.past y.deaf x.conn.host.assoc) :
    Tracks c l I
      { proc := Function.update s.proc i x
        wire := Function.update (Function.update s.wire i rest) (!i) (s.wire (!i) ++ out) }
      (Spoken.of (Function.update t.at i y) (Function.update (Function.update t.queue i queue) (!i) (t.queue (!i) ++ items))
        (Function.update t.log (!i) (t.log (!i) ++ items)))
      (Function.update (Function.update at' i p) (!i) (behind t at' i lead)) := by
  have hni := Bool.not_ne_self i
  constructor
  · refine forall_ends i ?_ ?_
    · simp [happ]
    · simp [h.app (!i)]
  · refine forall_ends i ?_ ?_
    · simp [hsteady]
    · simp [h.steady (!i)]
  · refine forall_ends i ?_ ?_
    · simp only [Spoken.queue_of, Spoken.log_of, Function.update_self, Function.update_of_ne hni.symm]
      exact hin
    · have hflow := h.flow (!i)
      rw [Bool.not_not] at hflow
      simp only [Spoken.queue_of, Spoken.log_of, Function.update_self, Bool.not_not]
      exact hflow.append hout
  · refine forall_ends i ?_ ?_
    · simp only [Spoken.at_of, Spoken.log_of, Function.update_self, Function.update_of_ne hni.symm]
      exact hready
    · have hready' := h.ready (!i)
      rw [Bool.not_not] at hready'
      simp only [Spoken.at_of, Spoken.log_of, Function.update_of_ne hni, Function.update_self, Bool.not_not,
        Function.update_of_ne hni.symm]
      exact hready'

theorem Process.round_left {p : Program} {x : Process p} (c : TweetNaCl) (e : Circumstances) (rx : Icsp.Rx)
    (h : p.left x.app = true) : x.round c e rx = (x, []) := by
  rw [Process.round, if_pos h]

/-- A round of a process that has not left, from what its poll leaves behind. -/
theorem Polled.round {p : Program} {x : Process p} {e : Circumstances} {rx : Icsp.Rx} {r : Int} {pend : Bytes}
    {past : Nat} {deaf : Bool} {log final items : List Item} {st : p.State}
    (hp : Polled c e l i (records log) past deaf x.conn rx r pend) (hleft : p.left x.app = false)
    (hb : Bounded (l.first i) final) (hround : (p.round x.app r pend).run outbox [] = (st, items))
    (hfits : log ++ items <+: final) :
    (x.round c e rx).1.app = st ∧
      (∃ d, Flow c l i d (records log) (records (log ++ items)) (x.round c e rx).2 items) ∧
      Ready l i (records (log ++ items)) past deaf (x.round c e rx).1.conn.host.assoc := by
  have hstart : Sending c l i past deaf log ((x.conn.poll c e rx).1, (x.conn.poll c e rx).2.1) [] := by
    constructor
    · rw [List.append_nil]
      exact ⟨_, Flow.asides hp.frames⟩
    · rw [List.append_nil]
      exact hp.ready
  have hfits' : log ++ ((p.round x.app r pend).run outbox []).2 <+: final := by rwa [hround]
  obtain ⟨happ, hsending⟩ := Sending.run (e := e) hb (p.round x.app r pend) hstart hfits'
  rw [hround] at happ hsending
  have hx : x.round c e rx =
      (⟨((p.round x.app r pend).run (assocPort c e) ((x.conn.poll c e rx).1, (x.conn.poll c e rx).2.1)).1,
        ((p.round x.app r pend).run (assocPort c e) ((x.conn.poll c e rx).1, (x.conn.poll c e rx).2.1)).2.1⟩,
        ((p.round x.app r pend).run (assocPort c e) ((x.conn.poll c e rx).1, (x.conn.poll c e rx).2.1)).2.2) := by
    have hres := hp.result
    rw [Process.round, if_neg (by rw [hleft]; exact Bool.noConfusion)]
    generalize x.conn.poll c e rx = polled at hres ⊢
    obtain ⟨k, out, r', pend'⟩ := polled
    obtain ⟨rfl, rfl⟩ := Prod.mk.inj hres
    rfl
  rw [hx]
  exact ⟨happ, hsending.flow, hsending.ready⟩

/-- The segment without the frames in front of `rest`. -/
def Segment.taken (s : Segment g) (i : Bool) (rest : List Bytes) : Segment g :=
  { s with wire := Function.update s.wire i rest }

theorem Segment.taken_same (s : Segment g) (i : Bool) : s.taken i (s.wire i) = s := by
  rw [Segment.taken, Function.update_eq_self]

theorem Segment.round_taken (c : TweetNaCl) (e : Bool → Circumstances) (s : Segment g) (i : Bool) (rest : List Bytes)
    (rx : Icsp.Rx) :
    (s.taken i rest).round c e i rx =
      { proc := Function.update s.proc i ((s.proc i).round c (e i) rx).1
        wire := Function.update (Function.update s.wire i rest) (!i) (s.wire (!i) ++ ((s.proc i).round c (e i) rx).2) } := by
  simp [Segment.round, Segment.taken]

section Tracking

variable {e : Bool → Circumstances} {final : Bool → List Item}

/-- A round of one process: of one that has left, and of one that has not. -/
theorem Tracks.rounds (h : Tracks c l I s t at') (hs : ∀ i, Steady (g i) (I i))
    (hb : ∀ i, Bounded (l.first i) (final (!i))) {i : Bool} {rx : Icsp.Rx} {y : Listener (g i)} {p : Place}
    {rest : List Bytes} {queue items : List Item} (hin : Flow c l (!i) p.lead p.past (records (t.log i)) rest queue)
    (hleft : (g i).left (t.at i).app = true → y = t.at i ∧ items = [])
    (hpoll : (g i).left (t.at i).app = false → ∃ r pend,
      Polled c (e i) l i (records (t.log (!i))) p.past y.deaf (s.proc i).conn rx r pend ∧
      ((g i).round (t.at i).app r pend).run outbox [] = (y.app, items))
    (hfits : t.log (!i) ++ items <+: final (!i)) :
    ∃ lead, Tracks c l I ((s.taken i rest).round c e i rx)
      (Spoken.of (Function.update t.at i y) (Function.update (Function.update t.queue i queue) (!i) (t.queue (!i) ++ items))
        (Function.update t.log (!i) (t.log (!i) ++ items)))
      (Function.update (Function.update at' i p) (!i) (behind t at' i lead)) := by
  rw [Segment.round_taken]
  have happ := h.app i
  cases hl : (g i).left (t.at i).app with
  | true =>
    obtain ⟨rfl, rfl⟩ := hleft hl
    rw [Process.round_left c (e i) rx (by rw [happ]; exact hl)]
    refine ⟨0, h.advance happ (h.steady i) hin ?_ fun hno => ?_⟩
    · rw [List.append_nil]
      exact .nil _
    · rw [hl] at hno
      cases hno
  | false =>
    obtain ⟨r, pend, hpolled, hround⟩ := hpoll hl
    have hround' : ((g i).round (s.proc i).app r pend).run outbox [] = (y.app, items) := by rwa [happ]
    obtain ⟨hst, ⟨lead, hflow⟩, hready⟩ := hpolled.round (by rw [happ]; exact hl) (hb i) hround' hfits
    have hkeeps := (hs i).keeps (t.at i).app r pend [] (h.steady i)
    rw [hround] at hkeeps
    exact ⟨lead, h.advance hst hkeeps hin hflow fun _ => hready⟩

/-- A round that the channels do not see. -/
theorem Tracks.stutters (h : Tracks c l I s t at') (hs : ∀ i, Steady (g i) (I i))
    (hb : ∀ i, Bounded (l.first i) (final (!i))) {i : Bool} {rx : Icsp.Rx} {p : Place} {rest : List Bytes}
    (hin : Flow c l (!i) p.lead p.past (records (t.log i)) rest (t.queue i))
    (hpoll : (g i).left (t.at i).app = false → Polled c (e i) l i (records (t.log (!i))) p.past (t.at i).deaf
      (s.proc i).conn rx Icsp.icspPollTimeout [])
    (hfits : t.log (!i) <+: final (!i)) :
    ∃ lead, Tracks c l I ((s.taken i rest).round c e i rx) t
      (Function.update (Function.update at' i p) (!i) (behind t at' i lead)) := by
  have hsame : t = Spoken.of (Function.update t.at i (t.at i))
      (Function.update (Function.update t.queue i (t.queue i)) (!i) (t.queue (!i) ++ []))
      (Function.update t.log (!i) (t.log (!i) ++ [])) := by
    simp only [Function.update_eq_self, List.append_nil]
    rfl
  have hrounds : ∃ lead, Tracks c l I ((s.taken i rest).round c e i rx) (Spoken.of (Function.update t.at i (t.at i))
      (Function.update (Function.update t.queue i (t.queue i)) (!i) (t.queue (!i) ++ []))
      (Function.update t.log (!i) (t.log (!i) ++ []))) (Function.update (Function.update at' i p) (!i) (behind t at' i lead)) :=
    h.rounds hs hb hin (fun _ => ⟨rfl, rfl⟩)
      (fun hl => ⟨_, _, hpoll hl, by rw [(hs i).idle _ (h.steady i) hl]; rfl⟩) (by rwa [List.append_nil])
  rwa [← hsame] at hrounds

/-- A round that takes the next item. -/
theorem Tracks.moves (h : Tracks c l I s t at') (hs : ∀ i, Steady (g i) (I i))
    (hb : ∀ i, Bounded (l.first i) (final (!i))) {i : Bool} {rx : Icsp.Rx} {p : Place} {rest : List Bytes} {x : Item}
    {queue : List Item} (hq : t.queue i = x :: queue)
    (hin : Flow c l (!i) p.lead p.past (records (t.log i)) rest queue)
    (hpoll : (g i).left (t.at i).app = false → ∃ r pend,
      Polled c (e i) l i (records (t.log (!i))) p.past ((listen (g i)).take (t.at i) x).1.deaf (s.proc i).conn rx r pend ∧
      ((g i).round (t.at i).app r pend).run outbox [] =
        (((listen (g i)).take (t.at i) x).1.app, ((listen (g i)).take (t.at i) x).2))
    (hfits : (t.step i).log (!i) <+: final (!i)) :
    ∃ lead, Tracks c l I ((s.taken i rest).round c e i rx) (t.step i)
      (Function.update (Function.update at' i p) (!i) (behind t at' i lead)) := by
  have hstep : t.step i = Spoken.of (Function.update t.at i ((listen (g i)).take (t.at i) x).1)
      (Function.update (Function.update t.queue i queue) (!i) (t.queue (!i) ++ ((listen (g i)).take (t.at i) x).2))
      (Function.update t.log (!i) (t.log (!i) ++ ((listen (g i)).take (t.at i) x).2)) := Pair.step_cons hq
  rw [hstep] at hfits ⊢
  refine h.rounds hs hb hin (fun hl => ?_) hpoll ?_
  · have htake : (listen (g i)).take (t.at i) x = (t.at i, []) := if_pos hl
    rw [htake]
    exact ⟨rfl, rfl⟩
  · simpa using hfits

/-- Where an event leads: the channels stay where they are, or one of them moves. -/
inductive Follows (c : TweetNaCl) (l : Line) (I : ∀ i, (g i).State → Prop) (t : Spoken g) (at' : Bool → Place)
    (ev : SegmentEv) (s' : Segment g) : Prop where
  | idle (p : Bool → Place) (h : Tracks c l I s' t p)
      (hlead : ∀ i, t.queue i ≠ [] → (p i).lead ≤ (at' i).lead ∧ (ev = .frame i → (p i).lead < (at' i).lead))
  | moved (i : Bool) (hq : t.queue i ≠ []) (p : Bool → Place) (h : Tracks c l I s' (t.step i) p)

/-- What stutters puts frames of the other process behind those that are on their way. -/
theorem Follows.of_stutter {ev : SegmentEv} {s' : Segment g} {i : Bool} {p : Place}
    (h : ∃ lead, Tracks c l I s' t (Function.update (Function.update at' i p) (!i) (behind t at' i lead)))
    (hp : t.queue i ≠ [] → p.lead ≤ (at' i).lead ∧ (ev = .frame i → p.lead < (at' i).lead))
    (hev : ev ≠ .frame (!i)) : Follows c l I t at' ev s' := by
  obtain ⟨lead, h⟩ := h
  have hni := Bool.not_ne_self i
  refine .idle _ h (forall_ends i ?_ ?_)
  · simp only [Function.update_self, Function.update_of_ne hni.symm]
    exact hp
  · intro hq
    simp only [Function.update_self, behind, if_neg hq]
    exact ⟨le_rfl, fun heq => absurd heq hev⟩

variable {fin : Spoken g}

/-- The next frame carries a record. -/
theorem Tracks.takes_record (h : Tracks c l I s t at') (hs : ∀ i, Steady (g i) (I i))
    (hb : ∀ i, Bounded (l.first i) (fin.log (!i))) {i : Bool} {d : Nat} {frame rec : Bytes} {frames : List Bytes}
    {items : List Item} (hqueue : t.queue i = .record rec :: items)
    (hpost : Posts c l.toSession (!i) (.data (l.msg (!i) (at' i).past rec)) frame)
    (hin : Flow c l (!i) d ((at' i).past + 1) (records (t.log i)) frames items) (hmem : .record rec ∈ fin.log i)
    (hcount : records (t.log i) ≤ records (fin.log i)) (hfits : (t.step i).log (!i) <+: fin.log (!i)) :
    ∃ lead, Tracks c l I ((s.taken i frames).round c e i ((e i).rx (s.proc i).conn.calls frame)) (t.step i)
      (Function.update (Function.update at' i ⟨(at' i).past + 1, d⟩) (!i) (behind t at' i lead)) := by
  refine h.moves hs hb hqueue hin (fun hleft => ?_) hfits
  have hbound := hb (!i)
  rw [Bool.not_not] at hbound
  have htsns := hbound.tsns
  have hseqs := hbound.seqs
  have hle := hin.le
  obtain ⟨hne, hfit⟩ := hbound.sizes rec hmem
  have hpolls := (h.ready i hleft).polls_record (e := e i) hne hfit (by omega) (by omega) hpost
  have hnot : ¬ (g i).left (t.at i).app = true := by
    rw [hleft]
    exact Bool.noConfusion
  by_cases hdeaf : (t.at i).deaf = true ∨ Icsp.maxOpenable < rec.length
  · rw [if_pos hdeaf] at hpolls
    have htake : (listen (g i)).take (t.at i) (.record rec) = ({ t.at i with deaf := true }, []) :=
      hear_long hleft hdeaf
    rw [htake]
    refine ⟨_, _, hpolls, ?_⟩
    rw [(hs i).idle _ (h.steady i) hleft]
    rfl
  · rw [if_neg hdeaf] at hpolls
    rw [not_or, Bool.not_eq_true, Nat.not_lt] at hdeaf
    have htake := hear hleft hdeaf.1 hdeaf.2 (rfl : ((g i).round (t.at i).app Icsp.icspPollData rec).run outbox [] = _)
    rw [htake]
    exact ⟨_, _, hpolls, rfl⟩

/-- The next frame says goodbye. -/
theorem Tracks.takes_bye (h : Tracks c l I s t at') (hs : ∀ i, Steady (g i) (I i))
    (hb : ∀ i, Bounded (l.first i) (fin.log (!i))) {i : Bool} {d : Nat} {frame : Bytes} {frames : List Bytes}
    {items : List Item} (hqueue : t.queue i = .bye :: items) (hpost : Posts c l.toSession (!i) .shutdown frame)
    (hin : Flow c l (!i) d (at' i).past (records (t.log i)) frames items)
    (hfits : (t.step i).log (!i) <+: fin.log (!i)) :
    ∃ lead, Tracks c l I ((s.taken i frames).round c e i ((e i).rx (s.proc i).conn.calls frame)) (t.step i)
      (Function.update (Function.update at' i ⟨(at' i).past, d⟩) (!i) (behind t at' i lead)) := by
  refine h.moves hs hb hqueue hin (fun hleft => ?_) hfits
  have htake := hear_bye hleft (rfl : ((g i).round (t.at i).app Icsp.icspPollClosed []).run outbox [] = _)
  rw [htake]
  exact ⟨_, _, (h.ready i hleft).polls_shutdown hpost, rfl⟩

/-- Every event of the segment is a move of the channels, or none. -/
theorem Tracks.step (h : Tracks c l I s t at') (hs : ∀ i, Steady (g i) (I i))
    (hb : ∀ i, Bounded (l.first i) (fin.log (!i))) {k : Nat} (hl : Leads k t fin) (hq : fin.Quiet) (hlogged : t.Logged)
    (ev : SegmentEv) : Follows c l I t at' ev (s.step c e ev) := by
  have hlog := fun j => hl.log j
  cases ev with
  | timeout i =>
    have hstutter := h.stutters (e := e) hs hb (h.flow i) (fun hleft => (h.ready i hleft).polls_nothing) (hlog (!i))
    rw [Segment.taken_same] at hstutter
    exact .of_stutter hstutter (fun _ => ⟨le_rfl, fun heq => nomatch heq⟩) (fun heq => nomatch heq)
  | frame i =>
    have hflow := h.flow i
    rw [Segment.step]
    cases hwire : s.wire i with
    | nil =>
      rw [hwire] at hflow
      refine .idle at' h fun j hj => ⟨le_rfl, fun heq => ?_⟩
      obtain rfl := SegmentEv.frame.inj heq
      exact absurd hflow.none hj
    | cons frame rest =>
      -- the move that an item makes fits the end of the run
      have hmoved : ∀ x items, t.queue i = x :: items → t.queue i ≠ [] ∧ (t.step i).log (!i) <+: fin.log (!i) := by
        intro x items hqueue
        have hne : t.queue i ≠ [] := by
          rw [hqueue]
          exact List.cons_ne_nil x items
        obtain ⟨k', -, hrest⟩ := hl.strip hq hne
        exact ⟨hne, hrest.log (!i)⟩
      rw [hwire] at hflow
      generalize hpast : (at' i).past = past at hflow
      generalize hlead : (at' i).lead = lead at hflow
      generalize hqueue : t.queue i = queue at hflow
      cases hflow with
      | record hpost hin =>
        rename_i d rec items
        obtain ⟨hne, hfits⟩ := hmoved _ _ hqueue
        have hmem : .record rec ∈ fin.log i := by
          refine (hlog i).subset ((hlogged i).subset ?_)
          rw [hqueue]
          exact List.mem_cons_self
        rw [← hpast] at hpost hin
        obtain ⟨lead, htracks⟩ := h.takes_record (e := e) hs hb hqueue hpost hin hmem
          ((hlog i).sublist.countP_le (p := Item.isRecord)) hfits
        exact .moved i hne _ htracks
      | aside hx hpost hin =>
        rename_i d x
        have hstutter := h.stutters (e := e) (p := ⟨past, d⟩) hs hb (by rw [hqueue]; exact hin)
          (fun hleft => (hpast ▸ h.ready i hleft).polls_aside hx hpost) (hlog (!i))
        exact .of_stutter hstutter (fun _ => by rw [hlead]; exact ⟨Nat.le_succ d, fun _ => Nat.lt_succ_self d⟩)
          (fun heq => Bool.not_ne_self i (SegmentEv.frame.inj heq).symm)
      | bye hpost hin =>
        obtain ⟨hne, hfits⟩ := hmoved _ _ hqueue
        rw [← hpast] at hin
        obtain ⟨lead, htracks⟩ := h.takes_bye (e := e) hs hb hqueue hpost hin hfits
        exact .moved i hne _ htracks

end Tracking

end Bite
