import BaitNet.Text

/-!
# Lines of standard input

`icsp_session.c` on POSIX: `relay_send_line`, `relay_stdin` and the calls that `icsp_relay` makes of it.
Pieces of the input are collected in a buffer and sent line by line. Each message is a line of the
input and each line is a message, but for a last line that no newline ends.
-/
namespace Icsp

open Wire Text

def maxPayload : Nat := 1400

/-- What the relay does not decide itself. -/
structure RelayEnv where
  /-- `isatty(0)` -/
  tty : Bool
  /-- whether `icsp_data_send` succeeds -/
  dataSend : Bytes → Bool
  /-- what stands in memory behind the bytes of `inbuf` -/
  stale : Bytes → Bytes

/-- What `poll` and `read` say when they are asked for input. -/
inductive Answer where
  /-- `poll` reports nothing to read -/
  | quiet
  /-- `read` fails with EINTR or EAGAIN -/
  | interrupted
  /-- `read` fails in another way -/
  | broken
  /-- `read` takes `k + 1` bytes, or as many as there are and fit -/
  | ready (k : Nat)
  deriving DecidableEq

/-- `inbuf` up to `inlen`, the input not yet read, the messages handed to `icsp_data_send` and `use_stdin`. -/
structure Relay where
  inbuf : Bytes
  input : Bytes
  sent : List Bytes
  useStdin : Bool
  deriving DecidableEq

/-- What `relay_stdin` returns. -/
inductive Returned where
  /-- `-1` -/
  | error
  /-- `0` -/
  | idle
  /-- `1` -/
  | line
  /-- `2` -/
  | eof
  deriving DecidableEq

def trimEnd (line : Bytes) : Bytes := line.rdropWhile fun ch => ch = 10 ∨ ch = 13

variable (env : RelayEnv)

/-- `relay_send_line`: the message, if there is one, and whether it is not `-1`. -/
def relaySendLine (line : Bytes) : List Bytes × Bool :=
  let text := trimEnd (line.takeWhile (· ≠ 0))
  if text = [] then ([], true) else ([text], env.dataSend text)

/-- A line that is already buffered. A line that is too long is cut, and the rest is moved by the cut length. -/
def relayLine (front behind : Bytes) (r : Relay) : Returned × Relay :=
  let l := min front.length (maxPayload - 1)
  let (msgs, ok) := relaySendLine env (front.take l)
  (if ok then .line else .error,
    { r with inbuf := (behind ++ env.stale r.inbuf).take (r.inbuf.length - l - 1), sent := r.sent ++ msgs })

/-- `relay_stdin`; `none` while it waits for an answer. -/
def relayStdin (answers : List Answer) (r : Relay) : Option (Returned × Relay × List Answer) :=
  match splitFirst 10 r.inbuf with
  | some (front, behind) =>
    let (ret, r) := relayLine env front behind r
    some (ret, r, answers)
  | none =>
    let inbuf := if 2 * maxPayload ≤ r.inbuf.length then [] else r.inbuf
    match answers with
    | [] => none
    | .quiet :: answers => some (.idle, { r with inbuf }, answers)
    | .interrupted :: answers => some (.idle, { r with inbuf }, answers)
    | .broken :: answers => some (.error, { r with inbuf }, answers)
    | .ready k :: answers =>
      if r.input = [] then
        if env.tty then some (.eof, { r with inbuf }, answers)
        else some (.idle, { r with inbuf, useStdin := false }, answers)
      else
        let n := min (k + 1) (2 * maxPayload - inbuf.length)
        relayStdin answers { r with inbuf := inbuf ++ r.input.take n, input := r.input.drop n }

inductive Status where
  | relaying
  | endOfInput
  | error
  deriving DecidableEq

/-- The calls that `icsp_relay` makes, `n` at most. -/
def relayCalls : Nat → List Answer → Relay → Status × Relay
  | 0, _, r => (.relaying, r)
  | n + 1, answers, r =>
    match relayStdin env answers r with
    | none => (.relaying, r)
    | some (.error, r, _) => (.error, r)
    | some (.eof, r, _) => (.endOfInput, r)
    | some (_, r, answers) => if r.useStdin then relayCalls n answers r else (.endOfInput, r)

def Relay.start (input : Bytes) : Relay := ⟨[], input, [], true⟩

/-- The pieces between the newlines, the last one included. -/
def lines (s : Bytes) : List Bytes := s.splitOn 10

theorem lines_ne_nil (s : Bytes) : lines s ≠ [] := List.splitOn_ne_nil 10 s

/-- The messages of some lines. -/
def texts (ls : List Bytes) : List Bytes := (ls.map trimEnd).filter (· ≠ [])

/-- Every line of the input that is not empty, without its end. -/
def messages (s : Bytes) : List Bytes := texts (lines s)

/-- What stands behind the last newline. -/
def lastLine (s : Bytes) : Bytes := (lines s).getLast (lines_ne_nil s)

theorem lines_append {front : Bytes} (h : 10 ∉ front) (behind : Bytes) :
    lines (front ++ 10 :: behind) = front :: lines behind := by
  rw [lines, List.splitOn_append_cons_self_of_not_mem h]
  rfl

theorem lines_single {s : Bytes} (h : 10 ∉ s) : lines s = [s] := List.splitOn_eq_singleton h

theorem lastLine_append {front : Bytes} (h : 10 ∉ front) (behind : Bytes) :
    lastLine (front ++ 10 :: behind) = lastLine behind := by
  simp only [lastLine, lines_append h, List.getLast_cons (lines_ne_nil behind)]

/-- The messages of the lines that a newline ends. -/
def endedMessages (s : Bytes) : List Bytes := texts (lines s).dropLast

theorem texts_append (a b : List Bytes) : texts (a ++ b) = texts a ++ texts b := by
  simp only [texts, List.map_append, List.filter_append]

theorem messages_eq (s : Bytes) : messages s = endedMessages s ++ texts [lastLine s] := by
  rw [messages, endedMessages, ← texts_append, lastLine, List.dropLast_append_getLast]

theorem endedMessages_append {front : Bytes} (h : 10 ∉ front) (behind : Bytes) :
    endedMessages (front ++ 10 :: behind) = texts [front] ++ endedMessages behind := by
  rw [endedMessages, lines_append h, List.dropLast_cons_of_ne_nil (lines_ne_nil behind), ← List.singleton_append,
    texts_append]
  rfl

theorem endedMessages_single {s : Bytes} (h : 10 ∉ s) : endedMessages s = [] := by
  rw [endedMessages, lines_single h]
  rfl

/-- A piece without a newline is part of the first line. -/
theorem first_line_length {p : Bytes} (h : 10 ∉ p) (r : Bytes) : ∃ l ∈ lines (p ++ r), p.length ≤ l.length := by
  by_cases hr : 10 ∈ r
  · obtain ⟨a, b, rfl, ha⟩ := List.eq_append_cons_of_mem hr
    have hpa : (10 : UInt8) ∉ p ++ a := List.not_mem_append h ha
    refine ⟨p ++ a, ?_, ?_⟩
    · rw [← List.append_assoc, lines_append hpa]
      exact List.mem_cons_self
    · rw [List.length_append]
      omega
  · refine ⟨p ++ r, ?_, ?_⟩
    · rw [lines_single (List.not_mem_append h hr)]
      exact List.mem_singleton_self _
    · rw [List.length_append]
      omega

theorem splitFirst_some {x : UInt8} {s a b : Bytes} (h : splitFirst x s = some (a, b)) : s = a ++ x :: b ∧ x ∉ a := by
  by_cases hx : x ∈ s
  · obtain ⟨c, d, rfl, hc⟩ := List.eq_append_cons_of_mem hx
    rw [splitFirst_append hc] at h
    cases h
    exact ⟨rfl, hc⟩
  · rw [splitFirst_none hx] at h
    cases h

theorem splitFirst_eq_none {x : UInt8} {s : Bytes} (h : splitFirst x s = none) : x ∉ s := by
  intro hx
  obtain ⟨a, b, rfl, ha⟩ := List.eq_append_cons_of_mem hx
  rw [splitFirst_append ha] at h
  cases h

/-- What is sent and what is still to be sent make up the messages of `stream`. -/
structure Relay.Keeps (stream : Bytes) (r : Relay) : Prop where
  sent : r.sent ++ endedMessages (r.inbuf ++ r.input) = endedMessages stream
  last : lastLine (r.inbuf ++ r.input) = lastLine stream
  short : ∀ l ∈ lines (r.inbuf ++ r.input), l.length < maxPayload
  plain : 0 ∉ r.inbuf ++ r.input

/-- Nothing is left to read, and no line in the buffer is complete. -/
def Relay.Exhausted (r : Relay) : Prop := r.input = [] ∧ 10 ∉ r.inbuf

theorem Relay.keeps_start {stream : Bytes} (hplain : 0 ∉ stream) (hshort : ∀ l ∈ lines stream, l.length < maxPayload) :
    (Relay.start stream).Keeps stream := ⟨rfl, rfl, hshort, hplain⟩

variable {env} {stream : Bytes} {r : Relay}

/-- The buffer never fills up. -/
theorem Relay.Keeps.room (h : r.Keeps stream) (hline : 10 ∉ r.inbuf) : r.inbuf.length < maxPayload := by
  obtain ⟨l, hl, hle⟩ := first_line_length hline r.input
  exact hle.trans_lt (h.short l hl)

/-- Reading moves bytes from the input to the buffer. -/
theorem Relay.Keeps.read (h : r.Keeps stream) (n : Nat) :
    Relay.Keeps stream { r with inbuf := r.inbuf ++ r.input.take n, input := r.input.drop n } := by
  have hsame : (r.inbuf ++ r.input.take n) ++ r.input.drop n = r.inbuf ++ r.input := by
    rw [List.append_assoc, List.take_append_drop]
  exact ⟨by rw [hsame]; exact h.sent, by rw [hsame]; exact h.last, by rw [hsame]; exact h.short,
    by rw [hsame]; exact h.plain⟩

/-- A line that fits is sent whole, and the rest stays. -/
theorem relayLine_eq {front behind : Bytes} (hshort : front.length < maxPayload) (hplain : 0 ∉ front)
    (hsplit : r.inbuf = front ++ 10 :: behind) :
    relayLine env front behind r =
      (if (relaySendLine env front).2 then .line else .error,
        { r with inbuf := behind, sent := r.sent ++ texts [front] }) := by
  have hmin : min front.length (maxPayload - 1) = front.length := by omega
  have hcstr : front.takeWhile (· ≠ 0) = front :=
    List.takeWhile_eq_self_iff.mpr fun x hx => decide_eq_true fun hz => hplain (hz ▸ hx)
  have hlen : r.inbuf.length - front.length - 1 = behind.length := by
    rw [hsplit, List.length_append, List.length_cons]
    omega
  have hmsgs : (relaySendLine env front).1 = texts [front] := by
    simp only [relaySendLine, hcstr, texts, List.map_cons, List.map_nil]
    split
    · rename_i hnil
      rw [hnil]
      rfl
    · rename_i hne
      simp [hne]
  simp only [relayLine, hmin, List.take_length, hlen, List.take_left', hmsgs]

theorem relayLine_keeps (h : r.Keeps stream) {front behind : Bytes} (hsplit : r.inbuf = front ++ 10 :: behind)
    (hfront : 10 ∉ front) : (relayLine env front behind r).2.Keeps stream := by
  have hall : r.inbuf ++ r.input = front ++ 10 :: (behind ++ r.input) := by
    rw [hsplit, List.append_assoc, List.cons_append]
  have hlines := lines_append hfront (behind ++ r.input)
  rw [← hall] at hlines
  have hshort := h.short front (by rw [hlines]; exact List.mem_cons_self)
  have hplain := h.plain
  rw [hall, List.mem_append, not_or, List.mem_cons, not_or] at hplain
  rw [relayLine_eq hshort hplain.1 hsplit]
  refine ⟨?_, ?_, ?_, hplain.2.2⟩
  · rw [← h.sent, hall, endedMessages_append hfront, List.append_assoc]
  · rw [← h.last, hall, lastLine_append hfront]
  · intro l hl
    exact h.short l (by rw [hlines]; exact List.mem_cons_of_mem front hl)

theorem relayStdin_line {front behind : Bytes} (hsplit : splitFirst 10 r.inbuf = some (front, behind))
    (answers : List Answer) :
    relayStdin env answers r = some ((relayLine env front behind r).1, (relayLine env front behind r).2, answers) := by
  rw [relayStdin.eq_def, hsplit]

/-- How many bytes `read` takes. -/
def Relay.readLen (r : Relay) (k : Nat) : Nat := min (k + 1) (2 * maxPayload - r.inbuf.length)

/-- `read` takes some bytes. -/
def Relay.afterRead (r : Relay) (k : Nat) : Relay :=
  { r with inbuf := r.inbuf ++ r.input.take (r.readLen k), input := r.input.drop (r.readLen k) }

/-- Without a complete line the next answer decides. -/
theorem relayStdin_read (hline : 10 ∉ r.inbuf) (hroom : r.inbuf.length < maxPayload) (answers : List Answer) :
    relayStdin env answers r =
      match answers with
      | [] => none
      | .quiet :: answers => some (.idle, r, answers)
      | .interrupted :: answers => some (.idle, r, answers)
      | .broken :: answers => some (.error, r, answers)
      | .ready k :: answers =>
        if r.input = [] then
          if env.tty then some (.eof, r, answers) else some (.idle, { r with useStdin := false }, answers)
        else relayStdin env answers (r.afterRead k) := by
  rw [relayStdin.eq_def, splitFirst_none hline]
  simp only [if_neg (show ¬ 2 * maxPayload ≤ r.inbuf.length by omega)]
  rfl

variable (env) in
/-- What a call can do while the buffer has room. -/
inductive Relay.Call : List Answer → Relay → Returned → Relay → List Answer → Prop
  | line {answers : List Answer} {r : Relay} {front behind : Bytes}
      (hsplit : splitFirst 10 r.inbuf = some (front, behind)) :
      Relay.Call answers r (relayLine env front behind r).1 (relayLine env front behind r).2 answers
  | nothing {answer : Answer} {answers : List Answer} {r : Relay} (hanswer : answer = .quiet ∨ answer = .interrupted) :
      Relay.Call (answer :: answers) r .idle r answers
  | broken {answers : List Answer} {r : Relay} : Relay.Call (.broken :: answers) r .error r answers
  | console {k : Nat} {answers : List Answer} {r : Relay} (hend : r.Exhausted) :
      Relay.Call (.ready k :: answers) r .eof r answers
  | pipe {k : Nat} {answers : List Answer} {r : Relay} (hend : r.Exhausted) :
      Relay.Call (.ready k :: answers) r .idle { r with useStdin := false } answers
  | read {k : Nat} {answers answers' : List Answer} {r r' : Relay} {ret : Returned} (hinput : r.input ≠ [])
      (hroom : r.inbuf.length < maxPayload) (hrest : Relay.Call answers (r.afterRead k) ret r' answers') :
      Relay.Call (.ready k :: answers) r ret r' answers'

theorem relayStdin_call {answers answers' : List Answer} {ret : Returned} {r' : Relay} (h : r.Keeps stream)
    (hcall : relayStdin env answers r = some (ret, r', answers')) : Relay.Call env answers r ret r' answers' := by
  induction answers generalizing r with
  | nil =>
    cases hsplit : splitFirst 10 r.inbuf with
    | none =>
      have hline := splitFirst_eq_none hsplit
      rw [relayStdin_read hline (h.room hline)] at hcall
      cases hcall
    | some p =>
      rw [relayStdin_line hsplit] at hcall
      cases hcall
      exact .line hsplit
  | cons answer answers ih =>
    cases hsplit : splitFirst 10 r.inbuf with
    | none =>
      have hline := splitFirst_eq_none hsplit
      rw [relayStdin_read hline (h.room hline)] at hcall
      cases answer with
      | quiet =>
        cases hcall
        exact .nothing (.inl rfl)
      | interrupted =>
        cases hcall
        exact .nothing (.inr rfl)
      | broken =>
        cases hcall
        exact .broken
      | ready k =>
        dsimp only at hcall
        split at hcall
        · rename_i hinput
          split at hcall
          · cases hcall
            exact .console ⟨hinput, hline⟩
          · cases hcall
            exact .pipe ⟨hinput, hline⟩
        · rename_i hinput
          exact .read hinput (h.room hline) (ih (h.read _) hcall)
    | some p =>
      rw [relayStdin_line hsplit] at hcall
      cases hcall
      exact .line hsplit

/-- What a call keeps, and that it stops at the end of the input only. -/
theorem Relay.Call.keeps {answers answers' : List Answer} {ret : Returned} {r' : Relay}
    (hcall : Relay.Call env answers r ret r' answers') (h : r.Keeps stream) (huse : r.useStdin = true) :
    r'.Keeps stream ∧ (ret = .eof ∨ r'.useStdin = false → r'.Exhausted) := by
  induction hcall with
  | line hsplit =>
    obtain ⟨hbuf, hfront⟩ := splitFirst_some hsplit
    refine ⟨relayLine_keeps h hbuf hfront, ?_⟩
    rintro (hret | hstop)
    · simp only [relayLine] at hret
      split at hret
      · cases hret
      · cases hret
    · rw [relayLine, huse] at hstop
      cases hstop
  | nothing hanswer =>
    refine ⟨h, ?_⟩
    rintro (hret | hstop)
    · cases hret
    · rw [huse] at hstop
      cases hstop
  | broken =>
    refine ⟨h, ?_⟩
    rintro (hret | hstop)
    · cases hret
    · rw [huse] at hstop
      cases hstop
  | console hend => exact ⟨h, fun _ => hend⟩
  | pipe hend => exact ⟨⟨h.sent, h.last, h.short, h.plain⟩, fun _ => hend⟩
  | read hinput hroom hrest ih => exact ih (h.read _) huse

/-- When the relay has seen the end of its input, everything but the last line is sent. -/
theorem relayCalls_exhausted {n : Nat} {answers : List Answer} {r' : Relay} (h : r.Keeps stream)
    (huse : r.useStdin = true) (hcalls : relayCalls env n answers r = (.endOfInput, r')) : r'.Keeps stream ∧ r'.Exhausted := by
  induction n generalizing r answers with
  | zero => cases hcalls
  | succ n ih =>
    rw [relayCalls] at hcalls
    split at hcalls
    · cases hcalls
    · cases hcalls
    · rename_i r₁ answers₁ hcall
      cases hcalls
      obtain ⟨hkeeps, hend⟩ := (relayStdin_call h hcall).keeps h huse
      exact ⟨hkeeps, hend (.inl rfl)⟩
    · rename_i hcall
      obtain ⟨hkeeps, hend⟩ := (relayStdin_call h hcall).keeps h huse
      split at hcalls
      · rename_i huse₁
        exact ih hkeeps huse₁ hcalls
      · rename_i huse₁
        cases hcalls
        exact ⟨hkeeps, hend (.inr (Bool.not_eq_true _ ▸ huse₁))⟩

/-- What was sent at the end of the input. -/
theorem relayCalls_sent {n : Nat} {answers : List Answer} {r' : Relay} (h : r.Keeps stream) (huse : r.useStdin = true)
    (hcalls : relayCalls env n answers r = (.endOfInput, r')) : r'.sent = endedMessages stream := by
  obtain ⟨hkeeps, hinput, hline⟩ := relayCalls_exhausted h huse hcalls
  have hsent := hkeeps.sent
  rwa [hinput, List.append_nil, endedMessages_single hline, List.append_nil] at hsent

def Answer.isReady : Answer → Bool
  | .ready _ => true
  | _ => false

/-- What is still to be done. -/
def Relay.work (answers : List Answer) (r : Relay) : Nat := answers.length + r.inbuf.length + r.input.length

/-- Reading takes a byte at least. -/
theorem Relay.afterRead_input {k : Nat} (hinput : r.input ≠ []) (hroom : r.inbuf.length < maxPayload) :
    (r.afterRead k).input.length < r.input.length ∧
      (r.afterRead k).inbuf.length + (r.afterRead k).input.length = r.inbuf.length + r.input.length := by
  have hlen := List.length_pos_of_ne_nil hinput
  have hread : 0 < r.readLen k := by
    rw [readLen]
    omega
  simp only [afterRead, List.length_append, List.length_take, List.length_drop]
  omega

/-- Sends that succeed and enough input let a call come to its end. -/
theorem Relay.Call.progress {answers answers' : List Answer} {ret : Returned} {r' : Relay}
    (hsend : ∀ m, env.dataSend m = true) (hcall : Relay.Call env answers r ret r' answers')
    (hbroken : .broken ∉ answers) (hready : r.input.length < answers.countP Answer.isReady) :
    ret ≠ .error ∧ (ret = .eof ∨ r'.useStdin = false ∨
      .broken ∉ answers' ∧ r'.input.length < answers'.countP Answer.isReady ∧ r'.work answers' < r.work answers) := by
  induction hcall with
  | @line answers r front behind hsplit =>
    obtain ⟨hbuf, -⟩ := splitFirst_some hsplit
    have hlen : 0 < r.inbuf.length := by
      rw [hbuf, List.length_append, List.length_cons]
      omega
    have hok : (relaySendLine env (front.take (min front.length (maxPayload - 1)))).2 = true := by
      rw [relaySendLine]
      split
      · rfl
      · exact hsend _
    refine ⟨?_, .inr (.inr ⟨hbroken, hready, ?_⟩)⟩
    · simp only [relayLine, hok, if_true]
      exact Returned.noConfusion
    · simp only [work, relayLine, List.length_take]
      omega
  | nothing hanswer =>
    rw [List.mem_cons, not_or] at hbroken
    refine ⟨Returned.noConfusion, .inr (.inr ⟨hbroken.2, ?_, ?_⟩)⟩
    · rcases hanswer with rfl | rfl
      · exact hready
      · exact hready
    · simp only [work, List.length_cons]
      omega
  | broken => exact absurd List.mem_cons_self hbroken
  | console => exact ⟨Returned.noConfusion, .inl rfl⟩
  | pipe => exact ⟨Returned.noConfusion, .inr (.inl rfl)⟩
  | @read k answers answers' r r' ret hinput hroom hrest ih =>
    obtain ⟨hless, hsame⟩ := afterRead_input (k := k) hinput hroom
    rw [List.mem_cons, not_or] at hbroken
    rw [List.countP_cons_of_pos rfl] at hready
    obtain ⟨hret, hnext⟩ := ih hbroken.2 (by omega)
    refine ⟨hret, hnext.imp_right fun hnext => hnext.imp_right fun ⟨hb, hr, hwork⟩ => ⟨hb, hr, ?_⟩⟩
    simp only [work, List.length_cons] at hwork ⊢
    omega

theorem relayStdin_isSome {answers : List Answer} (h : r.Keeps stream)
    (hready : r.input.length < answers.countP Answer.isReady) : ∃ call, relayStdin env answers r = some call := by
  induction answers generalizing r with
  | nil => cases hready
  | cons answer answers ih =>
    cases hsplit : splitFirst 10 r.inbuf with
    | none =>
      have hline := splitFirst_eq_none hsplit
      have hroom := h.room hline
      rw [relayStdin_read hline hroom]
      cases answer with
      | quiet => exact ⟨_, rfl⟩
      | interrupted => exact ⟨_, rfl⟩
      | broken => exact ⟨_, rfl⟩
      | ready k =>
        dsimp only
        split
        · split
          · exact ⟨_, rfl⟩
          · exact ⟨_, rfl⟩
        · rename_i hinput
          rw [List.countP_cons_of_pos rfl] at hready
          have hless := (Relay.afterRead_input (k := k) hinput hroom).1
          exact ih (h.read _) (by omega)
    | some p => exact ⟨_, relayStdin_line hsplit _⟩

/-- With enough input the relay sees the end of it. -/
theorem relayCalls_ends (hsend : ∀ m, env.dataSend m = true) {answers : List Answer} (h : r.Keeps stream)
    (huse : r.useStdin = true) (hbroken : .broken ∉ answers) (hready : r.input.length < answers.countP Answer.isReady) :
    ∃ n r', relayCalls env n answers r = (.endOfInput, r') := by
  induction hwork : r.work answers using Nat.strong_induction_on generalizing r answers with
  | _ work ih =>
    have hsome : ∃ call, relayStdin env answers r = some call := relayStdin_isSome h hready
    obtain ⟨⟨ret, r₁, answers₁⟩, hcall⟩ := hsome
    have hstep := relayStdin_call h hcall
    obtain ⟨hret, hnext⟩ := hstep.progress hsend hbroken hready
    by_cases hgo : ret = .eof ∨ r₁.useStdin = false
    · refine ⟨1, r₁, ?_⟩
      rw [relayCalls, hcall]
      cases ret with
      | error => exact absurd rfl hret
      | eof => rfl
      | idle => exact if_neg (Bool.eq_false_iff.mp (hgo.resolve_left Returned.noConfusion))
      | line => exact if_neg (Bool.eq_false_iff.mp (hgo.resolve_left Returned.noConfusion))
    · rw [not_or] at hgo
      obtain ⟨hb, hr, hless⟩ := (hnext.resolve_left hgo.1).resolve_left hgo.2
      have huse₁ : r₁.useStdin = true := Bool.not_eq_false _ ▸ hgo.2
      obtain ⟨n, r', hcalls⟩ := ih _ (hwork ▸ hless) (hstep.keeps h huse).1 huse₁ hb hr rfl
      refine ⟨n + 1, r', ?_⟩
      rw [relayCalls, hcall]
      cases ret with
      | error => exact absurd rfl hret
      | eof => exact absurd rfl hgo.1
      | idle => exact (if_pos huse₁).trans hcalls
      | line => exact (if_pos huse₁).trans hcalls

/-- The messages are the lines of the input exactly when nothing stands behind its last newline but carriage
returns; and with enough input that end is reached. -/
theorem relay_lines_iff (hsend : ∀ m, env.dataSend m = true) (hplain : 0 ∉ stream)
    (hshort : ∀ l ∈ lines stream, l.length < maxPayload) (answers : List Answer) :
    (∀ n r', relayCalls env n answers (.start stream) = (.endOfInput, r') →
      (r'.sent = messages stream ↔ trimEnd (lastLine stream) = [])) ∧
      (.broken ∉ answers → stream.length < answers.countP Answer.isReady →
        ∃ n r', relayCalls env n answers (.start stream) = (.endOfInput, r')) := by
  have hkeeps := Relay.keeps_start hplain hshort
  constructor
  · intro n r' hcalls
    rw [relayCalls_sent hkeeps rfl hcalls, messages_eq]
    constructor
    · intro hsame
      have hnil : texts [lastLine stream] = [] := List.self_eq_append_right.mp hsame
      by_contra hne
      simp [texts, hne] at hnil
    · intro hnil
      simp [texts, hnil]
  · exact fun hbroken hready => relayCalls_ends hsend hkeeps rfl hbroken hready

def plainEnv : RelayEnv := ⟨false, fun _ => true, fun _ => []⟩

theorem relay_lines_iff_two :
    (relayCalls plainEnv 4 [.ready 1, .ready 9, .ready 0] (.start (ascii "a\nb\n"))).2.sent =
      messages (ascii "a\nb\n") :=
  have hlines := @relay_lines_iff plainEnv _ (fun _ => rfl) (by decide) (by decide) [.ready 1, .ready 9, .ready 0]
  (hlines.1 4 _ rfl).mpr (by decide)

/-- A last line without a newline is never sent. -/
theorem relay_drops_last_line :
    relayCalls plainEnv 2 [.ready 9, .ready 0] (.start (ascii "a\nb")) =
        (.endOfInput, ⟨ascii "b", [], [ascii "a"], false⟩) ∧
      messages (ascii "a\nb") = [ascii "a", ascii "b"] := by decide

end Icsp
