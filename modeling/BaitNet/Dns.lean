import BaitNet.Wire

/-!
# Names in a DNS reply

`gwfile.c`: `dns_parse_name`, which follows compression pointers, and the two loops over a reply that
call it. Every run keeps a record of the places that it reads and writes.
-/
namespace Gwfile

open Wire

/-- The variables of the loop. `dst` of the source is the length of `name`, what stands in `out`. -/
structure NameState where
  o : Nat
  name : Bytes
  jumps : Nat
  hadPtr : Bool
  resume : Nat

inductive NameNext where
  /-- `return -1` -/
  | fail
  /-- `return 0` with this `*off` -/
  | finish (off : Nat)
  | go (s : NameState)

/-- One round of the loop: the places of the message that it reads, those of `out` that it writes. -/
structure NameRound where
  reads : List Nat
  writes : List Nat
  next : NameNext

variable (msg : Bytes) (outsz : Nat)

def nameStep (s : NameState) : NameRound :=
  if msg.length ≤ s.o then ⟨[], [], .fail⟩
  else
    let len := byteAt msg s.o
    let dst := s.name.length
    if len = 0 then ⟨[s.o], [dst], .finish (if s.hadPtr then s.resume else s.o + 1)⟩
    else if len &&& 0xc0 = 0xc0 then
      if msg.length ≤ s.o + 1 then ⟨[s.o], [], .fail⟩
      else
        let ptr := (len &&& 0x3f).toNat <<< 8 ||| (byteAt msg (s.o + 1)).toNat
        if 8 < s.jumps + 1 ∨ msg.length ≤ ptr then ⟨[s.o, s.o + 1], [], .fail⟩
        else
          -- The caller goes on behind the first pointer, wherever the others lead.
          ⟨[s.o, s.o + 1], [], .go ⟨ptr, s.name, s.jumps + 1, true, if s.hadPtr then s.resume else s.o + 2⟩⟩
    else if len &&& 0xc0 ≠ 0 ∨ msg.length ≤ s.o + 1 + len.toNat then ⟨[s.o], [], .fail⟩
    else if outsz ≤ dst + 1 + len.toNat then ⟨[s.o], [], .fail⟩
    else
      let dot : Bytes := if dst = 0 then [] else [46]
      ⟨s.o :: List.range' (s.o + 1) len.toNat, List.range' dst (dot.length + len.toNat),
        .go { s with o := s.o + 1 + len.toNat, name := s.name ++ dot ++ slice msg (s.o + 1) len.toNat }⟩

/-- What is left to do: a pointer costs more than all the labels between two of them. -/
def nameMeasure (s : NameState) : Nat := (8 - s.jumps) * (msg.length + 1) + (msg.length - s.o)

/-- What a round can do to the variables. -/
theorem nameStep_go {s s' : NameState} (h : (nameStep msg outsz s).next = .go s') :
    (s.o + 1 < s'.o ∧ s'.o < msg.length ∧ s'.name.length < outsz ∧ s'.jumps = s.jumps ∧ s'.hadPtr = s.hadPtr ∧
        s'.resume = s.resume) ∨
      (s.o + 1 < msg.length ∧ s'.o < msg.length ∧ s'.name = s.name ∧ s.jumps < 8 ∧ s'.jumps = s.jumps + 1 ∧
        s'.hadPtr = true ∧ s'.resume = if s.hadPtr then s.resume else s.o + 2) := by
  simp only [nameStep] at h
  split at h
  · cases h
  split at h
  · cases h
  rename_i hpos
  split at h
  · -- a pointer
    split at h
    · cases h
    split at h
    · cases h
    · rename_i hin hjump
      cases h
      exact .inr ⟨by omega, by simp only; omega, rfl, by omega, rfl, rfl, rfl⟩
  · -- a label
    split at h
    · cases h
    split at h
    · cases h
    · rename_i hin hroom
      cases h
      have hlen : 0 < (byteAt msg s.o).toNat := Nat.pos_of_ne_zero fun hz => hpos (UInt8.toNat.inj hz)
      refine .inl ⟨by simp only; omega, by simp only; omega, ?_, rfl, rfl, rfl⟩
      simp only [List.length_append, slice_length]
      split
      · simp only [List.length_nil]
        omega
      · simp only [List.length_cons, List.length_nil]
        omega

theorem nameStep_finish {s : NameState} {off : Nat} (h : (nameStep msg outsz s).next = .finish off) :
    s.o < msg.length ∧ off = if s.hadPtr then s.resume else s.o + 1 := by
  simp only [nameStep] at h
  split at h
  · cases h
  · rename_i hin
    split at h
    · cases h
      exact ⟨by omega, rfl⟩
    · split at h
      · split at h
        · cases h
        split at h
        · cases h
        · cases h
      · split at h
        · cases h
        split at h
        · cases h
        · cases h

/-- What a round touches. -/
theorem nameStep_bounds {s : NameState} (hs : s.name.length < outsz) :
    (∀ i ∈ (nameStep msg outsz s).reads, i < msg.length) ∧ ∀ i ∈ (nameStep msg outsz s).writes, i < outsz := by
  simp only [nameStep]
  split
  · simp
  rename_i hin
  split
  · simp
    omega
  split
  · split
    · simp
      omega
    split
    · simp
      omega
    · simp
      omega
  · split
    · simp
      omega
    split
    · simp
      omega
    · rename_i hlabel hroom
      constructor
      · intro i hi
        rcases List.mem_cons.mp hi with rfl | hi
        · omega
        · have hi := List.mem_range'_1.mp hi
          omega
      · intro i hi
        have hi := List.mem_range'_1.mp hi
        split at hi
        · simp only [List.length_nil] at hi
          omega
        · simp only [List.length_cons, List.length_nil] at hi
          omega

theorem nameStep_measure {s s' : NameState} (h : (nameStep msg outsz s).next = .go s') :
    nameMeasure msg s' < nameMeasure msg s := by
  rw [nameMeasure, nameMeasure]
  rcases nameStep_go msg outsz h with ⟨hmove, hin, -, hjumps, -⟩ | ⟨hhere, hin, -, hlt, hjumps, -⟩
  · rw [hjumps]
    omega
  · have hsplit : 8 - s.jumps = 8 - s'.jumps + 1 := by omega
    rw [hsplit, Nat.succ_mul]
    omega

/-- A whole run. -/
structure NameRun where
  rounds : Nat
  reads : List Nat
  writes : List Nat
  off : Option Nat

def nameLoop (s : NameState) : NameRun :=
  let r := nameStep msg outsz s
  match _h : r.next with
  | .fail => ⟨1, r.reads, r.writes, none⟩
  | .finish off => ⟨1, r.reads, r.writes, some off⟩
  | .go s' =>
    let rest := nameLoop s'
    ⟨rest.rounds + 1, r.reads ++ rest.reads, r.writes ++ rest.writes, rest.off⟩
termination_by nameMeasure msg s
decreasing_by exact nameStep_measure msg outsz _h

/-- `dns_parse_name`; `off` is `none` for -1. -/
def dnsParseName (off : Nat) : NameRun := nameLoop msg outsz ⟨off, [], 0, false, off⟩

/-- In the loop of a call that starts at `start`. -/
structure NameInv (start : Nat) (s : NameState) : Prop where
  room : s.name.length < outsz
  ahead : s.hadPtr = false → start ≤ s.o
  resume : s.hadPtr = true → start < s.resume ∧ s.resume ≤ msg.length

variable {msg outsz}

theorem NameInv.step {start : Nat} {s s' : NameState} (hinv : NameInv msg outsz start s)
    (h : (nameStep msg outsz s).next = .go s') : NameInv msg outsz start s' := by
  rcases nameStep_go msg outsz h with ⟨hmove, -, hroom, -, hptr, hres⟩ | ⟨hhere, -, hname, -, -, hptr, hres⟩
  · refine ⟨hroom, fun hp => ?_, fun hp => ?_⟩
    · rw [hptr] at hp
      have hle := hinv.ahead hp
      omega
    · rw [hptr] at hp
      rw [hres]
      exact hinv.resume hp
  · refine ⟨by rw [hname]; exact hinv.room, fun hp => ?_, fun _ => ?_⟩
    · rw [hptr] at hp
      cases hp
    · rw [hres]
      split
      · rename_i hp
        exact hinv.resume hp
      · rename_i hp
        have hle := hinv.ahead (Bool.not_eq_true _ ▸ hp)
        omega

/-- The run ends within its measure, stays inside both buffers and, if it succeeds, ends behind `start`. -/
structure NameRun.Safe (msg : Bytes) (outsz start bound : Nat) (r : NameRun) : Prop where
  rounds : r.rounds ≤ bound
  reads : ∀ i ∈ r.reads, i < msg.length
  writes : ∀ i ∈ r.writes, i < outsz
  off : ∀ off, r.off = some off → start < off ∧ off ≤ msg.length

theorem nameLoop_fail {s : NameState} (h : (nameStep msg outsz s).next = .fail) :
    nameLoop msg outsz s = ⟨1, (nameStep msg outsz s).reads, (nameStep msg outsz s).writes, none⟩ := by
  rw [nameLoop]
  split
  · rfl
  · rename_i hnext
    rw [h] at hnext
    cases hnext
  · rename_i hnext
    rw [h] at hnext
    cases hnext

theorem nameLoop_finish {s : NameState} {off : Nat} (h : (nameStep msg outsz s).next = .finish off) :
    nameLoop msg outsz s = ⟨1, (nameStep msg outsz s).reads, (nameStep msg outsz s).writes, some off⟩ := by
  rw [nameLoop]
  split
  · rename_i hnext
    rw [h] at hnext
    cases hnext
  · rename_i hnext
    rw [h] at hnext
    cases hnext
    rfl
  · rename_i hnext
    rw [h] at hnext
    cases hnext

theorem nameLoop_go {s s' : NameState} (h : (nameStep msg outsz s).next = .go s') :
    nameLoop msg outsz s = ⟨(nameLoop msg outsz s').rounds + 1,
      (nameStep msg outsz s).reads ++ (nameLoop msg outsz s').reads,
      (nameStep msg outsz s).writes ++ (nameLoop msg outsz s').writes, (nameLoop msg outsz s').off⟩ := by
  rw [nameLoop]
  split
  · rename_i hnext
    rw [h] at hnext
    cases hnext
  · rename_i hnext
    rw [h] at hnext
    cases hnext
  · rename_i hnext
    rw [h] at hnext
    cases hnext
    rfl

theorem nameLoop_safe {start : Nat} {s : NameState} (hinv : NameInv msg outsz start s) :
    (nameLoop msg outsz s).Safe msg outsz start (nameMeasure msg s + 1) := by
  induction s using nameLoop.induct msg outsz with
  | case1 s r hfail =>
    obtain ⟨hreads, hwrites⟩ := nameStep_bounds msg outsz hinv.room
    rw [nameLoop_fail hfail]
    exact ⟨Nat.le_add_left 1 _, hreads, hwrites, fun off h => nomatch h⟩
  | case2 s r off hfinish =>
    obtain ⟨hreads, hwrites⟩ := nameStep_bounds msg outsz hinv.room
    obtain ⟨hin, hoff⟩ := nameStep_finish msg outsz hfinish
    rw [nameLoop_finish hfinish]
    refine ⟨Nat.le_add_left 1 _, hreads, hwrites, fun off' h => ?_⟩
    cases h
    rw [hoff]
    split
    · rename_i hp
      exact hinv.resume hp
    · rename_i hp
      have hle := hinv.ahead (Bool.eq_false_iff.mpr hp)
      omega
  | case3 s r s' hgo ih =>
    obtain ⟨hreads, hwrites⟩ := nameStep_bounds msg outsz hinv.room
    have hrest := ih (hinv.step hgo)
    have hless := nameStep_measure msg outsz hgo
    rw [nameLoop_go hgo]
    refine ⟨?_, fun i hi => ?_, fun i hi => ?_, hrest.off⟩
    · have hbound := hrest.rounds
      simp only
      omega
    · exact (List.mem_append.mp hi).elim (hreads i) (hrest.reads i)
    · exact (List.mem_append.mp hi).elim (hwrites i) (hrest.writes i)

/-- One call: at most eight pointers, each with the labels of a message behind it. -/
theorem dnsParseName_safe (hroom : 0 < outsz) (off : Nat) :
    (dnsParseName msg outsz off).Safe msg outsz off (9 * (msg.length + 1)) := by
  have hinv : NameInv msg outsz off ⟨off, [], 0, false, off⟩ := ⟨hroom, fun _ => le_rfl, fun h => nomatch h⟩
  have h := nameLoop_safe hinv
  refine ⟨h.rounds.trans ?_, h.reads, h.writes, h.off⟩
  simp only [nameMeasure]
  omega

def dnsHdr : Nat := 12
def dnsMaxName : Nat := 255

/-- What a loop over a reply touches, where its rounds start, and how it ends. -/
structure Walk (α : Type) where
  reads : List Nat
  writes : List Nat
  heads : List Nat
  result : α

variable (msg)

/-- The questions are skipped; `none` for `goto done`. -/
def skipQuestions : Nat → Nat → Walk (Option Nat)
  | 0, off => ⟨[], [], [], some off⟩
  | count + 1, off =>
    let p := dnsParseName msg dnsMaxName off
    match p.off with
    | none => ⟨p.reads, p.writes, [off], none⟩
    | some off' =>
      if msg.length < off' + 4 then ⟨p.reads, p.writes, [off], none⟩
      else
        let rest := skipQuestions count (off' + 4)
        ⟨p.reads ++ rest.reads, p.writes ++ rest.writes, off :: rest.heads, rest.result⟩

/-- The answers up to the first address; `none` when there is none. -/
def walkAnswers : Nat → Nat → Walk (Option Bytes)
  | 0, _ => ⟨[], [], [], none⟩
  | count + 1, off =>
    let p := dnsParseName msg dnsMaxName off
    match p.off with
    | none => ⟨p.reads, p.writes, [off], none⟩
    | some off' =>
      if msg.length < off' + 10 then ⟨p.reads, p.writes, [off], none⟩
      else
        let type := get16 msg off'
        let rdlen := (get16 msg (off' + 8)).toNat
        let reads := p.reads ++ [off', off' + 1, off' + 8, off' + 9]
        if type = 1 ∧ rdlen = 4 ∧ off' + 10 + 4 ≤ msg.length then
          ⟨reads ++ List.range' (off' + 10) 4, p.writes, [off], some (slice msg (off' + 10) 4)⟩
        else
          let rest := walkAnswers count (off' + 10 + rdlen)
          ⟨reads ++ rest.reads, p.writes ++ rest.writes, off :: rest.heads, rest.result⟩

/-- A received message in `dns_query_a` that asked with `id`. The result is `none` when the loop waits for another
message, else what the walk to `done` found. -/
def dnsReply (id : UInt16) : Walk (Option (Option Bytes)) :=
  if msg.length < dnsHdr then ⟨[], [], [], none⟩
  else if get16 msg 0 ≠ id then ⟨[0, 1], [], [], none⟩
  else if byteAt msg 2 &&& 0x80 = 0 ∨ byteAt msg 3 &&& 0x0f ≠ 0 then ⟨[0, 1, 2, 3], [], [], none⟩
  else
    let ancount := (get16 msg 6).toNat
    let qdcount := (get16 msg 4).toNat
    let reads := [0, 1, 2, 3, 6, 7, 4, 5]
    let q := skipQuestions msg qdcount dnsHdr
    match q.result with
    | none => ⟨reads ++ q.reads, q.writes, q.heads, some none⟩
    | some off =>
      let a := walkAnswers msg ancount off
      ⟨reads ++ (q.reads ++ a.reads), q.writes ++ a.writes, q.heads ++ a.heads, some a.result⟩

variable {msg}

/-- A walk from `off` on stays inside the buffers, and every round starts behind the one before. -/
structure Walk.Safe {α : Type} (msg : Bytes) (off : Nat) (w : Walk α) : Prop where
  reads : ∀ i ∈ w.reads, i < msg.length
  writes : ∀ i ∈ w.writes, i < dnsMaxName
  ahead : ∀ i ∈ w.heads, off ≤ i
  progress : w.heads.Pairwise (· < ·)

theorem dnsParseName_tmp (off : Nat) :
    (dnsParseName msg dnsMaxName off).Safe msg dnsMaxName off (9 * (msg.length + 1)) :=
  dnsParseName_safe (by decide) off

/-- A round that stops the walk. -/
theorem Walk.Safe.last {α : Type} {off : Nat} {reads writes : List Nat} (hreads : ∀ i ∈ reads, i < msg.length)
    (hwrites : ∀ i ∈ writes, i < dnsMaxName) (result : α) :
    Walk.Safe msg off ⟨reads, writes, [off], result⟩ := by
  refine ⟨hreads, hwrites, fun i hi => ?_, List.pairwise_singleton _ _⟩
  rw [List.mem_singleton.mp hi]

/-- A round and the walk that goes on behind it. -/
theorem Walk.Safe.cons {α β : Type} {off off' : Nat} {reads writes : List Nat} {w : Walk α}
    (hreads : ∀ i ∈ reads, i < msg.length) (hwrites : ∀ i ∈ writes, i < dnsMaxName) (hoff : off < off')
    (hw : w.Safe msg off') (result : β) :
    Walk.Safe msg off ⟨reads ++ w.reads, writes ++ w.writes, off :: w.heads, result⟩ := by
  refine ⟨fun i hi => ?_, fun i hi => ?_, fun i hi => ?_, List.pairwise_cons.mpr ⟨fun i hi => ?_, hw.progress⟩⟩
  · exact (List.mem_append.mp hi).elim (hreads i) (hw.reads i)
  · exact (List.mem_append.mp hi).elim (hwrites i) (hw.writes i)
  · rcases List.mem_cons.mp hi with rfl | hi
    · exact le_rfl
    · have hle := hw.ahead i hi
      omega
  · have hle := hw.ahead i hi
    omega

theorem skipQuestions_safe (count off : Nat) :
    (skipQuestions msg count off).Safe msg off ∧ ∀ off', (skipQuestions msg count off).result = some off' →
      off ≤ off' ∧ ∀ i ∈ (skipQuestions msg count off).heads, i < off' := by
  induction count generalizing off with
  | zero =>
    refine ⟨⟨by simp [skipQuestions], by simp [skipQuestions], by simp [skipQuestions], List.Pairwise.nil⟩, ?_⟩
    intro off' h
    cases h
    exact ⟨le_rfl, fun i hi => nomatch hi⟩
  | succ count ih =>
    have hp := @dnsParseName_tmp msg off
    rw [skipQuestions]
    dsimp only
    cases hoff : (dnsParseName msg dnsMaxName off).off with
    | none => exact ⟨.last hp.reads hp.writes _, fun off' h => nomatch h⟩
    | some next =>
      obtain ⟨hnext, hin⟩ := hp.off next hoff
      obtain ⟨hrest, hend⟩ := ih (next + 4)
      dsimp only
      by_cases hshort : msg.length < next + 4
      · rw [if_pos hshort]
        exact ⟨.last hp.reads hp.writes _, fun off' h => nomatch h⟩
      · rw [if_neg hshort]
        refine ⟨hrest.cons hp.reads hp.writes (by omega) _, fun off' h => ?_⟩
        obtain ⟨hle, hheads⟩ := hend off' h
        refine ⟨by omega, fun i hi => ?_⟩
        rcases List.mem_cons.mp hi with rfl | hi
        · omega
        · exact hheads i hi

theorem walkAnswers_safe (count off : Nat) : (walkAnswers msg count off).Safe msg off := by
  induction count generalizing off with
  | zero => exact ⟨by simp [walkAnswers], by simp [walkAnswers], by simp [walkAnswers], List.Pairwise.nil⟩
  | succ count ih =>
    have hp := @dnsParseName_tmp msg off
    rw [walkAnswers]
    dsimp only
    cases hoff : (dnsParseName msg dnsMaxName off).off with
    | none => exact .last hp.reads hp.writes _
    | some next =>
      obtain ⟨hnext, hin⟩ := hp.off next hoff
      dsimp only
      by_cases hshort : msg.length < next + 10
      · rw [if_pos hshort]
        exact .last hp.reads hp.writes _
      rw [if_neg hshort]
      have hreads : ∀ i ∈ (dnsParseName msg dnsMaxName off).reads ++ [next, next + 1, next + 8, next + 9],
          i < msg.length := by
        intro i hi
        rcases List.mem_append.mp hi with hi | hi
        · exact hp.reads i hi
        · simp only [List.mem_cons, List.not_mem_nil, or_false] at hi
          omega
      by_cases hfound : get16 msg next = 1 ∧ (get16 msg (next + 8)).toNat = 4 ∧ next + 10 + 4 ≤ msg.length
      · rw [if_pos hfound]
        refine .last (fun i hi => ?_) hp.writes _
        rcases List.mem_append.mp hi with hi | hi
        · exact hreads i hi
        · have hrange := List.mem_range'_1.mp hi
          omega
      · rw [if_neg hfound]
        exact (ih _).cons hreads hp.writes (by omega) _

theorem dnsReply_safe (id : UInt16) : (dnsReply msg id).Safe msg dnsHdr := by
  rw [dnsReply]
  by_cases hshort : msg.length < dnsHdr
  · rw [if_pos hshort]
    exact ⟨by simp, by simp, by simp, List.Pairwise.nil⟩
  have hlen : 12 ≤ msg.length := Nat.not_lt.mp hshort
  rw [if_neg hshort]
  by_cases hid : get16 msg 0 ≠ id
  · rw [if_pos hid]
    exact ⟨by simp; omega, by simp, by simp, List.Pairwise.nil⟩
  rw [if_neg hid]
  by_cases hflags : byteAt msg 2 &&& 0x80 = 0 ∨ byteAt msg 3 &&& 0x0f ≠ 0
  · rw [if_pos hflags]
    exact ⟨by simp; omega, by simp, by simp, List.Pairwise.nil⟩
  rw [if_neg hflags]
  dsimp only
  obtain ⟨hq, hend⟩ := @skipQuestions_safe msg (get16 msg 4).toNat dnsHdr
  have hheader : ∀ i ∈ [0, 1, 2, 3, 6, 7, 4, 5], i < msg.length := by
    intro i hi
    simp only [List.mem_cons, List.not_mem_nil, or_false] at hi
    omega
  cases hresult : (skipQuestions msg (get16 msg 4).toNat dnsHdr).result with
  | none => exact ⟨fun i hi => (List.mem_append.mp hi).elim (hheader i) (hq.reads i), hq.writes, hq.ahead, hq.progress⟩
  | some off =>
    obtain ⟨hle, hheads⟩ := hend off hresult
    have ha := @walkAnswers_safe msg (get16 msg 6).toNat off
    refine ⟨fun i hi => ?_, fun i hi => ?_, fun i hi => ?_, ?_⟩
    · rcases List.mem_append.mp hi with hi | hi
      · exact hheader i hi
      · exact (List.mem_append.mp hi).elim (hq.reads i) (ha.reads i)
    · exact (List.mem_append.mp hi).elim (hq.writes i) (ha.writes i)
    · rcases List.mem_append.mp hi with hi | hi
      · exact hq.ahead i hi
      · exact hle.trans (ha.ahead i hi)
    · refine List.pairwise_append.mpr ⟨hq.progress, ha.progress, fun i hi j hj => ?_⟩
      exact (hheads i hi).trans_le (ha.ahead j hj)

/-- Whatever the message and the offset, a call ends, stays inside both buffers and moves on; and so do the loops over
a reply. -/
theorem dns_safe (msg : Bytes) (outsz : Nat) (hroom : 0 < outsz) :
    (∀ off, (dnsParseName msg outsz off).Safe msg outsz off (9 * (msg.length + 1))) ∧
      ∀ id, (dnsReply msg id).Safe msg dnsHdr :=
  ⟨dnsParseName_safe hroom, dnsReply_safe⟩

/-- A pointer to itself. -/
theorem dns_safe_cycle :
    (dnsParseName [0xc0, 0] 255 0).Safe [0xc0, 0] 255 0 27 ∧ (dnsReply [0xc0, 0] 1).Safe [0xc0, 0] dnsHdr :=
  ⟨(dns_safe [0xc0, 0] 255 (by decide)).1 0, (dns_safe [0xc0, 0] 255 (by decide)).2 1⟩

end Gwfile
