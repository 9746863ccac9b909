import BaitNet.ClassGuard

/-!
# What the client reads in an answer

`gw_query` of the clients reads the answer to a QUERY back: the three builders of
`ipv69gw.c` against the one parser. The builders disagree with it where the address has a
zero byte, and `gw_pend_relay` sends no terminator.
-/
namespace Gw

open Wire Link Crypto Tables Text

/-- What one datagram tells `gw_query`: nothing, that the peer is unknown, or where it is.
An `overrun` is a text that runs past the end of the buffer. -/
inductive Reading where
  | ignored
  | unknown
  | overrun
  | found (ep : SockAddr)
  deriving DecidableEq

/-- The IPv4-mapped prefix taken off. -/
def unwrap (host : Bytes) : Bytes := if host.take 7 = ascii "::ffff:" then host.drop 7 else host

/-- The 16 bits of `htons(atoi(..))`. -/
def readPort (s : Bytes) : UInt16 := .ofNat (atoi s % 65536).toNat

variable (pton6 : Bytes → Option (Arr 16))

/-- `pton6` is `inet_pton(AF_INET6)`, which decides about hosts that are not IPv4. -/
def readHost (host : Bytes) (port : UInt16) : Reading :=
  match inetPton4 (unwrap host) with
  | some ip => .found (.v4 ip port)
  | none =>
    match pton6 (unwrap host) with
    | some ip => .found (.v6 ip port)
    | none => .ignored

/-- The text from `ans + 8` on. -/
def readEndpoint (hostport : Bytes) : Reading :=
  if byteAt hostport 0 = 45 then .unknown
  else
    match cstr hostport with
    | none => .overrun
    | some s =>
      match splitLast 58 s with
      | none => .ignored
      | some (host, port) => readHost pton6 host (readPort port)

/-- One pass of the receive loop; `stale` is what `ans` holds in front of it. -/
def gwQuery (addr : UInt64) (data stale : Bytes) : Reading :=
  let d := data.take 128
  let ans := d ++ stale.drop d.length
  if d.length ≤ 8 ∨ slice ans 0 3 ≠ ascii "E69" ∨ slice ans 3 5 ≠ put40 addr then .ignored
  else readEndpoint pton6 (ans.drop 8)

/-- The two ways an IPv4 endpoint is written. -/
theorem epText_v4 {e : SockAddr} {ip : Arr 4} {port : UInt16} (h : epV4 e = some (ip, port)) :
    ∃ w, (w = [] ∨ w = ascii "::ffff:") ∧ epText e = w ++ inetNtop4 ip ++ 58 :: decimal port.toNat := by
  cases e with
  | v4 ip' port' =>
    obtain ⟨rfl, rfl⟩ := Prod.mk.inj (Option.some.inj h)
    exact ⟨[], .inl rfl, rfl⟩
  | v6 ip' port' =>
    rw [epV4] at h
    split at h
    · rename_i hm
      obtain ⟨rfl, rfl⟩ := Prod.mk.inj (Option.some.inj h)
      exact ⟨_, .inr rfl, by rw [epText, inetNtop6_mapped hm]⟩
    · cases h

theorem inetNtop4_not_mem (ip : Arr 4) : 0 ∉ inetNtop4 ip ∧ 58 ∉ inetNtop4 ip := by
  constructor
  · intro h
    cases inetNtop4_chars ip 0 h with
    | inl hd => exact (isDigit_ne hd).1 rfl
    | inr hdot => exact absurd hdot (by decide)
  · intro h
    cases inetNtop4_chars ip 58 h with
    | inl hd => exact (isDigit_ne hd).2.1 rfl
    | inr hdot => exact absurd hdot (by decide)

theorem inetNtop4_cons (ip : Arr 4) : ∃ d r, inetNtop4 ip = d :: r ∧ isDigit d = true := by
  rw [inetNtop4]
  cases h : decimal (octet ip 0) with
  | nil => exact absurd h (decimal_ne_nil _)
  | cons d r => exact ⟨d, _, rfl, decimal_digits (octet ip 0) d (h ▸ List.mem_cons_self)⟩

theorem decimal_length {k n : Nat} (hk : 0 < k) (h : n < 10 ^ k) : (decimal n).length ≤ k := by
  have key : ∀ k, 0 < k → n < 10 ^ k → (decimal n).length ≤ k := by
    refine decimal_ind (P := fun n b => ∀ k, 0 < k → n < 10 ^ k → b.length ≤ k) ?_ ?_ n
    · exact fun _ _ k hk _ => hk
    · intro n b hn ih k hk h
      cases k with
      | zero => exact absurd hk (Nat.lt_irrefl 0)
      | succ k =>
        have hk0 : 0 < k := by
          cases k with
          | zero => exact absurd h (Nat.not_lt.mpr hn)
          | succ k => exact Nat.succ_pos k
        have hlt : n / 10 < 10 ^ k := (Nat.div_lt_iff_lt_mul (by decide)).mpr h
        have := ih k hk0 hlt
        rw [List.length_append, List.length_singleton]
        omega
  exact key k hk h

/-- The text fits behind the address, has no NUL and starts neither with one nor with a
minus sign. -/
theorem epText_facts {e : SockAddr} {ip : Arr 4} {port : UInt16} (h : epV4 e = some (ip, port)) :
    (epText e).length ≤ 28 ∧ 0 ∉ epText e ∧ ∃ d r, epText e = d :: r ∧ d ≠ 0 ∧ d ≠ 45 := by
  obtain ⟨w, hw, htext⟩ := epText_v4 h
  have hoct : ∀ i, (decimal (octet ip i)).length ≤ 3 := fun i =>
    decimal_length (by decide) (Nat.lt_of_le_of_lt (octet_le ip i) (by decide))
  have hport : (decimal port.toNat).length ≤ 5 :=
    decimal_length (by decide) (Nat.lt_trans port.toNat_lt (by decide))
  have hzero : (0 : UInt8) ∉ decimal port.toNat := fun h0 => (isDigit_ne (decimal_digits _ _ h0)).1 rfl
  have hwz : (0 : UInt8) ∉ w := by
    rcases hw with rfl | rfl
    · exact List.not_mem_nil
    · decide
  have hwl : w.length ≤ 7 := by
    rcases hw with rfl | rfl
    · decide
    · decide
  rw [htext]
  refine ⟨?_, ?_, ?_⟩
  · have h0 := hoct 0
    have h1 := hoct 1
    have h2 := hoct 2
    have h3 := hoct 3
    simp only [inetNtop4, List.length_append, List.length_cons]
    omega
  · simp only [List.mem_append, List.mem_cons, not_or]
    exact ⟨⟨hwz, (inetNtop4_not_mem ip).1⟩, by decide, hzero⟩
  · rcases hw with rfl | rfl
    · obtain ⟨d, r, hd, hdig⟩ := inetNtop4_cons ip
      refine ⟨d, _, by rw [hd]; rfl, (isDigit_ne hdig).1, (isDigit_ne hdig).2.2.2⟩
    · exact ⟨58, _, rfl, by decide, by decide⟩

theorem unwrap_host {w : Bytes} (hw : w = [] ∨ w = ascii "::ffff:") (ip : Arr 4) (r : Bytes) :
    unwrap (w ++ inetNtop4 ip ++ r) = inetNtop4 ip ++ r := by
  obtain ⟨d, s, hd, hdig⟩ := inetNtop4_cons ip
  rcases hw with rfl | rfl
  · rw [unwrap, List.nil_append, if_neg]
    rw [hd]
    intro heq
    have h58 : d = 58 := (List.cons.inj heq).1
    exact (isDigit_ne hdig).2.1 h58
  · have h7 : (ascii "::ffff:").length = 7 := by decide
    rw [unwrap, List.append_assoc, List.take_left' h7, if_pos rfl, List.drop_left' h7]

/-- The bytes behind a text without terminator end it before another colon and before a
digit that would change the port. -/
def TailKeeps (port : UInt16) (tail : Bytes) : Prop :=
  ∃ s, cstr tail = some s ∧ 58 ∉ s ∧
    UInt16.ofNat (min (value (decimal port.toNat ++ s.takeWhile isDigit)) (2 ^ 63 - 1)) = port

theorem tailKeeps_zero (port : UInt16) (r : Bytes) : TailKeeps port (0 :: r) := by
  refine ⟨[], rfl, List.not_mem_nil, ?_⟩
  have hlt := port.toNat_lt
  rw [List.takeWhile_nil, List.append_nil, value_decimal, Nat.min_eq_left (by omega), UInt16.ofNat_toNat]

theorem readPort_decimal (port : UInt16) (s : Bytes) :
    readPort (decimal port.toNat ++ s) =
      UInt16.ofNat (min (value (decimal port.toNat ++ s.takeWhile isDigit)) (2 ^ 63 - 1)) := by
  rw [readPort, atoi_decimal]
  generalize min (value (decimal port.toNat ++ s.takeWhile isDigit)) (2 ^ 63 - 1) = v
  apply UInt16.toNat_inj.mp
  have hv : ((v : Int) % 65536).toNat = v % 65536 := by omega
  rw [hv, UInt16.toNat_ofNat', UInt16.toNat_ofNat', Nat.mod_mod]

/-- The text of an IPv4 endpoint is read back exactly when what follows it lets it. -/
theorem readEndpoint_epText {e : SockAddr} {ip : Arr 4} {port : UInt16} (h : epV4 e = some (ip, port)) (tail : Bytes) :
    readEndpoint pton6 (epText e ++ tail) = .found (.v4 ip port) ↔ TailKeeps port tail := by
  obtain ⟨-, hzero, d, r, hcons, -, hminus⟩ := epText_facts h
  obtain ⟨w, hw, htext⟩ := epText_v4 h
  have hfirst : ¬ byteAt (epText e ++ tail) 0 = 45 := by
    rw [hcons]
    exact hminus
  rw [readEndpoint, if_neg hfirst, cstr_append hzero, htext]
  cases hs : cstr tail with
  | none =>
    refine ⟨fun hover => (nomatch hover), fun hkeep => ?_⟩
    obtain ⟨s, heq, -⟩ := hkeep
    rw [hs] at heq
    cases heq
  | some s =>
    have hsplit : w ++ inetNtop4 ip ++ 58 :: decimal port.toNat ++ s =
        w ++ inetNtop4 ip ++ 58 :: (decimal port.toNat ++ s) := by
      rw [List.append_assoc, List.cons_append]
    have hdec : (58 : UInt8) ∉ decimal port.toNat := fun h58 => (isDigit_ne (decimal_digits _ _ h58)).2.1 rfl
    rw [Option.map_some, hsplit]
    dsimp only
    by_cases hcolon : (58 : UInt8) ∈ s
    · -- the host then holds the first colon, which is in no IPv4 address
      obtain ⟨a, b, hlater⟩ := splitLast_later (w ++ inetNtop4 ip) (List.mem_append_right (decimal port.toNat) hcolon)
      have hbad : inetPton4 (unwrap (w ++ inetNtop4 ip ++ 58 :: a)) = none := by
        rw [unwrap_host hw]
        exact inetPton4_bad (x := 58) (by decide) (by decide) (List.mem_append_right _ List.mem_cons_self)
      rw [hlater]
      dsimp only
      rw [readHost, hbad]
      refine ⟨fun hfound => ?_, fun hkeep => ?_⟩
      · split at hfound
        · rename_i heq
          cases heq
        · split at hfound
          · cases hfound
          · cases hfound
      · obtain ⟨s', heq, hno, -⟩ := hkeep
        obtain rfl := Option.some.inj (hs.symm.trans heq)
        exact absurd hcolon hno
    · have hno : (58 : UInt8) ∉ decimal port.toNat ++ s := fun hmem => (List.mem_append.mp hmem).elim hdec hcolon
      have hhost : inetPton4 (unwrap (w ++ inetNtop4 ip)) = some ip := by
        have hwrap := unwrap_host hw ip []
        rw [List.append_nil, List.append_nil] at hwrap
        rw [hwrap, inetPton4_ntop4]
      rw [splitLast_append _ hno]
      dsimp only
      rw [readHost, hhost, readPort_decimal]
      refine ⟨fun hfound => ⟨s, hs, hcolon, ?_⟩, fun hkeep => ?_⟩
      · exact (SockAddr.v4.inj (Reading.found.inj hfound)).2
      · obtain ⟨s', heq, -, hport⟩ := hkeep
        obtain rfl := Option.some.inj (hs.symm.trans heq)
        dsimp only
        rw [hport]

theorem take_strlen (b : Bytes) : b.take (strlen b) = b.takeWhile (· ≠ 0) := by
  rw [strlen]
  induction b with
  | nil => rfl
  | cons x b ih =>
    rw [List.takeWhile_cons]
    split
    · rw [List.length_cons, List.take_succ_cons, ih]
    · rfl

theorem ne_zero_of_not_mem {s : Bytes} (hs : 0 ∉ s) : ∀ x ∈ s, decide (x ≠ 0) = true :=
  fun _ hx => decide_eq_true fun h => hs (h ▸ hx)

/-- What a string function sees of a text with a terminator. -/
theorem takeWhile_terminated (b r : Bytes) :
    (b ++ 0 :: r).takeWhile (· ≠ 0) = b.takeWhile (· ≠ 0) := by
  induction b with
  | nil => rfl
  | cons x b ih => rw [List.cons_append, List.takeWhile_cons, List.takeWhile_cons, ih]

theorem ansInit_eq (q : UInt64) : ansInit (put40 q) = ascii "E69" ++ put40 q ++ 0 :: List.replicate 119 0 := by
  have h8 : (ascii "E69" ++ put40 q).length = 8 := rfl
  have h128 : (ascii "E69" ++ put40 q).length ≤ 128 := by
    rw [h8]
    decide
  rw [ansInit]
  exact takeD_eq_append h128

/-- The answer to a QUERY: the text stands at the first zero byte of the address. -/
theorem queryAnswer_eq (q : UInt64) {text : Bytes} (htext : 0 ∉ text) :
    queryAnswer (put40 q) text = (ascii "E69" ++ put40 q).takeWhile (· ≠ 0) ++ text ++ [0] := by
  have hinit : (ansInit (put40 q)).takeWhile (· ≠ 0) = (ascii "E69" ++ put40 q).takeWhile (· ≠ 0) := by
    rw [ansInit_eq, takeWhile_terminated]
  have hw : ∀ x ∈ (ascii "E69" ++ put40 q).takeWhile (· ≠ 0), decide (x ≠ 0) = true :=
    fun _ hx => List.mem_takeWhile_imp (p := fun x => decide (x ≠ 0)) hx
  revert hw hinit
  generalize (ascii "E69" ++ put40 q).takeWhile (· ≠ 0) = w
  intro hinit hw
  have hno : ∀ x ∈ w ++ text, decide (x ≠ 0) = true := fun x hx =>
    (List.mem_append.mp hx).elim (hw x) (ne_zero_of_not_mem htext x)
  generalize hrest : (ansInit (put40 q)).drop (strlen (ansInit (put40 q)) + text.length + 1) = rest
  have hans : snprintfAt (ansInit (put40 q)) (strlen (ansInit (put40 q))) text = w ++ text ++ 0 :: rest := by
    rw [snprintfAt, take_strlen, hinit, hrest]
  have hlen : strlen (w ++ text ++ 0 :: rest) = (w ++ text).length := by
    rw [strlen, takeWhile_terminated, List.takeWhile_eq_self_iff.mpr hno]
  rw [queryAnswer, hans, hlen, List.take_append, List.take_of_length_le (Nat.le_succ _), Nat.add_sub_cancel_left]
  rfl

/-- The relayed answer ends in front of the first zero byte of the address. -/
theorem relayAnswer_eq (q : UInt64) (text : Bytes) :
    relayAnswer q text = (ascii "E69" ++ put40 q ++ text).takeWhile (· ≠ 0) := by
  have h8 : (ascii "E69" ++ put40 q).length = 8 := rfl
  rw [relayAnswer, take_strlen, snprintfAt, ansInit_eq, List.take_left' h8, takeWhile_terminated]

/-- A datagram with the header the client waits for. -/
theorem gwQuery_header (q : UInt64) {text : Bytes} (hpos : 0 < text.length) (hlen : text.length ≤ 120)
    (stale : Bytes) :
    gwQuery pton6 q (ascii "E69" ++ put40 q ++ text) stale =
      readEndpoint pton6 (text ++ stale.drop (8 + text.length)) := by
  have h8 : (ascii "E69" ++ put40 q).length = 8 := rfl
  have htotal : (ascii "E69" ++ put40 q ++ text).length = 8 + text.length := by rw [List.length_append, h8]
  have htake : (ascii "E69" ++ put40 q ++ text).take 128 = ascii "E69" ++ put40 q ++ text :=
    List.take_of_length_le (by omega)
  have hmagic : ∀ r, slice (ascii "E69" ++ put40 q ++ r) 0 3 = ascii "E69" := fun _ => rfl
  have haddr : ∀ r, slice (ascii "E69" ++ put40 q ++ r) 3 5 = put40 q := fun _ => rfl
  rw [gwQuery, htake, htotal, if_neg, List.append_assoc (ascii "E69" ++ put40 q), List.drop_left' h8]
  rw [List.append_assoc (ascii "E69" ++ put40 q), hmagic, haddr]
  intro hbad
  rcases hbad with h | h | h
  · omega
  · exact h rfl
  · exact h rfl

theorem takeWhile_header (b : Bytes) : (ascii "E69" ++ b).takeWhile (· ≠ 0) = ascii "E69" ++ b.takeWhile (· ≠ 0) :=
  List.takeWhile_append_of_pos (ne_zero_of_not_mem (by decide))

theorem takeWhile_zero {b : Bytes} (h : 0 ∈ b) :
    ∃ a r, b = a ++ 0 :: r ∧ ∀ s, (b ++ s).takeWhile (· ≠ 0) = a := by
  induction b with
  | nil => cases h
  | cons x b ih =>
    by_cases hx : x = 0
    · subst hx
      exact ⟨[], b, rfl, fun _ => rfl⟩
    · obtain ⟨a, r, rfl, htake⟩ := ih ((List.mem_cons.mp h).resolve_left (Ne.symm hx))
      refine ⟨x :: a, r, rfl, fun s => ?_⟩
      rw [List.cons_append, List.takeWhile_cons, if_pos (decide_eq_true hx), htake]

/-- A text in place of a zero byte of the address makes the client look away. -/
theorem gwQuery_mismatch {q : UInt64} {a r rest : Bytes} (haddr : put40 q = a ++ 0 :: r) {x : UInt8} (hx : x ≠ 0)
    (stale : Bytes) : gwQuery pton6 q (ascii "E69" ++ a ++ x :: rest) stale = .ignored := by
  have hlen := congrArg List.length haddr
  rw [put40_length, List.length_append, List.length_cons] at hlen
  rw [gwQuery]
  refine if_pos ?_
  by_cases hshort : ((ascii "E69" ++ a ++ x :: rest).take 128).length ≤ 8
  · exact .inl hshort
  · refine .inr (.inr fun heq => hx ?_)
    have h3 : (ascii "E69" ++ a).length = 3 + a.length := by
      rw [List.length_append]
      rfl
    generalize htake : (ascii "E69" ++ a ++ x :: rest).take 128 = d at heq hshort
    have hans : byteAt (d ++ stale.drop d.length) (3 + a.length) = x := by
      rw [byteAt_append_left _ _ _ (by omega), ← htake, byteAt_take _ _ _ (by omega),
        byteAt_append_right _ _ _ (Nat.le_of_eq h3), h3, Nat.sub_self, byteAt_cons_zero]
    have hbyte := byteAt_slice (d ++ stale.drop d.length) 3 5 a.length (by omega)
    rw [heq, haddr, byteAt_append_right _ _ _ (Nat.le_refl _), Nat.sub_self, byteAt_cons_zero, hans] at hbyte
    exact hbyte.symm

theorem gwQuery_short {q : UInt64} {data : Bytes} (h : data.length ≤ 8) (stale : Bytes) :
    gwQuery pton6 q data stale = .ignored :=
  if_pos (.inl ((List.length_take_le' _ _).trans h))

section Paths

variable {e : SockAddr} {ip : Arr 4} {port : UInt16} (he : epV4 e = some (ip, port)) (q : UInt64) (stale : Bytes)

include he

/-- The answer to a QUERY is read back when the address has no zero byte. -/
theorem queryAnswer_read : gwQuery pton6 q (queryAnswer (put40 q) (epText e)) stale = .found (.v4 ip port) ↔
    0 ∉ put40 q := by
  obtain ⟨hlen, hzero, d, s, hcons, hd, -⟩ := epText_facts he
  rw [queryAnswer_eq q hzero]
  by_cases hq : (0 : UInt8) ∈ put40 q
  · obtain ⟨a, r, hr, htake⟩ := takeWhile_zero hq
    have ha := htake []
    rw [List.append_nil] at ha
    rw [takeWhile_header, ha, hcons, List.append_assoc _ (d :: s), List.cons_append, gwQuery_mismatch pton6 hr hd]
    exact iff_of_false (fun h => nomatch h) fun h => h hq
  · rw [takeWhile_header, List.takeWhile_eq_self_iff.mpr (ne_zero_of_not_mem hq), List.append_assoc _ (epText e),
      gwQuery_header, List.append_assoc, readEndpoint_epText pton6 he]
    · exact iff_of_true (tailKeeps_zero port _) hq
    · simp
    · simp
      omega

/-- A relayed answer is read back when also what follows it lets it. -/
theorem relayAnswer_read : gwQuery pton6 q (relayAnswer q (epText e)) stale = .found (.v4 ip port) ↔
    0 ∉ put40 q ∧ TailKeeps port (stale.drop (8 + (epText e).length)) := by
  obtain ⟨hlen, hzero, d, s, hcons, hd, -⟩ := epText_facts he
  rw [relayAnswer_eq]
  by_cases hq : (0 : UInt8) ∈ put40 q
  · obtain ⟨a, r, hr, htake⟩ := takeWhile_zero hq
    have hlen := congrArg List.length hr
    rw [put40_length, List.length_append, List.length_cons] at hlen
    have hshort : (ascii "E69" ++ a).length ≤ 8 := by
      have h3 : (ascii "E69").length = 3 := rfl
      rw [List.length_append]
      omega
    rw [List.append_assoc, takeWhile_header, htake, gwQuery_short pton6 hshort]
    exact iff_of_false (fun h => nomatch h) fun h => h.1 hq
  · have hno : ∀ x ∈ put40 q ++ epText e, decide (x ≠ 0) = true := fun x hx =>
      (List.mem_append.mp hx).elim (ne_zero_of_not_mem hq x) (ne_zero_of_not_mem hzero x)
    rw [List.append_assoc, takeWhile_header, List.takeWhile_eq_self_iff.mpr hno, ← List.append_assoc,
      gwQuery_header, readEndpoint_epText pton6 he]
    · exact (and_iff_right hq).symm
    · rw [hcons]
      exact Nat.succ_pos _
    · omega

end Paths

/-- A GW_R carries the endpoint that its sender has stored. -/
theorem gwRBuild_read {q : UInt64} {t : Peer} {p : Bytes} (h : gwRBuild q t = some (slice p 0 12)) :
    t.ep.bind epV4 = some (arr p 6 4, get16 p 10) := by
  rw [gwRBuild] at h
  cases hep : t.ep.bind epV4 with
  | none =>
    rw [hep] at h
    cases h
  | some x =>
    obtain ⟨ip, port⟩ := x
    rw [hep] at h
    have hpkt : ctrlGwR :: (put40 q ++ ip.val ++ put16 port) = slice p 0 12 := Option.some.inj h
    have hbyte : ∀ j < 12, byteAt (ctrlGwR :: (put40 q ++ ip.val ++ put16 port)) j = byteAt p j := by
      intro j hj
      rw [hpkt, byteAt_slice p 0 12 j hj, Nat.zero_add]
    have hip : arr p 6 4 = ip := by
      have hread : arr (ctrlGwR :: (put40 q ++ ip.val ++ put16 port)) 6 4 = ip := by
        rw [List.append_assoc, ← List.cons_append, arr_append_right _ _ _ _ (Nat.le_refl 6)]
        exact arr_append_exact ip (put16 port)
      rw [← hread]
      apply Subtype.ext
      simp only [arr_val, slice_succ, slice_zero, hbyte, Nat.reduceAdd, Nat.reduceLT]
    have hport : get16 p 10 = port := by
      have hread : get16 (ctrlGwR :: (put40 q ++ ip.val ++ put16 port)) 10 = port := by
        have hlen : (ctrlGwR :: (put40 q ++ ip.val)).length = 10 := by
          rw [List.length_cons, List.length_append, put40_length, ip.length]
        rw [← List.cons_append, get16_append_right _ _ _ (Nat.le_of_eq hlen), hlen]
        exact get16_put16 port []
      rw [← hread, get16_eq, get16_eq, hbyte 10 (by decide), hbyte 11 (by decide)]
    rw [hip, hport]

variable {c : TweetNaCl}

/-- Only a QUERY for what the gateway knows and a GW_R are answered with an endpoint. -/
theorem Effect.answer {g g' : Gateway} {i : Input} {outs : List Out} (h : Effect c g i g' outs) {asker : SockAddr}
    {q : UInt64} {text : Bytes} (hout : .answer asker q text ∈ outs) :
    ((∃ ep n, i = .udp ep n ∧ isQuery g.buf n) ∧ q = get40 g.buf 3 ∧
        ∃ e, g.knows q e ∧ text = queryAnswer (put40 q) (epText e)) ∨
      (g.replies i ∧ q = get40 (framePayload g.buf) 1 ∧
        text = relayAnswer q (epText (.v4 (arr (framePayload g.buf) 6 4) (get16 (framePayload g.buf) 10)))) := by
  cases h with
  | answered ep n rate calls a e hquery ha he hclass hcalls =>
    cases List.mem_append.mp hout with
    | inl hmem => exact absurd hmem (not_answer_of_isControl hcalls)
    | inr hmem =>
      obtain ⟨-, rfl, rfl⟩ := Out.answer.inj (List.mem_singleton.mp hmem)
      exact .inl ⟨⟨ep, n, rfl, hquery⟩, rfl, e, he, by rw [put40_get40]⟩
  | relayed _ e gwp hreply htake =>
    obtain ⟨hlink, -, rfl⟩ := answer_of_relayTo hout
    rw [Gateway.relayTo, if_neg (by rw [hlink]; exact Bool.false_ne_true)] at hout
    obtain ⟨-, -, rfl⟩ := Out.answer.inj (List.mem_singleton.mp hout)
    exact .inr ⟨hreply, of_decide_eq_true (Table.takeFirst_some htake).1, rfl⟩
  | quiet => cases hout
  | refused => cases List.mem_singleton.mp hout
  | asked _ _ _ _ _ _ houts => exact absurd hout (not_answer_of_isControl houts)
  | authenticated => cases hout
  | linkAnswered => cases List.mem_singleton.mp hout
  | linkAsked _ _ _ _ _ _ houts => exact absurd hout (not_answer_of_isControl houts)
  | routed => cases hout
  | neighbour => cases hout
  | meshAnswered _ pkt => exact absurd hout (not_answer_of_isControl (gwMeshSend_isControl g pkt))
  | fedData => exact absurd hout relays_not_answer
  | dropped => cases hout
  | forwarded => exact absurd hout relays_not_answer

/-- The client reads the address and the stored endpoint out of an answer, when the endpoint
is plain IPv4, exactly if no byte of the address is zero and, for a relayed answer, its
buffer does not go on with a part of the text. -/
theorem answers_read (g : Gateway) (i : Input) (asker : SockAddr) (q : UInt64) (text stale : Bytes)
    (hout : .answer asker q text ∈ (g.handle c i).2) :
    ((∃ ep n, i = .udp ep n ∧ isQuery g.buf n) ∧ q = get40 g.buf 3 ∧
        ∃ e, g.knows q e ∧ ∀ ip port, epV4 e = some (ip, port) →
          (gwQuery pton6 q text stale = .found (.v4 ip port) ↔ 0 ∉ put40 q)) ∨
      (g.replies i ∧ q = get40 (framePayload g.buf) 1 ∧ ∃ ip port,
        (∀ t, gwRBuild q t = some (slice (framePayload g.buf) 0 12) → t.ep.bind epV4 = some (ip, port)) ∧
        ip = arr (framePayload g.buf) 6 4 ∧ port = get16 (framePayload g.buf) 10 ∧
        (gwQuery pton6 q text stale = .found (.v4 ip port) ↔
          0 ∉ put40 q ∧ TailKeeps port (stale.drop (8 + (epText (.v4 ip port)).length)))) := by
  rcases (handle_effect c g i).answer hout with ⟨hquery, hq, e, hknows, rfl⟩ | ⟨hreply, hq, rfl⟩
  · exact .inl ⟨hquery, hq, e, hknows, fun ip port he => queryAnswer_read pton6 he q stale⟩
  · exact .inr ⟨hreply, hq, _, _, fun t ht => gwRBuild_read ht, rfl, rfl, relayAnswer_read pton6 rfl q stale⟩

/-- Two clients announce themselves, and the one asks for the other. -/
def demoAsked (q : UInt64) : List (Gateway × Input) :=
  (start (demoConfig 0) [] []).history toy
    [demoRound (demoEp 10) (demoAnnounce 10 0x8000000005), demoRound (demoEp 11) (demoAnnounce 11 q),
      demoRound (demoEp 10) (ascii "Q69" ++ put40 q)]

/-- An address without a zero byte is read back. -/
theorem answers_read_nonzero :
    ∃ x ∈ demoAsked 0x8101010106, ∃ text, Out.answer (demoEp 10) 0x8101010106 text ∈ (x.1.handle toy x.2).2 ∧
      gwQuery (fun _ => none) 0x8101010106 text (List.replicate 128 0) = .found (demoEp 11) := by
  have hfacts : ∃ x ∈ (demoAsked 0x8101010106)[2]?,
      Out.answer (demoEp 10) 0x8101010106 (queryAnswer (put40 0x8101010106) (epText (demoEp 11))) ∈
        (x.1.handle toy x.2).2 ∧
      (x.1.peerFindAddr 0x8101010106).bind Peer.ep = some (demoEp 11) ∧ ¬ x.1.replies x.2 ∧
      x.1.routeFind 0x8101010106 = none := by decide +kernel
  obtain ⟨x, hx, hout, hpeer, hreply, hroute⟩ := hfacts
  refine ⟨x, List.mem_of_getElem? hx, _, hout, ?_⟩
  rcases answers_read (fun _ => none) x.1 x.2 _ _ _ (List.replicate 128 0) hout with ⟨-, -, e, hknows, hiff⟩ | ⟨h, -⟩
  · have he : e = demoEp 11 := by
      rcases hknows with h | ⟨r, hr, -⟩
      · rw [hpeer] at h
        exact (Option.some.inj h).symm
      · rw [hroute] at hr
        cases hr
    subst he
    exact (hiff _ _ rfl).mpr (by decide)
  · exact absurd h hreply

/-- The answer for an address with a zero byte is not recognised. -/
theorem zero_byte_ignored :
    ¬ ∀ x ∈ demoAsked 0x8000000006, ∀ asker q text stale, Out.answer asker q text ∈ (x.1.handle toy x.2).2 →
      ∀ e ip port, x.1.knows q e → epV4 e = some (ip, port) →
        gwQuery (fun _ => none) q text stale = .found (.v4 ip port) := by
  intro h
  have hfacts : ∃ x ∈ (demoAsked 0x8000000006)[2]?,
      Out.answer (demoEp 10) 0x8000000006 (queryAnswer (put40 0x8000000006) (epText (demoEp 11))) ∈
        (x.1.handle toy x.2).2 ∧
      (x.1.peerFindAddr 0x8000000006).bind Peer.ep = some (demoEp 11) := by decide +kernel
  obtain ⟨x, hx, hout, hpeer⟩ := hfacts
  have hread := h x (List.mem_of_getElem? hx) _ _ _ [] hout (demoEp 11) _ _ (.inl hpeer) rfl
  revert hread
  decide +kernel

end Gw
