import BaitNet.BiteServer
import BaitNet.Paths

/-!
# What a request can reach

`req_target` lets through the paths without a segment of two dots, and `open_doc` puts them
behind the root: no message makes the server look at a file that is not below its root. Any
other path of less than 512 characters can be asked for, percent-encoded.
-/
namespace Bite

open Wire Text Paths

/-- The paths that a request may name. -/
structure Admitted (path : Bytes) : Prop where
  absolute : path.head? = some 47
  noNul : 0 ∉ path
  short : path.length ≤ 511
  stays : [46, 46] ∉ segments 47 path

theorem decodeTarget_length {room : Nat} {tgt out : Bytes} (h : decodeTarget room tgt = some out) :
    out.length ≤ room := by
  induction room generalizing tgt out with
  | zero =>
    obtain rfl := Option.some.inj h
    simp
  | succ room ih =>
    cases tgt with
    | nil =>
      obtain rfl := Option.some.inj h
      simp
    | cons ch rest =>
      have hmap : ∀ (c : UInt8) (r : Bytes), (decodeTarget room r).map (c :: ·) = some out →
          out.length ≤ room + 1 := by
        intro c r hr
        obtain ⟨out', hout, rfl⟩ := Option.map_eq_some_iff.mp hr
        have := ih hout
        simpa using this
      rw [decodeTarget] at h
      split at h
      · obtain rfl := Option.some.inj h
        simp
      · split at h
        · split at h
          · simp only at h
            split at h
            · cases h
            · exact hmap _ _ h
          · cases h
        · exact hmap _ _ h

/-- The loop finds two dots at the front, as far as `before` is a separator, and those behind a separator. -/
theorem dotdot_iff {s : Bytes} (hs : 0 ∉ s) {before : UInt8} (hb : before ≠ 0) :
    dotdot before s = true ↔ (before = 47 ∧ upHere 47 46 s = true) ∨ climbs 47 46 s = true := by
  induction s generalizing before with
  | nil => simp [dotdot, upHere, climbs]
  | cons a s ih =>
    cases s with
    | nil => simp [dotdot, upHere, climbs]
    | cons b r =>
      have ha : a ≠ 0 := fun h => hs (by simp [h])
      have hrest : (0 : UInt8) ∉ b :: r := fun h => hs (List.mem_cons_of_mem a h)
      have hafter : (r.head?.getD 0 = 47 ∨ r.head?.getD 0 = 0) ↔ r.head?.all (· = 47) = true := by
        cases r with
        | nil => simp
        | cons x r =>
          have hx : x ≠ 0 := fun h => hrest (by simp [h])
          simp [hx]
      have hrec := ih hrest ha
      rw [dotdot, climbs, Bool.or_eq_true, hrec, Bool.or_eq_true]
      simp [upHere, hafter, hb]
      tauto

theorem dotdot_segments {s : Bytes} (hs : 0 ∉ s) (habs : s.head? = some 47) :
    dotdot 47 s = true ↔ [46, 46] ∈ segments 47 s := by
  cases s with
  | nil => cases habs
  | cons x s =>
    obtain rfl : x = 47 := by simpa using habs
    have hfront : upHere 47 46 (47 :: s : Bytes) = false := by
      cases s <;> simp [upHere]
    rw [dotdot_iff hs (by decide), climbs_iff (by decide), hfront, segments_cons, if_pos rfl]
    simp

theorem cstring_noNul (b : Bytes) : (0 : UInt8) ∉ cstring b := by
  intro h
  have := List.mem_takeWhile_imp h
  simp at this

theorem cstring_eq {b : Bytes} (h : 0 ∉ b) : cstring b = b := by
  rw [cstring, List.takeWhile_eq_self_iff]
  intro x hx
  exact decide_eq_true fun hzero => h (hzero ▸ hx)

theorem reqTarget_admitted {tgt path : Bytes} (h : reqTarget tgt 512 = some path) : Admitted path := by
  rw [reqTarget, Option.bind_eq_bind, Option.bind_eq_some_iff] at h
  obtain ⟨out, hout, h⟩ := h
  split at h
  · cases h
  · rename_i hhead
    have hfirst : out.head? = some 47 := by simpa using hhead
    split at h
    · cases h
    · rename_i hdots
      obtain rfl := Option.some.inj h
      have hlen := decodeTarget_length hout
      have habs : (cstring out).head? = some 47 := by
        cases out with
        | nil => cases hfirst
        | cons x out =>
          obtain rfl : x = 47 := by simpa using hfirst
          simp [cstring]
      refine ⟨habs, cstring_noNul out, ?_, ?_⟩
      · exact Nat.le_trans (List.takeWhile_prefix _).length_le hlen
      · rwa [← dotdot_segments (cstring_noNul out) habs]

theorem reqParse_admitted {m : Bytes} {rq : Breq} (h : reqParse m = some rq) : Admitted rq.path := by
  unfold reqParse at h
  simp only at h
  split at h
  · cases h
  · split at h
    · cases h
    · split at h
      · cases h
      · split at h
        · cases h
        · split at h
          · cases h
          · rename_i path htarget
            split at h
            · obtain rfl := Option.some.inj h
              exact reqTarget_admitted htarget
            · cases h

/-- Both names that `open_doc` may be left with are admitted. -/
theorem docName_below {root path : Bytes} (hroot : root ≠ []) (hlen : root.length ≤ 512) (h : Admitted path) :
    Below 47 46 root (docName root path) := by
  have hstays : ∀ {p : Bytes}, p.head? = some 47 → p.length ≤ 511 → [46, 46] ∉ segments 47 p →
      Below 47 46 root ((root ++ p).take 1023) := by
    intro p habs hshort hp
    cases p with
    | nil => cases habs
    | cons x p =>
      obtain rfl : x = 47 := by simpa using habs
      rw [List.take_of_length_le (by simp only [List.length_append]; omega)]
      apply below_append 47 46 hroot
      rw [segments_cons, if_pos rfl] at hp
      exact fun hmem => hp (List.mem_cons_of_mem [] hmem)
  rw [docName]
  split
  · exact hstays rfl (by decide) (by decide)
  · exact hstays h.absolute h.short h.stays

/-- Two disks with the same files below the root are served alike: every message is answered from there. -/
theorem respond_confined {root : Bytes} (hroot : root ≠ []) (hlen : root.length ≤ 512) {fs fs' : Bytes → Option Stream}
    (hfs : ∀ name, Below 47 46 root name → fs name = fs' name) (m : Bytes) :
    respond fs root m = respond fs' root m := by
  rw [respond, respond]
  cases hrq : reqParse m with
  | none => rfl
  | some rq =>
    have hname := docName_below hroot hlen (reqParse_admitted hrq)
    simp only [serve, openDoc, hfs _ hname]

/-- Two disks that differ outside the root only, and a message that would like to see it. -/
theorem respond_confined_passwd :
    respond (fun name => if name = ascii "/etc/passwd" then some ⟨some 1, [1]⟩ else none) (ascii "/srv")
        (ascii "GET /../etc/passwd BITE/1.0\r\n\r\n") =
      respond (fun _ => none) (ascii "/srv") (ascii "GET /../etc/passwd BITE/1.0\r\n\r\n") := by
  refine respond_confined (by simp [ascii]) (by simp [ascii]) (fun name hbelow => ?_) _
  -- the file leads to `etc` from the top, and nothing that the root leads to does
  have hne : name ≠ ascii "/etc/passwd" := by
    rintro rfl
    obtain ⟨names, hnames⟩ := hbelow []
    have hroot : resolve 47 46 [] (ascii "/srv") = [ascii "srv"] := by decide
    have hfile : resolve 47 46 [] (ascii "/etc/passwd") = [ascii "passwd", ascii "etc"] := by decide
    rw [hroot, hfile] at hnames
    have hlast := congrArg List.getLast? hnames
    revert hlast
    simp [ascii]
  simp [hne]

/-- The message that a client sends. -/
def requestText (meth path : Bytes) : Bytes := meth ++ 32 :: path ++ ascii " BITE/1.0\r\n\r\n"

/-- Every byte but a separator as a percent sign and two digits. -/
def percentEncode (path : Bytes) : Bytes :=
  path.flatMap fun b => if b = 47 then [47] else [37, hexDigit (b.toNat / 16), hexDigit (b.toNat % 16)]

theorem hexval_hexDigit (b : UInt8) :
    ∃ hi lo, hexval (hexDigit (b.toNat / 16)) = some hi ∧ hexval (hexDigit (b.toNat % 16)) = some lo ∧
      hi <<< 4 ||| lo = b := by
  have hall : ∀ n < 256, hexval (hexDigit (n / 16)) = some (.ofNat (n / 16)) ∧
      hexval (hexDigit (n % 16)) = some (.ofNat (n % 16)) ∧
      UInt8.ofNat (n / 16) <<< 4 ||| .ofNat (n % 16) = .ofNat n := by decide +kernel
  obtain ⟨hhi, hlo, hb⟩ := hall b.toNat b.toNat_lt
  rw [UInt8.ofNat_toNat] at hb
  exact ⟨_, _, hhi, hlo, hb⟩

/-- What is percent-encoded is decoded, as long as there is room for it. -/
theorem decodeTarget_percentEncode {path : Bytes} (hno : 0 ∉ path) {room : Nat} (hroom : path.length ≤ room) :
    decodeTarget room (percentEncode path) = some path := by
  induction path generalizing room with
  | nil => cases room <;> rfl
  | cons b path ih =>
    obtain ⟨hzero, hrest⟩ := not_or.mp (mt List.mem_cons.mpr hno)
    cases room with
    | zero => simp at hroom
    | succ room =>
      have hdecode := ih hrest (show path.length ≤ room by simpa using hroom)
      by_cases hb : b = 47
      · subst hb
        simp [percentEncode] at hdecode ⊢
        rw [decodeTarget, if_neg (by decide), if_neg (by simp), hdecode]
        rfl
      · obtain ⟨hi, lo, hhi, hlo, hval⟩ := hexval_hexDigit b
        have hnext : ¬ (b = 47 ∨ b = 0) := by simp [hb, Ne.symm hzero]
        simp only [percentEncode, List.flatMap_cons, if_neg hb] at hdecode ⊢
        simp only [List.cons_append, List.nil_append]
        rw [decodeTarget, if_neg (by decide), if_pos (by simp)]
        simp [byteAt, hhi, hlo, hval, hnext, hdecode]

theorem percentEncode_bytes {path : Bytes} {b : UInt8} (h : b ∈ percentEncode path) : b ≠ 10 ∧ b ≠ 32 := by
  have hdigit : ∀ n < 16, hexDigit n ≠ 10 ∧ hexDigit n ≠ 32 := by decide
  obtain ⟨x, -, hx⟩ := List.mem_flatMap.mp h
  have hlt := x.toNat_lt
  split at hx
  · obtain rfl := List.mem_singleton.mp hx
    decide
  · simp only [List.mem_cons, List.not_mem_nil, or_false] at hx
    rcases hx with rfl | rfl | rfl
    · decide
    · exact hdigit _ (by omega)
    · exact hdigit _ (by omega)

theorem percentEncode_length (path : Bytes) :
    path.length ≤ (percentEncode path).length ∧ (percentEncode path).length ≤ 3 * path.length := by
  induction path with
  | nil => simp [percentEncode]
  | cons b path ih =>
    simp only [percentEncode, List.flatMap_cons, List.length_append] at ih ⊢
    split <;> simp only [List.length_cons, List.length_nil] <;> omega

theorem reqTarget_percentEncode {path : Bytes} (h : Admitted path) :
    reqTarget (percentEncode path) 512 = some path := by
  have hdots : ¬ dotdot 47 path = true := by
    rw [dotdot_segments h.noNul h.absolute]
    exact h.stays
  rw [reqTarget, decodeTarget_percentEncode h.noNul h.short]
  simp [h.absolute, cstring_eq h.noNul, hdots]

/-- A request line that is one: a method, a target and the name of the protocol. -/
theorem reqParse_requestText (meth : Bytes) {target : Bytes} (hmeth : ∀ b ∈ meth, b ≠ 0 ∧ b ≠ 10 ∧ b ≠ 32) (hne : meth ≠ [])
    (hshort : meth.length ≤ 7) (htarget : ∀ b ∈ target, b ≠ 10 ∧ b ≠ 32) (htne : target ≠ [])
    (hfits : target.length ≤ 2000) :
    reqParse (requestText meth target) =
      (reqTarget target 512).map fun path => ⟨meth, path, meth = ascii "HEAD"⟩ := by
  have htext : requestText meth target =
      (meth ++ 32 :: (target ++ 32 :: ascii "BITE/1.0\r")) ++ 10 :: [13, 10] := by
    simp [requestText, ascii]
  have hlen : (requestText meth target).length ≤ biteHdrMax := by
    rw [requestText, biteHdrMax]
    simp [ascii]
    omega
  have hline : (10 : UInt8) ∉ meth ++ 32 :: (target ++ 32 :: ascii "BITE/1.0\r") := by
    intro h
    rcases List.mem_append.mp h with hm | hrest
    · exact (hmeth 10 hm).2.1 rfl
    · rcases List.mem_cons.mp hrest with heq | hrest
      · cases heq
      · rcases List.mem_append.mp hrest with ht | hv
        · exact (htarget 10 ht).1 rfl
        · revert hv
          decide
  have hblank : (32 : UInt8) ∉ meth := fun h => (hmeth 32 h).2.2 rfl
  have htblank : (32 : UInt8) ∉ target := fun h => (htarget 32 h).2 rfl
  have hnul : (0 : UInt8) ∉ meth := fun h => (hmeth 0 h).1 rfl
  have hend : (Heads.cutAt emptyLine (requestText meth target)).isSome = true := by
    rw [Heads.cutAt_isSome]
    exact ⟨meth ++ 32 :: target ++ ascii " BITE/1.0", [], by simp [requestText, emptyLine, ascii]⟩
  have hlt : lineTarget (target ++ 32 :: ascii "BITE/1.0\r") = target := by
    rw [lineTarget, splitFirst_append htblank]
  have hbad : ¬ (meth = [] ∨ 8 ≤ meth.length) := by
    simp only [hne, false_or]
    omega
  unfold reqParse
  simp only [List.take_of_length_le hlen]
  rw [hend, htext, splitFirst_append hline]
  simp only [splitFirst_append hblank, if_neg hbad, hlt, if_neg htne, cstring_eq hnul]
  cases reqTarget target 512 <;> simp

/-- A path is asked for by the client's message with the percent-encoded path as its target. -/
theorem reqParse_percentEncode {path : Bytes} (h : Admitted path) {meth : Bytes}
    (hmeth : meth ∈ [ascii "BITE", ascii "GET", ascii "HEAD"]) :
    reqParse (requestText meth (percentEncode path)) = some ⟨meth, path, meth = ascii "HEAD"⟩ := by
  have hverbs : ∀ m ∈ [ascii "BITE", ascii "GET", ascii "HEAD"],
      (∀ b ∈ m, b ≠ 0 ∧ b ≠ 10 ∧ b ≠ 32) ∧ m ≠ [] ∧ m.length ≤ 7 := by simp [ascii]
  obtain ⟨hclean, hmne, hmlen⟩ := hverbs meth hmeth
  obtain ⟨hlow, hhigh⟩ := percentEncode_length path
  have hshort := h.short
  have hpos : path ≠ [] := by
    rintro rfl
    cases h.absolute
  have hne : percentEncode path ≠ [] := by
    intro hnil
    rw [hnil] at hlow
    exact hpos (List.length_eq_zero_iff.mp (Nat.le_zero.mp hlow))
  rw [reqParse_requestText meth hclean hmne hmlen (fun b hb => percentEncode_bytes hb) hne (by omega),
    reqTarget_percentEncode h]
  rfl

/-- The paths that some message asks for are the admitted ones, and each of these is asked for,
with every method that is served, by its percent-encoded text. -/
theorem asked_iff (path : Bytes) :
    ((∃ m rq, reqParse m = some rq ∧ rq.path = path) ↔ Admitted path) ∧
      (Admitted path ↔ ∀ meth ∈ [ascii "BITE", ascii "GET", ascii "HEAD"],
        reqParse (requestText meth (percentEncode path)) = some ⟨meth, path, meth = ascii "HEAD"⟩) := by
  refine ⟨⟨?_, ?_⟩, ?_, ?_⟩
  · rintro ⟨m, rq, hrq, rfl⟩
    exact reqParse_admitted hrq
  · exact fun h => ⟨_, _, reqParse_percentEncode h List.mem_cons_self, rfl⟩
  · exact fun h meth hmeth => reqParse_percentEncode h hmeth
  · exact fun h => reqParse_admitted (h (ascii "BITE") List.mem_cons_self)

end Bite
