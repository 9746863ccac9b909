import BaitNet.BiteReplies
import BaitNet.QueryAnswer

/-!
# What the servers answer

Unless the disk fails it, either implementation answers every message with the text of a
response that either client can read: the status, the three fields of the head, and the bytes of
the file.
-/
namespace Bite

open Wire Text
open Py (Ascii chars cText)

def contentType : Bytes := ascii "Content-Type"
def contentLength : Bytes := ascii "Content-Length"
def serverField : Bytes × Bytes := (ascii "Server", ascii "BITE/1.0")

/-- A response without a document. -/
def failure (status : Nat) (reason : Bytes) : Reply :=
  ⟨status, reason, [(contentType, ascii "text/plain"), (contentLength, ascii "0"), serverField], []⟩

def badRequest : Reply := failure 400 (ascii "Bad Request")
def notFound : Reply := failure 404 (ascii "Not Found")
def tooLarge : Reply := failure 500 (ascii "Internal Error")

def notAllowed : Reply :=
  ⟨405, ascii "Method Not Allowed",
    [(ascii "Allow", ascii "BITE, GET, HEAD"), (contentLength, ascii "0"), serverField], []⟩

def document (ctype : Bytes) (size : Nat) (body : Bytes) : Reply :=
  ⟨200, ascii "OK", [(contentType, ctype), (contentLength, decimal size), serverField], body⟩

/-- What `run_server` means to answer, if it can read the document that it promises. -/
def reply (fs : Bytes → Option Stream) (root m : Bytes) : Option Reply :=
  match reqParse m with
  | none => some badRequest
  | some rq =>
    if rq.method ∈ [ascii "BITE", ascii "GET", ascii "HEAD"] then
      match openDoc fs root rq.path with
      | none => some notFound
      | some (fsize, bytes) =>
        if btlsMaxMsg < fsize + biteHdrMax then some tooLarge
        else if rq.isHead then some (document (mimeOf rq.path) fsize [])
        else if bytes.length = fsize then some (document (mimeOf rq.path) fsize bytes)
        else none
    else some notAllowed

/-- The message asks for a document that is not too large, and `fread` gets another number of
bytes than `ftell` promised. -/
def CutShort (fs : Bytes → Option Stream) (root m : Bytes) : Prop :=
  ∃ rq fsize bytes, reqParse m = some rq ∧ rq.isHead = false ∧ rq.method ∈ [ascii "BITE", ascii "GET", ascii "HEAD"] ∧
    openDoc fs root rq.path = some (fsize, bytes) ∧ fsize + biteHdrMax ≤ btlsMaxMsg ∧ bytes.length ≠ fsize

namespace Reply

instance (b : Bytes) : Decidable (Plain b) :=
  decidable_of_iff (Ascii b ∧ 13 ∉ b ∧ Py.strip (chars b) = chars b)
    ⟨fun h => ⟨h.1, h.2.1, h.2.2⟩, fun h => ⟨h.ascii, h.noCr, h.bare⟩⟩

instance (r : Reply) : Decidable (Good r) :=
  decidable_of_iff (r.status < 2 ^ 31 ∧ Plain r.reason ∧ (∀ f ∈ r.fields, Plain f.1 ∧ 58 ∉ f.1) ∧
      (∀ f ∈ r.fields, Plain f.2) ∧ (r.fields.map fun f => (chars f.1).map Char.toLower).Nodup)
    ⟨fun h => ⟨h.1, h.2.1, h.2.2.1, h.2.2.2.1, h.2.2.2.2⟩,
      fun h => ⟨h.status, h.reason, h.keys, h.values, h.distinct⟩⟩

end Reply

open Reply

theorem failures_good : badRequest.Good ∧ notFound.Good ∧ tooLarge.Good ∧ notAllowed.Good := by decide

theorem document_good {ctype : Bytes} (h : Plain ctype) (size : Nat) (body : Bytes) :
    (document ctype size body).Good := by
  have hempty : (document [] 0 []).Good := by decide
  have hvalues : Plain serverField.2 := by decide
  refine ⟨hempty.status, hempty.reason, ?_, ?_, hempty.distinct⟩
  · intro f hf
    simp only [document, List.mem_cons, List.not_mem_nil, or_false] at hf
    rcases hf with rfl | rfl | rfl
    · exact hempty.keys (contentType, []) (by simp [document])
    · exact hempty.keys (contentLength, decimal 0) (by simp [document])
    · exact hempty.keys serverField (by simp [document])
  · intro f hf
    simp only [document, List.mem_cons, List.not_mem_nil, or_false] at hf
    rcases hf with rfl | rfl | rfl
    · exact h
    · exact decimal_plain size
    · exact hvalues

/-- Every type that `mime_of` names. -/
theorem mimeOf_plain (path : Bytes) : Plain (mimeOf path) ∧ (mimeOf path).length ≤ 24 := by
  have htable : ∀ e ∈ mimeTypes, Plain e.2 ∧ e.2.length ≤ 24 := by decide
  have hoctet : Plain octetStream ∧ octetStream.length ≤ 24 := by decide
  rw [mimeOf]
  split
  · exact hoctet
  · rename_i dot _
    cases hlook : mimeTypes.lookup dot with
    | none => exact hoctet
    | some ctype =>
      obtain ⟨l₁, l₂, hmem, -⟩ := List.lookup_eq_some_iff.mp hlook
      have hin : (dot, ctype) ∈ mimeTypes := by simp [hmem]
      exact htable _ hin

theorem docHead_text (ctype : Bytes) (size : Nat) (body : Bytes) :
    (document ctype size body).text = docHead ctype size ++ body := by
  have h200 : decimal 200 = ascii "200" := by decide
  simp [text, lines, statusLine, fieldLine, document, docHead, h200, contentType, contentLength, serverField, emptyLine,
    ascii]

theorem docHead_length {ctype : Bytes} (hc : ctype.length ≤ 24) {n : Nat} (hn : n ≤ btlsMaxMsg) :
    (docHead ctype n).length < biteHdrMax := by
  have hdec := Gw.decimal_length (k := 6) (n := n) (by decide) (Nat.lt_of_le_of_lt hn (by decide))
  simp only [docHead, List.length_append, ascii, List.length_map, biteHdrMax]
  simp
  omega

theorem failure_texts : badRequest.text = resp400 ∧ notFound.text = resp404 ∧ tooLarge.text = resp500 ∧
    notAllowed.text = resp405 := by decide

/-- A response that a server may send. -/
structure Deliverable (r : Reply) : Prop where
  good : r.Good
  nonempty : r.text ≠ []
  fits : r.text.length ≤ btlsMaxMsg

theorem failures_deliverable : Deliverable badRequest ∧ Deliverable notFound ∧ Deliverable tooLarge ∧ Deliverable notAllowed := by
  obtain ⟨h400, h404, h500, h405⟩ := failures_good
  obtain ⟨t400, t404, t500, t405⟩ := failure_texts
  refine ⟨⟨h400, ?_, ?_⟩, ⟨h404, ?_, ?_⟩, ⟨h500, ?_, ?_⟩, ⟨h405, ?_, ?_⟩⟩
  all_goals simp [t400, t404, t500, t405, resp400, resp404, resp500, resp405, ascii, btlsMaxMsg]

theorem document_deliverable {ctype : Bytes} (hc : Plain ctype ∧ ctype.length ≤ 24) {size : Nat} {body : Bytes}
    (hsize : size + biteHdrMax ≤ btlsMaxMsg) (hbody : body.length ≤ size) : Deliverable (document ctype size body) := by
  have hhead := docHead_length hc.2 (n := size) (by omega)
  refine ⟨document_good hc.1 size body, ?_, ?_⟩
  · simp [docHead_text, docHead, ascii]
  · rw [docHead_text, List.length_append]
    omega

theorem reply_deliverable {fs : Bytes → Option Stream} {root m : Bytes} {r : Reply} (h : reply fs root m = some r) :
    Deliverable r := by
  obtain ⟨h400, h404, h500, h405⟩ := failures_deliverable
  unfold reply at h
  split at h
  · exact Option.some.inj h ▸ h400
  · rename_i rq _
    split at h
    · split at h
      · exact Option.some.inj h ▸ h404
      · split at h
        · exact Option.some.inj h ▸ h500
        · rename_i hfits
          split at h
          · exact Option.some.inj h ▸ document_deliverable (mimeOf_plain rq.path) (Nat.le_of_not_lt hfits) (Nat.zero_le _)
          · split at h
            · rename_i hwhole
              exact Option.some.inj h ▸ document_deliverable (mimeOf_plain rq.path) (Nat.le_of_not_lt hfits) hwhole.le
            · cases h
    · exact Option.some.inj h ▸ h405

theorem reply_none {fs : Bytes → Option Stream} {root m : Bytes} (h : reply fs root m = none) : CutShort fs root m := by
  unfold reply at h
  split at h
  · cases h
  · rename_i rq hrq
    split at h
    · rename_i hverb
      split at h
      · cases h
      · rename_i fsize bytes hopen
        split at h
        · cases h
        · rename_i hfits
          split at h
          · cases h
          · rename_i hhead
            split at h
            · cases h
            · rename_i hshort
              exact ⟨rq, fsize, bytes, hrq, by simpa using hhead, hverb, hopen, Nat.le_of_not_lt hfits, hshort⟩
    · cases h

/-- The document of a request, as `serve` reads it. -/
theorem serve_document (rq : Breq) {fsize : Nat} (bytes : Bytes) (hfits : fsize + biteHdrMax ≤ btlsMaxMsg) :
    (let head := docHead (mimeOf rq.path) fsize
      if biteHdrMax ≤ head.length then none
      else if rq.isHead then some head
      else
        let got := bytes.take (btlsMaxMsg - head.length)
        if got.length ≠ fsize then none else some (head ++ got)) =
      (if rq.isHead then some (document (mimeOf rq.path) fsize [])
        else if bytes.length = fsize then some (document (mimeOf rq.path) fsize bytes)
        else none).map Reply.text := by
  have hhead := docHead_length (mimeOf_plain rq.path).2 (n := fsize) (by omega)
  dsimp only
  rw [if_neg (Nat.not_le.mpr hhead)]
  cases rq.isHead with
  | true => simp [docHead_text]
  | false =>
    by_cases hwhole : bytes.length = fsize
    · have htake : bytes.take (btlsMaxMsg - (docHead (mimeOf rq.path) fsize).length) = bytes :=
        List.take_of_length_le (by omega)
      simp [htake, hwhole, docHead_text]
    · have hshort : (bytes.take (btlsMaxMsg - (docHead (mimeOf rq.path) fsize).length)).length ≠ fsize := by
        rw [List.length_take]
        omega
      simp only [Bool.false_eq_true, if_false, if_pos hshort, if_neg hwhole, Option.map_none]

/-- The server sends what it means to answer, or ends the session. -/
theorem respond_eq (fs : Bytes → Option Stream) (root m : Bytes) :
    respond fs root m = (reply fs root m).map Reply.text := by
  obtain ⟨h400, h404, h500, h405⟩ := failure_texts
  rw [respond, reply]
  cases reqParse m with
  | none => exact congrArg some h400.symm
  | some rq =>
    by_cases hverb : rq.method ∈ [ascii "BITE", ascii "GET", ascii "HEAD"]
    · have hserve : ¬ (rq.method ≠ ascii "BITE" ∧ rq.method ≠ ascii "GET" ∧ rq.method ≠ ascii "HEAD") := by
        simp only [List.mem_cons, List.not_mem_nil, or_false] at hverb
        exact fun h => hverb.elim h.1 fun hrest => hrest.elim h.2.1 h.2.2
      simp only [if_pos hverb, serve, if_neg hserve]
      cases openDoc fs root rq.path with
      | none => exact congrArg some h404.symm
      | some doc =>
        obtain ⟨fsize, bytes⟩ := doc
        have hbig : btlsMaxMsg - biteHdrMax < fsize ↔ btlsMaxMsg < fsize + biteHdrMax := by
          simp only [btlsMaxMsg, biteHdrMax]
          omega
        simp only [hbig]
        split
        · exact congrArg some h500.symm
        · rename_i hfits
          exact serve_document rq bytes (Nat.le_of_not_lt hfits)
    · have hserve : rq.method ≠ ascii "BITE" ∧ rq.method ≠ ascii "GET" ∧ rq.method ≠ ascii "HEAD" := by
        simpa only [List.mem_cons, List.not_mem_nil, or_false, not_or] using hverb
      simp only [if_neg hverb, serve, if_pos hserve]
      exact congrArg some h405.symm

theorem respond_deliverable {fs : Bytes → Option Stream} {root m resp : Bytes} (h : respond fs root m = some resp) :
    resp ≠ [] ∧ resp.length ≤ btlsMaxMsg := by
  rw [respond_eq] at h
  obtain ⟨r, hr, rfl⟩ := Option.map_eq_some_iff.mp h
  exact ⟨(reply_deliverable hr).nonempty, (reply_deliverable hr).fits⟩

/-- `HEAD` is always answered, and with the head of what `BITE` and `GET` are answered with, where
these are. -/
theorem respond_head (fs : Bytes → Option Stream) (root : Bytes) {verb target : Bytes}
    (hverb : verb = ascii "BITE" ∨ verb = ascii "GET") (htarget : ∀ b ∈ target, b ≠ 10 ∧ b ≠ 32) (hne : target ≠ [])
    (hfits : target.length ≤ 2000) :
    ∃ head : Reply, head.Good ∧ head.body = [] ∧
      respond fs root (requestText (ascii "HEAD") target) = some head.text ∧
        ∀ resp, respond fs root (requestText verb target) = some resp →
          ∃ body, resp = Reply.text { head with body := body } := by
  have hhead := reqParse_requestText (ascii "HEAD") (by simp [ascii]) (by simp [ascii]) (by simp [ascii])
    htarget hne hfits
  have hother := reqParse_requestText verb (by rcases hverb with rfl | rfl <;> simp [ascii])
    (by rcases hverb with rfl | rfl <;> simp [ascii]) (by rcases hverb with rfl | rfl <;> simp [ascii]) htarget hne hfits
  have hmem : verb ∈ [ascii "BITE", ascii "GET", ascii "HEAD"] := by
    rcases hverb with rfl | rfl <;> simp
  have hnot : decide (verb = ascii "HEAD") = false := by
    rcases hverb with rfl | rfl <;> decide
  -- the same failure answers both
  have hsame : ∀ {r : Reply}, r.Good → r.body = [] → ∀ resp, some r.text = some resp →
      ∃ body, resp = Reply.text { r with body := body } :=
    fun {r} _ hbody resp hresp => ⟨r.body, (Option.some.inj hresp).symm⟩
  obtain ⟨h400, h404, h500, -⟩ := failures_good
  rw [respond_eq, respond_eq, reply, reply, hhead, hother]
  cases reqTarget target 512 with
  | none => exact ⟨badRequest, h400, rfl, rfl, hsame h400 rfl⟩
  | some path =>
    simp only [Option.map_some, if_pos hmem, hnot]
    rw [if_pos (by simp)]
    cases openDoc fs root path with
    | none => exact ⟨notFound, h404, rfl, rfl, hsame h404 rfl⟩
    | some doc =>
      obtain ⟨fsize, bytes⟩ := doc
      by_cases hbig : btlsMaxMsg < fsize + biteHdrMax
      · simp only [if_pos hbig]
        exact ⟨tooLarge, h500, rfl, rfl, hsame h500 rfl⟩
      · simp only [if_neg hbig]
        refine ⟨document (mimeOf path) fsize [], document_good (mimeOf_plain path).1 fsize [], rfl, rfl, ?_⟩
        intro resp hresp
        by_cases hwhole : bytes.length = fsize
        · simp only [Bool.false_eq_true, if_false, if_pos hwhole, Option.map_some] at hresp
          exact ⟨bytes, (Option.some.inj hresp).symm⟩
        · simp only [Bool.false_eq_true, if_false, if_neg hwhole, Option.map_none] at hresp
          cases hresp

/-- A page of three bytes. -/
theorem respond_head_index :
    ∃ head : Reply, head.Good ∧ head.body = [] ∧
      respond (fun _ => some ⟨some 3, [1, 2, 3]⟩) (ascii "/srv") (requestText (ascii "HEAD") (ascii "/index.html")) =
          some head.text ∧
        ∀ resp, respond (fun _ => some ⟨some 3, [1, 2, 3]⟩) (ascii "/srv")
            (requestText (ascii "GET") (ascii "/index.html")) = some resp →
          ∃ body, resp = Reply.text { head with body := body } :=
  respond_head _ _ (.inr rfl) (by simp [ascii]) (by simp [ascii]) (by simp [ascii])

end Bite

namespace Py

open Wire Bite

variable (disk : Disk)

/-- What `serve_one` means to answer. -/
def reply (root : List Char) (msg : Bytes) : Except Exn Reply :=
  match parseRequest msg with
  | .error _ => .ok badRequest
  | .ok (method, target) =>
    if readVerbs.contains (upper method) then
      match resolveDocument disk root target with
      | .error (.valueError _) => .ok badRequest
      | .error .fileNotFoundError => .ok notFound
      | .error e => .error e
      | .ok path =>
        match disk.readBytes path with
        | .error (.valueError _) => .ok badRequest
        | .error e => .error e
        | .ok body =>
          if Btls.btlsMaxMsg < body.length + hdrMax then .ok tooLarge
          else .ok (document (cText (mimeOf (pathText path))) body.length
            (if upper method = "HEAD".toList then [] else body))
    else .ok notAllowed

/-- The disk does not answer. -/
def Disk.Raises (e : Exn) : Prop :=
  (∃ path, disk.resolve path = .error e) ∨ (∃ parts, disk.isFile parts = .error e) ∨
    ∃ parts, disk.readBytes parts = .error e

theorem parseLine_error {line : List Char} {e : Exn} (h : parseLine line = .error e) : ∃ text, e = .valueError text := by
  unfold parseLine at h
  split at h
  · simp only at h
    split at h
    · exact ⟨_, (Except.error.inj h).symm⟩
    · split at h
      · exact ⟨_, (Except.error.inj h).symm⟩
      · split at h
        · exact ⟨_, (Except.error.inj h).symm⟩
        · cases h
  · exact ⟨_, (Except.error.inj h).symm⟩

theorem parseRequest_error {msg : Bytes} {e : Exn} (h : parseRequest msg = .error e) :
    ∃ text, e = .valueError text := by
  unfold parseRequest at h
  simp only at h
  split at h
  · exact ⟨_, (Except.error.inj h).symm⟩
  · exact parseLine_error h

/-- Every type that `mime_of` names. -/
theorem mimeOf_plain (path : List Char) :
    IsAscii (mimeOf path) ∧ Reply.Plain (cText (mimeOf path)) ∧ (mimeOf path).length ≤ 24 := by
  have hascii : ∀ s : List Char, s.all (·.toNat < 128) = true → IsAscii s :=
    fun s h ch hch => by simpa using List.all_eq_true.mp h ch hch
  have htable : ∀ e ∈ mimeTypes, e.2.all (·.toNat < 128) = true ∧ Reply.Plain (cText e.2) ∧ e.2.length ≤ 24 := by
    decide
  have hoctet : "application/octet-stream".toList.all (·.toNat < 128) = true ∧
      Reply.Plain (cText "application/octet-stream".toList) ∧ "application/octet-stream".toList.length ≤ 24 := by
    decide
  rw [mimeOf]
  cases hlook : mimeTypes.lookup ((suffix path).map Char.toLower) with
  | none => exact ⟨hascii _ hoctet.1, hoctet.2⟩
  | some ctype =>
    obtain ⟨l₁, l₂, hmem, -⟩ := List.lookup_eq_some_iff.mp hlook
    have hin : ((suffix path).map Char.toLower, ctype) ∈ mimeTypes := by simp [hmem]
    exact ⟨hascii _ (htable _ hin).1, (htable _ hin).2⟩

theorem cText_append (a b : List Char) : cText (a ++ b) = cText a ++ cText b := List.map_append

theorem isAscii_append {a b : List Char} (ha : IsAscii a) (hb : IsAscii b) : IsAscii (a ++ b) :=
  fun ch hch => (List.mem_append.mp hch).elim (ha ch) (hb ch)

/-- The head of a document is the one that the C server writes. -/
theorem responseHead_document {ctype : List Char} (hc : IsAscii ctype) (n : Nat) :
    encode (responseHead 200 (some ctype) [] n) = docHead (cText ctype) n := by
  have hlit : ∀ s : List Char, s.all (·.toNat < 128) = true → IsAscii s :=
    fun s h ch hch => by simpa using List.all_eq_true.mp h ch hch
  have hhead : responseHead 200 (some ctype) [] n =
      "BITE/1.0 200 OK\r\nContent-Type: ".toList ++ (ctype ++ ("\r\nContent-Length: ".toList ++
        (Nat.toDigits 10 n ++ "\r\nServer: BITE/1.0\r\n\r\n".toList))) := by
    have hfront : "BITE/1.0 200 OK\r\nContent-Type: ".toList =
        "BITE/1.0 ".toList ++ Nat.toDigits 10 200 ++ ' ' :: reasons 200 ++ "\r\n".toList ++ "Content-Type: ".toList := by
      have h200 : Nat.toDigits 10 200 = ['2', '0', '0'] := by decide
      rw [h200]
      rfl
    have hmiddle : "\r\nContent-Length: ".toList = "\r\n".toList ++ "Content-Length: ".toList := rfl
    have hparts : responseHead 200 (some ctype) [] n =
        "BITE/1.0 ".toList ++ Nat.toDigits 10 200 ++ ' ' :: reasons 200 ++ "\r\n".toList ++
          ("Content-Type: ".toList ++ ctype ++ "\r\n".toList) ++ [] ++ "Content-Length: ".toList ++
            Nat.toDigits 10 n ++ "\r\nServer: BITE/1.0\r\n\r\n".toList := rfl
    rw [hparts, hfront, hmiddle]
    simp only [List.append_assoc, List.append_nil]
  have hascii : IsAscii (responseHead 200 (some ctype) [] n) := by
    rw [hhead]
    apply isAscii_append (hlit _ (by decide))
    apply isAscii_append hc
    apply isAscii_append (hlit _ (by decide))
    exact isAscii_append (isAscii_toDigits n) (hlit _ (by decide))
  rw [encode_ascii hascii, hhead, docHead]
  simp only [cText_append, cText_toDigits, List.append_assoc]
  rfl

theorem buildResponse_document {ctype : List Char} (hc : IsAscii ctype) (hlen : ctype.length ≤ 24) {body : Bytes}
    (hfits : body.length + hdrMax ≤ Btls.btlsMaxMsg) (headOnly : Bool) :
    buildResponse 200 body (some ctype) headOnly [] =
      .ok (document (cText ctype) body.length (if headOnly then [] else body)).text := by
  have hshort := docHead_length (show (cText ctype).length ≤ 24 by simpa [cText] using hlen)
    (Nat.le_trans (Nat.le_add_right body.length hdrMax) hfits)
  have hcap : ¬ Btls.btlsMaxMsg < (docHead (cText ctype) body.length ++ if headOnly then [] else body).length := by
    have hmax : hdrMax = biteHdrMax := rfl
    rw [List.length_append]
    split
    · rw [List.length_nil]
      omega
    · omega
  rw [buildResponse, docHead_text]
  simp only [responseHead_document hc, if_neg hcap]

theorem buildResponse_failures (headOnly : Bool) :
    buildResponse 400 [] (some "text/plain".toList) headOnly [] = .ok badRequest.text ∧
      buildResponse 404 [] (some "text/plain".toList) headOnly [] = .ok notFound.text ∧
        buildResponse 500 [] (some "text/plain".toList) headOnly [] = .ok tooLarge.text ∧
          buildResponse 405 [] none false "Allow: BITE, GET, HEAD\r\n".toList = .ok notAllowed.text := by
  cases headOnly <;> decide

theorem resolveDocument_error {root target : List Char} {e : Exn} (h : resolveDocument disk root target = .error e) :
    (∃ text, e = .valueError text) ∨ e = .fileNotFoundError ∨ disk.Raises e := by
  rw [resolveDocument] at h
  cases hpath : disk.resolve (root ++ '/' :: relative target) with
  | error e' =>
    rw [hpath] at h
    obtain rfl := Except.error.inj h
    exact .inr (.inr (.inl ⟨_, hpath⟩))
  | ok path =>
    cases habs : disk.resolve root with
    | error e' =>
      rw [hpath, ok_bind, habs] at h
      obtain rfl := Except.error.inj h
      exact .inr (.inr (.inl ⟨_, habs⟩))
    | ok rootAbs =>
      simp only [hpath, habs, ok_bind] at h
      split at h
      · exact .inl ⟨_, (Except.error.inj h).symm⟩
      · cases hfile : disk.isFile path with
        | error e' =>
          simp only [hfile, pure_eq_ok, error_bind] at h
          obtain rfl := Except.error.inj h
          exact .inr (.inr (.inr (.inl ⟨_, hfile⟩)))
        | ok found =>
          simp only [hfile, pure_eq_ok, ok_bind] at h
          split at h
          · cases h
          · exact .inr (.inl (Except.error.inj h).symm)

theorem reply_error {root : List Char} {msg : Bytes} {e : Exn} (h : reply disk root msg = .error e) : disk.Raises e := by
  unfold reply at h
  split at h
  · cases h
  · split at h
    · split at h
      · cases h
      · cases h
      · rename_i e' hvalue hmissing hdoc
        obtain rfl := Except.error.inj h
        rcases resolveDocument_error disk hdoc with ⟨text, rfl⟩ | rfl | hraises
        · exact absurd rfl (hvalue text)
        · exact absurd rfl hmissing
        · exact hraises
      · split at h
        · cases h
        · rename_i hread
          obtain rfl := Except.error.inj h
          exact .inr (.inr ⟨_, hread⟩)
        · split at h
          · cases h
          · cases h
    · cases h

theorem reply_deliverable {root : List Char} {msg : Bytes} {r : Reply} (h : reply disk root msg = .ok r) : Deliverable r := by
  obtain ⟨h400, h404, h500, h405⟩ := failures_deliverable
  unfold reply at h
  split at h
  · exact Except.ok.inj h ▸ h400
  · split at h
    · split at h
      · exact Except.ok.inj h ▸ h400
      · exact Except.ok.inj h ▸ h404
      · cases h
      · rename_i path _
        split at h
        · exact Except.ok.inj h ▸ h400
        · cases h
        · split at h
          · exact Except.ok.inj h ▸ h500
          · rename_i body _ hfits
            obtain ⟨-, hplain, hlen⟩ := mimeOf_plain (pathText path)
            refine Except.ok.inj h ▸ document_deliverable ⟨hplain, by simpa [cText] using hlen⟩ (Nat.le_of_not_lt hfits) ?_
            split
            · exact Nat.zero_le _
            · exact le_rfl
    · exact Except.ok.inj h ▸ h405

/-- The server sends what it means to answer, or raises what the disk raised. -/
theorem respond_eq (root : List Char) (msg : Bytes) : respond disk root msg = (reply disk root msg).map Reply.text := by
  obtain ⟨h400, h404, h500, h405⟩ := buildResponse_failures false
  rw [respond, reply]
  cases hreq : parseRequest msg with
  | error e =>
    obtain ⟨text, rfl⟩ := parseRequest_error hreq
    simp only [error_bind]
    exact h400
  | ok p =>
    obtain ⟨method, target⟩ := p
    simp only [ok_bind]
    by_cases hverb : readVerbs.contains (upper method) = true
    · have hserve : ¬ upper method ∉ readVerbs := not_not.mpr (List.contains_iff_mem.mp hverb)
      simp only [serve, if_neg hserve, if_pos hverb]
      obtain ⟨f400, f404, f500, -⟩ := buildResponse_failures (upper method = "HEAD".toList)
      cases hdoc : resolveDocument disk root target with
      | error e =>
        cases e with
        | valueError text => simp only [f400]; rfl
        | fileNotFoundError => simp only [f404]; rfl
        | _ => rfl
      | ok path =>
        cases hread : disk.readBytes path with
        | error e =>
          simp only [hread, error_bind]
          cases e with
          | valueError text => exact h400
          | _ => rfl
        | ok body =>
          simp only [hread, ok_bind]
          by_cases hbig : Btls.btlsMaxMsg < body.length + hdrMax
          · simp only [if_pos hbig, f500]
            rfl
          · obtain ⟨hascii, -, hlen⟩ := mimeOf_plain (pathText path)
            simp only [if_neg hbig, buildResponse_document hascii hlen (Nat.le_of_not_lt hbig), decide_eq_true_eq]
            rfl
    · have hrefuse : upper method ∉ readVerbs := fun hmem => hverb (List.contains_iff_mem.mpr hmem)
      simp only [serve, if_pos hrefuse, if_neg hverb, h405]
      rfl

end Py

namespace Bite

open Wire

/-- Both clients read the response as what it means. -/
structure ReadBack (r : Reply) : Prop where
  parse : Py.parseResponse r.text = .ok r.parsed
  status : statusOf r.text = r.status
  body : bodyOf r.text = r.body

theorem Deliverable.readBack {r : Reply} (h : Deliverable r) : ReadBack r := ⟨h.good.parse, h.good.statusOf, h.good.bodyOf⟩

end Bite
