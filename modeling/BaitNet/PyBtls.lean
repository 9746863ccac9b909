import BaitNet.BaitName
import BaitNet.Btls
import BaitNet.PyReceive

/-!
# The Python implementation: bTLS

`bite/btls.py`: the class `Btls`. A method returns the session that it leaves behind beside its value
or the exception, since a raise keeps what was changed before it.
-/
namespace Py

open Wire
open Bite (Role)

/-- `ST_INIT` to `ST_DONE`, as in `btls.c`. -/
abbrev BtlsSt := Bite.St

structure Btls where
  role : Role
  seed : Bytes
  pub : Bytes
  expectLabel : List Char
  state : BtlsSt
  epoch : Nat
  wantHs : UInt8
  random : Bytes
  ephPriv : Bytes
  ephPub : Bytes
  peerEph : Bytes
  certPub : Bytes
  transcript : Bytes
  prk : Bytes
  sendKey : Bytes
  recvKey : Bytes
  sendSeq : Nat
  recvSeq : Nat
  rxBuf : Bytes
  error : String
  deriving DecidableEq

namespace Btls

def rtHandshake : UInt8 := 0
def rtApplication : UInt8 := 1

def hsClientHello : UInt8 := 1
def hsServerHello : UInt8 := 2
def hsCertificate : UInt8 := 11
def hsCertificateVerify : UInt8 := 15
def hsFinished : UInt8 := 20

def btlsMaxRec : Nat := 1400
def btlsMaxPayload : Nat := 1290
def btlsMaxMsg : Nat := 256 * 1024
def btlsFragMore : UInt8 := 1

def certCtx : Bytes := ascii "btls/1.0-cert-verify"

/-- `_rec_nonce`. -/
def recNonce (seq : Nat) : Except Exn Bytes := do
  let seq ← toBytes seq 8
  return seq ++ List.replicate 16 0

/-- `_hs_frame`. -/
def hsFrame (msgType : UInt8) (body : Bytes) : Except Exn Bytes := do
  let len ← toBytes body.length 2
  return [msgType] ++ len ++ body

/-- `bytes([rt]) + len(body).to_bytes(2, "big") + body`, which a hello and a sealed box have in common. -/
def record (rt : UInt8) (body : Bytes) : Except Exn Bytes := do
  let len ← toBytes body.length 2
  return [rt] ++ len ++ body

variable (nb : PyBox)

/-- The constructor, with the two values that `os.urandom` gives it. A role is one of the two by its type. -/
def new (role : Role) (seed : Bytes) (expectLabel : Option (List Char)) (random ephPriv : Arr 32) :
    Except Exn Btls := do
  let pub ← if seed = [] then pure [] else seedToPub nb.toPyNaCl seed
  let label := (expectLabel.getD []).map lower
  if label ≠ [] ∧ labelValid label = false then
    throw (.valueError ("invalid .bait label: " ++ String.ofList (expectLabel.getD [])))
  let ephPub ← x25519Base nb.toPyNaCl ephPriv.val
  return {
    role, seed, pub, expectLabel := label, state := .init, epoch := 0, wantHs := 0, random := random.val
    ephPriv := ephPriv.val, ephPub, peerEph := [], certPub := [], transcript := [], prk := [], sendKey := []
    recvKey := [], sendSeq := 0, recvSeq := 0, rxBuf := [], error := "" }

def th (q : Btls) (frame : Bytes) : Btls := { q with transcript := q.transcript ++ frame }

def certDigest (q : Btls) : Bytes := (nb.sha512 (certCtx ++ q.transcript)).val

def derive (q : Btls) (label : Bytes) : Bytes := kdf nb.toPyNaCl q.prk (label ++ q.transcript)

def ecdhe (q : Btls) : Except Exn Btls := do
  if q.peerEph = [] then throw (.valueError "bTLS: peer ephemeral key is missing")
  let shared ← x25519 nb.toPyNaCl q.ephPriv q.peerEph
  return { q with prk := hmacSha512 nb.toPyNaCl (ascii "btls-v1") shared }

def installEpoch (q : Btls) (lC2s lS2c : Bytes) : Btls :=
  let c2s := derive nb q lC2s
  let s2c := derive nb q lS2c
  match q.role with
  | .client => { q with sendKey := c2s, recvKey := s2c, sendSeq := 0, recvSeq := 0 }
  | .server => { q with sendKey := s2c, recvKey := c2s, sendSeq := 0, recvSeq := 0 }

/-- `_seal`. The number goes up once the box is made. -/
def sealInner (q : Btls) (inner : Bytes) : Btls × Except Exn Bytes :=
  match recNonce q.sendSeq >>= fun nonce => sealBlob nb.toPyNaCl q.sendKey nonce inner with
  | .error e => (q, .error e)
  | .ok box => ({ q with sendSeq := q.sendSeq + 1 }, record rtApplication box)

/-- `_open`. The number goes up only if the box opens. -/
def openRec (q : Btls) (rec : Bytes) : Btls × Except Exn Bytes :=
  if rec.length < 3 ∨ byteAt rec 0 ≠ rtApplication then (q, .error (.valueError "bTLS: not an application record"))
  else
    let blen := fromBytes (cut rec 1 3)
    if blen < 33 ∨ 34 + btlsMaxPayload < blen ∨ rec.length ≠ 3 + blen then
      (q, .error (.valueError "bTLS: bad record length"))
    else
      match recNonce q.recvSeq >>= fun nonce => openBlob nb q.recvKey nonce (rec.drop 3) with
      | .error e => (q, .error e)
      | .ok inner => ({ q with recvSeq := q.recvSeq + 1 }, .ok inner)

def clientStart (q : Btls) : Btls × Except Exn Bytes :=
  if q.role ≠ .client ∨ q.state ≠ .init then (q, .error (.runtimeError "bTLS: client_start in the wrong state"))
  else
    match hsFrame hsClientHello (q.random ++ q.ephPub) with
    | .error e => (q, .error e)
    | .ok frame => ({ q.th frame with state := .chSent, wantHs := hsServerHello }, record rtHandshake frame)

/-- The hello that the other side has sent; `body` is the frame. -/
def feedHello (q : Btls) (body : Bytes) : Btls × Except Exn Int :=
  let msgType := byteAt body 0
  let frameLen := fromBytes (cut body 1 3)
  if frameLen ≠ body.length - 3 then (q, .error (.valueError "bTLS: bad handshake frame"))
  else if q.role = .server ∧ q.state = .init then
    if msgType ≠ hsClientHello ∨ frameLen ≠ 64 then (q, .error (.valueError "bTLS: expected ClientHello"))
    else
      ({ th { q with peerEph := cut body 35 67 } body with state := .hs, wantHs := hsServerHello }, .ok 0)
  else if q.role = .client ∧ q.state = .chSent ∧ q.wantHs = hsServerHello then
    if msgType ≠ hsServerHello ∨ frameLen ≠ 64 then (q, .error (.valueError "bTLS: expected ServerHello"))
    else
      let q := th { q with peerEph := cut body 35 67 } body
      match ecdhe nb q with
      | .error e => (q, .error e)
      | .ok q =>
        let q := installEpoch nb q (ascii "btls-hs-c2s") (ascii "btls-hs-s2c")
        ({ q with epoch := 1, state := .hs, wantHs := hsCertificate }, .ok 0)
  else (q, .error (.valueError "bTLS: unexpected plaintext handshake"))

def feedFin (q : Btls) (msgType : UInt8) (body frame : Bytes) : Btls × Except Exn Int :=
  if q.state ≠ .waitFin ∨ msgType ≠ hsFinished ∨ body.length ≠ 32 then
    (q, .error (.valueError "bTLS: expected the client Finished"))
  else if derive nb q (ascii "btls-fin-c") ≠ body then
    (q, .error (.valueError "bTLS: client Finished does not verify"))
  else
    let q := installEpoch nb (q.th frame) (ascii "btls-app-c2s") (ascii "btls-app-s2c")
    ({ q with epoch := 2, state := .done }, .ok 1)

/-- The certificate is kept before its label is compared. -/
def feedCert (q : Btls) (msgType : UInt8) (body frame : Bytes) : Btls × Except Exn Int :=
  if msgType ≠ hsCertificate ∨ body.length ≠ 32 then (q, .error (.valueError "bTLS: expected the certificate"))
  else
    let q := { q with certPub := body }
    if q.expectLabel = [] then ({ q.th frame with wantHs := hsCertificateVerify }, .ok 0)
    else
      match labelFromPub nb.toPyNaCl q.certPub with
      | .error e => (q, .error e)
      | .ok label =>
        if label ≠ q.expectLabel then
          (q, .error (.valueError ("bTLS: certificate does not match " ++ String.ofList q.expectLabel ++ ".bait")))
        else ({ q.th frame with wantHs := hsCertificateVerify }, .ok 0)

def feedCertVerify (q : Btls) (msgType : UInt8) (body frame : Bytes) : Btls × Except Exn Int :=
  if msgType ≠ hsCertificateVerify ∨ body.length ≠ 64 then (q, .error (.valueError "bTLS: expected CertificateVerify"))
  else if verify nb.toPyNaCl q.certPub body (certDigest nb q) = false then
    (q, .error (.valueError "bTLS: CertificateVerify signature is bad"))
  else ({ q.th frame with wantHs := hsFinished }, .ok 0)

def feedServerFin (q : Btls) (msgType : UInt8) (body frame : Bytes) : Btls × Except Exn Int :=
  if msgType ≠ hsFinished ∨ body.length ≠ 32 then (q, .error (.valueError "bTLS: expected the server Finished"))
  else if derive nb q (ascii "btls-fin-s") ≠ body then
    (q, .error (.valueError "bTLS: server Finished does not verify"))
  else ({ q.th frame with wantHs := 0 }, .ok 0)

/-- `_feed_hs`. -/
def feedHs (q : Btls) (frame : Bytes) : Btls × Except Exn Int :=
  if frame.length < 3 then (q, .error (.valueError "bTLS: short handshake frame"))
  else
    let msgType := byteAt frame 0
    let blen := fromBytes (cut frame 1 3)
    if 3 + blen ≠ frame.length then (q, .error (.valueError "bTLS: bad handshake frame length"))
    else
      let body := frame.drop 3
      match q.role with
      | .server => feedFin nb q msgType body frame
      | .client =>
        if q.wantHs = hsCertificate then feedCert nb q msgType body frame
        else if q.wantHs = hsCertificateVerify then feedCertVerify nb q msgType body frame
        else if q.wantHs = hsFinished then feedServerFin nb q msgType body frame
        else (q, .error (.valueError "bTLS: unexpected handshake message"))

/-- `_feed`. -/
def feedRec (q : Btls) (rec : Bytes) : Btls × Except Exn Int :=
  if rec.length < 3 then (q, .error (.valueError "bTLS: short record"))
  else
    let blen := fromBytes (cut rec 1 3)
    if btlsMaxRec - 3 < blen ∨ rec.length ≠ 3 + blen then (q, .error (.valueError "bTLS: bad record length"))
    else if q.epoch = 0 then
      if byteAt rec 0 ≠ rtHandshake ∨ (rec.drop 3).length < 3 then
        (q, .error (.valueError "bTLS: expected a plaintext handshake"))
      else feedHello nb q (rec.drop 3)
    else
      match openRec nb q rec with
      | (q, .error e) => (q, .error e)
      | (q, .ok inner) =>
        if inner = [] ∨ byteAt inner 0 ≠ rtHandshake then
          (q, .error (.valueError "bTLS: expected a handshake record"))
        else feedHs nb q (inner.drop 1)

/-- `feed`: a `ValueError` or an `IndexError` is kept as a text, anything else goes on. -/
def feed (q : Btls) (rec : Bytes) : Btls × Except Exn Int :=
  match feedRec nb q rec with
  | (q, .error (.valueError text)) => ({ q with error := text }, .ok (-1))
  | (q, .error .indexError) => ({ q with error := "index out of range" }, .ok (-1))
  | r => r

/-- A handshake frame goes into the transcript and out in a record. -/
def emitHs (q : Btls) (frame : Except Exn Bytes) (state : BtlsSt) (wantHs : UInt8) :
    Btls × Except Exn (Option Bytes) :=
  match frame with
  | .error e => (q, .error e)
  | .ok frame =>
    let (q, rec) := sealInner nb { q.th frame with state, wantHs } ([rtHandshake] ++ frame)
    (q, rec.map some)

/-- `pump`. -/
def pump (q : Btls) : Btls × Except Exn (Option Bytes) :=
  if q.role = .server ∧ q.state = .hs ∧ q.wantHs = hsServerHello then
    match hsFrame hsServerHello (q.random ++ q.ephPub) with
    | .error e => (q, .error e)
    | .ok frame =>
      let q := q.th frame
      match ecdhe nb q with
      | .error e => (q, .error e)
      | .ok q =>
        let q := installEpoch nb q (ascii "btls-hs-c2s") (ascii "btls-hs-s2c")
        ({ q with epoch := 1, wantHs := hsCertificate }, (record rtHandshake frame).map some)
  else if q.role = .server ∧ q.state = .hs ∧ q.wantHs = hsCertificate then
    emitHs nb q (hsFrame hsCertificate q.pub) .hs hsCertificateVerify
  else if q.role = .server ∧ q.state = .hs ∧ q.wantHs = hsCertificateVerify then
    emitHs nb q (sign nb.toPyNaCl q.seed (certDigest nb q) >>= hsFrame hsCertificateVerify) .hs hsFinished
  else if q.role = .server ∧ q.state = .hs ∧ q.wantHs = hsFinished then
    emitHs nb q (hsFrame hsFinished (derive nb q (ascii "btls-fin-s"))) .waitFin hsFinished
  else if q.role = .client ∧ q.state = .hs ∧ q.wantHs = 0 then
    match hsFrame hsFinished (derive nb q (ascii "btls-fin-c")) with
    | .error e => (q, .error e)
    | .ok frame =>
      match sealInner nb (q.th frame) ([rtHandshake] ++ frame) with
      | (q, .error e) => (q, .error e)
      | (q, .ok rec) =>
        let q := installEpoch nb q (ascii "btls-app-c2s") (ascii "btls-app-s2c")
        ({ q with epoch := 2, state := .done }, .ok (some rec))
  else (q, .ok none)

/-- The plaintexts of the loop in `send_app`. -/
def appInners (msg : Bytes) : List Bytes :=
  (List.range ((msg.length + btlsMaxPayload - 1) / btlsMaxPayload)).map fun i =>
    let off := btlsMaxPayload * i
    [rtApplication, if off + btlsMaxPayload < msg.length then btlsFragMore else 0] ++
      cut msg off (off + btlsMaxPayload)

def sealInners : List Bytes → Btls → Btls × Except Exn (List Bytes)
  | [], q => (q, .ok [])
  | inner :: inners, q =>
    match sealInner nb q inner with
    | (q, .error e) => (q, .error e)
    | (q, .ok rec) =>
      let (q, recs) := sealInners inners q
      (q, recs.map (rec :: ·))

def sendApp (q : Btls) (msg : Bytes) : Btls × Except Exn (List Bytes) :=
  if q.state ≠ .done then (q, .error (.runtimeError "bTLS: handshake is not complete"))
  else if ¬ (0 < msg.length ∧ msg.length ≤ btlsMaxMsg) then
    (q, .error (.valueError "bTLS: message must be 1..256KiB"))
  else sealInners nb (appInners msg) q

/-- `recv_app`: a whole message, or `none` in the middle of one. -/
def recvApp (q : Btls) (rec : Bytes) : Btls × Except Exn (Option Bytes) :=
  if q.state ≠ .done then (q, .error (.runtimeError "bTLS: handshake is not complete"))
  else
    match openRec nb q rec with
    | (q, .error e) => (q, .error e)
    | (q, .ok inner) =>
      if inner = [] ∨ byteAt inner 0 ≠ rtApplication then
        (q, .error (.valueError "bTLS: not an application record"))
      else
        match index inner 1 with
        | .error e => (q, .error e)
        | .ok flags =>
          let data := inner.drop 2
          if btlsMaxMsg < q.rxBuf.length + data.length then
            (q, .error (.valueError "bTLS: message exceeds 256KiB"))
          else
            let q := { q with rxBuf := q.rxBuf ++ data }
            if flags &&& btlsFragMore ≠ 0 then (q, .ok none) else ({ q with rxBuf := [] }, .ok (some q.rxBuf))

end Btls

end Py
