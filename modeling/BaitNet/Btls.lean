import BaitNet.Crypto

/-!
# bTLS

`btls.c`: the security layer above the associations. Two hellos in the clear, then AEAD
records under the keys of two epochs. A record, a frame or a message is handed over
whole, so its length is that of the list. Every call returns its observable effects
as a list of acts beside its result.
-/
namespace Bite

open Wire Crypto

def rtHandshake : UInt8 := 0
def rtApplication : UInt8 := 1

def hsClientHello : UInt8 := 1
def hsServerHello : UInt8 := 2
def hsCertificate : UInt8 := 11
def hsCertificateVerify : UInt8 := 15
def hsFinished : UInt8 := 20

def btlsMaxRec : Nat := 1400
def btlsMaxPayload : Nat := 1290
def btlsMaxMsg : Nat := 256 * 1024
def btlsFragMore : UInt8 := 1
def baitLabelLen : Nat := 32

inductive Role where
  | client | server
  deriving DecidableEq, Repr

inductive St where
  | init | chSent | hs | waitFin | done
  deriving DecidableEq, Repr

/-- `struct btls`. `thbuf` is its first `thlen` bytes, `tx_msg` a pointer (0 is `NULL`). -/
structure Btls where
  role : Role
  state : St
  epoch : Nat
  wantHs : UInt8
  random : Arr 32
  ephPriv : Arr 32
  ephPub : Arr 32
  peerEph : Arr 32
  certPub : Arr 32
  sk : Arr 64
  expectLabel : Bytes
  thbuf : Bytes
  prk : Arr 64
  sendKey : Arr 32
  recvKey : Arr 32
  sendSeq : UInt64
  recvSeq : UInt64
  txMsg : Nat
  txLen : Nat
  txOff : Nat
  rxLen : Nat
  deriving DecidableEq

inductive Act where
  /-- `seal_box` under a key and a sequence number -/
  | seal (key : Arr 32) (seq : UInt64) (inner : Bytes)
  /-- `install_epoch`: both labels, the transcript and the two keys -/
  | install (lC2s lS2c transcript : Bytes) (c2s s2c : Arr 32)
  deriving DecidableEq

def baitAlphabet : Bytes := ascii "abcdefghijklmnopqrstuvwxyz234567"

/-- The inner loop of `bait_label_from_pub`: five bits a character while there are five;
the second component is how many bits are left. -/
def labelDrain (acc : UInt32) : Nat → Bytes × Nat
  | n + 5 =>
    let (out, left) := labelDrain acc n
    (byteAt baitAlphabet ((acc >>> .ofNat n) &&& 0x1f).toNat :: out, left)
  | n => ([], n)

def labelLoop : UInt32 → Nat → Bytes → Bytes
  | _, _, [] => []
  | acc, nbits, d :: ds =>
    let acc := acc <<< 8 ||| d.toUInt32
    (labelDrain acc (nbits + 8)).1 ++ labelLoop acc (labelDrain acc (nbits + 8)).2 ds

variable (c : TweetNaCl)

def baitLabelFromPub (pub : Arr 32) : Bytes := labelLoop 0 0 (slice (ed25519Sha512 c pub.val).val 0 20)

/-- A frame that no longer fits the 512 bytes is silently left out. -/
def thAppend (t : Btls) (frame : Bytes) : Btls :=
  if t.thbuf.length + frame.length ≤ 512 then { t with thbuf := t.thbuf ++ frame } else t

def certDigest (t : Btls) : Arr 64 := ed25519Sha512 c (ascii "btls/1.0-cert-verify" ++ t.thbuf)

def deriveKey (t : Btls) (label : Bytes) : Arr 32 :=
  arr (ed25519HmacSha512 c (label ++ t.thbuf ++ [1]) t.prk.val).val 0 32

def ecdhPrk (t : Btls) : Btls :=
  { t with prk := ed25519HmacSha512 c (c.scalarmult t.ephPriv t.peerEph).val (ascii "btls-v1") }

def installEpoch (t : Btls) (lC2s lS2c : Bytes) : Btls × List Act :=
  let c2s := deriveKey c t lC2s
  let s2c := deriveKey c t lS2c
  let keys := match t.role with
    | .client => (c2s, s2c)
    | .server => (s2c, c2s)
  ({ t with sendKey := keys.1, recvKey := keys.2, sendSeq := 0, recvSeq := 0 },
    [.install lC2s lS2c t.thbuf c2s s2c])

def finishedMac (t : Btls) (label : Bytes) : Arr 32 := deriveKey c t label

def recNonce (seq : UInt64) : Arr 24 := pad 24 (put64 seq)

/-- `seal_box`: `none` is its -1. -/
def sealBox (t : Btls) (inner : Bytes) : Btls × List Act × Option Bytes :=
  if 2 + btlsMaxPayload < inner.length then (t, [], none)
  else
    let box := ed25519Secretbox c inner (recNonce t.sendSeq) t.sendKey
    ({ t with sendSeq := t.sendSeq + 1 }, [.seal t.sendKey t.sendSeq inner],
      some (rtApplication :: put16 (.ofNat (32 + inner.length)) ++ box))

def sealHs (t : Btls) (frame : Bytes) : Btls × List Act × Option Bytes :=
  sealBox c t (rtHandshake :: frame)

def sealApp (t : Btls) (flags : UInt8) (data : Bytes) : Btls × List Act × Option Bytes :=
  if btlsMaxPayload < data.length then (t, [], none)
  else sealBox c t (rtApplication :: flags :: data)

/-- `open_rec`. The sequence number advances as soon as the header is in order. -/
def openRec (t : Btls) (rec : Bytes) : Btls × Option Bytes :=
  if rec.length < 3 ∨ byteAt rec 0 ≠ rtApplication then (t, none)
  else
    let blen := (get16 rec 1).toNat
    if blen < 33 ∨ 34 + btlsMaxPayload < blen ∨ rec.length ≠ 3 + blen then (t, none)
    else
      let opened := ed25519SecretboxOpen c (rec.drop 3) (blen - 32) (recNonce t.recvSeq) t.recvKey
      ({ t with recvSeq := t.recvSeq + 1 }, opened.map (slice · 0 (blen - 32)))

def hsFrame (type : UInt8) (body : Bytes) : Bytes := type :: put16 (.ofNat body.length) ++ body

/-- A hello record, in the clear. -/
def helloRec (frame : Bytes) : Bytes := rtHandshake :: put16 (.ofNat frame.length) ++ frame

/-- `btls_init` with the ephemeral it draws; a label is a C string without its
terminator. -/
def btlsInit (role : Role) (ephRnd : Arr 32) (sk : Option (Arr 64)) (expectLabel : Option Bytes) : Btls where
  role := role
  state := .init
  epoch := 0
  wantHs := 0
  random := .zero 32
  ephPriv := ephRnd
  ephPub := c.scalarmultBase ephRnd
  peerEph := .zero 32
  certPub := .zero 32
  sk := sk.getD (.zero 64)
  expectLabel := match role, expectLabel with
    | .client, some label => if label.length = baitLabelLen then label else []
    | _, _ => []
  thbuf := []
  prk := .zero 64
  sendKey := .zero 32
  recvKey := .zero 32
  sendSeq := 0
  recvSeq := 0
  txMsg := 0
  txLen := 0
  txOff := 0
  rxLen := 0

/-- The hello of either side. -/
def hello (type : UInt8) (t : Btls) : Bytes := hsFrame type (t.random.val ++ t.ephPub.val)

/-- `btls_client_start`: the ClientHello record. -/
def btlsClientStart (rnd : Arr 32) (t : Btls) : Btls × Option Bytes :=
  if t.role ≠ .client ∨ t.state ≠ .init then (t, none)
  else
    let t := { t with random := rnd }
    let frame := hello hsClientHello t
    ({ thAppend t frame with state := .chSent, wantHs := hsServerHello }, some (helloRec frame))

/-- The client's Finished at the server. -/
def feedFin (t : Btls) (type : UInt8) (body frame : Bytes) : Btls × List Act × Int :=
  if t.state ≠ .waitFin ∨ type ≠ hsFinished ∨ body.length ≠ 32 then (t, [], -1)
  else if body ≠ (finishedMac c t (ascii "btls-fin-c")).val then (t, [], -1)
  else
    let (t, acts) := installEpoch c (thAppend t frame) (ascii "btls-app-c2s") (ascii "btls-app-s2c")
    ({ t with epoch := 2, state := .done }, acts, 1)

/-- The certificate is kept before its label is compared. -/
def feedCert (t : Btls) (type : UInt8) (body frame : Bytes) : Btls × Int :=
  if type ≠ hsCertificate ∨ body.length ≠ 32 then (t, -1)
  else
    let t := { t with certPub := arr body 0 32 }
    if byteAt t.expectLabel 0 ≠ 0 ∧ baitLabelFromPub c t.certPub ≠ t.expectLabel then (t, -1)
    else ({ thAppend t frame with wantHs := hsCertificateVerify }, 0)

def feedCertVerify (t : Btls) (type : UInt8) (body frame : Bytes) : Btls × Int :=
  if type ≠ hsCertificateVerify ∨ body.length ≠ 64 then (t, -1)
  else if ed25519Verify c (certDigest c t).val (arr body 0 64) t.certPub = false then (t, -1)
  else ({ thAppend t frame with wantHs := hsFinished }, 0)

def feedServerFin (t : Btls) (type : UInt8) (body frame : Bytes) : Btls × Int :=
  if type ≠ hsFinished ∨ body.length ≠ 32 then (t, -1)
  else if body ≠ (finishedMac c t (ascii "btls-fin-s")).val then (t, -1)
  else ({ thAppend t frame with wantHs := 0 }, 0)

/-- `feed_hs`: one handshake frame from an opened record. -/
def feedHs (t : Btls) (p : Bytes) : Btls × List Act × Int :=
  if p.length < 3 then (t, [], -1)
  else
    let type := byteAt p 0
    let blen := (get16 p 1).toNat
    if p.length < 3 + blen then (t, [], -1)
    else
      let body := slice p 3 blen
      let frame := p.take (3 + blen)
      match t.role with
      | .server => feedFin c t type body frame
      | .client =>
        let (t, ret) :=
          if t.wantHs = hsCertificate then feedCert c t type body frame
          else if t.wantHs = hsCertificateVerify then feedCertVerify c t type body frame
          else if t.wantHs = hsFinished then feedServerFin c t type body frame
          else (t, -1)
        (t, [], ret)

/-- A hello in epoch 0; `p` is what the record carries. -/
def feedHello (t : Btls) (p : Bytes) : Btls × List Act × Int :=
  if t.role = .server ∧ t.state = .init then
    if byteAt p 0 ≠ hsClientHello ∨ p.length ≠ 3 + 64 ∨ byteAt p 2 ≠ 64 then (t, [], -1)
    else
      ({ thAppend { t with peerEph := arr p 35 32 } p with state := .hs, wantHs := hsServerHello }, [], 0)
  else if t.role = .client ∧ t.state = .chSent ∧ t.wantHs = hsServerHello then
    if byteAt p 0 ≠ hsServerHello ∨ p.length ≠ 3 + 64 ∨ byteAt p 2 ≠ 64 then (t, [], -1)
    else
      let t := ecdhPrk c (thAppend { t with peerEph := arr p 35 32 } p)
      let (t, acts) := installEpoch c t (ascii "btls-hs-c2s") (ascii "btls-hs-s2c")
      ({ t with epoch := 1, state := .hs, wantHs := hsCertificate }, acts, 0)
  else (t, [], -1)

/-- `btls_feed`. -/
def btlsFeed (rec : Bytes) (t : Btls) : Btls × List Act × Int :=
  if rec.length < 3 then (t, [], -1)
  else
    let blen := (get16 rec 1).toNat
    if btlsMaxRec - 3 < blen ∨ rec.length ≠ 3 + blen then (t, [], -1)
    else if t.epoch = 0 then
      if byteAt rec 0 ≠ rtHandshake ∨ blen < 3 then (t, [], -1) else feedHello c t (rec.drop 3)
    else
      match openRec c t rec with
      | (t, none) => (t, [], -1)
      | (t, some inner) =>
        if inner.length < 1 ∨ byteAt inner 0 ≠ rtHandshake then (t, [], -1)
        else feedHs c t (inner.drop 1)

/-- The result of `btls_pump`: its return value and the record. -/
def pumped : Btls × List Act × Option Bytes → Btls × List Act × Int × Bytes
  | (t, acts, some rec) => (t, acts, 1, rec)
  | (t, acts, none) => (t, acts, -1, [])

/-- A handshake frame goes into the transcript and out in a record. -/
def emitHs (t : Btls) (frame : Bytes) (state : St) (wantHs : UInt8) : Btls × List Act × Int × Bytes :=
  pumped (sealHs c { thAppend t frame with state, wantHs } frame)

/-- `btls_pump`: the server's flight, then the client's Finished. -/
def btlsPump (rnd : Arr 32) (t : Btls) : Btls × List Act × Int × Bytes :=
  if t.role = .server ∧ t.state = .hs then
    if t.wantHs = hsServerHello then
      let t := { t with random := rnd }
      let frame := hello hsServerHello t
      let (t, acts) := installEpoch c (ecdhPrk c (thAppend t frame)) (ascii "btls-hs-c2s")
        (ascii "btls-hs-s2c")
      ({ t with epoch := 1, wantHs := hsCertificate }, acts, 1, helloRec frame)
    else if t.wantHs = hsCertificate then
      emitHs c t (hsFrame hsCertificate (slice t.sk.val 32 32)) .hs hsCertificateVerify
    else if t.wantHs = hsCertificateVerify then
      emitHs c t (hsFrame hsCertificateVerify (ed25519Sign c (certDigest c t).val t.sk).val) .hs hsFinished
    else if t.wantHs = hsFinished then
      emitHs c t (hsFrame hsFinished (finishedMac c t (ascii "btls-fin-s")).val) .waitFin hsFinished
    else (t, [], 0, [])
  else if t.role = .client ∧ t.state = .hs ∧ t.wantHs = 0 then
    let frame := hsFrame hsFinished (finishedMac c t (ascii "btls-fin-c")).val
    match sealHs c (thAppend t frame) frame with
    | (t, acts, none) => (t, acts, -1, [])
    | (t, acts, some rec) =>
      let (t, acts') := installEpoch c t (ascii "btls-app-c2s") (ascii "btls-app-s2c")
      ({ t with epoch := 2, state := .done }, acts ++ acts', 1, rec)
  else (t, [], 0, [])

/-- The fragment of `btls_send_app` that is due. -/
def sendChunk (t : Btls) : Nat := min (t.txLen - t.txOff) btlsMaxPayload

/-- `btls_send_app` on the message `msg` at the address `ptr`. -/
def btlsSendApp (ptr : Nat) (msg : Bytes) (t : Btls) : Btls × List Act × Int × Bytes :=
  if ptr = 0 ∨ t.state ≠ .done ∨ t.epoch ≠ 2 ∨ msg.length = 0 ∨ btlsMaxMsg < msg.length then
    (t, [], -1, [])
  else if t.txMsg ≠ 0 ∧ (ptr ≠ t.txMsg ∨ msg.length ≠ t.txLen) then (t, [], -1, [])
  else
    let t := if t.txMsg = 0 then { t with txMsg := ptr, txLen := msg.length, txOff := 0 } else t
    let chunk := sendChunk t
    let more := t.txOff + chunk < t.txLen
    match sealApp c t (if more then btlsFragMore else 0) (slice msg t.txOff chunk) with
    | (t, acts, none) => (t, acts, -1, [])
    | (t, acts, some rec) =>
      let t := { t with txOff := t.txOff + chunk }
      if more then (t, acts, 1, rec) else ({ t with txMsg := 0, txOff := 0 }, acts, 0, rec)

/-- `btls_recv_app` into the buffer `msg`, all of whose bytes are its capacity: the
session, the buffer, the return value and `*msglen`. -/
def btlsRecvApp (rec msg : Bytes) (t : Btls) : Btls × Bytes × Int × Nat :=
  if t.state ≠ .done ∨ t.epoch ≠ 2 then (t, msg, -1, 0)
  else
    match openRec c t rec with
    | (t, none) => ({ t with rxLen := 0 }, msg, -1, 0)
    | (t, some inner) =>
      if inner.length < 2 ∨ byteAt inner 0 ≠ rtApplication then ({ t with rxLen := 0 }, msg, -1, 0)
      else
        let flags := byteAt inner 1
        let data := inner.drop 2
        if flags &&& ~~~ btlsFragMore ≠ 0 ∨ sizeSub msg.length t.rxLen < data.length then
          ({ t with rxLen := 0 }, msg, -1, 0)
        else
          let msg := msg.take t.rxLen ++ data ++ msg.drop (t.rxLen + data.length)
          let t := { t with rxLen := t.rxLen + data.length }
          if flags &&& btlsFragMore = 0 then ({ t with rxLen := 0 }, msg, 1, t.rxLen)
          else (t, msg, 0, 0)

end Bite
