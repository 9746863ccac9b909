import BaitNet.Pppoe

/-!
# The dialing host

`pppoe69.c`, the `host` role: `host_dial` as a machine that takes one frame or one timeout
at a time, then the session until it is closed. The TAP device and the session data that
it carries are left out, as are the pauses before a retry.
-/
namespace Pppoe

open Wire Link Crypto
open Dhcp (ipv69BcastAddr pubLen sigLen)

/-- What the command line, the keyring and the interface fix. -/
structure Host where
  mac : Arr 6
  sk : Arr 64
  wantAc : UInt64
  pinPub : Option (Arr 32)

/-- The concentrator that a PADO named. -/
structure AcId where
  mac : Arr 6
  addr : UInt64
  pub : Arr 32
  deriving DecidableEq

/-- Where the program stands: not running, waiting for a PADO or a PADS in one of the
attempts, or in a session. -/
inductive Phase where
  | down
  | padi (attempt : Nat)
  | padr (attempt : Nat) (ac : AcId)
  | up (sid : UInt16) (ac : AcId)
  deriving DecidableEq

def dialAttempts : Nat := 3

variable (c : TweetNaCl)

namespace Host

def withMac1 (addr : UInt64) (msg : Bytes) : Bytes := msg ++ (mac1Compute c (mac1Key c addr) msg).val

/-- `host_send_ctrl`, its frame. -/
def sendCtrl (h : Host) (dst : Arr 6) (addr : UInt64) (payload : Bytes) : Bytes :=
  buildFrame dst h.mac 0 addr ipv69NextControl 64 0 0 payload

def padi (h : Host) : Bytes := h.sendCtrl bcastMac ipv69BcastAddr (withMac1 c ipv69BcastAddr (ctrlPadi :: h.mac.val))

def padr (h : Host) (ac : AcId) : Bytes :=
  h.sendCtrl ac.mac ac.addr (withMac1 c ac.addr (signAppend c (ctrlPadr :: h.mac.val) h.sk))

def hostPadt (h : Host) (ac : AcId) (sid : UInt16) : Bytes :=
  h.sendCtrl ac.mac ac.addr (withMac1 c ac.addr (ctrlPadt :: put16 sid))

/-- One round of `host_wait_ctrl`; `none` for a frame that it passes by. -/
def waitCtrl (h : Host) (code : UInt8) (frame : Bytes) : Option Bytes :=
  let p := framePayload frame
  if frame.length < 14 + ipv69HeaderLen + 1 ∨ frameSrcMac frame = h.mac ∨ frameNextHeader frame ≠ ipv69NextControl ∨
      byteAt p 0 ≠ code ∨ p.length < 7 ∨ arr p 1 6 ≠ h.mac then none
  else some (p.take 256)

/-- `host_check_sig` of a message with `body` bytes before its key. -/
def checkSig (h : Host) (p : Bytes) (body : Nat) : Bool :=
  let pub := arr p body 32
  if h.pinPub.any fun pin => pub ≠ pin then false
  else ed25519Verify c (slice p 0 body) (arr p (body + pubLen) 64) pub

/-- The concentrator that a PADO offers, if the host wants it. -/
def takePado (h : Host) (p : Bytes) : Option AcId :=
  if p.length ≠ 1 + 6 + 6 + 5 + pubLen + sigLen then none
  else if h.wantAc ≠ 0 ∧ get40 p 13 ≠ h.wantAc then none
  else if !h.checkSig c p 18 then none
  else some ⟨arr p 7 6, get40 p 13, arr p 18 32⟩

/-- The session id of a PADS that the dialed concentrator signed. -/
def takePads (h : Host) (ac : AcId) (p : Bytes) : Option UInt16 :=
  if p.length ≠ 1 + 6 + 2 + pubLen + sigLen then none
  else if arr p 9 32 ≠ ac.pub then none
  else if !h.checkSig c p 9 then none
  else some (get16 p 7)

/-- The next attempt with the PADR sent again, or the end of the dial. -/
def retryPadr (h : Host) (n : Nat) (ac : AcId) : Phase × List Bytes :=
  if n + 1 < dialAttempts then (.padr (n + 1) ac, [h.padr c ac]) else (.down, [])

/-- A frame arrives. Any PADS for the host ends the wait of an attempt. -/
def recv (h : Host) (ph : Phase) (frame : Bytes) : Phase × List Bytes :=
  match ph with
  | .down => (.down, [])
  | .padi n =>
    match (h.waitCtrl ctrlPado frame).bind (h.takePado c) with
    | none => (.padi n, [])
    | some ac => (.padr 0 ac, [h.padr c ac])
  | .padr n ac =>
    match h.waitCtrl ctrlPads frame with
    | none => (.padr n ac, [])
    | some p =>
      match h.takePads c ac p with
      | none => h.retryPadr c n ac
      | some sid => (.up sid ac, [])
  | .up sid ac =>
    let p := framePayload frame
    if frame.length < 14 + ipv69HeaderLen + 1 ∨ frameSrcMac frame = h.mac ∨ frameNextHeader frame ≠ ipv69NextControl then
      (.up sid ac, [])
    else if 3 ≤ p.length ∧ byteAt p 0 = ctrlPadt ∧ get16 p 1 = sid then (.down, [])
    else (.up sid ac, [])

/-- A wait runs out. -/
def timeout (h : Host) (ph : Phase) : Phase × List Bytes :=
  match ph with
  | .padi n => if n + 1 < dialAttempts then (.padi (n + 1), [h.padi c]) else (.down, [])
  | .padr n ac => h.retryPadr c n ac
  | ph => (ph, [])

/-- The user starts the program, which sends its first PADI. -/
def dial (h : Host) (ph : Phase) : Phase × List Bytes :=
  match ph with
  | .down => (.padi 0, [h.padi c])
  | ph => (ph, [])

/-- The user ends a session. -/
def quit (h : Host) (ph : Phase) : Phase × List Bytes :=
  match ph with
  | .up sid ac => (.down, [h.hostPadt c ac sid])
  | ph => (ph, [])

end Host

end Pppoe
