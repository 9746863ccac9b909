import BaitNet.BiteFetch
import BaitNet.BiteTargets
import BaitNet.BtlsMessages
import BaitNet.Calls
import BaitNet.Poll

/-!
# The loops of the BITE programs

`run_server` from an accepted association on and `run_fetch` from its handshake on: what one
round makes of the result of `icsp_poll` and of the record that the data callback kept. The
rounds call what they call of the association, and leave open what the calls do.
-/
namespace Bite

open Wire Crypto

/-- What a loop calls on its association: `icsp_data_send` on stream 1,
`icsp_data_retransmit` for what is older than a second, and `icsp_shutdown_send`. -/
inductive PortOp where
  | send (rec : Bytes)
  | retransmit
  | shutdown

/-- Whether `icsp_data_send` returned something else than -1; nothing looks at what the other
two return. -/
def PortOp.Ret : PortOp → Type
  | .send _ => Bool
  | .retransmit | .shutdown => Unit

def port : Interface := ⟨PortOp, PortOp.Ret⟩

abbrev OnPort (α : Type) : Type := Calls port α

def dataSend (rec : Bytes) : OnPort Bool := Calls.op (S := port) (.send rec)

def dataRetransmit : OnPort Unit := Calls.op (S := port) .retransmit

def shutdownSend : OnPort Unit := Calls.op (S := port) .shutdown

/-- `bite_data_cb`: what is in `pend` when `data` comes. -/
def biteDataCb (pend data : Bytes) : Bytes := if pend ≠ [] ∨ btlsMaxRec < data.length then pend else data

/-- `struct bctx` between two rounds, when `pend` is empty. -/
structure Bctx where
  btls : Btls
  done : Bool
  msg : Bytes

/-- What a round does after its record: leave the loop, start the next round, go on. -/
inductive Turn where
  | fail | again | on
  deriving DecidableEq

variable (c : TweetNaCl)

/-- `app_send`; a round of its loop takes at least one byte of the message. -/
def appSendLoop (ptr : Nat) (msg : Bytes) : Nat → Btls → OnPort (Btls × Bool)
  | 0, t => pure (t, false)
  | fuel + 1, t =>
    let (t, _, ret, rec) := btlsSendApp c ptr msg t
    if ret < 0 then pure (t, false)
    else do
      let ok ← dataSend rec
      if ok = false then pure (t, false)
      else if ret = 1 then appSendLoop ptr msg fuel t
      else pure (t, true)

/-- The address of the buffer that a program sends from. -/
def msgAddr : Nat := 1

def appSend (msg : Bytes) (t : Btls) : OnPort (Btls × Bool) := appSendLoop c msgAddr msg msg.length t

/-- The loop around `btls_pump`, for so many rounds. -/
def pumpLoop (rnd : Arr 32) : Nat → Btls → OnPort (Btls × Bool)
  | 0, t => pure (t, true)
  | fuel + 1, t =>
    let (t, _, ret, rec) := btlsPump c rnd t
    if ret = 1 then do
      let ok ← dataSend rec
      if ok = false then pure (t, false)
      else pumpLoop rnd fuel t
    else pure (t, true)

/-- `btls_pump` has at most four records in a row (`pumpLoop_ends`). -/
def pumpAll (rnd : Arr 32) (t : Btls) : OnPort (Btls × Bool) := pumpLoop c rnd 5 t

/-- A record during the handshake, in either program. -/
def handshakeRecord (rnd : Arr 32) (b : Bctx) (rec : Bytes) : OnPort (Bctx × Turn) :=
  let (t, _, ret) := btlsFeed c rec b.btls
  if ret < 0 then pure ({ b with btls := t }, .fail)
  else do
    let (t, ok) ← pumpAll c rnd t
    pure (if ok = false then ({ b with btls := t }, .fail)
      else ({ b with btls := t, done := if t.state = .done then true else b.done }, .on))

/-- A record of a request. -/
def requestRecord (fs : Bytes → Option Stream) (root : Bytes) (b : Bctx) (rec : Bytes) : OnPort (Bctx × Turn) :=
  let (t, msg, ret, len) := btlsRecvApp c rec b.msg b.btls
  if ret < 0 then pure ({ b with btls := t, msg }, .fail)
  else if ret = 0 then pure ({ b with btls := t, msg }, .again)
  else
    match respond fs root (msg.take len) with
    | none => pure ({ b with btls := t, msg }, .fail)
    | some resp => do
      let (t, ok) ← appSend c resp t
      pure ({ b with btls := t, msg := resp ++ msg.drop resp.length }, if ok then .on else .fail)

/-- The server in its association, or after it. -/
structure Serving where
  ctx : Bctx
  left : Bool

def serverRecord (rnd : Arr 32) (fs : Bytes → Option Stream) (root : Bytes) (b : Bctx) (pend : Bytes) :
    OnPort (Bctx × Turn) :=
  if pend = [] then pure (b, .on)
  else if b.done then requestRecord c fs root b pend
  else handshakeRecord c rnd b pend

/-- The end of a round that goes on: what is old goes out again when nothing came. -/
def roundEnd {α : Type} (r : Int) (x : α) : OnPort α :=
  if r = Icsp.icspPollTimeout then do
    dataRetransmit
    pure x
  else pure x

/-- A round of `run_server`. -/
def serverRound (rnd : Arr 32) (fs : Bytes → Option Stream) (root : Bytes) (st : Serving) (r : Int) (pend : Bytes) :
    OnPort Serving :=
  if r = Icsp.icspPollErr then pure { st with left := true }
  else do
    let (b, turn) ← serverRecord c rnd fs root st.ctx pend
    match turn with
    | .fail =>
      shutdownSend
      pure ⟨b, true⟩
    | .again => pure ⟨b, false⟩
    | .on =>
      if r = Icsp.icspPollClosed then pure ⟨b, true⟩
      else roundEnd r ⟨b, false⟩

/-- The client, the response once it has one, and what it returns with. -/
structure Fetching where
  ctx : Bctx
  sent : Bool
  got : Option Bytes
  exit : Option Nat

/-- What `run_fetch` does with a fresh session before its loop. -/
def fetchStart (rnd : Arr 32) (t : Btls) (msg : Bytes) : OnPort Fetching :=
  match btlsClientStart rnd t with
  | (t, none) => pure ⟨⟨t, false, msg⟩, false, none, some 1⟩
  | (t, some rec) => do
    let ok ← dataSend rec
    pure ⟨⟨t, false, msg⟩, false, none, if ok = false then some 1 else none⟩

def responseRecord (b : Bctx) (rec : Bytes) : Bctx × Turn × Option Bytes :=
  let (t, msg, ret, len) := btlsRecvApp c rec b.msg b.btls
  if ret < 0 then ({ b with btls := t, msg }, .fail, none)
  else ({ b with btls := t, msg }, .on, if ret = 1 then some (msg.take len) else none)

def fetchRecord (rnd : Arr 32) (b : Bctx) (pend : Bytes) : OnPort (Bctx × Turn × Option Bytes) :=
  if pend = [] then pure (b, .on, none)
  else if b.done then pure (responseRecord c b pend)
  else do
    let (b, turn) ← handshakeRecord c rnd b pend
    pure (b, turn, none)

/-- The request, once the handshake is through; false is an error. -/
def sendRequest (meth path : Bytes) (b : Bctx) (sent : Bool) : OnPort (Bctx × Bool × Bool) :=
  if b.done ∧ ¬ sent then
    if biteHdrMax ≤ (requestText meth path).length then pure (b, sent, false)
    else do
      let (t, ok) ← appSend c (requestText meth path) b.btls
      pure ({ b with btls := t }, if ok = false then sent else true, ok)
  else pure (b, sent, true)

/-- A round of `run_fetch`; what follows its loop belongs to the round that leaves it. -/
def fetchRound (rnd : Arr 32) (meth path : Bytes) (st : Fetching) (r : Int) (pend : Bytes) : OnPort Fetching :=
  if r = Icsp.icspPollErr then pure { st with exit := some 1 }
  else do
    let (b, turn, got) ← fetchRecord c rnd st.ctx pend
    match turn, got with
    | .on, some m =>
      shutdownSend
      pure ⟨b, st.sent, some m, some 0⟩
    | .on, none => do
      let (b, sent, ok) ← sendRequest c meth path b st.sent
      if ok = false then pure ⟨b, sent, none, some 1⟩
      else if r = Icsp.icspPollClosed then pure ⟨b, sent, none, some 1⟩
      else roundEnd r ⟨b, sent, none, none⟩
    | _, _ => pure ⟨b, st.sent, none, some 1⟩

/-- A program that polls an association until it leaves its loop; `late` is how it leaves when the
time of the loop is up. -/
structure Program where
  State : Type
  left : State → Bool
  round : State → Int → Bytes → OnPort State
  late : State → State

def serverProgram (rnd : Arr 32) (fs : Bytes → Option Stream) (root : Bytes) : Program where
  State := Serving
  left := Serving.left
  round := serverRound c rnd fs root
  late st := { st with left := true }

def fetchProgram (rnd : Arr 32) (meth path : Bytes) : Program where
  State := Fetching
  left st := st.exit.isSome
  round := fetchRound c rnd meth path
  late st := { st with exit := some 1 }

/-- How many records `btls_pump` still has to send. -/
def Btls.due (t : Btls) : Nat :=
  if t.state ≠ .hs then 0
  else
    match t.role with
    | .server =>
      if t.wantHs = hsServerHello then 4
      else if t.wantHs = hsCertificate then 3
      else if t.wantHs = hsCertificateVerify then 2
      else if t.wantHs = hsFinished then 1
      else 0
    | .client => if t.wantHs = 0 then 1 else 0

theorem Btls.due_le (t : Btls) : t.due ≤ 4 := by
  rw [Btls.due]
  repeat' split
  all_goals omega

theorem emitHs_next (t : Btls) (frame : Bytes) (state : St) (wantHs : UInt8) :
    (emitHs c t frame state wantHs).1.role = t.role ∧ (emitHs c t frame state wantHs).1.state = state ∧
      (emitHs c t frame state wantHs).1.wantHs = wantHs := by
  rw [emitHs, sealHs, sealBox, thAppend]
  split <;> split <;> exact ⟨rfl, rfl, rfl⟩

/-- Each record is one of them. -/
theorem btlsPump_due (rnd : Arr 32) (t : Btls) (h : (btlsPump c rnd t).2.2.1 = 1) :
    (btlsPump c rnd t).1.due < t.due := by
  have hemit : ∀ (frame : Bytes) (state : St) (wantHs : UInt8), t.role = .server →
      (emitHs c t frame state wantHs).1.due = Btls.due { t with state, wantHs } := by
    intro frame state wantHs hrole
    obtain ⟨hr, hs, hw⟩ := emitHs_next c t frame state wantHs
    rw [Btls.due, Btls.due, hr, hs, hw]
  rw [btlsPump] at h ⊢
  by_cases hserver : t.role = .server ∧ t.state = .hs
  · rw [if_pos hserver] at h ⊢
    obtain ⟨hrole, hst⟩ := hserver
    by_cases hsh : t.wantHs = hsServerHello
    · rw [if_pos hsh]
      dsimp only
      rw [thAppend_eq]
      simp [Btls.due, installEpoch, ecdhPrk, hrole, hst, hsh]
      decide
    · rw [if_neg hsh] at h ⊢
      by_cases hcert : t.wantHs = hsCertificate
      · rw [if_pos hcert, hemit _ _ _ hrole]
        simp [Btls.due, hrole, hst, hcert]
        decide
      · rw [if_neg hcert] at h ⊢
        by_cases hcv : t.wantHs = hsCertificateVerify
        · rw [if_pos hcv, hemit _ _ _ hrole]
          simp [Btls.due, hrole, hst, hcv]
          decide
        · rw [if_neg hcv] at h ⊢
          by_cases hfin : t.wantHs = hsFinished
          · rw [if_pos hfin, hemit _ _ _ hrole]
            simp [Btls.due, hrole, hst, hfin]
            decide
          · rw [if_neg hfin] at h
            cases h
  · rw [if_neg hserver] at h ⊢
    by_cases hclient : t.role = .client ∧ t.state = .hs ∧ t.wantHs = 0
    · rw [if_pos hclient] at h ⊢
      obtain ⟨hrole, hst, hwant⟩ := hclient
      have hpos : 0 < t.due := by simp [Btls.due, hrole, hst, hwant]
      dsimp only at h ⊢
      split at h
      · cases h
      · exact hpos
    · rw [if_neg hclient] at h
      cases h

theorem pumpLoop_succ (rnd : Arr 32) {fuel : Nat} {t : Btls} (h : t.due < fuel) :
    pumpLoop c rnd (fuel + 1) t = pumpLoop c rnd fuel t := by
  induction fuel generalizing t with
  | zero => omega
  | succ fuel ih =>
    rw [pumpLoop, pumpLoop]
    have hdue := btlsPump_due c rnd t
    generalize btlsPump c rnd t = sent at hdue ⊢
    obtain ⟨t', acts, ret, rec⟩ := sent
    dsimp only at hdue ⊢
    by_cases hret : ret = 1
    · have hless := hdue hret
      rw [if_pos hret, if_pos hret, ih (by omega)]
    · rw [if_neg hret, if_neg hret]

/-- So the loop ends by itself: more rounds than those of `pumpAll` make no difference. -/
theorem pumpLoop_ends (rnd : Arr 32) (t : Btls) (extra : Nat) : pumpLoop c rnd (5 + extra) t = pumpAll c rnd t := by
  have hdue := t.due_le
  induction extra with
  | zero => rfl
  | succ extra ih => rw [← Nat.add_assoc, pumpLoop_succ c rnd (by omega), ih]

end Bite
