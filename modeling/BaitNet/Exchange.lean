import BaitNet.Interop

/-!
# The handshake exchange between any two ends

The four messages by their content, what a client and a server must do with them, and
that a loss-free exchange between two such ends completes with mirrored keys. Which
implementation an end is does not show here.
-/
namespace Interop

open Wire Link Crypto

/-- A host: its identity seed, MAC and address. -/
structure Station where
  seed : Arr 32
  mac : Arr 6
  addr : UInt64
  addr_lt : addr.toNat < 2 ^ 40

variable (c : TweetNaCl)

def Station.pub (s : Station) : Arr 32 := c.seedToPk s.seed

/-- Seed and public key, as the C key files hold them. -/
def Station.sk (s : Station) : Arr 64 := ⟨s.seed.val ++ (s.pub c).val, by simp⟩

theorem Station.sk_seed (s : Station) : arr (s.sk c).val 0 32 = s.seed := arr_append_exact s.seed _

theorem Station.sk_pub (s : Station) : arr (s.sk c).val 32 32 = s.pub c := by
  have h := arr_append_right s.seed.val (s.pub c).val 32 32 (by simp)
  have hx := arr_append_exact (s.pub c) []
  rw [List.append_nil] at hx
  rw [s.seed.length, Nat.sub_self, hx] at h
  exact h

def initBody (streamsIn streamsOut : UInt16) (eph : Arr 32) (ts : UInt64) (id : Arr 32) : Bytes :=
  Icsp.icspVersion :: (put16 streamsIn ++ put16 streamsOut) ++ eph.val ++ put64 ts ++ id.val

/-- The plain-identity INIT to `addr`: body, signature, mac1. -/
def initChunk (addr : UInt64) (seed : Arr 32) (body : Bytes) : Bytes :=
  [Icsp.chunkInit, 0, 0, 157] ++ (body ++ (c.sign body seed).val ++
    (mac1Compute c (mac1Key c addr) (body ++ (c.sign body seed).val)).val)

def initAckBody (streamsIn streamsOut : UInt16) (eph id : Arr 32) : Bytes :=
  Icsp.icspVersion :: (put16 streamsIn ++ put16 streamsOut) ++ eph.val ++ id.val

def initAckChunk (seed : Arr 32) (body : Bytes) (cookie : Arr 48) : Bytes :=
  Icsp.icspChunkPut Icsp.chunkInitAck 181 ++ (body ++ (c.sign body seed).val ++ cookie.val)

def echoChunk (seed : Arr 32) (cookie : Arr 48) : Bytes :=
  Icsp.icspChunkPut Icsp.chunkCookieEcho 112 ++ (cookie.val ++ (c.sign cookie.val seed).val)

@[simp] theorem initBody_length (si so : UInt16) (eph : Arr 32) (ts : UInt64) (id : Arr 32) :
    (initBody si so eph ts id).length = 77 := by simp [initBody]

@[simp] theorem initAckBody_length (si so : UInt16) (eph id : Arr 32) :
    (initAckBody si so eph id).length = 69 := by simp [initAckBody]

@[simp] theorem initChunk_length (addr : UInt64) (seed : Arr 32) (body : Bytes) :
    (initChunk c addr seed body).length = 84 + body.length := by
  simp [initChunk]
  omega

@[simp] theorem initAckChunk_length (seed : Arr 32) (body : Bytes) (cookie : Arr 48) :
    (initAckChunk c seed body cookie).length = 116 + body.length := by
  simp [initAckChunk]
  omega

@[simp] theorem echoChunk_length (seed : Arr 32) (cookie : Arr 48) :
    (echoChunk c seed cookie).length = 116 := by simp [echoChunk]

section Reads

variable (rest : Bytes)

theorem slice_exact {p : Bytes} (h : p.length = n) : slice (p ++ rest) 0 n = p := by
  subst h
  exact slice_append_exact p rest

theorem arr_exact {p : Bytes} {n k : Nat} (a : Arr k) (h : p.length = n) :
    arr (p ++ (a.val ++ rest)) n k = a := by
  rw [arr_append_right _ _ _ _ (by omega), h, Nat.sub_self, arr_append_exact]

theorem packet_drop (sp dp : UInt16) (aid : UInt32) {chunk : Bytes} (h : 4 ≤ chunk.length) :
    (packet sp dp aid chunk ++ rest).drop 16 = chunk.drop 4 ++ rest := by
  have hd : (packet sp dp aid chunk ++ rest).drop 12 = chunk ++ rest := Icsp.assocPkt_drop _ _ _
  have h16 : (packet sp dp aid chunk ++ rest).drop 16 = ((packet sp dp aid chunk ++ rest).drop 12).drop 4 := by
    rw [List.drop_drop]
  rw [h16, hd, List.drop_append_of_le_length h]

theorem packet_type (sp dp : UInt16) (aid : UInt32) {b : Bytes} (i : Nat) (h : i < b.length) :
    byteAt (packet sp dp aid b ++ rest) (12 + i) = byteAt b i :=
  (Icsp.assocPkt_byte _ b rest i).trans (byteAt_append_left _ _ _ h)

theorem packet_ports (sp dp : UInt16) (aid : UInt32) (chunk : Bytes) :
    get16 (packet sp dp aid chunk ++ rest) 0 = sp ∧ get16 (packet sp dp aid chunk ++ rest) 2 = dp :=
  Icsp.icspPkt_ports _ _ _ _

theorem packet_assocId (sp dp : UInt16) (aid : UInt32) (chunk : Bytes) :
    get32 (packet sp dp aid chunk ++ rest) 6 = aid := Icsp.assocPkt_assocId _ _ _

variable (si so : UInt16) (eph id : Arr 32) (ts : UInt64)

theorem initBody_eph : arr (initBody si so eph ts id ++ rest) 5 32 = eph := by
  simp only [initBody, List.append_assoc]
  exact arr_exact _ eph rfl

theorem initBody_ts : get64 (initBody si so eph ts id ++ rest) 37 = ts := by
  simp only [initBody, List.append_assoc]
  rw [get64_append_right _ _ _ (by simp), get64_append_right _ _ _ (by simp)]
  simpa using get64_put64 ts _

theorem initBody_id : arr (initBody si so eph ts id ++ rest) 45 32 = id := by
  have h : initBody si so eph ts id ++ rest =
      (Icsp.icspVersion :: (put16 si ++ put16 so) ++ eph.val ++ put64 ts) ++ (id.val ++ rest) := by
    simp only [initBody, List.append_assoc]
  rw [h]
  exact arr_exact rest id (by simp)

theorem initAckBody_eph : arr (initAckBody si so eph id ++ rest) 5 32 = eph := by
  simp only [initAckBody, List.append_assoc]
  exact arr_exact _ eph rfl

theorem initAckBody_id : arr (initAckBody si so eph id ++ rest) 37 32 = id := by
  have h : initAckBody si so eph id ++ rest =
      (Icsp.icspVersion :: (put16 si ++ put16 so) ++ eph.val) ++ (id.val ++ rest) := by
    simp only [initAckBody, List.append_assoc]
  rw [h]
  exact arr_exact rest id (by simp)

/-- The data area of an INIT packet. -/
theorem initChunk_drop (sp dp : UInt16) (aid : UInt32) (addr : UInt64) (seed : Arr 32) (body : Bytes) :
    (packet sp dp aid (initChunk c addr seed body) ++ rest).drop 16 =
      body ++ ((c.sign body seed).val ++
        ((mac1Compute c (mac1Key c addr) (body ++ (c.sign body seed).val)).val ++ rest)) := by
  rw [packet_drop _ _ _ _ (by rw [initChunk_length]; omega)]
  simp [initChunk]

theorem initAckChunk_drop (sp dp : UInt16) (aid : UInt32) (seed : Arr 32) (body : Bytes) (cookie : Arr 48) :
    (packet sp dp aid (initAckChunk c seed body cookie) ++ rest).drop 16 =
      body ++ ((c.sign body seed).val ++ (cookie.val ++ rest)) := by
  rw [packet_drop _ _ _ _ (by rw [initAckChunk_length]; omega), initAckChunk,
    List.drop_left' (Icsp.icspChunkPut_length _ _)]
  simp only [List.append_assoc]

theorem echoChunk_drop (sp dp : UInt16) (aid : UInt32) (seed : Arr 32) (cookie : Arr 48) :
    (packet sp dp aid (echoChunk c seed cookie) ++ rest).drop 16 =
      cookie.val ++ ((c.sign cookie.val seed).val ++ rest) := by
  rw [packet_drop _ _ _ _ (by simp), echoChunk, List.drop_left' (Icsp.icspChunkPut_length _ _)]
  simp only [List.append_assoc]

end Reads

/-- What an end knows once its handshake function has returned successfully. -/
structure View where
  assocId : Nat
  peerId : Bytes
  sendKey : Bytes
  recvKey : Bytes
  deriving DecidableEq

/-- One end: a machine that receives frames and sends some. `view` is `none` until the
handshake function has succeeded. -/
structure Party where
  State : Type
  start : State × List Bytes
  step : State → Bytes → State × List Bytes
  view : State → Option View

/-- Deliver frames in order; what they cause to be sent. -/
def Party.feed (p : Party) : p.State → List Bytes → p.State × List Bytes
  | s, [] => (s, [])
  | s, f :: fs =>
    let (s, out) := p.step s f
    let (s, out') := p.feed s fs
    (s, out ++ out')

/-- Round trips: everything in flight to the server is delivered, then what it answered. -/
def turns (cl sv : Party) : Nat → cl.State → sv.State → List Bytes → cl.State × sv.State × List Bytes
  | 0, k, s, q => (k, s, q)
  | n + 1, k, s, q =>
    let (s, toClient) := sv.feed s q
    let (k, toServer) := cl.feed k toClient
    turns cl sv n k s toServer

/-- The loss-free, in-order exchange after `n` round trips: what either end knows. The
server waits before the client calls. -/
def exchange (cl sv : Party) (n : Nat) : Option View × Option View :=
  let (k, s, _) := turns cl sv n cl.start.1 sv.start.1 cl.start.2
  (cl.view k, sv.view s)

theorem turns_idle (cl sv : Party) (n : Nat) (k : cl.State) (s : sv.State) :
    turns cl sv n k s [] = (k, s, []) := by
  induction n with
  | zero => rfl
  | succ n ih => exact ih

/-- The keys of both directions from the client's ephemeral `x` and the server's `y`. -/
def exchangeKeys (x y : Arr 32) : Arr 32 × Arr 32 := Icsp.kdf c (c.scalarmult x (c.scalarmultBase y))

/-- A client station calls `addr` and `port` with the ephemeral `x` at time `ts` under the
association id `aid`: it sends one INIT, answers the INIT-ACK of `server` with the cookie
and completes on COOKIE-ACK. -/
def ClientRole (p : Party) (me : Station) (addr : UInt64) (port : UInt16) (x : Arr 32) (ts : UInt64)
    (aid : UInt32) : Prop :=
  ∃ (k₁ : p.State) (f₁ : Bytes) (sp si so : UInt16),
    p.start = (k₁, [f₁]) ∧
    Carries me.mac me.addr addr
      (packet sp port aid (initChunk c addr me.seed (initBody si so (c.scalarmultBase x) ts (me.pub c)))) f₁ ∧
    ∀ (server : Station) (y : Arr 32) (si so dp : UInt16) (aid' : UInt32) (cookie : Arr 48) (dst : UInt64)
      (f₂ : Bytes),
      Carries server.mac server.addr dst (packet port dp aid'
        (initAckChunk c server.seed (initAckBody si so (c.scalarmultBase y) (server.pub c)) cookie)) f₂ →
      ∃ (k₂ : p.State) (f₃ : Bytes) (dst : UInt64) (sp dp : UInt16) (aid' : UInt32),
        p.step k₁ f₂ = (k₂, [f₃]) ∧
        Carries me.mac me.addr dst (packet sp dp aid' (echoChunk c me.seed cookie)) f₃ ∧
        ∀ (f₄ : Bytes) (dst : UInt64) (sp dp : UInt16) (aid' : UInt32),
          Carries server.mac server.addr dst (packet sp dp aid' Icsp.cookieAck) f₄ →
          ∃ k₃ : p.State, p.step k₂ f₄ = (k₃, []) ∧
            p.view k₃ = some ⟨aid.toNat, (server.pub c).val, (exchangeKeys c x y).1.val,
              (exchangeKeys c x y).2.val⟩

/-- A server station on `port` answers a client's INIT of time `ts` with the ephemeral `y`
and completes on the COOKIE-ECHO. -/
def ServerRole (p : Party) (me client : Station) (port : UInt16) (y : Arr 32) (ts : UInt64) : Prop :=
  ∀ (x : Arr 32) (aid : UInt32) (sp si so : UInt16) (f₁ : Bytes),
    Carries client.mac client.addr me.addr (packet sp port aid
      (initChunk c me.addr client.seed (initBody si so (c.scalarmultBase x) ts (client.pub c)))) f₁ →
    ∃ (s₁ : p.State) (f₂ : Bytes) (dst : UInt64) (dp si so : UInt16) (aid' : UInt32) (cookie : Arr 48),
      p.step p.start.1 f₁ = (s₁, [f₂]) ∧
      Carries me.mac me.addr dst (packet port dp aid'
        (initAckChunk c me.seed (initAckBody si so (c.scalarmultBase y) (me.pub c)) cookie)) f₂ ∧
      ∀ (f₃ : Bytes) (dst : UInt64) (sp dp : UInt16) (aid' : UInt32),
        Carries client.mac client.addr dst (packet sp dp aid' (echoChunk c client.seed cookie)) f₃ →
        ∃ (s₂ : p.State) (f₄ : Bytes) (dst : UInt64) (sp dp : UInt16) (aid' : UInt32),
          p.step s₁ f₃ = (s₂, [f₄]) ∧
          Carries me.mac me.addr dst (packet sp dp aid' Icsp.cookieAck) f₄ ∧
          p.view s₂ = some ⟨aid.toNat, (client.pub c).val, (exchangeKeys c x y).2.val,
            (exchangeKeys c x y).1.val⟩

/-- Two ends that play their roles complete: both know the same association id, each
other's identity and mirrored keys, from the second round trip on. -/
theorem exchange_completes {cl sv : Party} {client server : Station} {port : UInt16} {x y : Arr 32}
    {ts : UInt64} {aid : UInt32} (hcl : ClientRole c cl client server.addr port x ts aid)
    (hsv : ServerRole c sv server client port y ts) (n : Nat) :
    exchange cl sv (n + 2) =
      (some ⟨aid.toNat, (server.pub c).val, (exchangeKeys c x y).1.val, (exchangeKeys c x y).2.val⟩,
        some ⟨aid.toNat, (client.pub c).val, (exchangeKeys c x y).2.val, (exchangeKeys c x y).1.val⟩) := by
  obtain ⟨k₁, f₁, sp, si, so, hstart, hinit, hack⟩ := hcl
  obtain ⟨s₁, f₂, dst₂, dp₂, si₂, so₂, aid₂, cookie, hs₁, hf₂, hecho⟩ := hsv x aid sp si so f₁ hinit
  obtain ⟨k₂, f₃, dst₃, sp₃, dp₃, aid₃, hk₂, hf₃, hdone⟩ :=
    hack server y si₂ so₂ dp₂ aid₂ cookie dst₂ f₂ hf₂
  obtain ⟨s₂, f₄, dst₄, sp₄, dp₄, aid₄, hs₂, hf₄, hview⟩ := hecho f₃ dst₃ sp₃ dp₃ aid₃ hf₃
  obtain ⟨k₃, hk₃, hview'⟩ := hdone f₄ dst₄ sp₄ dp₄ aid₄ hf₄
  have hturns : turns cl sv (n + 2) cl.start.1 sv.start.1 cl.start.2 = (k₃, s₂, []) := by
    simp only [turns, hstart, Party.feed, hs₁, hk₂, hs₂, hk₃, List.append_nil]
    exact turns_idle cl sv n k₃ s₂
  rw [exchange, hturns]
  simp only [hview, hview']

end Interop
