import BaitNet.Exchange

/-!
# The C implementation in either role

`icsp_client_handshake` and `icsp_server_accept` on a network that takes every frame,
as ends of an exchange.
-/
namespace Interop

open Wire Link Crypto

/-- What the outside supplies to one end: clocks, process id, random bytes and what the
receive buffer held before, for each of its calls and receptions in turn. -/
structure Circumstances where
  time : Nat → UInt64
  nowMs : Nat → UInt32
  monotonic : Nat → Nat
  pid : Nat
  rand : Nat → Nat
  ephRnd : Nat → Arr 32
  assocRnd : Nat → Arr 4
  tsnRnd : Nat → Arr 4
  secretRnd : Nat → Arr 32
  stale : Nat → Bytes

def Circumstances.io (e : Circumstances) (n : Nat) : Icsp.Io where
  now := (e.time n).toNat
  nowMs := e.nowMs n
  pid := e.pid
  rand := e.rand n
  ephRnd := e.ephRnd n
  assocRnd := e.assocRnd n
  tsnRnd := e.tsnRnd n
  secretRnd := e.secretRnd n
  netOk := fun _ => true

/-- The `n`-th reception: the frame in front of what the buffer held. -/
def Circumstances.rx (e : Circumstances) (n : Nat) (frame : Bytes) : Icsp.Rx :=
  .frame (frame ++ e.stale n) frame.length

def viewOf (a : Icsp.IcspAssoc) : View := ⟨a.assocId.toNat, a.peerId.val, a.sendKey.val, a.recvKey.val⟩

variable (c : TweetNaCl)

/-- `icsp_client_handshake` of an association `a`. -/
def cClient (e : Circumstances) (args : Icsp.ClientArgs) (a : Icsp.IcspAssoc) : Party where
  State := Nat × Icsp.ClientCall
  start :=
    let r := Icsp.clientStart c (e.io 0) args a
    ((1, r.1), Icsp.txFrames r.2)
  step s frame :=
    let r := Icsp.clientStep c (e.io s.1) args s.2 (e.rx s.1 frame)
    ((s.1 + 1, r.1), Icsp.txFrames r.2)
  view s := if s.2.phase = .done 0 then some (viewOf s.2.assoc) else none

/-- `icsp_server_accept` of an association in its process. -/
def cServer (e : Circumstances) (args : Icsp.ServerArgs) (h : Icsp.Host) : Party where
  State := Nat × Icsp.ServerCall
  start :=
    let r := Icsp.serverStart c (e.io 0) args h
    ((1, r.1), Icsp.txFrames r.2)
  step s frame :=
    let r := Icsp.serverStep c (e.io s.1) args s.2 (e.rx s.1 frame)
    ((s.1 + 1, r.1), Icsp.txFrames r.2)
  view s := if s.2.phase = .done 0 then some (viewOf s.2.host.assoc) else none

/-- The handshake chunk types, which no receiver filters as its own. -/
def HandshakeType (type : UInt8) : Prop :=
  type = Icsp.chunkInit ∨ type = Icsp.chunkInitAck ∨ type = Icsp.chunkCookieEcho ∨ type = Icsp.chunkCookieAck

/-- The association once a frame from `mac` and `src` arrived. -/
def heard (io : Icsp.Io) (a : Icsp.IcspAssoc) (mac : Arr 6) (src : UInt64) : Icsp.IcspAssoc :=
  { a with peerMac := mac, hasPeerMac := true, dstAddr := src, lastRx := io.now }

theorem icspRecvFrame_carries (io : Icsp.Io) (a : Icsp.IcspAssoc) {mac : Arr 6} {src dst : UInt64}
    {sp dp : UInt16} {aid : UInt32} {chunk frame : Bytes} (stale : Bytes)
    (h : Carries mac src dst (packet sp dp aid chunk) frame) (hsrc : src.toNat < 2 ^ 40)
    (hlen : 4 ≤ chunk.length) (hty : HandshakeType (byteAt chunk 0)) :
    Icsp.icspRecvFrame io a (.frame (frame ++ stale) frame.length) =
      (heard io a mac src, .payload (packet sp dp aid chunk ++ stale) (12 + chunk.length) src) := by
  obtain ⟨dm, fsp, fdp, rfl⟩ := h
  have hflen := buildFrame_length dm mac src dst ipv69NextStream 64 fsp fdp (packet sp dp aid chunk)
  have hpay := framePayload_build dm mac src dst ipv69NextStream 64 fsp fdp (packet sp dp aid chunk) stale
  have hmac := frameSrcMac_build dm mac src dst ipv69NextStream 64 fsp fdp (packet sp dp aid chunk) stale
  have hnext := frameNextHeader_build dm mac src dst ipv69NextStream 64 fsp fdp (packet sp dp aid chunk) stale
  have hsource := frameSource_build dm mac src dst ipv69NextStream 64 fsp fdp (packet sp dp aid chunk) stale hsrc
  rw [packet_length] at hflen
  revert hflen hpay hmac hnext hsource
  generalize buildFrame dm mac src dst ipv69NextStream 64 fsp fdp (packet sp dp aid chunk) = frame
  intro hflen hpay hmac hnext hsource
  have htype : byteAt (framePayload (frame ++ stale)) Icsp.icspHeaderLen = byteAt chunk 0 := by
    rw [hpay]
    exact packet_type stale sp dp aid 0 (by omega)
  have hown : Icsp.ownTxControl a (frame ++ stale) frame.length = false := by
    have hshort : ¬ frame.length < 14 + ipv69HeaderLen + Icsp.icspHeaderLen + Icsp.icspChunkHdr := by
      simp only [ipv69HeaderLen, Icsp.icspHeaderLen, Icsp.icspChunkHdr]
      omega
    rw [Icsp.ownTxControl, if_neg hshort, htype]
    split
    · rfl
    · split
      · rfl
      · rw [if_pos]
        rcases hty with h | h | h | h <;> simp [h]
  have hrx : Icsp.icspRx a.tunnel (.frame (frame ++ stale) frame.length) =
      .frame (frame ++ stale) frame.length := if_neg (by omega)
  have hlong : ¬ frame.length < 14 + ipv69HeaderLen + Icsp.icspHeaderLen := by
    simp only [ipv69HeaderLen, Icsp.icspHeaderLen]
    omega
  have hn : frame.length - 14 - ipv69HeaderLen = 12 + chunk.length := by
    simp only [ipv69HeaderLen]
    omega
  rw [Icsp.icspRecvFrame, hrx]
  simp only [if_neg hlong, hown, hnext, ne_eq, not_true_eq_false, Bool.false_eq_true, if_false, hmac, hpay,
    hsource, hn]
  rfl

/-- A network that takes every frame takes every chunk that fits. -/
theorem icspSendPkt_carries (io : Icsp.Io) (a : Icsp.IcspAssoc) {b : Bytes}
    (hnet : ∀ f, io.netOk f = true) (h : b.length ≤ 1388) :
    ∃ frame, Icsp.icspSendPkt io a b = ([.tx b frame], true) ∧
      Carries a.srcMac a.srcAddr a.dstAddr (packet a.srcPort a.dstPort a.assocId b) frame := by
  rcases Icsp.icspSendPkt_cases io a b with ⟨hs, -, -⟩ | ⟨-, hno⟩
  · exact ⟨_, hs, _, 0, 0, rfl⟩
  · have hbad := hno (by omega)
    rw [hnet] at hbad
    cases hbad


section Client

variable {c}

theorem icspCheckPkt_packet (sp dp : UInt16) (aid : UInt32) {b : Bytes} (stale : Bytes)
    (h : b.length ≤ 1388) :
    Icsp.icspCheckPkt (packet sp dp aid b ++ stale) (12 + b.length) = true := by
  apply Icsp.icspCheckPkt_assocPkt
  simp only [Icsp.icspMaxPayload]
  omega

/-- Sending the INIT of a fresh ephemeral. -/
theorem clientInit_carries (io : Icsp.Io) (args : Icsp.ClientArgs) (a : Icsp.IcspAssoc) (tries : Nat)
    (hplain : args.serverPub = none) (hnet : ∀ f, io.netOk f = true) :
    ∃ frame acts, Icsp.clientInit c io args a tries =
        (⟨Icsp.newEph c io a, .waitInitAck tries⟩, acts) ∧
      Icsp.txFrames acts = [frame] ∧
      Carries a.srcMac a.srcAddr a.dstAddr (packet a.srcPort a.dstPort a.assocId
        (initChunk c a.dstAddr (arr args.sk.val 0 32) (initBody a.streamsIn a.streamsOut
          (c.scalarmultBase io.ephRnd) (.ofNat io.now) a.idPub))) frame := by
  have hchunk : (Icsp.initBuild c io a args.sk args.serverPub).2.1 =
      initChunk c a.dstAddr (arr args.sk.val 0 32) (initBody a.streamsIn a.streamsOut
        (c.scalarmultBase io.ephRnd) (.ofNat io.now) a.idPub) := by
    rw [hplain]
    rfl
  obtain ⟨frame, hsend, hcar⟩ := icspSendPkt_carries io (Icsp.newEph c io a)
    (b := (Icsp.initBuild c io a args.sk args.serverPub).2.1) hnet (by
      rw [hchunk, initChunk_length, initBody_length]
      omega)
  have hunf : Icsp.clientInit c io args a tries =
      (⟨Icsp.newEph c io a, if (Icsp.icspSendPkt io (Icsp.newEph c io a)
          (Icsp.initBuild c io a args.sk args.serverPub).2.1).2 then .waitInitAck tries else .done (-1)⟩,
        (Icsp.initBuild c io a args.sk args.serverPub).2.2 ++ (Icsp.icspSendPkt io (Icsp.newEph c io a)
          (Icsp.initBuild c io a args.sk args.serverPub).2.1).1) := rfl
  rw [hunf, hsend]
  rw [hchunk] at hcar
  exact ⟨frame, _, rfl, rfl, hcar⟩

/-- The association that took the INIT-ACK of `server` with the ephemeral `y`. -/
def ackedBy (io : Icsp.Io) (a : Icsp.IcspAssoc) (server : Station) (y : Arr 32) : Icsp.IcspAssoc :=
  Icsp.derived c io { heard io a server.mac server.addr with
    peerEph := c.scalarmultBase y, peerId := server.pub c }

/-- An INIT-ACK from the dialled port is taken and its cookie returned. -/
theorem clientStep_initAck (io : Icsp.Io) (args : Icsp.ClientArgs) (a : Icsp.IcspAssoc) (tries : Nat)
    (hnet : ∀ f, io.netOk f = true) (server : Station) {y : Arr 32} {si so dp : UInt16} {aid : UInt32}
    {cookie : Arr 48} {dst : UInt64} {frame : Bytes} (stale : Bytes)
    (h : Carries server.mac server.addr dst (packet args.dstPort dp aid
      (initAckChunk c server.seed (initAckBody si so (c.scalarmultBase y) (server.pub c)) cookie)) frame) :
    ∃ f acts, Icsp.clientStep c io args ⟨a, .waitInitAck tries⟩ (.frame (frame ++ stale) frame.length) =
        (⟨ackedBy (c := c) io a server y, .waitCookieAck 0 (echoChunk c (arr args.sk.val 0 32) cookie)⟩,
          acts) ∧
      Icsp.txFrames acts = [f] ∧
      Carries a.srcMac a.srcAddr server.addr (packet a.srcPort a.dstPort a.assocId
        (echoChunk c (arr args.sk.val 0 32) cookie)) f := by
  have hlen := initAckChunk_length c server.seed
    (initAckBody si so (c.scalarmultBase y) (server.pub c)) cookie
  have hdrop := initAckChunk_drop c stale args.dstPort dp aid server.seed
    (initAckBody si so (c.scalarmultBase y) (server.pub c)) cookie
  rw [initAckBody_length] at hlen
  have hrecv := icspRecvFrame_carries io a stale h server.addr_lt (by omega) (.inr (.inl rfl))
  have hack : Icsp.isInitAck args (packet args.dstPort dp aid (initAckChunk c server.seed
      (initAckBody si so (c.scalarmultBase y) (server.pub c)) cookie) ++ stale) (12 + 185) = true := by
    have hcheck := icspCheckPkt_packet args.dstPort dp aid (b := initAckChunk c server.seed
      (initAckBody si so (c.scalarmultBase y) (server.pub c)) cookie) stale (by omega)
    rw [hlen] at hcheck
    have hty : byteAt (packet args.dstPort dp aid (initAckChunk c server.seed
        (initAckBody si so (c.scalarmultBase y) (server.pub c)) cookie) ++ stale) Icsp.icspHeaderLen =
        Icsp.chunkInitAck := packet_type stale _ _ _ 0 (by omega)
    have hport := (packet_ports stale args.dstPort dp aid (initAckChunk c server.seed
      (initAckBody si so (c.scalarmultBase y) (server.pub c)) cookie)).1
    have hver : byteAt (packet args.dstPort dp aid (initAckChunk c server.seed
        (initAckBody si so (c.scalarmultBase y) (server.pub c)) cookie) ++ stale) 4 = Icsp.icspVersion := rfl
    rw [Icsp.isInitAck, hcheck, hty, hport, hver]
    simp
  revert hrecv hack hdrop
  rw [hlen]
  generalize packet args.dstPort dp aid (initAckChunk c server.seed
    (initAckBody si so (c.scalarmultBase y) (server.pub c)) cookie) ++ stale = payload
  intro hdrop hrecv hack
  have heph : arr (payload.drop 16) 5 32 = c.scalarmultBase y := by
    rw [hdrop]
    exact initAckBody_eph ..
  have hid : arr (payload.drop 16) 37 32 = server.pub c := by
    rw [hdrop]
    exact initAckBody_id ..
  have hsigned : slice (payload.drop 16) 0 69 =
      initAckBody si so (c.scalarmultBase y) (server.pub c) := by
    rw [hdrop]
    exact slice_exact _ (initAckBody_length ..)
  have hsig : arr (payload.drop 16) 69 64 =
      c.sign (initAckBody si so (c.scalarmultBase y) (server.pub c)) server.seed := by
    rw [hdrop]
    exact arr_exact _ _ (initAckBody_length ..)
  have hcookie : slice (payload.drop 16) 133 48 = cookie.val := by
    have h := arr_exact stale (p := initAckBody si so (c.scalarmultBase y) (server.pub c) ++
      (c.sign (initAckBody si so (c.scalarmultBase y) (server.pub c)) server.seed).val) (n := 133) cookie
      (by simp)
    rw [hdrop, ← List.append_assoc, ← arr_val, h]
  have htake : Icsp.takeInitAck (heard io a server.mac server.addr) (payload.drop 16) =
      { heard io a server.mac server.addr with
        peerEph := c.scalarmultBase y, peerId := server.pub c } := by
    rw [Icsp.takeInitAck, heph, hid]
  have hverify : Icsp.initAckVerify c { heard io a server.mac server.addr with
      peerEph := c.scalarmultBase y, peerId := server.pub c } (payload.drop 16) = true := by
    rw [Icsp.initAckVerify, hsigned, hsig]
    exact c.open_sign _ _
  have hecho : Icsp.cookieEcho c (payload.drop 16) args.sk = echoChunk c (arr args.sk.val 0 32) cookie := by
    rw [Icsp.cookieEcho, Icsp.cookieLen, hcookie]
    rfl
  obtain ⟨f, hsend, hcar⟩ := icspSendPkt_carries io (ackedBy (c := c) io a server y)
    (b := echoChunk c (arr args.sk.val 0 32) cookie) hnet (by simp)
  have hstep : Icsp.clientStep c io args ⟨a, .waitInitAck tries⟩ (.frame (frame ++ stale) frame.length) =
      (⟨ackedBy (c := c) io a server y, .waitCookieAck 0 (echoChunk c (arr args.sk.val 0 32) cookie)⟩,
        [Icsp.installOf c { heard io a server.mac server.addr with
            peerEph := c.scalarmultBase y, peerId := server.pub c } a.ephPriv] ++
          .sign cookie.val :: [.tx (echoChunk c (arr args.sk.val 0 32) cookie) f]) := by
    rw [Icsp.clientStep]
    simp only [hrecv, hack, Bool.true_eq_false, if_false, Icsp.icspHeaderLen, Icsp.icspChunkHdr,
      Nat.reduceAdd, htake, hverify, hecho, Icsp.cookieLen, hcookie]
    rw [Icsp.icspDeriveKey_eq]
    have hsend' := hsend
    rw [ackedBy] at hsend'
    simp only [hsend', if_true]
    rfl
  exact ⟨f, _, hstep, rfl, hcar⟩

/-- COOKIE-ACK completes the call. -/
theorem clientStep_cookieAck (io : Icsp.Io) (args : Icsp.ClientArgs) (a : Icsp.IcspAssoc) (tries : Nat)
    (ck : Bytes) (server : Station) {dst : UInt64} {sp dp : UInt16} {aid : UInt32} {frame : Bytes}
    (stale : Bytes) (h : Carries server.mac server.addr dst (packet sp dp aid Icsp.cookieAck) frame) :
    Icsp.clientStep c io args ⟨a, .waitCookieAck tries ck⟩ (.frame (frame ++ stale) frame.length) =
      (⟨{ heard io a server.mac server.addr with state := .established }, .done 0⟩, []) := by
  have hrecv := icspRecvFrame_carries io a stale h server.addr_lt (by decide) (.inr (.inr (.inr rfl)))
  have hty : byteAt (packet sp dp aid Icsp.cookieAck ++ stale) Icsp.icspHeaderLen = Icsp.chunkCookieAck :=
    packet_type stale _ _ _ 0 (by decide)
  rw [Icsp.clientStep]
  simp only [hrecv, hty, ne_eq, not_true_eq_false, if_false]

/-- The association of a client that has not built its INIT yet. -/
def dialAssoc (io : Icsp.Io) (args : Icsp.ClientArgs) (a : Icsp.IcspAssoc) : Icsp.IcspAssoc :=
  { Icsp.assocReset io a with
    isInitiator := true
    dstAddr := args.dstAddr
    dstPort := args.dstPort
    srcPort := 50000 + .ofNat (io.pid % 65536 % 1000)
    state := .cookieWait
    streamsIn := 4
    streamsOut := 4
    rcvTimeoutMs := 3000
    idPub := arr args.sk.val 32 32
    sk := args.sk
    assocId := get32 io.assocRnd.val 0 }

theorem clientStart_eq (io : Icsp.Io) (args : Icsp.ClientArgs) (a : Icsp.IcspAssoc) :
    Icsp.clientStart c io args a = Icsp.clientInit c io args (dialAssoc io args a) 0 := rfl

/-- From the INIT on: the INIT-ACK of any server is answered, and COOKIE-ACK completes. -/
theorem cClient_answers (e : Circumstances) {me : Station} (args : Icsp.ClientArgs) (a : Icsp.IcspAssoc)
    {d : Icsp.IcspAssoc} (hseed : arr args.sk.val 0 32 = me.seed) (hmac : d.srcMac = me.mac)
    (haddr : d.srcAddr = me.addr) (hini : d.isInitiator = true) (server : Station) (y : Arr 32)
    {si so dp : UInt16} {aid : UInt32} {cookie : Arr 48} {dst : UInt64} {f₂ : Bytes}
    (hf₂ : Carries server.mac server.addr dst (packet args.dstPort dp aid
      (initAckChunk c server.seed (initAckBody si so (c.scalarmultBase y) (server.pub c)) cookie)) f₂) :
    ∃ (k₂ : (cClient c e args a).State) (f₃ : Bytes) (dst : UInt64) (sp dp : UInt16) (aid' : UInt32),
      (cClient c e args a).step (1, ⟨d, .waitInitAck 0⟩) f₂ = (k₂, [f₃]) ∧
      Carries me.mac me.addr dst (packet sp dp aid' (echoChunk c me.seed cookie)) f₃ ∧
      ∀ (f₄ : Bytes) (dst : UInt64) (sp dp : UInt16) (aid' : UInt32),
        Carries server.mac server.addr dst (packet sp dp aid' Icsp.cookieAck) f₄ →
        ∃ k₃ : (cClient c e args a).State, (cClient c e args a).step k₂ f₄ = (k₃, []) ∧
          (cClient c e args a).view k₃ = some ⟨d.assocId.toNat, (server.pub c).val,
            (exchangeKeys c d.ephPriv y).1.val, (exchangeKeys c d.ephPriv y).2.val⟩ := by
  obtain ⟨f₃, acts₂, hstep, htx₂, hcar₂⟩ := clientStep_initAck (c := c) (e.io 1) args d 0
    (fun _ => rfl) server (e.stale 1) hf₂
  rw [hseed] at hstep hcar₂
  rw [hmac, haddr] at hcar₂
  have hstep₂ : (cClient c e args a).step (1, ⟨d, .waitInitAck 0⟩) f₂ =
      ((2, ⟨ackedBy (c := c) (e.io 1) d server y, .waitCookieAck 0 (echoChunk c me.seed cookie)⟩), [f₃]) := by
    simp only [cClient, Circumstances.rx, hstep, htx₂]
  refine ⟨_, f₃, _, _, _, _, hstep₂, hcar₂, ?_⟩
  intro f₄ dst sp dp aid' hf₄
  have hdone := clientStep_cookieAck (c := c) (e.io 2) args (ackedBy (c := c) (e.io 1) d server y) 0
    (echoChunk c me.seed cookie) server (e.stale 2) hf₄
  have hstep₃ : (cClient c e args a).step
      (2, ⟨ackedBy (c := c) (e.io 1) d server y, .waitCookieAck 0 (echoChunk c me.seed cookie)⟩) f₄ =
      ((3, ⟨{ heard (e.io 2) (ackedBy (c := c) (e.io 1) d server y) server.mac server.addr with
        state := .established }, .done 0⟩), []) := by
    simp only [cClient, Circumstances.rx, hdone]
    rfl
  have hkeys : Icsp.sessionKeys c d.isInitiator (c.scalarmult d.ephPriv (c.scalarmultBase y)) =
      exchangeKeys c d.ephPriv y := by
    rw [hini]
    rfl
  refine ⟨_, hstep₃, ?_⟩
  rw [← hkeys]
  rfl

/-- `icsp_client_handshake` plays the client. -/
theorem cClient_role (e : Circumstances) (me : Station) (addr : UInt64) (port : UInt16)
    (a : Icsp.IcspAssoc) (hmac : a.srcMac = me.mac) (haddr : a.srcAddr = me.addr) :
    ClientRole c (cClient c e ⟨addr, port, me.sk c, none⟩ a) me addr port (e.ephRnd 0) (e.time 0)
      (get32 (e.assocRnd 0).val 0) := by
  have hseed := me.sk_seed c
  have hpub := me.sk_pub c
  have htime : (UInt64.ofNat (e.io 0).now : UInt64) = e.time 0 := UInt64.ofNat_toNat ..
  obtain ⟨f₁, acts₁, hinit, htx₁, hcar₁⟩ := clientInit_carries (c := c) (e.io 0)
    ⟨addr, port, me.sk c, none⟩ (dialAssoc (e.io 0) ⟨addr, port, me.sk c, none⟩ a) 0 rfl (fun _ => rfl)
  have hstart : (cClient c e ⟨addr, port, me.sk c, none⟩ a).start =
      ((1, ⟨Icsp.newEph c (e.io 0) (dialAssoc (e.io 0) ⟨addr, port, me.sk c, none⟩ a), .waitInitAck 0⟩),
        [f₁]) := by
    simp only [cClient, clientStart_eq, hinit, htx₁]
  rw [htime, hseed] at hcar₁
  simp only [dialAssoc, Icsp.assocReset, hmac, haddr, hpub] at hcar₁
  refine ⟨_, f₁, _, _, _, hstart, hcar₁, ?_⟩
  intro server y si so dp aid cookie dst f₂ hf₂
  exact cClient_answers e ⟨addr, port, me.sk c, none⟩ a
    (d := Icsp.newEph c (e.io 0) (dialAssoc (e.io 0) ⟨addr, port, me.sk c, none⟩ a)) hseed hmac haddr rfl
    server y hf₂

end Client

section Server

variable {c}

/-- Waiting for an INIT touches the link only, and puts no ICSP frame on it. -/
theorem serverListen_link (io : Icsp.Io) (args : Icsp.ServerArgs) (h : Icsp.Host) :
    ∃ l acts, Icsp.serverListen c io args h =
        (⟨⟨{ h.assoc with toLinkState := l }, h.glob⟩, .waitInit⟩, acts) ∧ Icsp.txFrames acts = [] := by
  have hann : ∀ a : Icsp.IcspAssoc, ∃ l, (Icsp.listenAnnounce c io a).1 = { a with toLinkState := l } ∧
      Icsp.txFrames (Icsp.listenAnnounce c io a).2 = [] := by
    intro a
    rw [Icsp.listenAnnounce]
    split
    · rw [Icsp.icspAnnounceSend]
      split
      · exact ⟨{ a.toLinkState with lastAnn := io.now }, rfl, rfl⟩
      · exact ⟨a.toLinkState, rfl, rfl⟩
    · exact ⟨a.toLinkState, rfl, rfl⟩
  rw [Icsp.serverListen]
  split
  · obtain ⟨l, hl, htx⟩ := hann h.assoc
    refine ⟨{ l with rcvTimeoutMs := h.assoc.announceS * 1000 }, _, ?_, htx⟩
    simp only [hl]
  · exact ⟨{ h.assoc.toLinkState with rcvTimeoutMs := args.timeoutS.toNat * 1000 }, [], rfl, rfl⟩

/-- The rate limiter of the process has a token for `mac`. -/
def Admits (io : Icsp.Io) (g : Icsp.Globals) (mac : Arr 6) : Prop :=
  (rateAllow g.gRate io.nowMs (pad 8 mac.val) 10 20 1).2 = true

/-- A process that has served nobody admits everybody. -/
theorem admits_zero (io : Icsp.Io) (mac : Arr 6) : Admits io .zero mac := by
  have hscan : rateScan (pad 8 mac.val) rateInit 0 0 0xFFFFFFFF = (0, false) := by
    simp [rateInit, rateSlots, List.replicate_succ, rateScan]
  have hfill : rateRefill io.nowMs 10 20 ⟨pad 8 mac.val, true, 20, io.nowMs⟩ =
      ⟨pad 8 mac.val, true, 20, io.nowMs⟩ := by
    simp [rateRefill]
  simp only [Admits, rateAllow, Icsp.Globals.zero, hscan]
  simp [hfill]

/-- The association that took a client's INIT. -/
def initTaken (io : Icsp.Io) (a : Icsp.IcspAssoc) (client : Station) (x : Arr 32) (ts : UInt64)
    (aid : UInt32) : Icsp.IcspAssoc :=
  { heard io a client.mac client.addr with
    lastInitTs := ts, assocId := aid, peerEph := c.scalarmultBase x, peerId := client.pub c }

/-- `init_check` accepts the INIT of an allowed client that dialled this frame's address. -/
theorem initCheck_accepts (io : Icsp.Io) (a : Icsp.IcspAssoc) (g : Icsp.Globals) (peers : List (Arr 32))
    (client : Station) (hadm : Admits io g client.mac) (hpeers : peers = [] ∨ client.pub c ∈ peers)
    {x : Arr 32} {ts : UInt64} {aid : UInt32} {sp dp si so : UInt16} {addr : UInt64} {frame : Bytes}
    (stale : Bytes) (haddr : addr.toNat < 2 ^ 40) (hts : a.lastInitTs < ts)
    (h : Carries client.mac client.addr addr (packet sp dp aid (initChunk c addr client.seed
      (initBody si so (c.scalarmultBase x) ts (client.pub c)))) frame) :
    ∃ g', Icsp.initCheck c io ⟨heard io a client.mac client.addr, g⟩ (frame ++ stale)
        (packet sp dp aid (initChunk c addr client.seed
          (initBody si so (c.scalarmultBase x) ts (client.pub c))) ++ stale) 173 peers =
      (⟨initTaken (c := c) io a client x ts aid, g'⟩, some 0) := by
  have hlen := initChunk_length c addr client.seed
    (initBody si so (c.scalarmultBase x) ts (client.pub c))
  rw [initBody_length] at hlen
  have hdrop := initChunk_drop c stale sp dp aid addr client.seed
    (initBody si so (c.scalarmultBase x) ts (client.pub c))
  have hcheck := icspCheckPkt_packet sp dp aid (b := initChunk c addr client.seed
    (initBody si so (c.scalarmultBase x) ts (client.pub c))) stale (by omega)
  rw [hlen] at hcheck
  have hflags : byteAt (packet sp dp aid (initChunk c addr client.seed
      (initBody si so (c.scalarmultBase x) ts (client.pub c))) ++ stale) (12 + 1) = 0 :=
    packet_type stale sp dp aid 1 (by omega)
  have haid := packet_assocId stale sp dp aid (initChunk c addr client.seed
    (initBody si so (c.scalarmultBase x) ts (client.pub c)))
  obtain ⟨dm, fsp, fdp, rfl⟩ := h
  have hdest := frameDest_build dm client.mac client.addr addr ipv69NextStream 64 fsp fdp (packet sp dp aid
    (initChunk c addr client.seed (initBody si so (c.scalarmultBase x) ts (client.pub c)))) stale haddr
  have hmac := frameSrcMac_build dm client.mac client.addr addr ipv69NextStream 64 fsp fdp (packet sp dp aid
    (initChunk c addr client.seed (initBody si so (c.scalarmultBase x) ts (client.pub c)))) stale
  revert hdrop hcheck hflags haid hdest hmac
  generalize buildFrame dm client.mac client.addr addr ipv69NextStream 64 fsp fdp (packet sp dp aid
    (initChunk c addr client.seed (initBody si so (c.scalarmultBase x) ts (client.pub c)))) ++ stale = buf
  generalize packet sp dp aid (initChunk c addr client.seed
    (initBody si so (c.scalarmultBase x) ts (client.pub c))) ++ stale = payload
  intro hdrop hcheck hflags haid hdest hmac
  have hver : byteAt (payload.drop 16) 0 = Icsp.icspVersion := by
    rw [hdrop]
    rfl
  have htsr : get64 (payload.drop 16) 37 = ts := by
    rw [hdrop]
    exact initBody_ts ..
  have heph : arr (payload.drop 16) 5 32 = c.scalarmultBase x := by
    rw [hdrop]
    exact initBody_eph ..
  have hid : arr (payload.drop 16) 45 32 = client.pub c := by
    rw [hdrop]
    exact initBody_id ..
  have hbody : slice (payload.drop 16) 0 77 = initBody si so (c.scalarmultBase x) ts (client.pub c) := by
    rw [hdrop]
    exact slice_exact _ (initBody_length ..)
  have hsig : arr (payload.drop 16) 77 64 =
      c.sign (initBody si so (c.scalarmultBase x) ts (client.pub c)) client.seed := by
    rw [hdrop]
    exact arr_exact _ _ (initBody_length ..)
  have hsigned : slice (payload.drop 16) 0 141 = initBody si so (c.scalarmultBase x) ts (client.pub c) ++
      (c.sign (initBody si so (c.scalarmultBase x) ts (client.pub c)) client.seed).val := by
    rw [hdrop, ← List.append_assoc]
    exact slice_exact _ (by simp)
  have htag : arr (payload.drop 16) 141 16 = mac1Compute c (mac1Key c addr)
      (initBody si so (c.scalarmultBase x) ts (client.pub c) ++
        (c.sign (initBody si so (c.scalarmultBase x) ts (client.pub c)) client.seed).val) := by
    rw [hdrop, ← List.append_assoc]
    exact arr_exact _ _ (by simp)
  have hpre : Icsp.initPreSig 0 = 77 := by decide
  have hwf : Icsp.initWellFormed c buf payload 173 = true := by
    have htot : Icsp.initLen 0 = 157 := by decide
    simp only [Icsp.initWellFormed, Icsp.icspHeaderLen, Icsp.icspChunkHdr, Nat.reduceAdd, hcheck, hflags,
      hver, htot, hpre, hsigned, htag, Icsp.mac1Len, hdest, mac1Verify_compute]
    decide
  have hverify : ed25519Verify c (initBody si so (c.scalarmultBase x) ts (client.pub c))
      (c.sign (initBody si so (c.scalarmultBase x) ts (client.pub c)) client.seed) (client.pub c) = true :=
    c.open_sign _ _
  have htake : Icsp.takeInit (heard io a client.mac client.addr) payload =
      { heard io a client.mac client.addr with
        lastInitTs := ts, assocId := aid, peerEph := c.scalarmultBase x } := by
    simp only [Icsp.takeInit, Icsp.icspHeaderLen, Icsp.icspChunkHdr, Nat.reduceAdd, htsr, heph, haid]
  have hident : Icsp.initIdentity c { heard io a client.mac client.addr with
      lastInitTs := ts, assocId := aid, peerEph := c.scalarmultBase x } 0 (payload.drop 16) =
      some (client.pub c) := by
    rw [← hid]
    rfl
  have hnew : ¬ ts ≤ (heard io a client.mac client.addr).lastInitTs := UInt64.not_le.mpr hts
  have hlist : ¬ (peers ≠ [] ∧ client.pub c ∉ peers) := by tauto
  refine ⟨{ g with gRate := (rateAllow g.gRate io.nowMs (pad 8 client.mac.val) 10 20 1).1 }, ?_⟩
  have hadm' : rateAllow g.gRate io.nowMs (pad 8 client.mac.val) 10 20 1 =
      ((rateAllow g.gRate io.nowMs (pad 8 client.mac.val) 10 20 1).1, true) := Prod.ext rfl hadm
  rw [Icsp.initCheck]
  simp only [Icsp.icspHeaderLen, Icsp.icspChunkHdr, Nat.reduceAdd] at hflags ⊢
  rw [hmac, hadm']
  simp only [hwf, hflags, Bool.true_eq_false, if_false, htsr, if_neg hnew, htake, hident, hpre, hbody, hsig,
    hverify, if_neg hlist]
  rfl

/-- An acceptable INIT is answered with a signed INIT-ACK. -/
theorem serverStep_init (io : Icsp.Io) (args : Icsp.ServerArgs) (a : Icsp.IcspAssoc) (g : Icsp.Globals)
    (client : Station) (hnet : ∀ f, io.netOk f = true) (hadm : Admits io g client.mac)
    (hpeers : args.peers = [] ∨ client.pub c ∈ args.peers) {x : Arr 32} {ts : UInt64} {aid : UInt32}
    {sp si so : UInt16} {addr : UInt64} {frame : Bytes} (stale : Bytes) (haddr : addr.toNat < 2 ^ 40)
    (hts : a.lastInitTs < ts)
    (h : Carries client.mac client.addr addr (packet sp args.port aid (initChunk c addr client.seed
      (initBody si so (c.scalarmultBase x) ts (client.pub c)))) frame) :
    ∃ g' f acts, Icsp.serverStep c io args ⟨⟨a, g⟩, .waitInit⟩ (.frame (frame ++ stale) frame.length) =
        (⟨⟨Icsp.answered c io (initTaken (c := c) io a client x ts aid), g'⟩, .waitCookie⟩, acts) ∧
      Icsp.txFrames acts = [f] ∧
      Carries a.srcMac a.srcAddr client.addr (packet a.srcPort a.dstPort aid
        (initAckChunk c (arr args.sk.val 0 32) (initAckBody a.streamsIn a.streamsOut
          (c.scalarmultBase io.ephRnd) a.idPub)
          (Icsp.cookieOf c (initTaken (c := c) io a client x ts aid)))) f := by
  have hlen := initChunk_length c addr client.seed
    (initBody si so (c.scalarmultBase x) ts (client.pub c))
  rw [initBody_length] at hlen
  have hrecv := icspRecvFrame_carries io a stale h client.addr_lt (by omega) (.inl rfl)
  obtain ⟨g', hcheck⟩ := initCheck_accepts (c := c) io a g args.peers client hadm hpeers stale haddr hts h
  have hty : byteAt (packet sp args.port aid (initChunk c addr client.seed
      (initBody si so (c.scalarmultBase x) ts (client.pub c))) ++ stale) Icsp.icspHeaderLen =
      Icsp.chunkInit := packet_type stale _ _ _ 0 (by omega)
  have hport := (packet_ports stale sp args.port aid (initChunk c addr client.seed
    (initBody si so (c.scalarmultBase x) ts (client.pub c)))).2
  obtain ⟨f, hsend, hcar⟩ := icspSendPkt_carries io
    (Icsp.answered c io (initTaken (c := c) io a client x ts aid))
    (b := Icsp.initAckChunk c (Icsp.answered c io (initTaken (c := c) io a client x ts aid)) args.sk)
    hnet (by simp [Icsp.initAckChunk, Icsp.initAckBody, Icsp.putStreams])
  have hstep : Icsp.serverStep c io args ⟨⟨a, g⟩, .waitInit⟩ (.frame (frame ++ stale) frame.length) =
      (⟨⟨Icsp.answered c io (initTaken (c := c) io a client x ts aid), Icsp.secretRefresh io g'⟩,
          .waitCookie⟩,
        Icsp.installOf c (initTaken (c := c) io a client x ts aid) io.ephRnd ::
          .sign (Icsp.initAckBody (Icsp.answered c io (initTaken (c := c) io a client x ts aid))) ::
          [.tx (Icsp.initAckChunk c (Icsp.answered c io (initTaken (c := c) io a client x ts aid)) args.sk)
            f]) := by
    have hdst : ({ initTaken (c := c) io a client x ts aid with dstAddr := client.addr } : Icsp.IcspAssoc) =
        initTaken (c := c) io a client x ts aid := rfl
    rw [hlen] at hrecv
    rw [Icsp.serverStep]
    simp only [hrecv, hty, hport, ne_eq, not_true_eq_false, or_self, if_false, hcheck, hdst,
      Icsp.initAckSend_eq, hsend, if_true]
  exact ⟨_, f, _, hstep, rfl, hcar⟩

/-- The COOKIE-ECHO with this association's cookie completes the call. -/
theorem serverStep_cookieEcho (io : Icsp.Io) (args : Icsp.ServerArgs) (a : Icsp.IcspAssoc)
    (g : Icsp.Globals) (client : Station) (hid : a.peerId = client.pub c) (hnet : ∀ f, io.netOk f = true)
    {sp dp : UInt16} {aid : UInt32} {dst : UInt64} {frame : Bytes} (stale : Bytes)
    (h : Carries client.mac client.addr dst
      (packet sp dp aid (echoChunk c client.seed (Icsp.cookieOf c a))) frame) :
    ∃ g' f acts, Icsp.serverStep c io args ⟨⟨a, g⟩, .waitCookie⟩ (.frame (frame ++ stale) frame.length) =
        (⟨⟨{ heard io a client.mac client.addr with state := .established }, g'⟩, .done 0⟩, acts) ∧
      Icsp.txFrames acts = [f] ∧
      Carries a.srcMac a.srcAddr client.addr (packet a.srcPort a.dstPort a.assocId Icsp.cookieAck) f := by
  have hrecv := icspRecvFrame_carries io a stale h client.addr_lt (by simp) (.inr (.inr (.inl rfl)))
  have hty : byteAt (packet sp dp aid (echoChunk c client.seed (Icsp.cookieOf c a)) ++ stale)
      Icsp.icspHeaderLen = Icsp.chunkCookieEcho := packet_type stale _ _ _ 0 (by simp)
  have hdrop := echoChunk_drop c stale sp dp aid client.seed (Icsp.cookieOf c a)
  revert hrecv hty hdrop
  generalize packet sp dp aid (echoChunk c client.seed (Icsp.cookieOf c a)) ++ stale = payload
  intro hrecv hty hdrop
  have hcookie : arr (payload.drop 16) 0 48 = Icsp.cookieOf c a := by
    rw [hdrop]
    exact arr_append_exact _ _
  have hsig : arr (payload.drop 16) 48 64 = c.sign (Icsp.cookieOf c a).val client.seed := by
    rw [hdrop]
    exact arr_exact _ _ (Icsp.cookieOf c a).length
  have hslice : slice (payload.drop 16) 0 48 = (Icsp.cookieOf c a).val := congrArg Subtype.val hcookie
  have hvalid : Icsp.cookieValid c io ⟨heard io a client.mac client.addr, g⟩ (Icsp.cookieOf c a) =
      (⟨heard io a client.mac client.addr, Icsp.secretRefresh io g⟩, true) :=
    Prod.ext rfl (decide_eq_true rfl)
  have hpeer : (heard io a client.mac client.addr).peerId = client.pub c := hid
  have hverify : ed25519Verify c (Icsp.cookieOf c a).val (c.sign (Icsp.cookieOf c a).val client.seed)
      (client.pub c) = true := c.open_sign _ _
  obtain ⟨f, hsend, hcar⟩ := icspSendPkt_carries io (heard io a client.mac client.addr)
    (b := Icsp.cookieAck) hnet (by decide)
  have hstep : Icsp.serverStep c io args ⟨⟨a, g⟩, .waitCookie⟩ (.frame (frame ++ stale) frame.length) =
      (⟨⟨{ heard io a client.mac client.addr with state := .established }, Icsp.secretRefresh io g⟩,
        .done 0⟩, [.tx Icsp.cookieAck f]) := by
    simp only [Icsp.icspHeaderLen] at hty
    rw [Icsp.serverStep]
    simp only [hrecv, hty, ne_eq, not_true_eq_false, if_false, Icsp.icspHeaderLen, Icsp.icspChunkHdr,
      Nat.reduceAdd, Icsp.cookieLen, hcookie, hvalid, hslice, hsig, hpeer, hverify, Bool.true_eq_false,
      hsend, if_true]
  exact ⟨_, f, _, hstep, rfl, hcar⟩

/-- `icsp_server_accept` plays the server for every INIT time but 0, as long as its rate
limiter has a token for the client. -/
theorem cServer_role (e : Circumstances) (me client : Station) (port : UInt16) (peers : List (Arr 32))
    (timeoutS : Int) (h : Icsp.Host) (hmac : h.assoc.srcMac = me.mac) (haddr : h.assoc.srcAddr = me.addr)
    (hpeers : peers = [] ∨ client.pub c ∈ peers) (hadm : Admits (e.io 1) h.glob client.mac)
    {ts : UInt64} (hts : ts ≠ 0) :
    ServerRole c (cServer c e ⟨port, me.sk c, peers, timeoutS⟩ h) me client port (e.ephRnd 1) ts := by
  have hseed := me.sk_seed c
  have hpub := me.sk_pub c
  obtain ⟨l, acts₀, hlisten, -⟩ := serverListen_link (c := c) (e.io 0) ⟨port, me.sk c, peers, timeoutS⟩
    { h with assoc := Icsp.acceptAssoc (e.io 0) ⟨port, me.sk c, peers, timeoutS⟩ h.assoc }
  have hstart : (cServer c e ⟨port, me.sk c, peers, timeoutS⟩ h).start.1 = (1, ⟨⟨
      { Icsp.acceptAssoc (e.io 0) ⟨port, me.sk c, peers, timeoutS⟩ h.assoc with toLinkState := l },
      h.glob⟩, .waitInit⟩) := by
    have hs : Icsp.serverStart c (e.io 0) ⟨port, me.sk c, peers, timeoutS⟩ h = _ := hlisten
    simp only [cServer, hs]
  have hzero : (0 : UInt64) < ts := UInt64.pos_iff_ne_zero.mpr hts
  intro x aid sp si so f₁ hf₁
  rw [hstart]
  generalize ha : ({ Icsp.acceptAssoc (e.io 0) ⟨port, me.sk c, peers, timeoutS⟩ h.assoc with
    toLinkState := l } : Icsp.IcspAssoc) = a
  have hini : a.isInitiator = false := ha ▸ rfl
  have hlast : a.lastInitTs = 0 := ha ▸ rfl
  have hport : a.srcPort = port := ha ▸ rfl
  have hid : a.idPub = me.pub c := by
    rw [← hpub, ← ha]
    rfl
  have hsrc : a.srcMac = me.mac ∧ a.srcAddr = me.addr := by
    rw [← hmac, ← haddr, ← ha]
    exact ⟨rfl, rfl⟩
  obtain ⟨g₁, f₂, acts₁, hstep₁, htx₁, hcar₁⟩ := serverStep_init (c := c) (e.io 1)
    ⟨port, me.sk c, peers, timeoutS⟩ a h.glob client (fun _ => rfl) hadm hpeers (e.stale 1) me.addr_lt
    (hlast ▸ hzero) hf₁
  have hparty₁ : (cServer c e ⟨port, me.sk c, peers, timeoutS⟩ h).step (1, ⟨⟨a, h.glob⟩, .waitInit⟩) f₁ =
      ((2, ⟨⟨Icsp.answered c (e.io 1) (initTaken (c := c) (e.io 1) a client x ts aid), g₁⟩, .waitCookie⟩),
        [f₂]) := by
    simp only [cServer, Circumstances.rx, hstep₁, htx₁]
  rw [hsrc.1, hsrc.2, hport, hid, hseed] at hcar₁
  refine ⟨_, f₂, _, _, _, _, _, _, hparty₁, hcar₁, ?_⟩
  intro f₃ dst sp' dp' aid' hf₃
  obtain ⟨g₂, f₄, acts₂, hstep₂, htx₂, hcar₂⟩ := serverStep_cookieEcho (c := c) (e.io 2)
    ⟨port, me.sk c, peers, timeoutS⟩ (Icsp.answered c (e.io 1) (initTaken (c := c) (e.io 1) a client x ts aid))
    g₁ client rfl (fun _ => rfl) (e.stale 2) hf₃
  have hparty₂ : (cServer c e ⟨port, me.sk c, peers, timeoutS⟩ h).step
      (2, ⟨⟨Icsp.answered c (e.io 1) (initTaken (c := c) (e.io 1) a client x ts aid), g₁⟩, .waitCookie⟩) f₃ =
      ((3, ⟨⟨{ heard (e.io 2) (Icsp.answered c (e.io 1) (initTaken (c := c) (e.io 1) a client x ts aid))
        client.mac client.addr with state := .established }, g₂⟩, .done 0⟩), [f₄]) := by
    simp only [cServer, Circumstances.rx, hstep₂, htx₂]
  have hcar₃ : Carries a.srcMac a.srcAddr client.addr _ f₄ := hcar₂
  rw [hsrc.1, hsrc.2] at hcar₃
  have hkeys : Icsp.sessionKeys c a.isInitiator (c.scalarmult (e.ephRnd 1) (c.scalarmultBase x)) =
      (exchangeKeys c x (e.ephRnd 1)).swap := by
    rw [hini, c.scalarmult_comm]
    rfl
  refine ⟨_, f₄, _, _, _, _, hparty₂, hcar₃, ?_⟩
  change some (View.mk aid.toNat (client.pub c).val
    (Icsp.sessionKeys c a.isInitiator (c.scalarmult (e.ephRnd 1) (c.scalarmultBase x))).1.val
    (Icsp.sessionKeys c a.isInitiator (c.scalarmult (e.ephRnd 1) (c.scalarmultBase x))).2.val) = _
  rw [hkeys]
  rfl

end Server

end Interop
