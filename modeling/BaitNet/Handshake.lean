import BaitNet.Receive

/-!
# The handshake

`icsp_handshake.c`. Both blocking calls are machines that wait in
`icsp_recv_frame`: INIT, INIT-ACK, COOKIE-ECHO, COOKIE-ACK. A rekey is the same
exchange over a live association, one received payload at a time.
-/
namespace Icsp

open Wire Link Crypto

def cookieLen : Nat := 48
def cookieTtl : Nat := 300
def initIdLen : Nat := 32
def initBoxLen : Nat := 48
def mac1Len : Nat := 16
def icspInitFlagIdbox : UInt8 := 1

/-- The bytes of an INIT that its signature covers. -/
def initPreSig (flags : UInt8) : Nat :=
  1 + 4 + 32 + 8 + (if flags &&& icspInitFlagIdbox ≠ 0 then initBoxLen else initIdLen)

def initLen (flags : UInt8) : Nat := initPreSig flags + 64 + mac1Len

/-- The process-wide state: the cookie secret and the rate limiter's table. -/
structure Globals where
  serverSecret : Arr 32
  secretTs : Nat
  gRate : List RateBucket
  deriving DecidableEq

def Globals.zero : Globals := ⟨.zero 32, 0, rateInit⟩

/-- An association in its process. -/
structure Host where
  assoc : IcspAssoc
  glob : Globals
  deriving DecidableEq

def secretRefresh (io : Io) (g : Globals) : Globals :=
  if byteAt g.serverSecret.val 0 = 0 ∨ (cookieTtl : Int) < (io.now : Int) - g.secretTs then
    { g with serverSecret := io.secretRnd, secretTs := io.now }
  else g

/-- The fields that go into a chunk as `streams`. -/
def putStreams (a : IcspAssoc) : Bytes := put16 a.streamsIn ++ put16 a.streamsOut

/-- `assoc_reset`. The descriptors are not modelled; `src_port` is not kept. -/
def assocReset (io : Io) (a : IcspAssoc) : IcspAssoc :=
  { IcspAssoc.zero with
    toEndpoint := a.toEndpoint
    nextTsn := get32 io.tsnRnd.val 0 }

def dataPlaneReset (io : Io) (a : IcspAssoc) : IcspAssoc :=
  { a with toDataPlane := { DataPlane.zero with nextTsn := get32 io.tsnRnd.val 0 } }

variable (c : TweetNaCl)

/-- What `cookie_make` computes: the digest of the server secret is overwritten by that
of the parameters. -/
def cookieOf (a : IcspAssoc) : Arr 48 :=
  arr (ed25519Sha512 c (a.peerId.val ++ a.peerEph.val ++ putStreams a)).val 0 48

def cookieMake (io : Io) (h : Host) : Host × Arr 48 :=
  ({ h with glob := secretRefresh io h.glob }, cookieOf c h.assoc)

def cookieValid (io : Io) (h : Host) (cookie : Arr 48) : Host × Bool :=
  let (h, expect) := cookieMake c io h
  (h, cookie = expect)

/-- The identity field: in the clear, or what the signature, written over the last 16
bytes, leaves of its 64-byte box. -/
def initIdField (a : IcspAssoc) : Option (Arr 32) → Bytes
  | none => a.idPub.val
  | some serverPub =>
    (ed25519Secretbox c a.idPub.val (.zero 24) (c.scalarmult a.ephPriv serverPub)).take initBoxLen

/-- A fresh ephemeral key pair. -/
def newEph (io : Io) (a : IcspAssoc) : IcspAssoc :=
  { a with ephPub := c.scalarmultBase io.ephRnd, ephPriv := io.ephRnd }

def initFlags (serverPub : Option (Arr 32)) : UInt8 :=
  if serverPub.isSome then icspInitFlagIdbox else 0

/-- The signed part of an INIT. -/
def initBody (io : Io) (a : IcspAssoc) (serverPub : Option (Arr 32)) : Bytes :=
  icspVersion :: putStreams a ++ a.ephPub.val ++ put64 (.ofNat io.now) ++ initIdField c a serverPub

/-- The INIT chunk around its body, with signature and mac1. -/
def initChunk (a : IcspAssoc) (sk : Arr 64) (flags : UInt8) (body : Bytes) : Bytes :=
  let sig := ed25519Sign c body sk
  let mac := mac1Compute c (mac1Key c a.dstAddr) (body ++ sig.val)
  let len := initLen flags
  [chunkInit, flags, .ofNat (len / 256), .ofNat len] ++ (body ++ sig.val ++ mac.val)

/-- `init_build`: the association with its new ephemeral, the chunk and the signing. -/
def initBuild (io : Io) (a : IcspAssoc) (sk : Arr 64) (serverPub : Option (Arr 32)) :
    IcspAssoc × Bytes × List Act :=
  let a := newEph c io a
  let body := initBody c io a serverPub
  (a, initChunk c a sk (initFlags serverPub) body, [.sign body])

/-- The checks of an INIT up to mac1. `buf` is the frame of `payload`. -/
def initWellFormed (buf payload : Bytes) (plen : Nat) : Bool :=
  let cd := payload.drop (icspHeaderLen + icspChunkHdr)
  let flags := byteAt payload (icspHeaderLen + 1)
  let preSig := initPreSig flags
  icspCheckPkt payload plen && byteAt cd 0 == icspVersion &&
    decide (icspHeaderLen + icspChunkHdr + initLen flags ≤ plen) &&
    mac1Verify c (mac1Key c (frameDest buf)) (slice cd 0 (preSig + 64)) (arr cd (preSig + 64) mac1Len)

/-- The identity of an INIT. An opened box fills the first 16 bytes of `peer_id`. -/
def initIdentity (a : IcspAssoc) (flags : UInt8) (cd : Bytes) : Option (Arr 32) :=
  if flags &&& icspInitFlagIdbox ≠ 0 then
    (ed25519SecretboxOpen c (cd.drop 45) (initBoxLen - 32) (.zero 24)
      (c.scalarmult (arr a.sk.val 0 32) (arr cd 5 32))).map
        (fun id => pad 32 (id ++ a.peerId.val.drop (initBoxLen - 32)))
  else some (arr cd 45 32)

/-- What the association takes from an INIT before anything is verified. -/
def takeInit (a : IcspAssoc) (payload : Bytes) : IcspAssoc :=
  let cd := payload.drop (icspHeaderLen + icspChunkHdr)
  { a with lastInitTs := get64 cd 37, assocId := get32 payload 6, peerEph := arr cd 5 32 }

/-- `init_check`: the flags of an acceptable INIT. The identity, too, is taken before the
signature is looked at. -/
def initCheck (io : Io) (h : Host) (buf payload : Bytes) (plen : Nat) (peers : List (Arr 32)) :
    Host × Option UInt8 :=
  let cd := payload.drop (icspHeaderLen + icspChunkHdr)
  let flags := byteAt payload (icspHeaderLen + 1)
  let preSig := initPreSig flags
  if initWellFormed c buf payload plen = false then (h, none)
  else
    let (table, allowed) := rateAllow h.glob.gRate io.nowMs (pad 8 (frameSrcMac buf).val) 10 20 1
    let h := { h with glob := { h.glob with gRate := table } }
    if allowed = false then (h, none)
    else if get64 cd 37 ≤ h.assoc.lastInitTs then (h, none)
    else
      let a := takeInit h.assoc payload
      match initIdentity c a flags cd with
      | none => ({ h with assoc := a }, none)
      | some peerId =>
        let h := { h with assoc := { a with peerId } }
        if ed25519Verify c (slice cd 0 preSig) (arr cd preSig 64) peerId = false then (h, none)
        else if peers ≠ [] ∧ peerId ∉ peers then (h, none)
        else (h, some flags)

/-- The signed part of an INIT-ACK. -/
def initAckBody (a : IcspAssoc) : Bytes :=
  icspVersion :: putStreams a ++ a.ephPub.val ++ a.idPub.val

/-- The INIT-ACK chunk: body, signature and cookie. -/
def initAckChunk (a : IcspAssoc) (sk : Arr 64) : Bytes :=
  let body := initAckBody a
  icspChunkPut chunkInitAck (1 + 4 + 32 + 32 + 64 + cookieLen) ++
    (body ++ (ed25519Sign c body sk).val ++ (cookieOf c a).val)

/-- `init_ack_send`: derives the keys of the exchange, then answers. -/
def initAckSend (io : Io) (h : Host) (sk : Arr 64) : Host × List Act × Bool :=
  let a := newEph c io h.assoc
  let (a, install) := icspDeriveKey c io a a.ephPriv
  let (h, _) := cookieMake c io { h with assoc := a }
  let (acts, sent) := icspSendPkt io a (initAckChunk c a sk)
  (h, install ++ .sign (initAckBody a) :: acts, sent)

/-- The signature of an INIT-ACK, under the identity that was just taken from it. -/
def initAckVerify (a : IcspAssoc) (cd : Bytes) : Bool :=
  ed25519Verify c (slice cd 0 (5 + 32 + 32)) (arr cd 69 64) a.peerId

/-- The ephemeral and the identity of an INIT-ACK. -/
def takeInitAck (a : IcspAssoc) (cd : Bytes) : IcspAssoc :=
  { a with peerEph := arr cd 5 32, peerId := arr cd 37 32 }

/-- The COOKIE-ECHO that returns the cookie of an INIT-ACK. -/
def cookieEcho (cd : Bytes) (sk : Arr 64) : Bytes :=
  let cookie := slice cd (69 + 64) cookieLen
  icspChunkPut chunkCookieEcho (cookieLen + 64) ++ (cookie ++ (ed25519Sign c cookie sk).val)

def cookieAck : Bytes := icspChunkPut chunkCookieAck 0

structure ClientArgs where
  dstAddr : UInt64
  dstPort : UInt16
  sk : Arr 64
  serverPub : Option (Arr 32)

/-- Where `icsp_client_handshake` waits, with its try counters and the stored
COOKIE-ECHO. -/
inductive ClientPhase where
  | waitInitAck (initTries : Nat)
  | waitCookieAck (ckTries : Nat) (ck : Bytes)
  | done (ret : Int)
  deriving DecidableEq

structure ClientCall where
  assoc : IcspAssoc
  phase : ClientPhase
  deriving DecidableEq

/-- From `resend_init` to the next wait. -/
def clientInit (io : Io) (args : ClientArgs) (a : IcspAssoc) (initTries : Nat) :
    ClientCall × List Act :=
  let (a, chunk, signed) := initBuild c io a args.sk args.serverPub
  let (acts, sent) := icspSendPkt io a chunk
  (⟨a, if sent then .waitInitAck initTries else .done (-1)⟩, signed ++ acts)

/-- `icsp_client_handshake` up to its first wait. `src_port` was just cleared, so the
port is always the automatic one. -/
def clientStart (io : Io) (args : ClientArgs) (a : IcspAssoc) : ClientCall × List Act :=
  let a := assocReset io a
  clientInit c io args
    { a with
      isInitiator := true
      dstAddr := args.dstAddr
      dstPort := args.dstPort
      srcPort := if a.srcPort = 0 then 50000 + .ofNat (io.pid % 65536 % 1000) else a.srcPort
      state := .cookieWait
      streamsIn := 4
      streamsOut := 4
      rcvTimeoutMs := 3000
      idPub := arr args.sk.val 32 32
      sk := args.sk
      assocId := get32 io.assocRnd.val 0 } 0

/-- The filters of the INIT-ACK wait. -/
def isInitAck (args : ClientArgs) (payload : Bytes) (plen : Nat) : Bool :=
  icspCheckPkt payload plen && byteAt payload 4 == icspVersion &&
    byteAt payload icspHeaderLen == chunkInitAck && get16 payload 0 == args.dstPort

/-- One round of either wait of `icsp_client_handshake`. -/
def clientStep (io : Io) (args : ClientArgs) (call : ClientCall) (rx : Rx) :
    ClientCall × List Act :=
  match call.phase with
  | .done _ => (call, [])
  | .waitInitAck tries =>
    match icspRecvFrame io call.assoc rx with
    | (a, .timedOut) | (a, .failed _) =>
      if tries + 1 < 5 then clientInit c io args a (tries + 1) else (⟨a, .done (-1)⟩, [])
    | (a, .noise) => (⟨a, call.phase⟩, [])
    | (a, .payload payload plen _) =>
      if isInitAck args payload plen = false then (⟨a, call.phase⟩, [])
      else
        let cd := payload.drop (icspHeaderLen + icspChunkHdr)
        let a := takeInitAck a cd
        if initAckVerify c a cd = false then (⟨a, .done (-1)⟩, [])
        else
          let (a, install) := icspDeriveKey c io a a.ephPriv
          let ck := cookieEcho c cd args.sk
          let (acts, sent) := icspSendPkt io a ck
          (⟨a, if sent then .waitCookieAck 0 ck else .done (-1)⟩,
            install ++ .sign (slice cd (69 + 64) cookieLen) :: acts)
  | .waitCookieAck tries ck =>
    match icspRecvFrame io call.assoc rx with
    | (a, .timedOut) | (a, .failed _) =>
      if tries + 1 < 5 then
        let (acts, sent) := icspSendPkt io a ck
        (⟨a, if sent then .waitCookieAck (tries + 1) ck else .done (-1)⟩, acts)
      else (⟨a, .done (-1)⟩, [])
    | (a, .noise) => (⟨a, call.phase⟩, [])
    | (a, .payload payload _ _) =>
      if byteAt payload icspHeaderLen ≠ chunkCookieAck then (⟨a, call.phase⟩, [])
      else (⟨{ a with state := .established }, .done 0⟩, [])

structure ServerArgs where
  port : UInt16
  sk : Arr 64
  peers : List (Arr 32)
  timeoutS : Int

/-- Where `icsp_server_accept` waits. -/
inductive ServerPhase where
  | waitInit
  | waitCookie
  | done (ret : Int)
  deriving DecidableEq

structure ServerCall where
  host : Host
  phase : ServerPhase
  deriving DecidableEq

/-- An announce when there was none yet or the last one is old enough. -/
def listenAnnounce (io : Io) (a : IcspAssoc) : IcspAssoc × List Act :=
  if a.lastAnn = 0 ∨ (a.announceS : Int) ≤ (io.now : Int) - a.lastAnn then icspAnnounceSend c io a
  else (a, [])

/-- Before each wait for an INIT a tunnel server announces its route when it is due. -/
def serverListen (io : Io) (args : ServerArgs) (h : Host) : ServerCall × List Act :=
  let a := h.assoc
  if a.tunnel ∧ 0 < a.announceS then
    let (a, acts) := listenAnnounce c io a
    (⟨{ h with assoc := { a with rcvTimeoutMs := a.announceS * 1000 } }, .waitInit⟩, acts)
  else
    (⟨{ h with assoc := { a with rcvTimeoutMs := args.timeoutS.toNat * 1000 } }, .waitInit⟩, [])

/-- `icsp_server_accept` up to its first wait. -/
def serverStart (io : Io) (args : ServerArgs) (h : Host) : ServerCall × List Act :=
  let a := { assocReset io h.assoc with
    isInitiator := false
    srcPort := args.port
    dstPort := 0
    state := .closed
    streamsIn := 4
    streamsOut := 4
    idPub := arr args.sk.val 32 32
    sk := args.sk }
  serverListen c io args { h with assoc := a }

/-- One round of either wait of `icsp_server_accept`. -/
def serverStep (io : Io) (args : ServerArgs) (call : ServerCall) (rx : Rx) :
    ServerCall × List Act :=
  let announcing := call.host.assoc.tunnel ∧ 0 < call.host.assoc.announceS
  match call.phase with
  | .done _ => (call, [])
  | .waitInit =>
    match icspRecvFrame io call.host.assoc rx with
    | (a, .failed transient) =>
      let h := { call.host with assoc := a }
      if transient then serverListen c io args h else (⟨h, .done (-1)⟩, [])
    | (a, .timedOut) =>
      let h := { call.host with assoc := a }
      if announcing then serverListen c io args h else (⟨h, .done (-1)⟩, [])
    | (a, .noise) => serverListen c io args { call.host with assoc := a }
    | (a, .payload payload plen src) =>
      let h := { call.host with assoc := a }
      if byteAt payload icspHeaderLen ≠ chunkInit ∨ get16 payload 2 ≠ args.port then
        serverListen c io args h
      else
        let buf := match rx with
          | .frame buf _ => buf
          | _ => []
        match initCheck c io h buf payload plen args.peers with
        | (h, none) => serverListen c io args h
        | (h, some _) =>
          let (h, acts, sent) := initAckSend c io
            { h with assoc := { h.assoc with dstAddr := src } } args.sk
          (⟨h, if sent then .waitCookie else .done (-1)⟩, acts)
  | .waitCookie =>
    match icspRecvFrame io call.host.assoc rx with
    | (a, .failed transient) =>
      let h := { call.host with assoc := a }
      (⟨h, if transient then .waitCookie else .done (-1)⟩, [])
    | (a, .timedOut) =>
      if announcing then
        let (a, acts) := icspAnnounceSend c io a
        let (call', acts') := serverListen c io args { call.host with assoc := a }
        (call', acts ++ acts')
      else (⟨{ call.host with assoc := a }, .done (-1)⟩, [])
    | (a, .noise) => (⟨{ call.host with assoc := a }, .waitCookie⟩, [])
    | (a, .payload payload _ _) =>
      let h := { call.host with assoc := a }
      if byteAt payload icspHeaderLen ≠ chunkCookieEcho then (⟨h, .waitCookie⟩, [])
      else
        let cd := payload.drop (icspHeaderLen + icspChunkHdr)
        match cookieValid c io h (arr cd 0 cookieLen) with
        | (h, false) => serverListen c io args h
        | (h, true) =>
          if ed25519Verify c (slice cd 0 cookieLen) (arr cd cookieLen 64) h.assoc.peerId = false then
            serverListen c io args h
          else
            let (acts, sent) := icspSendPkt io h.assoc cookieAck
            if sent then (⟨{ h with assoc := { h.assoc with state := .established } }, .done 0⟩, acts)
            else (⟨h, .done (-1)⟩, acts)

/-- `icsp_rekey_start`. -/
def icspRekeyStart (io : Io) (a : IcspAssoc) : IcspAssoc × List Act × Int :=
  let a := { a with assocId := get32 io.assocRnd.val 0 }
  let (a, chunk, signed) := initBuild c io a a.sk none
  let (acts, sent) := icspSendPkt io a chunk
  if sent then ({ a with state := .rekeyWaitAck }, signed ++ acts, 0) else (a, signed ++ acts, -1)

/-- `icsp_rekey_client_step`. -/
def icspRekeyClientStep (io : Io) (a : IcspAssoc) (payload : Bytes) : IcspAssoc × List Act × Int :=
  let cd := payload.drop (icspHeaderLen + icspChunkHdr)
  if a.state = .rekeyWaitAck ∧ byteAt payload icspHeaderLen = chunkInitAck then
    let a := takeInitAck a cd
    if initAckVerify c a cd = false then (a, [], -1)
    else
      let (acts, sent) := icspSendPkt io a (cookieEcho c cd a.sk)
      let acts := .sign (slice cd (69 + 64) cookieLen) :: acts
      if sent then ({ a with state := .rekeyWaitCookieAck }, acts, 0) else (a, acts, -1)
  else if a.state = .rekeyWaitCookieAck ∧ byteAt payload icspHeaderLen = chunkCookieAck then
    let (a, install) := icspDeriveKey c io a a.ephPriv
    ({ dataPlaneReset io a with state := .established }, install, 1)
  else (a, [], 0)

/-- `icsp_rekey_server_step`. -/
def icspRekeyServerStep (io : Io) (h : Host) (buf payload : Bytes) (plen : Nat) :
    Host × List Act × Int :=
  let cd := payload.drop (icspHeaderLen + icspChunkHdr)
  if h.assoc.state = .established ∧ byteAt payload icspHeaderLen = chunkInit then
    let saveId := h.assoc.peerId
    match initCheck c io h buf payload plen [] with
    | (h, none) => (h, [], -1)
    | (h, some _) =>
      if h.assoc.peerId ≠ saveId then (h, [], -1)
      else
        match initAckSend c io h h.assoc.sk with
        | (h, acts, false) => (h, acts, -1)
        | (h, acts, true) => ({ h with assoc := { h.assoc with state := .rekeyWaitCookie } }, acts, 0)
  else if h.assoc.state = .rekeyWaitCookie ∧ byteAt payload icspHeaderLen = chunkCookieEcho then
    match cookieValid c io h (arr cd 0 cookieLen) with
    | (h, false) => (h, [], -1)
    | (h, true) =>
      if ed25519Verify c (slice cd 0 cookieLen) (arr cd cookieLen 64) h.assoc.peerId = false then
        (h, [], -1)
      else
        let (acts, sent) := icspSendPkt io h.assoc cookieAck
        if sent then
          ({ h with assoc := { dataPlaneReset io h.assoc with state := .established } }, acts, 1)
        else (h, acts, -1)
  else (h, [], 0)

/-- Seed and public key are the same in the toy library. -/
def toyKey (x : UInt8) : Arr 64 := ⟨List.replicate 64 x, by simp⟩

def toyId (x : UInt8) : Arr 32 := ⟨List.replicate 32 x, by simp⟩

/-- An association of the station `x`, whose address and MAC are made of its number. -/
def toyAssoc (x : UInt8) : IcspAssoc :=
  { IcspAssoc.zero with
    srcAddr := x.toUInt64, srcMac := ⟨List.replicate 6 x, by simp⟩, sk := toyKey x, idPub := toyId x }

/-- Station 9 calls station 7. -/
def toyClient : ClientArgs := ⟨7, 80, toyKey 9, none⟩
def toyServer : ServerArgs := ⟨80, toyKey 7, [], 0⟩

/-- The last frame of a call, as its receiver gets it. -/
def lastFrame (acts : List Act) : Rx :=
  match (txFrames acts).getLast? with
  | some frame => .frame frame frame.length
  | none => .timedOut

end Icsp
