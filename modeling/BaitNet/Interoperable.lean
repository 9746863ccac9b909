import BaitNet.ExchangePy

/-!
# Either implementation in either role

Every assignment of the two implementations to client and server completes the exchange,
and both seal a message into the same packet.
-/
namespace Interop

open Wire Link Crypto

inductive Impl where
  | c | python
  deriving DecidableEq

/-- Two stations, what the outside supplies to each, and what either implementation needs
to be started as one of them. -/
structure Setup where
  client : Station
  server : Station
  clientIo : Circumstances
  serverIo : Circumstances
  port : UInt16
  /-- the allowlist of the server -/
  peers : List (Arr 32)
  /-- arguments of the Python constructors -/
  clientPort : UInt16
  clientStreams : UInt16 × UInt16
  serverDst : UInt64
  serverDst_lt : serverDst.toNat < 2 ^ 40
  serverDstPort : UInt16
  serverStreams : UInt16 × UInt16
  /-- the C association of the client before its call -/
  clientAssoc : Icsp.IcspAssoc
  clientAssoc_mac : clientAssoc.srcMac = client.mac
  clientAssoc_addr : clientAssoc.srcAddr = client.addr
  /-- the C server's process and its time limit -/
  serverHost : Icsp.Host
  serverHost_mac : serverHost.assoc.srcMac = server.mac
  serverHost_addr : serverHost.assoc.srcAddr = server.addr
  timeoutS : Int

variable (nb : Py.PyNaCl) (c : TweetNaCl)

def Setup.clientEnd (s : Setup) : Impl → Party
  | .c => cClient c s.clientIo ⟨s.server.addr, s.port, s.client.sk c, none⟩ s.clientAssoc
  | .python => pyClient nb s.clientIo (Py.Assoc.new s.client.mac.val s.client.seed.val
      s.client.addr.toNat s.clientPort.toNat s.server.addr.toNat s.port.toNat s.clientStreams.1.toNat
      s.clientStreams.2.toNat)

def Setup.serverEnd (s : Setup) : Impl → Party
  | .c => cServer c s.serverIo ⟨s.port, s.server.sk c, s.peers, s.timeoutS⟩ s.serverHost
  | .python => pyServer nb s.serverIo (s.peers.map Subtype.val) (Py.Assoc.new s.server.mac.val
      s.server.seed.val s.server.addr.toNat s.port.toNat s.serverDst.toNat s.serverDstPort.toNat
      s.serverStreams.1.toNat s.serverStreams.2.toNat)

variable {nb : Py.PyNaCl} {c : TweetNaCl}

theorem clientEnd_role (same : SamePrimitives nb c) (s : Setup) (impl : Impl) :
    ClientRole c (s.clientEnd nb c impl) s.client s.server.addr s.port (s.clientIo.ephRnd 0)
      (s.clientIo.time 0) (get32 (s.clientIo.assocRnd 0).val 0) := by
  cases impl with
  | c => exact cClient_role _ _ _ _ _ s.clientAssoc_mac s.clientAssoc_addr
  | python => exact pyClient_role same _ _ s.server.addr_lt _ _ _ _

theorem serverEnd_role (same : SamePrimitives nb c) (s : Setup) (impl : Impl)
    (hpeers : s.peers = [] ∨ s.client.pub c ∈ s.peers)
    (hadm : Admits (s.serverIo.io 1) s.serverHost.glob s.client.mac) {ts : UInt64} (hts : ts ≠ 0) :
    ServerRole c (s.serverEnd nb c impl) s.server s.client s.port (s.serverIo.ephRnd 1) ts := by
  cases impl with
  | c => exact cServer_role _ _ _ _ _ _ _ s.serverHost_mac s.serverHost_addr hpeers hadm hts
  | python => exact pyServer_role same _ _ _ _ _ s.serverDst_lt _ _ _ hpeers hts

/-- The exchange completes from the second round trip on for every assignment of the two
implementations, and the packets of a message are the same bytes. -/
theorem implementations_interoperate (same : SamePrimitives nb c) :
    (∀ (s : Setup) (cl sv : Impl) (n : Nat), s.clientIo.time 0 ≠ 0 →
      (s.peers = [] ∨ s.client.pub c ∈ s.peers) →
      Admits (s.serverIo.io 1) s.serverHost.glob s.client.mac →
      ∃ (aid : Nat) (toServer toClient : Bytes),
        exchange (s.clientEnd nb c cl) (s.serverEnd nb c sv) (n + 2) =
          (some ⟨aid, (s.server.pub c).val, toServer, toClient⟩,
            some ⟨aid, (s.client.pub c).val, toClient, toServer⟩)) ∧
    (∀ (io : Icsp.Io) (io' : Py.Io) (a : Icsp.IcspAssoc) (q : Py.Assoc) (sid : UInt16) (msg : Bytes),
      SameSender a q sid → Wired q → a.hasKey = true → (Icsp.getStream a sid).2.isSome = true →
      (∀ f, io.netOk f = true) →
      packets (Icsp.txFrames (Icsp.icspDataSend c io a sid msg).2.1) =
        packets (Py.dataSend nb io' q sid.toNat msg).2.1) := by
  constructor
  · intro s cl sv n hts hpeers hadm
    have hcl := clientEnd_role same s cl
    have hsv := serverEnd_role same s sv hpeers hadm hts
    exact ⟨_, _, _, exchange_completes c hcl hsv n⟩
  · intro io io' a q sid msg hsame hwired hkey hslot hnet
    rw [icspDataSend_packets io msg hkey hslot hnet, dataSend_packets same io' hsame hwired msg]

def boxTag (m : Bytes) (nonce : Arr 24) (key : Arr 32) : Arr 16 :=
  pad 16 (put32 (checksum nonce.val) ++ put32 (checksum key.val) ++ put32 (checksum m))

/-- The toy primitives with 16 zero bytes in front of a box and the translated one-time
authenticator. -/
def toyNaCl : TweetNaCl :=
  { toy with
    secretbox := fun m nonce key => List.replicate 16 0 ++ (boxTag m nonce key).val ++ m
    secretboxOpen := fun box nonce key =>
      if box.take 32 = List.replicate 16 0 ++ (boxTag (box.drop 32) nonce key).val then some (box.drop 32)
      else none
    onetimeauth := Poly1305.cryptoOnetimeauth
    secretbox_length := by
      intro m n k
      simp
      omega
    open_secretbox := by
      intro m n k
      have hl : (List.replicate 16 0 ++ (boxTag m n k).val).length = 32 := by simp
      rw [List.take_left' hl, List.drop_left' hl, if_pos rfl] }

/-- PyNaCl over the same functions. -/
def pyOf (c : TweetNaCl) : Py.PyNaCl where
  sha512 := c.hash
  verifyKey := c.seedToPk
  sign seed m := c.sign m seed
  verify pub sig m := c.signOpen m sig pub
  encrypt k n m := (c.secretbox m n k).drop 16
  scalarmultBase := c.scalarmultBase
  scalarmult a b := some (c.scalarmult a b)

theorem toyNaCl_same : SamePrimitives (pyOf toyNaCl) toyNaCl where
  sha512 _ := rfl
  verifyKey _ := rfl
  sign _ _ := rfl
  verify seed m := toyNaCl.open_sign m seed
  encrypt _ _ _ := rfl
  scalarmultBase _ := rfl
  scalarmult _ _ := rfl
  onetimeauth _ _ := rfl

def toyStation (x : UInt8) : Station := ⟨pad 32 [x], pad 6 [x], x.toUInt64, by
  have h := x.toNat_lt
  rw [UInt8.toNat_toUInt64]
  omega⟩

def toyCircumstances (time : UInt64) : Circumstances where
  time := fun _ => time
  nowMs := fun _ => 1000
  monotonic := id
  pid := 1
  rand := fun _ => 0
  ephRnd := fun n => pad 32 [.ofNat n]
  assocRnd := fun n => pad 4 [.ofNat n]
  tsnRnd := fun n => pad 4 [.ofNat n]
  secretRnd := fun n => pad 32 [.ofNat n]
  stale := fun _ => []

/-- Station 9 calls station 7, whose process has the globals `g`, at `time`. -/
def toySetup (time : UInt64) (g : Icsp.Globals) : Setup where
  client := toyStation 9
  server := toyStation 7
  clientIo := toyCircumstances time
  serverIo := toyCircumstances time
  port := 7
  peers := []
  clientPort := 0
  clientStreams := (8, 8)
  serverDst := 0
  serverDst_lt := by decide
  serverDstPort := 0
  serverStreams := (8, 8)
  clientAssoc := { Icsp.IcspAssoc.zero with srcMac := pad 6 [9], srcAddr := 9 }
  clientAssoc_mac := rfl
  clientAssoc_addr := rfl
  serverHost := ⟨{ Icsp.IcspAssoc.zero with srcMac := pad 6 [7], srcAddr := 7 }, g⟩
  serverHost_mac := rfl
  serverHost_addr := rfl
  timeoutS := 5

theorem implementations_interoperate_toy :
    (∃ aid toServer toClient,
      exchange ((toySetup 1 .zero).clientEnd (pyOf toyNaCl) toyNaCl .python)
        ((toySetup 1 .zero).serverEnd (pyOf toyNaCl) toyNaCl .c) 2 =
        (some ⟨aid, ((toySetup 1 .zero).server.pub toyNaCl).val, toServer, toClient⟩,
          some ⟨aid, ((toySetup 1 .zero).client.pub toyNaCl).val, toClient, toServer⟩)) ∧
    packets (Icsp.txFrames (Icsp.icspDataSend toyNaCl (.quiet 1)
        { Icsp.IcspAssoc.zero with hasKey := true } 3 [1, 2]).2.1) =
      packets (Py.dataSend (pyOf toyNaCl) ⟨1, 1, 1, .zero 32, .zero 4, .zero 4, .zero 32⟩
        { Py.Assoc.new (pad 6 []).val (pad 32 []).val 0 0 0 0 8 8 with sendKey := (Arr.zero 32).val }
        3 [1, 2]).2.1 := by
  refine ⟨(implementations_interoperate toyNaCl_same).1 (toySetup 1 .zero) .python .c 0 (by decide)
    (.inl rfl) (admits_zero _ _), ?_⟩
  apply (implementations_interoperate toyNaCl_same).2 (.quiet 1) _ { Icsp.IcspAssoc.zero with hasKey := true }
    _ 3 [1, 2]
  · exact ⟨rfl, rfl, rfl, rfl, rfl, rfl⟩
  · exact ⟨rfl, fun _ h => (nomatch h), by decide, by decide⟩
  · rfl
  · rfl
  · exact fun _ => rfl

/-- The globals of a server whose limiter has no token left for station 9. -/
def spentGlobals : Icsp.Globals :=
  { Icsp.Globals.zero with gRate := [⟨pad 8 [9], true, 0, 1000⟩] }

/-- At time 0 a server does not answer; a C server without a token for the client does not either;
and on a ninth stream only the Python implementation sends. -/
theorem implementations_differ :
    exchange ((toySetup 0 .zero).clientEnd (pyOf toyNaCl) toyNaCl .c)
        ((toySetup 0 .zero).serverEnd (pyOf toyNaCl) toyNaCl .c) 2 = (none, none) ∧
    exchange ((toySetup 1 spentGlobals).clientEnd (pyOf toyNaCl) toyNaCl .c)
        ((toySetup 1 spentGlobals).serverEnd (pyOf toyNaCl) toyNaCl .c) 2 = (none, none) ∧
    packets (Icsp.txFrames (Icsp.icspDataSend toyNaCl (.quiet 1)
        { Icsp.IcspAssoc.zero with
          hasKey := true, streams := (List.range 8).map fun i => ⟨.ofNat i, 0, 0⟩ } 8 []).2.1) ≠
      packets (Py.dataSend (pyOf toyNaCl) ⟨1, 1, 1, .zero 32, .zero 4, .zero 4, .zero 32⟩
        { Py.Assoc.new (pad 6 []).val (pad 32 []).val 0 0 0 0 8 8 with
          sendKey := (Arr.zero 32).val, streams := (List.range 8).map fun i => (i, ⟨0, 0⟩) } 8 []).2.1 := by
  refine ⟨?_, ?_, ?_⟩
  · decide +kernel
  · decide +kernel
  · decide +kernel

end Interop
