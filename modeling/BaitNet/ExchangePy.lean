import BaitNet.ExchangeC

/-!
# The Python implementation in either role

`client_handshake` and `server_accept` as ends of an exchange, and the theorem for
every assignment of the two implementations to the two roles.
-/
namespace Interop

open Wire Link Crypto

def Circumstances.py (e : Circumstances) (n : Nat) : Py.Io where
  time := (e.time n).toNat
  monotonic := e.monotonic n
  pid := e.pid
  ephRnd := e.ephRnd n
  assocRnd := e.assocRnd n
  tsnRnd := e.tsnRnd n
  secretRnd := e.secretRnd n

def pyViewOf (a : Py.Assoc) : View := ⟨a.assocId, a.peerId, a.sendKey, a.recvKey⟩

variable (nb : Py.PyNaCl)

/-- `client_handshake()`, with its default of five attempts. -/
def pyClient (e : Circumstances) (a : Py.Assoc) : Party where
  State := Nat × Py.ClientCall
  start :=
    let r := Py.clientStart nb (e.py 0) 5 a
    ((1, r.1), r.2)
  step s frame :=
    let r := Py.clientStep nb (e.py s.1) 5 s.2 (.frame frame)
    ((s.1 + 1, r.1), r.2)
  view s :=
    match s.2.phase with
    | .returned => some (pyViewOf s.2.assoc)
    | _ => none

/-- `server_accept(peers)`. -/
def pyServer (e : Circumstances) (peers : List Bytes) (a : Py.Assoc) : Party where
  State := Nat × Py.ServerCall
  start :=
    let r := Py.serverStart a
    ((1, r.1), r.2)
  step s frame :=
    let r := Py.serverStep nb (e.py s.1) peers s.2 (.frame frame)
    ((s.1 + 1, r.1), r.2)
  view s :=
    match s.2.phase with
    | .returned => some (pyViewOf s.2.assoc)
    | _ => none

/-- The 32 header bytes of a built frame. -/
def frameHeader (src dst : UInt64) (sp dp : UInt16) (plen : Nat) : Bytes :=
  [0x69, 0] ++ put16 (.ofNat plen) ++ put16 1 ++ [ipv69NextStream, 64, 1, 0] ++ put16 sp ++ put16 dp ++
    [0, 0, 0, 0] ++ put40 src ++ [0, 0] ++ put40 dst ++ [0, 0]

@[simp] theorem frameHeader_length (src dst : UInt64) (sp dp : UInt16) (plen : Nat) :
    (frameHeader src dst sp dp plen).length = 32 := rfl

theorem buildFrame_parts (dm mac : Arr 6) (src dst : UInt64) (sp dp : UInt16) (pkt : Bytes) :
    buildFrame dm mac src dst ipv69NextStream 64 sp dp pkt =
      dm.val ++ (mac.val ++ (put16 0x6969 ++ (frameHeader src dst sp dp pkt.length ++ pkt))) := by
  simp only [buildFrame, frameHeader, List.append_assoc]
  rfl

/-- The payload length of a header, whatever stands behind it. -/
theorem unpack_payloadLen {plen : Nat} (hp : plen < 2 ^ 16) (rest : Bytes) :
    (Py.IpV69Header.unpack ([0x69, 0] ++ (put16 (.ofNat plen) ++ rest))).payloadLen = plen := by
  have hlen : get16 ([0x69, 0] ++ (put16 (.ofNat plen) ++ rest)) 2 = .ofNat plen := by
    rw [get16_append_right _ _ _ (by simp)]
    exact get16_put16 _ _
  have h := fromBytes_u16 (b := [0x69, 0] ++ (put16 (.ofNat plen) ++ rest)) (i := 2) (by simp)
  rw [hlen, UInt16.toNat_ofNat_of_lt' (by simpa [UInt16.size] using hp)] at h
  exact h

theorem unpack_frameHeader {src : UInt64} (dst : UInt64) (sp dp : UInt16) {plen : Nat}
    (hsrc : src.toNat < 2 ^ 40) (hp : plen < 2 ^ 16) :
    (Py.IpV69Header.unpack (frameHeader src dst sp dp plen)).nextHeader = Py.nextStream ∧
      (Py.IpV69Header.unpack (frameHeader src dst sp dp plen)).payloadLen = plen ∧
      (Py.IpV69Header.unpack (frameHeader src dst sp dp plen)).source = src.toNat := by
  have hsource : get40 (frameHeader src dst sp dp plen) 18 = src := by
    simp only [frameHeader, List.append_assoc]
    iterate 7 rw [get40_append_right _ _ _ (by simp)]
    simpa using get40_put40 src _ hsrc
  refine ⟨rfl, unpack_payloadLen hp _, ?_⟩
  have h := fromBytes_addr (b := frameHeader src dst sp dp plen) (i := 18) (by simp)
  rwa [hsource] at h

theorem cut_append {p b r : Bytes} {i j : Nat} (hp : p.length = i) (hj : i + b.length = j) :
    Py.cut (p ++ (b ++ r)) i j = b := by
  subst hp hj
  rw [Py.cut, ← List.append_assoc, ← List.length_append, List.take_left, List.drop_left]

/-- `parse_frame` splits a frame at the lengths of its parts, if the header tells that of the
payload. -/
theorem parseFrame_parts (dm mac : Arr 6) {header pkt : Bytes} (hheader : header.length = 32)
    (hplen : (Py.IpV69Header.unpack header).payloadLen = pkt.length) :
    Py.parseFrame (dm.val ++ (mac.val ++ (put16 0x6969 ++ (header ++ pkt)))) =
      .ok ⟨dm.val, mac.val, Py.ethertypeIpv69, Py.IpV69Header.unpack header, pkt⟩ := by
  generalize hframe : dm.val ++ (mac.val ++ (put16 0x6969 ++ (header ++ pkt))) = frame
  have hlen : ¬ frame.length < Py.ethHeaderLen + Py.headerLen := by
    rw [← hframe]
    simp only [List.length_append, dm.length, mac.length, put16_length, hheader, Py.ethHeaderLen, Py.headerLen]
    omega
  have hdst : Py.cut frame 0 6 = dm.val := by
    rw [← hframe]
    exact cut_append (p := []) rfl (by simp)
  have hmac : Py.cut frame 6 12 = mac.val := by
    rw [← hframe]
    exact cut_append dm.length (by simp)
  have htype : Py.fromBytes (Py.cut frame 12 14) = Py.ethertypeIpv69 := by
    rw [← hframe, ← List.append_assoc, cut_append (by simp) (by simp)]
    rfl
  have hcut : Py.cut frame 14 46 = header := by
    rw [← hframe, ← List.append_assoc, ← List.append_assoc]
    exact cut_append (by simp) (by rw [hheader])
  have hpay : Py.cut frame 46 (46 + pkt.length) = pkt := by
    have h := cut_append (p := dm.val ++ (mac.val ++ (put16 0x6969 ++ header))) (b := pkt) (r := []) (i := 46)
      (j := 46 + pkt.length) (by simp [hheader]) rfl
    rw [← hframe]
    simpa only [List.append_assoc, List.append_nil] using h
  simp only [Py.ethHeaderLen, Py.headerLen, Nat.reduceAdd] at hlen
  simp only [Py.parseFrame, Py.ethHeaderLen, Py.headerLen, Nat.reduceAdd, if_neg hlen, htype, ne_eq,
    not_true_eq_false, if_false, hdst, hmac, hcut, hplen, hpay, Py.pure_eq_ok]

/-- `parse_frame` reads back what either implementation built. -/
theorem parseFrame_carries {mac : Arr 6} {src dst : UInt64} {pkt frame : Bytes}
    (h : Carries mac src dst pkt frame) (hsrc : src.toNat < 2 ^ 40) (hp : pkt.length < 2 ^ 16) :
    ∃ fr, Py.parseFrame frame = .ok fr ∧ fr.ethSrc = mac.val ∧ fr.header.nextHeader = Py.nextStream ∧
      fr.header.source = src.toNat ∧ fr.payload = pkt := by
  obtain ⟨dm, sp, dp, rfl⟩ := h
  obtain ⟨hnext, hplen, hsource⟩ := unpack_frameHeader dst sp dp hsrc hp
  rw [buildFrame_parts]
  exact ⟨_, parseFrame_parts dm mac (frameHeader_length src dst sp dp pkt.length) hplen, rfl, hnext, hsource, rfl⟩

/-- `check_pkt` accepts a packet of either implementation. -/
theorem checkPkt_packet (sp dp : UInt16) (aid : UInt32) {chunk : Bytes} (h : chunk.length ≤ 1388) :
    Py.checkPkt (packet sp dp aid chunk) = true := by
  have hlen := packet_length sp dp aid chunk
  have hfit : ¬ ¬ (Py.icspHeaderLen ≤ (packet sp dp aid chunk).length ∧
      (packet sp dp aid chunk).length ≤ Py.icspMaxPayload) := by
    rw [not_not, hlen]
    simp only [Py.icspHeaderLen, Py.icspMaxPayload]
    omega
  have hcrc := fromBytes_u16 (b := packet sp dp aid chunk) (i := 10) (by omega)
  rw [Py.checkPkt, if_neg hfit, hcrc]
  apply decide_eq_true
  rw [crc16_eq]
  simp only [packet, Icsp.assocPkt, Icsp.icspPkt_zeroCrc, Icsp.icspPkt_crc]

/-- The association once a frame from `mac` and `src` arrived. -/
def pyHeard (io : Py.Io) (a : Py.Assoc) (mac : Arr 6) (src : UInt64) : Py.Assoc :=
  { a with
    dstAddr := src.toNat
    peerMac := if mac.val ≠ a.mac then some mac.val else a.peerMac
    lastRx := io.monotonic }

/-- A frame of another station, or of the handshake, is not taken for the own one. -/
theorem recvPayload_carries (io : Py.Io) (a : Py.Assoc) {mac : Arr 6} {src dst : UInt64} {sp dp : UInt16}
    {aid : UInt32} {chunk frame : Bytes} (h : Carries mac src dst (packet sp dp aid chunk) frame)
    (hsrc : src.toNat < 2 ^ 40) (hmin : 4 ≤ chunk.length) (hmax : chunk.length ≤ 1388)
    (hty : mac.val ≠ a.mac ∨ HandshakeType (byteAt chunk 0)) :
    Py.recvPayload io a frame = (pyHeard io a mac src, some (packet sp dp aid chunk)) := by
  have hlen := packet_length sp dp aid chunk
  obtain ⟨fr, hparse, hmac, hnext, hsource, hpay⟩ := parseFrame_carries h hsrc (by omega)
  have htype : byteAt (packet sp dp aid chunk) 12 = byteAt chunk 0 := by
    have h := packet_type [] sp dp aid (b := chunk) 0 (by omega)
    rwa [List.append_nil] at h
  have hmem : mac.val = a.mac → byteAt chunk 0 ∈ [Py.chunkInit, Py.chunkInitAck, Py.chunkCookieEcho,
      Py.chunkCookieAck, Py.chunkData] := by
    intro hmac
    rcases hty.resolve_left (not_not.mpr hmac) with h | h | h | h <;> rw [h] <;> decide
  have hown : ¬ (mac.val = a.mac ∧ ((packet sp dp aid chunk).length < 12 + Py.icspChunkHdr ∨
      (Py.fromBytes (Py.cut (packet sp dp aid chunk) 0 2) = a.srcPort ∧
        byteAt (packet sp dp aid chunk) 12 ∉ [Py.chunkInit, Py.chunkInitAck, Py.chunkCookieEcho,
          Py.chunkCookieAck, Py.chunkData]))) := by
    rintro ⟨hmac, hshort | ⟨-, hno⟩⟩
    · simp only [Py.icspChunkHdr] at hshort
      omega
    · rw [htype] at hno
      exact hno (hmem hmac)
  simp only [Py.recvPayload, hparse, hnext, hpay, hmac, hsource, ne_eq, not_true_eq_false, if_false,
    if_neg hown, checkPkt_packet sp dp aid hmax, Bool.true_eq_false]
  rfl

theorem index_eq {b : Bytes} {i : Nat} (h : i < b.length) : Py.index b i = .ok (byteAt b i) := by
  rw [Py.index, List.getElem?_eq_getElem h, byteAt, List.getD_eq_getElem _ _ h]

theorem index_packet (sp dp : UInt16) (aid : UInt32) {b : Bytes} (h : 0 < b.length) :
    Py.index (packet sp dp aid b) 12 = .ok (byteAt b 0) := by
  have hty := packet_type [] sp dp aid 0 h
  rw [List.append_nil] at hty
  rw [index_eq (by rw [packet_length]; omega), ← hty]

/-- The Python fields hold the station's values and fixed-width ones. -/
structure Runs (me : Station) (q : Py.Assoc) (sp dp : UInt16) (aid : UInt32) (dst : UInt64) : Prop where
  mac : q.mac = me.mac.val
  seed : q.seed = me.seed.val
  srcAddr : q.srcAddr = me.addr.toNat
  dstAddr : q.dstAddr = dst.toNat
  dst_lt : dst.toNat < 2 ^ 40
  peerMac : ∀ m, q.peerMac = some m → m.length = 6
  srcPort : q.srcPort = sp.toNat
  dstPort : q.dstPort = dp.toNat
  assocId : q.assocId = aid.toNat

theorem Runs.heard {me : Station} {q : Py.Assoc} {sp dp : UInt16} {aid : UInt32} {dst : UInt64}
    (h : Runs me q sp dp aid dst) (io : Py.Io) (mac : Arr 6) {src : UInt64} (hsrc : src.toNat < 2 ^ 40) :
    Runs me (pyHeard io q mac src) sp dp aid src where
  mac := h.mac
  seed := h.seed
  srcAddr := h.srcAddr
  dstAddr := rfl
  dst_lt := hsrc
  peerMac := by
    intro m hm
    simp only [pyHeard] at hm
    split at hm
    · rw [← Option.some.inj hm]
      exact mac.length
    · exact h.peerMac m hm
  srcPort := h.srcPort
  dstPort := h.dstPort
  assocId := h.assocId

theorem Runs.sendChunk {me : Station} {q : Py.Assoc} {sp dp : UInt16} {aid : UInt32} {dst : UInt64}
    (h : Runs me q sp dp aid dst) {b : Bytes} (hlen : b.length ≤ 1388) :
    ∃ frame, Py.sendChunk q b = .ok frame ∧
      Carries me.mac me.addr dst (packet sp dp aid b) frame := by
  have hmac : q.mac.length = 6 := h.mac ▸ me.mac.length
  obtain ⟨frame, hsend, hcar⟩ := sendChunk_ok (q := q)
    ⟨hmac, h.peerMac, h.srcAddr ▸ me.addr_lt, h.dstAddr ▸ h.dst_lt⟩ h.srcPort h.dstPort h.assocId hlen
  have hm : (⟨q.mac, hmac⟩ : Arr 6) = me.mac := Subtype.ext h.mac
  rw [hm, h.srcAddr, h.dstAddr, UInt64.ofNat_toNat, UInt64.ofNat_toNat] at hcar
  exact ⟨frame, hsend, hcar⟩


variable {nb : Py.PyNaCl} {c : TweetNaCl}

theorem seedToPub_eq (same : SamePrimitives nb c) (seed : Arr 32) :
    Py.seedToPub nb seed.val = .ok (c.seedToPk seed).val := by
  rw [Py.seedToPub, sized_arr, ← same.verifyKey]
  rfl

theorem sign_eq (same : SamePrimitives nb c) (seed : Arr 32) (msg : Bytes) :
    Py.sign nb seed.val msg = .ok (c.sign msg seed).val := by
  rw [Py.sign, sized_arr, ← same.sign]
  rfl

theorem verify_eq (same : SamePrimitives nb c) (seed : Arr 32) (msg : Bytes) :
    Py.verify nb (c.seedToPk seed).val (c.sign msg seed).val msg = true := by
  have h := same.verify seed msg
  rw [same.verifyKey, same.sign] at h
  exact (dif_pos ⟨(c.seedToPk seed).length, (c.sign msg seed).length⟩).trans h

theorem x25519Base_eq (same : SamePrimitives nb c) (x : Arr 32) :
    Py.x25519Base nb x.val = .ok (c.scalarmultBase x).val := by
  rw [Py.x25519Base, sized_arr, ← same.scalarmultBase]
  rfl

theorem x25519_eq (same : SamePrimitives nb c) (x y : Arr 32) :
    Py.x25519 nb x.val (c.scalarmultBase y).val = .ok (c.scalarmult x (c.scalarmultBase y)).val := by
  have h := same.scalarmult x y
  rw [same.scalarmultBase] at h
  rw [Py.x25519, sized_arr, Py.ok_bind, sized_arr, Py.ok_bind, h]
  rfl

theorem buildInit_eq (same : SamePrimitives nb c) {me : Station} {q : Py.Assoc} {sp dp : UInt16}
    {aid : UInt32} {dst : UInt64} (h : Runs me q sp dp aid dst) {si so : UInt16}
    (hsi : q.streamsIn = si.toNat) (hso : q.streamsOut = so.toNat) (io : Py.Io) {ts : UInt64}
    (hts : io.time = ts.toNat) :
    Py.buildInit nb io q =
      .ok ({ q with ephPriv := io.ephRnd.val, ephPub := (c.scalarmultBase io.ephRnd).val },
        initChunk c dst me.seed (initBody si so (c.scalarmultBase io.ephRnd) ts (me.pub c))) := by
  have hbody : [Py.icspVersion] ++ put16 si ++ put16 so ++ (c.scalarmultBase io.ephRnd).val ++ put64 ts ++
      (c.seedToPk me.seed).val = initBody si so (c.scalarmultBase io.ephRnd) ts (me.pub c) := by
    simp only [initBody, List.append_assoc]
    rfl
  have hput := chunkPut_eq Py.chunkInit (d := initBody si so (c.scalarmultBase io.ephRnd) ts (me.pub c) ++
    (c.sign (initBody si so (c.scalarmultBase io.ephRnd) ts (me.pub c)) me.seed).val ++
    (mac1Compute c (mac1Key c dst) (initBody si so (c.scalarmultBase io.ephRnd) ts (me.pub c) ++
      (c.sign (initBody si so (c.scalarmultBase io.ephRnd) ts (me.pub c)) me.seed).val)).val) (by simp)
  simp only [Py.buildInit, x25519Base_eq same, hsi, hso, toBytes_u16, hts, toBytes_u64, h.seed,
    seedToPub_eq same, hbody, sign_eq same, h.dstAddr, keyFor_eq same h.dst_lt, mac1Compute_eq same, hput,
    Py.ok_bind, Py.pure_eq_ok]
  simp [initChunk, Icsp.icspChunkPut]
  rfl

/-- What a client takes from an INIT-ACK. -/
def pyAcked (c : TweetNaCl) (a : Py.Assoc) (server : Station) (x y : Arr 32) : Py.Assoc :=
  { a with
    peerEph := (c.scalarmultBase y).val, peerId := (server.pub c).val
    sendKey := (exchangeKeys c x y).1.val, recvKey := (exchangeKeys c x y).2.val }

theorem takeInitAck_eq (same : SamePrimitives nb c) {me : Station} {a : Py.Assoc}
    (hseed : a.seed = me.seed.val) {x : Arr 32} (hx : a.ephPriv = x.val) (server : Station) (y : Arr 32)
    (si so : UInt16) (cookie : Arr 48) {data : Bytes}
    (hdata : data = initAckBody si so (c.scalarmultBase y) (server.pub c) ++
      ((c.sign (initAckBody si so (c.scalarmultBase y) (server.pub c)) server.seed).val ++
        (cookie.val ++ []))) :
    Py.takeInitAck nb a data = .ok (pyAcked c a server x y, echoChunk c me.seed cookie) := by
  have hlen := initAckBody_length si so (c.scalarmultBase y) (server.pub c)
  have htotal : data.length = 181 := by simp [hdata]
  have heph : Py.cut data 5 37 = (c.scalarmultBase y).val := by
    rw [cut_eq_slice (n := 32) (by omega), hdata]
    exact congrArg Subtype.val (initAckBody_eph _ si so (c.scalarmultBase y) (server.pub c))
  have hid : Py.cut data 37 69 = (server.pub c).val := by
    rw [cut_eq_slice (n := 32) (by omega), hdata]
    exact congrArg Subtype.val (initAckBody_id _ si so (c.scalarmultBase y) (server.pub c))
  have hsig : Py.cut data 69 133 =
      (c.sign (initAckBody si so (c.scalarmultBase y) (server.pub c)) server.seed).val := by
    rw [hdata]
    exact cut_append hlen (by simp)
  have hsigned : data.take 69 = initAckBody si so (c.scalarmultBase y) (server.pub c) := by
    rw [hdata]
    exact List.take_left' hlen
  have hcookie : Py.cut data 133 181 = cookie.val := by
    rw [hdata, ← List.append_assoc]
    exact cut_append (by simp) (by simp)
  have hverify : Py.verify nb (server.pub c).val
      (c.sign (initAckBody si so (c.scalarmultBase y) (server.pub c)) server.seed).val
      (initAckBody si so (c.scalarmultBase y) (server.pub c)) = true := verify_eq same server.seed _
  have hput := chunkPut_eq Py.chunkCookieEcho (d := cookie.val ++ (c.sign cookie.val me.seed).val) (by simp)
  have hecho : Icsp.icspChunkPut Py.chunkCookieEcho (cookie.val ++ (c.sign cookie.val me.seed).val).length ++
      (cookie.val ++ (c.sign cookie.val me.seed).val) = echoChunk c me.seed cookie := by
    simp [echoChunk]
    rfl
  rw [hecho] at hput
  simp only [Py.takeInitAck, heph, hid, hsig, hsigned, hcookie, hverify, Bool.true_eq_false, if_false, hx,
    x25519_eq same, deriveKeys_eq same, hseed, sign_eq same, hput, Py.ok_bind, Py.pure_eq_ok, pyAcked]
  rfl

/-- An INIT-ACK is taken and its cookie returned. -/
theorem pyClientStep_initAck (same : SamePrimitives nb c) (io : Py.Io) {me : Station} {a : Py.Assoc}
    {sp dp : UInt16} {aid : UInt32} {dst : UInt64} (hr : Runs me a sp dp aid dst) {x : Arr 32}
    (hx : a.ephPriv = x.val) (left : Nat) (init : Bytes) (server : Station) {y : Arr 32} {si so sp' dp' : UInt16}
    {aid' : UInt32} {cookie : Arr 48} {dst' : UInt64} {frame : Bytes}
    (h : Carries server.mac server.addr dst' (packet sp' dp' aid' (initAckChunk c server.seed
      (initAckBody si so (c.scalarmultBase y) (server.pub c)) cookie)) frame) :
    ∃ f, Py.clientStep nb io 5 ⟨a, .waitInitAck left init⟩ (.frame frame) =
        (⟨pyAcked c (pyHeard io a server.mac server.addr) server x y,
          .waitCookieAck 4 (echoChunk c me.seed cookie)⟩, [f]) ∧
      Carries me.mac me.addr server.addr (packet sp dp aid (echoChunk c me.seed cookie)) f := by
  have hlen := initAckChunk_length c server.seed
    (initAckBody si so (c.scalarmultBase y) (server.pub c)) cookie
  rw [initAckBody_length] at hlen
  have hrecv := recvPayload_carries io a h server.addr_lt (by omega) (by omega) (.inr (.inr (.inl rfl)))
  have hdrop := initAckChunk_drop c [] sp' dp' aid' server.seed
    (initAckBody si so (c.scalarmultBase y) (server.pub c)) cookie
  have hty := index_packet sp' dp' aid' (b := initAckChunk c server.seed
    (initAckBody si so (c.scalarmultBase y) (server.pub c)) cookie) (by omega)
  have htype : byteAt (initAckChunk c server.seed
    (initAckBody si so (c.scalarmultBase y) (server.pub c)) cookie) 0 = Py.chunkInitAck := rfl
  rw [List.append_nil] at hdrop
  rw [htype] at hty
  revert hrecv hdrop hty
  generalize packet sp' dp' aid' (initAckChunk c server.seed
    (initAckBody si so (c.scalarmultBase y) (server.pub c)) cookie) = payload
  intro hrecv hdrop hty
  have hheard := hr.heard io server.mac server.addr_lt
  have htake := takeInitAck_eq same hheard.seed (x := x) hx server y si so cookie hdrop
  have hbody : (payload.drop 16).length = 181 := by simp [hdrop]
  have hver : byteAt (payload.drop 16) 0 = Py.icspVersion := by
    rw [hdrop]
    rfl
  have hacked : Runs me (pyAcked c (pyHeard io a server.mac server.addr) server x y) sp dp aid
      server.addr := { hheard with }
  obtain ⟨f, hsend, hcar⟩ := hacked.sendChunk (b := echoChunk c me.seed cookie) (by simp)
  have hstep : Py.clientStep nb io 5 ⟨a, .waitInitAck left init⟩ (.frame frame) =
      (⟨pyAcked c (pyHeard io a server.mac server.addr) server x y,
        .waitCookieAck 4 (echoChunk c me.seed cookie)⟩, [f]) := by
    rw [Py.clientStep]
    simp only [hrecv, hty, Py.icspChunkHdr, Nat.reduceAdd, hbody, hver, ne_eq, not_true_eq_false, if_false,
      htake, hsend]
    rfl
  exact ⟨f, hstep, hcar⟩

/-- COOKIE-ACK completes the call. -/
theorem pyClientStep_cookieAck (nb : Py.PyNaCl) (io : Py.Io) (a : Py.Assoc) (left : Nat) (echo : Bytes) (server : Station)
    {sp dp : UInt16} {aid : UInt32} {dst : UInt64} {frame : Bytes}
    (h : Carries server.mac server.addr dst (packet sp dp aid Icsp.cookieAck) frame) :
    Py.clientStep nb io 5 ⟨a, .waitCookieAck left echo⟩ (.frame frame) =
      (⟨Py.resetDataPlane io { pyHeard io a server.mac server.addr with state := .established },
        .returned⟩, []) := by
  have hrecv := recvPayload_carries io a h server.addr_lt (by decide) (by decide)
    (.inr (.inr (.inr (.inr rfl))))
  have hty := index_packet sp dp aid (b := Icsp.cookieAck) (by decide)
  have htype : byteAt Icsp.cookieAck 0 = Py.chunkCookieAck := rfl
  rw [htype] at hty
  rw [Py.clientStep]
  simp only [hrecv, hty, if_true]


theorem fromBytes_arr4 (a : Arr 4) : Py.fromBytes a.val = (get32 a.val 0).toNat := by
  have h := fromBytes_u32 (b := a.val) (i := 0) (by simp)
  have hcut : Py.cut a.val 0 (0 + 4) = a.val := by
    rw [Py.cut, List.drop_zero, List.take_of_length_le (by simp)]
  rwa [hcut] at h

/-- The association of a client that has not built its INIT yet. -/
def pyDial (io : Py.Io) (a : Py.Assoc) : Py.Assoc :=
  { Py.resetDataPlane io a with
    srcPort := if a.srcPort = 0 then 50000 + io.pid % 1000 else a.srcPort
    state := .cookieWait
    assocId := Py.fromBytes io.assocRnd.val }

theorem pyClientStart_eq (io : Py.Io) (attempts : Nat) (a : Py.Assoc) :
    Py.clientStart nb io attempts a =
      match Py.buildInit nb io (pyDial io a) with
      | .error x => (⟨pyDial io a, .raised x⟩, [])
      | .ok (b, init) => Py.nextInit b attempts init := by
  rw [Py.clientStart, pyDial]
  by_cases h : a.srcPort = 0
  · simp only [if_pos h]
    rfl
  · simp only [if_neg h]
    rfl

/-- The automatic port of a client that was given none. -/
theorem pyDial_runs (io : Py.Io) (me : Station) {addr : UInt64} (haddr : addr.toNat < 2 ^ 40)
    (port srcPort si so : UInt16) :
    ∃ sp, Runs me (pyDial io (Py.Assoc.new me.mac.val me.seed.val me.addr.toNat srcPort.toNat addr.toNat
      port.toNat si.toNat so.toNat)) sp port (get32 io.assocRnd.val 0) addr := by
  obtain ⟨sp, hsp⟩ : ∃ sp : UInt16, (if srcPort.toNat = 0 then 50000 + io.pid % 1000 else srcPort.toNat) =
      sp.toNat := by
    by_cases h : srcPort.toNat = 0
    · have hauto : (UInt16.ofNat (50000 + io.pid % 1000)).toNat = 50000 + io.pid % 1000 :=
        UInt16.toNat_ofNat_of_lt' (by simp only [UInt16.size]; omega)
      exact ⟨_, (if_pos h).trans hauto.symm⟩
    · exact ⟨srcPort, if_neg h⟩
  use sp
  constructor
  · rfl
  · rfl
  · rfl
  · rfl
  · exact haddr
  · intro m hm
    cases hm
  · exact hsp
  · rfl
  · exact fromBytes_arr4 _

/-- The first INIT of a call. -/
theorem pyClientStart_init (same : SamePrimitives nb c) (io : Py.Io) {me : Station} {a : Py.Assoc}
    {sp dp : UInt16} {aid : UInt32} {dst : UInt64} (hr : Runs me (pyDial io a) sp dp aid dst)
    {si so : UInt16} (hsi : a.streamsIn = si.toNat) (hso : a.streamsOut = so.toNat) {ts : UInt64}
    (hts : io.time = ts.toNat) :
    ∃ (b : Py.Assoc) (init f : Bytes), Py.clientStart nb io 5 a = (⟨b, .waitInitAck 4 init⟩, [f]) ∧
      Runs me b sp dp aid dst ∧ b.ephPriv = io.ephRnd.val ∧
      Carries me.mac me.addr dst (packet sp dp aid (initChunk c dst me.seed
        (initBody si so (c.scalarmultBase io.ephRnd) ts (me.pub c)))) f := by
  have hdialIn : (pyDial io a).streamsIn = si.toNat := hsi
  have hdialOut : (pyDial io a).streamsOut = so.toNat := hso
  have hbuild := buildInit_eq same hr hdialIn hdialOut io hts
  have hb : Runs me { pyDial io a with
      ephPriv := io.ephRnd.val, ephPub := (c.scalarmultBase io.ephRnd).val } sp dp aid dst := { hr with }
  obtain ⟨f, hsend, hcar⟩ := hb.sendChunk (b := initChunk c dst me.seed
    (initBody si so (c.scalarmultBase io.ephRnd) ts (me.pub c))) (by simp)
  have hstart : Py.clientStart nb io 5 a = (⟨{ pyDial io a with
      ephPriv := io.ephRnd.val, ephPub := (c.scalarmultBase io.ephRnd).val }, .waitInitAck 4 (initChunk c dst
        me.seed (initBody si so (c.scalarmultBase io.ephRnd) ts (me.pub c)))⟩, [f]) := by
    simp only [pyClientStart_eq, hbuild, Py.nextInit, hsend]
  exact ⟨_, _, f, hstart, hb, rfl, hcar⟩

/-- `client_handshake` plays the client. -/
theorem pyClient_role (same : SamePrimitives nb c) (e : Circumstances) (me : Station) {addr : UInt64}
    (haddr : addr.toNat < 2 ^ 40) (port srcPort si so : UInt16) :
    ClientRole c (pyClient nb e (Py.Assoc.new me.mac.val me.seed.val me.addr.toNat srcPort.toNat
      addr.toNat port.toNat si.toNat so.toNat)) me addr port (e.ephRnd 0) (e.time 0)
      (get32 (e.assocRnd 0).val 0) := by
  obtain ⟨sp, hr⟩ := pyDial_runs (e.py 0) me haddr port srcPort si so
  have hsi : (Py.Assoc.new me.mac.val me.seed.val me.addr.toNat srcPort.toNat addr.toNat port.toNat
      si.toNat so.toNat).streamsIn = si.toNat := rfl
  have hso : (Py.Assoc.new me.mac.val me.seed.val me.addr.toNat srcPort.toNat addr.toNat port.toNat
      si.toNat so.toNat).streamsOut = so.toNat := rfl
  have hts : (e.py 0).time = (e.time 0).toNat := rfl
  obtain ⟨b, init, f₁, hstart, hb, hx, hcar⟩ := pyClientStart_init same (e.py 0) hr hsi hso hts
  have hparty : (pyClient nb e (Py.Assoc.new me.mac.val me.seed.val me.addr.toNat srcPort.toNat addr.toNat
      port.toNat si.toNat so.toNat)).start = ((1, ⟨b, .waitInitAck 4 init⟩), [f₁]) := by
    simp only [pyClient, hstart]
  refine ⟨_, f₁, sp, si, so, hparty, hcar, ?_⟩
  intro server y si₂ so₂ dp₂ aid₂ cookie dst₂ f₂ hf₂
  obtain ⟨f₃, hstep₂, hcar₃⟩ := pyClientStep_initAck same (e.py 1) hb hx 4 init server hf₂
  have hparty₂ : (pyClient nb e (Py.Assoc.new me.mac.val me.seed.val me.addr.toNat srcPort.toNat addr.toNat
      port.toNat si.toNat so.toNat)).step (1, ⟨b, .waitInitAck 4 init⟩) f₂ =
      ((2, ⟨pyAcked c (pyHeard (e.py 1) b server.mac server.addr) server (e.ephRnd 0) y,
        .waitCookieAck 4 (echoChunk c me.seed cookie)⟩), [f₃]) := by
    simp only [pyClient, hstep₂]
    rfl
  refine ⟨_, f₃, _, _, _, _, hparty₂, hcar₃, ?_⟩
  intro f₄ dst₄ sp₄ dp₄ aid₄ hf₄
  have hstep₄ := pyClientStep_cookieAck nb (e.py 2)
    (pyAcked c (pyHeard (e.py 1) b server.mac server.addr) server (e.ephRnd 0) y) 4
    (echoChunk c me.seed cookie) server hf₄
  generalize hdone : Py.resetDataPlane (e.py 2) { pyHeard (e.py 2) (pyAcked c (pyHeard (e.py 1) b server.mac
    server.addr) server (e.ephRnd 0) y) server.mac server.addr with state := .established } = d at hstep₄
  have hparty₄ : (pyClient nb e (Py.Assoc.new me.mac.val me.seed.val me.addr.toNat srcPort.toNat addr.toNat
      port.toNat si.toNat so.toNat)).step
      (2, ⟨pyAcked c (pyHeard (e.py 1) b server.mac server.addr) server (e.ephRnd 0) y,
        .waitCookieAck 4 (echoChunk c me.seed cookie)⟩) f₄ = ((3, ⟨d, .returned⟩), []) := by
    simp only [pyClient, hstep₄]
  have hview : pyViewOf d = ⟨(get32 (e.assocRnd 0).val 0).toNat, (server.pub c).val,
      (exchangeKeys c (e.ephRnd 0) y).1.val, (exchangeKeys c (e.ephRnd 0) y).2.val⟩ := by
    have haid : b.assocId = (get32 (e.assocRnd 0).val 0).toNat := hb.assocId
    rw [← haid, ← hdone]
    rfl
  exact ⟨_, hparty₄, congrArg some hview⟩

/-- The association that took a client's INIT. -/
def pyTaken (c : TweetNaCl) (a : Py.Assoc) (client : Station) (x : Arr 32) (ts : UInt64)
    (aid : UInt32) : Py.Assoc :=
  { a with
    lastInitTs := ts.toNat, assocId := aid.toNat, peerEph := (c.scalarmultBase x).val,
    peerId := (client.pub c).val }

theorem checkInit_accepts (same : SamePrimitives nb c) {me : Station} {a : Py.Assoc} (peers : List (Arr 32))
    (client : Station) (haddr : a.srcAddr = me.addr.toNat) (hpeers : peers = [] ∨ client.pub c ∈ peers)
    {x : Arr 32} {ts : UInt64} {aid : UInt32} {sp dp si so : UInt16} (hts : a.lastInitTs < ts.toNat) :
    Py.checkInit nb a (peers.map Subtype.val) (packet sp dp aid (initChunk c me.addr client.seed
        (initBody si so (c.scalarmultBase x) ts (client.pub c)))) =
      .ok (pyTaken c a client x ts aid, true) := by
  have hlen := initChunk_length c me.addr client.seed
    (initBody si so (c.scalarmultBase x) ts (client.pub c))
  have hblen := initBody_length si so (c.scalarmultBase x) ts (client.pub c)
  rw [hblen] at hlen
  have hplen := packet_length sp dp aid (initChunk c me.addr client.seed
    (initBody si so (c.scalarmultBase x) ts (client.pub c)))
  rw [hlen] at hplen
  have hty := index_packet sp dp aid (b := initChunk c me.addr client.seed
    (initBody si so (c.scalarmultBase x) ts (client.pub c))) (by omega)
  have htype : byteAt (initChunk c me.addr client.seed
    (initBody si so (c.scalarmultBase x) ts (client.pub c))) 0 = Py.chunkInit := rfl
  have hdrop := initChunk_drop c [] sp dp aid me.addr client.seed
    (initBody si so (c.scalarmultBase x) ts (client.pub c))
  have haid := packet_assocId [] sp dp aid (initChunk c me.addr client.seed
    (initBody si so (c.scalarmultBase x) ts (client.pub c)))
  rw [List.append_nil] at hdrop haid
  rw [htype] at hty
  revert hplen hty hdrop haid
  generalize packet sp dp aid (initChunk c me.addr client.seed
    (initBody si so (c.scalarmultBase x) ts (client.pub c))) = payload
  intro hplen hty hdrop haid
  have haid' : Py.fromBytes (Py.cut payload 6 10) = aid.toNat := by
    rw [fromBytes_u32 (i := 6) (by omega), haid]
  revert hdrop
  generalize hdata : payload.drop 16 = data
  intro hdrop
  have hdlen : data.length = 157 := by simp [hdrop]
  have hver : byteAt data 0 = Py.icspVersion := by
    rw [hdrop]
    rfl
  have hsigned : data.take 141 = initBody si so (c.scalarmultBase x) ts (client.pub c) ++
      (c.sign (initBody si so (c.scalarmultBase x) ts (client.pub c)) client.seed).val := by
    rw [hdrop, ← List.append_assoc]
    exact List.take_left' (by simp)
  have htag : Py.cut data 141 157 = (mac1Compute c (mac1Key c me.addr)
      (initBody si so (c.scalarmultBase x) ts (client.pub c) ++
        (c.sign (initBody si so (c.scalarmultBase x) ts (client.pub c)) client.seed).val)).val := by
    rw [hdrop, ← List.append_assoc]
    exact cut_append (by simp) (by simp)
  have htsr : Py.fromBytes (Py.cut data 37 45) = ts.toNat := by
    rw [fromBytes_u64 (i := 37) (by omega), hdrop, initBody_ts]
  have heph : Py.cut data 5 37 = (c.scalarmultBase x).val := by
    rw [cut_eq_slice (n := 32) (by omega), hdrop]
    exact congrArg Subtype.val (initBody_eph _ si so (c.scalarmultBase x) (client.pub c) ts)
  have hid : Py.cut data 45 77 = (client.pub c).val := by
    rw [cut_eq_slice (n := 32) (by omega), hdrop]
    exact congrArg Subtype.val (initBody_id _ si so (c.scalarmultBase x) (client.pub c) ts)
  have hsig : Py.cut data 77 141 =
      (c.sign (initBody si so (c.scalarmultBase x) ts (client.pub c)) client.seed).val := by
    rw [hdrop]
    exact cut_append hblen (by simp)
  have hbody : data.take 77 = initBody si so (c.scalarmultBase x) ts (client.pub c) := by
    rw [hdrop]
    exact List.take_left' hblen
  have hverify : Py.verify nb (client.pub c).val
      (c.sign (initBody si so (c.scalarmultBase x) ts (client.pub c)) client.seed).val
      (initBody si so (c.scalarmultBase x) ts (client.pub c)) = true := verify_eq same client.seed _
  have hlist : ¬ (peers.map Subtype.val ≠ [] ∧ (client.pub c).val ∉ peers.map Subtype.val) := by
    rintro ⟨hne, hno⟩
    cases hpeers with
    | inl hnil => exact hne (by rw [hnil]; rfl)
    | inr hmem => exact hno (List.mem_map_of_mem hmem)
  have hnew : ¬ ts.toNat ≤ a.lastInitTs := by omega
  simp only [Py.checkInit, hty, Py.icspChunkHdr, Nat.reduceAdd, hdata, hdlen, hver, Py.initPreSig,
    Py.initIdLen, Py.mac1Len, hsigned, htag, haddr, keyFor_eq same me.addr_lt, mac1Verify_eq same, htsr,
    heph, hid, hsig, hbody, hverify, Py.noteInit, haid', Py.ok_bind, Py.pure_eq_ok, ne_eq,
    not_true_eq_false, if_false, Nat.lt_irrefl, or_self, Bool.true_eq_false, if_neg hnew, if_neg hlist,
    pyTaken]


/-- `_cookie_make` yields 48 bytes and changes nothing but its secret. -/
theorem cookieMake_ok (nb : Py.PyNaCl) (io : Py.Io) {a : Py.Assoc} {si so : UInt16} (hsi : a.streamsIn = si.toNat)
    (hso : a.streamsOut = so.toNat) :
    ∃ (cookie : Arr 48) (secret : Bytes) (ts : Nat), Py.cookieMake nb io a =
      .ok ({ a with cookieSecret := secret, cookieTs := ts }, cookie.val) := by
  obtain ⟨secret, ts, href⟩ : ∃ secret ts, Py.cookieRefresh io a =
      { a with cookieSecret := secret, cookieTs := ts } := by
    rw [Py.cookieRefresh]
    split
    · exact ⟨_, _, rfl⟩
    · exact ⟨a.cookieSecret, a.cookieTs, rfl⟩
  have hlen : ((Py.hmacSha512 nb (nb.sha512 secret).val
      (a.peerId ++ a.peerEph ++ put16 si ++ put16 so)).take Py.cookieLen).length = 48 := by
    simp [Py.hmacSha512, Py.cookieLen]
  refine ⟨⟨_, hlen⟩, secret, ts, ?_⟩
  simp only [Py.cookieMake, href, hsi, hso, toBytes_u16, Py.ok_bind, Py.pure_eq_ok]

/-- A validated INIT is answered with a signed INIT-ACK. -/
theorem answerInit_ok (same : SamePrimitives nb c) (io : Py.Io) {me : Station} {a : Py.Assoc}
    {sp dp : UInt16} {aid : UInt32} {dst : UInt64} (h : Runs me a sp dp aid dst) {si so : UInt16}
    (hsi : a.streamsIn = si.toNat) (hso : a.streamsOut = so.toNat) {x : Arr 32}
    (hx : a.peerEph = (c.scalarmultBase x).val) :
    ∃ (b : Py.Assoc) (f : Bytes) (cookie : Arr 48), Py.answerInit nb io a = .ok (b, f, cookie.val) ∧
      Carries me.mac me.addr dst (packet sp dp aid (initAckChunk c me.seed
        (initAckBody si so (c.scalarmultBase io.ephRnd) (me.pub c)) cookie)) f ∧
      Runs me b sp dp aid dst ∧ b.peerId = a.peerId ∧
      b.sendKey = (exchangeKeys c x io.ephRnd).2.val ∧ b.recvKey = (exchangeKeys c x io.ephRnd).1.val := by
  have hkeys : Icsp.sessionKeys c false (c.scalarmult io.ephRnd (c.scalarmultBase x)) =
      (exchangeKeys c x io.ephRnd).swap := by
    rw [c.scalarmult_comm]
    rfl
  generalize hw : ({ a with
      ephPriv := io.ephRnd.val, ephPub := (c.scalarmultBase io.ephRnd).val
      sendKey := (exchangeKeys c x io.ephRnd).2.val, recvKey := (exchangeKeys c x io.ephRnd).1.val } :
    Py.Assoc) = w
  have hwsi : w.streamsIn = si.toNat := hw ▸ hsi
  have hwso : w.streamsOut = so.toNat := hw ▸ hso
  obtain ⟨cookie, secret, ts, hcookie⟩ := cookieMake_ok nb io hwsi hwso
  generalize hb : ({ w with cookieSecret := secret, cookieTs := ts } : Py.Assoc) = b
  rw [hb] at hcookie
  have hrb : Runs me b sp dp aid dst := by
    rw [← hb, ← hw]
    exact { h with }
  obtain ⟨f, hsend, hcar⟩ := hrb.sendChunk (b := initAckChunk c me.seed
    (initAckBody si so (c.scalarmultBase io.ephRnd) (me.pub c)) cookie) (by simp)
  have hput := chunkPut_eq Py.chunkInitAck (d := initAckBody si so (c.scalarmultBase io.ephRnd)
    (me.pub c) ++ (c.sign (initAckBody si so (c.scalarmultBase io.ephRnd) (me.pub c)) me.seed).val ++
    cookie.val) (by simp)
  have hchunk : Icsp.icspChunkPut Py.chunkInitAck (initAckBody si so (c.scalarmultBase io.ephRnd)
      (me.pub c) ++ (c.sign (initAckBody si so (c.scalarmultBase io.ephRnd) (me.pub c)) me.seed).val ++
      cookie.val).length ++ (initAckBody si so (c.scalarmultBase io.ephRnd) (me.pub c) ++
      (c.sign (initAckBody si so (c.scalarmultBase io.ephRnd) (me.pub c)) me.seed).val ++ cookie.val) =
      initAckChunk c me.seed (initAckBody si so (c.scalarmultBase io.ephRnd) (me.pub c)) cookie := by
    simp [initAckChunk]
    rfl
  rw [hchunk] at hput
  have hbody : [Py.icspVersion] ++ put16 si ++ put16 so ++ (c.scalarmultBase io.ephRnd).val ++
      (c.seedToPk me.seed).val = initAckBody si so (c.scalarmultBase io.ephRnd) (me.pub c) := by
    simp only [initAckBody, List.append_assoc]
    rfl
  have hans : Py.answerInit nb io a = .ok (b, f, cookie.val) := by
    rw [hsi, hso, hx, h.seed] at hw
    simp only [Py.answerInit, x25519Base_eq same, hx, x25519_eq same, deriveKeys_eq same, hkeys,
      Prod.swap, hw, hsi, hso, toBytes_u16, h.seed, seedToPub_eq same, hbody, sign_eq same, hcookie, hput,
      hsend, Py.ok_bind, Py.pure_eq_ok]
  subst hb hw
  exact ⟨_, f, cookie, hans, hcar, hrb, rfl, rfl, rfl⟩

/-- A client's INIT is answered. -/
theorem pyServerStep_init (same : SamePrimitives nb c) (io : Py.Io) {me client : Station} {a : Py.Assoc}
    {sp dp : UInt16} {aid : UInt32} {dst : UInt64} (hr : Runs me a sp dp aid dst) {si so : UInt16}
    (hsi : a.streamsIn = si.toNat) (hso : a.streamsOut = so.toNat) (peers : List (Arr 32))
    (hpeers : peers = [] ∨ client.pub c ∈ peers) {x : Arr 32} {ts : UInt64} (hts : a.lastInitTs < ts.toNat)
    {sp' dp' si' so' : UInt16} {aid' : UInt32} {frame : Bytes}
    (h : Carries client.mac client.addr me.addr (packet sp' dp' aid' (initChunk c me.addr client.seed
      (initBody si' so' (c.scalarmultBase x) ts (client.pub c)))) frame) :
    ∃ (b : Py.Assoc) (f : Bytes) (cookie : Arr 48),
      Py.serverStep nb io (peers.map Subtype.val) ⟨a, .waitInit⟩ (.frame frame) =
        (⟨b, .waitCookie cookie.val⟩, [f]) ∧
      Carries me.mac me.addr client.addr (packet sp dp aid' (initAckChunk c me.seed
        (initAckBody si so (c.scalarmultBase io.ephRnd) (me.pub c)) cookie)) f ∧
      Runs me b sp dp aid' client.addr ∧ b.peerId = (client.pub c).val ∧
      b.sendKey = (exchangeKeys c x io.ephRnd).2.val ∧ b.recvKey = (exchangeKeys c x io.ephRnd).1.val := by
  have hlen := initChunk_length c me.addr client.seed
    (initBody si' so' (c.scalarmultBase x) ts (client.pub c))
  rw [initBody_length] at hlen
  have hrecv := recvPayload_carries io a h client.addr_lt (by omega) (by omega) (.inr (.inl rfl))
  have hheard := hr.heard io client.mac client.addr_lt
  have hcheck : Py.checkInit nb (pyHeard io a client.mac client.addr) (peers.map Subtype.val)
      (packet sp' dp' aid' (initChunk c me.addr client.seed
        (initBody si' so' (c.scalarmultBase x) ts (client.pub c)))) =
      .ok (pyTaken c (pyHeard io a client.mac client.addr) client x ts aid', true) :=
    checkInit_accepts same peers client hheard.srcAddr hpeers hts
  have htaken : Runs me (pyTaken c (pyHeard io a client.mac client.addr) client x ts aid') sp dp aid'
      client.addr := { hheard with assocId := rfl }
  have hins : (pyTaken c (pyHeard io a client.mac client.addr) client x ts aid').streamsIn = si.toNat := hsi
  have houts : (pyTaken c (pyHeard io a client.mac client.addr) client x ts aid').streamsOut = so.toNat :=
    hso
  have heph : (pyTaken c (pyHeard io a client.mac client.addr) client x ts aid').peerEph =
      (c.scalarmultBase x).val := rfl
  obtain ⟨b, f, cookie, hans, hcar, hb, hid, hsend, hrecvKey⟩ :=
    answerInit_ok same io htaken hins houts heph
  have hstep : Py.serverStep nb io (peers.map Subtype.val) ⟨a, .waitInit⟩ (.frame frame) =
      (⟨b, .waitCookie cookie.val⟩, [f]) := by
    rw [Py.serverStep]
    simp only [hrecv, hcheck, hans]
  exact ⟨b, f, cookie, hstep, hcar, hb, hid, hsend, hrecvKey⟩

/-- The COOKIE-ECHO with the cookie of the INIT-ACK completes the call. -/
theorem pyServerStep_cookieEcho (same : SamePrimitives nb c) (io : Py.Io) {me : Station} (client : Station)
    {a : Py.Assoc} {sp dp : UInt16} {aid : UInt32} {dst : UInt64} (hr : Runs me a sp dp aid dst)
    (hid : a.peerId = (client.pub c).val) (peers : List Bytes) (cookie : Arr 48) {sp' dp' : UInt16}
    {aid' : UInt32} {dst' : UInt64} {frame : Bytes}
    (h : Carries client.mac client.addr dst' (packet sp' dp' aid' (echoChunk c client.seed cookie)) frame) :
    ∃ f, Py.serverStep nb io peers ⟨a, .waitCookie cookie.val⟩ (.frame frame) =
        (⟨Py.resetDataPlane io { pyHeard io a client.mac client.addr with state := .established },
          .returned⟩, [f]) ∧
      Carries me.mac me.addr client.addr (packet sp dp aid Icsp.cookieAck) f := by
  have hrecv := recvPayload_carries io a h client.addr_lt (by simp) (by simp) (.inr (.inr (.inr (.inl rfl))))
  have hdrop := echoChunk_drop c [] sp' dp' aid' client.seed cookie
  have hty := index_packet sp' dp' aid' (b := echoChunk c client.seed cookie) (by simp)
  have htype : byteAt (echoChunk c client.seed cookie) 0 = Py.chunkCookieEcho := rfl
  rw [List.append_nil] at hdrop
  rw [htype] at hty
  revert hrecv hdrop hty
  generalize packet sp' dp' aid' (echoChunk c client.seed cookie) = payload
  intro hrecv hdrop hty
  have hbody : (payload.drop 16).length = 112 := by simp [hdrop]
  have hcookie : (payload.drop 16).take 48 = cookie.val := by
    rw [hdrop]
    exact List.take_left' cookie.length
  have hsig : Py.cut (payload.drop 16) 48 112 = (c.sign cookie.val client.seed).val := by
    rw [hdrop]
    exact cut_append cookie.length (by simp)
  have hpeer : (pyHeard io a client.mac client.addr).peerId = (client.pub c).val := hid
  have hverify : Py.verify nb (client.pub c).val (c.sign cookie.val client.seed).val cookie.val = true :=
    verify_eq same client.seed _
  have hheard := hr.heard io client.mac client.addr_lt
  obtain ⟨f, hsend, hcar⟩ := hheard.sendChunk (b := Icsp.cookieAck) (by decide)
  have hput : Py.chunkPut Py.chunkCookieAck [] = .ok Icsp.cookieAck := by
    rw [chunkPut_eq _ (by simp)]
    rfl
  have hstep : Py.serverStep nb io peers ⟨a, .waitCookie cookie.val⟩ (.frame frame) =
      (⟨Py.resetDataPlane io { pyHeard io a client.mac client.addr with state := .established },
        .returned⟩, [f]) := by
    rw [Py.serverStep]
    simp only [hrecv, hty, Py.icspChunkHdr, Nat.reduceAdd, hbody, Py.cookieLen, ne_eq, not_true_eq_false,
      if_false, Nat.lt_irrefl, or_self, hcookie, hsig, hpeer, hverify, Bool.true_eq_false, hput, hsend,
      Py.ok_bind]
  exact ⟨f, hstep, hcar⟩

/-- `server_accept` plays the server for every INIT time but 0. -/
theorem pyServer_role (same : SamePrimitives nb c) (e : Circumstances) (me client : Station)
    (port dstPort : UInt16) {dst : UInt64} (hdst : dst.toNat < 2 ^ 40) (si so : UInt16)
    (peers : List (Arr 32)) (hpeers : peers = [] ∨ client.pub c ∈ peers) {ts : UInt64} (hts : ts ≠ 0) :
    ServerRole c (pyServer nb e (peers.map Subtype.val) (Py.Assoc.new me.mac.val me.seed.val me.addr.toNat
      port.toNat dst.toNat dstPort.toNat si.toNat so.toNat)) me client port (e.ephRnd 1) ts := by
  have hr : Runs me (Py.Assoc.new me.mac.val me.seed.val me.addr.toNat port.toNat dst.toNat dstPort.toNat
      si.toNat so.toNat) port dstPort 0 dst := by
    constructor <;> first | rfl | exact hdst | (intro m hm; cases hm)
  have hzero : 0 < ts.toNat := UInt64.lt_iff_toNat_lt.mp (UInt64.pos_iff_ne_zero.mpr hts)
  intro x aid sp si' so' f₁ hf₁
  generalize hconstr : Py.Assoc.new me.mac.val me.seed.val me.addr.toNat port.toNat dst.toNat dstPort.toNat
    si.toNat so.toNat = a at hr
  have hsi : a.streamsIn = si.toNat := hconstr ▸ rfl
  have hso : a.streamsOut = so.toNat := hconstr ▸ rfl
  have hlast : a.lastInitTs = 0 := hconstr ▸ rfl
  have hnew : a.lastInitTs < ts.toNat := by omega
  obtain ⟨b, f₂, cookie, hstep₁, hcar₂, hb, hid, hsendKey, hrecvKey⟩ := pyServerStep_init same (e.py 1) hr
    hsi hso peers hpeers hnew hf₁
  have hparty₁ : (pyServer nb e (peers.map Subtype.val) a).step
      (pyServer nb e (peers.map Subtype.val) a).start.1 f₁ = ((2, ⟨b, .waitCookie cookie.val⟩), [f₂]) := by
    simp only [pyServer, Py.serverStart, hstep₁]
  refine ⟨_, f₂, _, _, _, _, _, cookie, hparty₁, hcar₂, ?_⟩
  intro f₃ dst₃ sp₃ dp₃ aid₃ hf₃
  obtain ⟨f₄, hstep₃, hcar₄⟩ := pyServerStep_cookieEcho same (e.py 2) client hb hid (peers.map Subtype.val)
    cookie hf₃
  generalize hdone : Py.resetDataPlane (e.py 2)
    { pyHeard (e.py 2) b client.mac client.addr with state := .established } = d at hstep₃
  have hparty₃ : (pyServer nb e (peers.map Subtype.val) a).step (2, ⟨b, .waitCookie cookie.val⟩) f₃ =
      ((3, ⟨d, .returned⟩), [f₄]) := by
    simp only [pyServer, hstep₃]
  have hview : pyViewOf d = ⟨aid.toNat, (client.pub c).val, (exchangeKeys c x (e.ephRnd 1)).2.val,
      (exchangeKeys c x (e.ephRnd 1)).1.val⟩ := by
    have haid : b.assocId = aid.toNat := hb.assocId
    have hsk : b.sendKey = (exchangeKeys c x (e.ephRnd 1)).2.val := hsendKey
    have hrk : b.recvKey = (exchangeKeys c x (e.ephRnd 1)).1.val := hrecvKey
    rw [← haid, ← hid, ← hsk, ← hrk, ← hdone]
    rfl
  exact ⟨_, f₄, _, _, _, _, hparty₃, hcar₄, congrArg some hview⟩

end Interop
