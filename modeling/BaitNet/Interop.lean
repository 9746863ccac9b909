import BaitNet.Poly1305
import BaitNet.PySession
import BaitNet.CallSpec
import BaitNet.Lossless

/-!
# Both implementations write the same bytes

The C and the Python implementation encode each integer, packet, frame and key
separately. Assuming that PyNaCl and TweetNaCl compute the same primitives, the two
encoders agree; so a DATA packet has the same bytes from either.
-/
namespace Interop

open Wire Link Crypto

theorem toBytes_ok {v k : Nat} (h : v < 256 ^ k) : Py.toBytes v k = .ok (Py.bigEndian v k) := if_pos h

theorem toBytes_u16 (v : UInt16) : Py.toBytes v.toNat 2 = .ok (put16 v) := by
  rw [toBytes_ok v.toNat_lt]
  simp [Py.bigEndian, put16]

theorem toBytes_u32 (v : UInt32) : Py.toBytes v.toNat 4 = .ok (put32 v) := by
  rw [toBytes_ok v.toNat_lt]
  simp [Py.bigEndian, put32]

theorem bigEndian_u64 (v : UInt64) : Py.bigEndian v.toNat 8 = put64 v := by
  have hv := v.toNat_lt
  simp only [Py.bigEndian, put64, put32, List.cons_append, List.nil_append, UInt32.toNat_ofNat']
  simp only [List.cons.injEq, and_true]
  refine ⟨?_, ?_, ?_, ?_, ?_, ?_, ?_, ?_⟩ <;>
  · apply UInt8.toNat.inj
    simp only [UInt8.toNat_ofNat']
    omega

theorem toBytes_u64 (v : UInt64) : Py.toBytes v.toNat 8 = .ok (put64 v) := by
  rw [toBytes_ok v.toNat_lt, bigEndian_u64]

theorem bigEndian_addr (v : UInt64) : Py.bigEndian v.toNat 5 = put40 v := by
  have hv := v.toNat_lt
  simp only [Py.bigEndian, put40, put32, UInt32.toNat_ofNat']
  simp only [List.cons.injEq, and_true]
  refine ⟨?_, ?_, ?_, ?_, ?_⟩ <;>
  · apply UInt8.toNat.inj
    simp only [UInt8.toNat_ofNat']
    omega

theorem toBytes_addr {v : UInt64} (h : v.toNat < 2 ^ 40) : Py.toBytes v.toNat 5 = .ok (put40 v) := by
  rw [toBytes_ok (by omega), bigEndian_addr]

/-- Inside the buffer both languages cut the same bytes. -/
theorem cut_eq_slice {b : Bytes} {i n : Nat} (h : i + n ≤ b.length) : Py.cut b i (i + n) = slice b i n := by
  rw [Py.cut, slice, List.takeD_eq_take _ (by simp; omega), List.drop_take, Nat.add_sub_cancel_left]

theorem take_eq_slice {b : Bytes} {n : Nat} (h : n ≤ b.length) : b.take n = slice b 0 n := by
  rw [slice, List.drop_zero, List.takeD_eq_take _ h]

theorem slice_eq_map (b : Bytes) (i n : Nat) : slice b i n = (List.range n).map fun j => byteAt b (i + j) := by
  apply List.ext_getElem (by simp)
  intro j h₁ h₂
  have hj : j < n := by simpa using h₁
  have hbyte := byteAt_slice b i n j hj
  rw [List.getElem_map, List.getElem_range, ← hbyte, byteAt, List.getD_eq_getElem _ _ h₁]

theorem fromBytes_u16 {b : Bytes} {i : Nat} (h : i + 2 ≤ b.length) :
    Py.fromBytes (Py.cut b i (i + 2)) = (get16 b i).toNat := by
  have h0 := (byteAt b i).toNat_lt
  have h1 := (byteAt b (i + 1)).toNat_lt
  rw [cut_eq_slice h, slice_eq_map, get16_eq]
  simp [Py.fromBytes, List.range_succ]
  omega

theorem fromBytes_u32 {b : Bytes} {i : Nat} (h : i + 4 ≤ b.length) :
    Py.fromBytes (Py.cut b i (i + 4)) = (get32 b i).toNat := by
  have h0 := (byteAt b i).toNat_lt
  have h1 := (byteAt b (i + 1)).toNat_lt
  have h2 := (byteAt b (i + 2)).toNat_lt
  have h3 := (byteAt b (i + 3)).toNat_lt
  rw [cut_eq_slice h, slice_eq_map, get32_eq]
  simp [Py.fromBytes, List.range_succ]
  omega

theorem fromBytes_u64 {b : Bytes} {i : Nat} (h : i + 8 ≤ b.length) :
    Py.fromBytes (Py.cut b i (i + 8)) = (get64 b i).toNat := by
  have h0 := (byteAt b i).toNat_lt
  have h1 := (byteAt b (i + 1)).toNat_lt
  have h2 := (byteAt b (i + 2)).toNat_lt
  have h3 := (byteAt b (i + 3)).toNat_lt
  have h4 := (byteAt b (i + 4)).toNat_lt
  have h5 := (byteAt b (i + 5)).toNat_lt
  have h6 := (byteAt b (i + 6)).toNat_lt
  have h7 := (byteAt b (i + 7)).toNat_lt
  rw [cut_eq_slice h, slice_eq_map, get64_eq, get32_eq, get32_eq]
  simp [Py.fromBytes, List.range_succ, Nat.add_assoc]
  omega

theorem fromBytes_addr {b : Bytes} {i : Nat} (h : i + 5 ≤ b.length) :
    Py.fromBytes (Py.cut b i (i + 5)) = (get40 b i).toNat := by
  have h0 := (byteAt b i).toNat_lt
  have h1 := (byteAt b (i + 1)).toNat_lt
  have h2 := (byteAt b (i + 2)).toNat_lt
  have h3 := (byteAt b (i + 3)).toNat_lt
  have h4 := (byteAt b (i + 4)).toNat_lt
  rw [cut_eq_slice h, slice_eq_map, get40_eq, get32_eq]
  simp [Py.fromBytes, List.range_succ, Nat.add_assoc]
  omega

theorem crcRound_toNat (c : UInt32) : (crcRound c).toNat = Py.crcRound c.toNat := by
  have hbit : (c &&& 1 = 1) ↔ (c.toNat &&& 1 ≠ 0) := by
    have h1 : (1 : UInt32).toNat = 1 := rfl
    have hmod : c.toNat &&& 1 = c.toNat % 2 := Nat.and_one_is_mod _
    rw [← UInt32.toNat_inj, UInt32.toNat_and, h1]
    omega
  have hshift : (c >>> 1).toNat = c.toNat >>> 1 := by
    rw [UInt32.toNat_shiftRight]
    rfl
  by_cases hc : c &&& 1 = 1
  · rw [crcRound, if_pos hc, Py.crcRound, if_pos (hbit.mp hc), UInt32.toNat_xor, hshift, Nat.xor_comm]
    rfl
  · rw [crcRound, if_neg hc, Py.crcRound, if_neg (fun h => hc (hbit.mpr h)), hshift]

theorem crcTable_toNat (i : UInt32) : (crcTable i).toNat = Py.table i.toNat := by
  rw [crcTable, Py.table]
  generalize 8 = n
  induction n generalizing i with
  | zero => rfl
  | succ n ih => rw [Function.iterate_succ_apply, Function.iterate_succ_apply, ih, crcRound_toNat]

theorem crcStep_toNat (c : UInt32) (x : UInt8) :
    (crcStep c x).toNat = Py.table ((c.toNat ^^^ x.toNat) &&& 0xFF) ^^^ (c.toNat >>> 8) := by
  rw [crcStep, UInt32.toNat_xor, crcTable_toNat, UInt32.toNat_and, UInt32.toNat_xor,
    UInt32.toNat_shiftRight]
  rfl

/-- The two checksum loops agree on every buffer. -/
theorem crc32c_eq (b : Bytes) : Py.crc32c b = (icspCrc32c b).toNat := by
  have hfold : ∀ (b : Bytes) (c : UInt32), (b.foldl crcStep c).toNat =
      b.foldl (fun crc x => Py.table ((crc ^^^ x.toNat) &&& 0xFF) ^^^ (crc >>> 8)) c.toNat := by
    intro b
    induction b with
    | nil => exact fun _ => rfl
    | cons x b ih =>
      intro c
      rw [List.foldl_cons, List.foldl_cons, ih, crcStep_toNat]
  rw [icspCrc32c, foldWord_eq, UInt32.toNat_xor, hfold, Py.crc32c]
  rfl

theorem crc16_eq (b : Bytes) : Py.crc32c b &&& 0xFFFF = (icspCrc32c b).toUInt16.toNat := by
  have h : (0xFFFF : Nat) = 2 ^ 16 - 1 := rfl
  rw [crc32c_eq, h, Nat.and_two_pow_sub_one_eq_mod, UInt32.toNat_toUInt16]


/-- An ICSP packet by its ports and association id. -/
def packet (srcPort dstPort : UInt16) (assocId : UInt32) (chunk : Bytes) : Bytes :=
  Icsp.assocPkt { Icsp.IcspAssoc.zero with srcPort, dstPort, assocId } chunk

/-- The C sender's packet depends on nothing else of its association. -/
theorem assocPkt_eq (a : Icsp.IcspAssoc) (chunk : Bytes) :
    Icsp.assocPkt a chunk = packet a.srcPort a.dstPort a.assocId chunk := rfl

@[simp] theorem packet_length (sp dp : UInt16) (aid : UInt32) (chunk : Bytes) :
    (packet sp dp aid chunk).length = 12 + chunk.length := Icsp.assocPkt_length _ _

theorem toBytes_crc (b : Bytes) :
    Py.toBytes (Py.crc32c b &&& 0xFFFF) 2 = .ok (put16 (icspCrc32c b).toUInt16) := by
  rw [crc16_eq, toBytes_u16]

theorem buildPkt_eq (sp dp : UInt16) (aid : UInt32) {chunk : Bytes} (h : chunk.length ≤ 1388) :
    Py.buildPkt sp.toNat dp.toNat aid.toNat chunk = .ok (packet sp dp aid chunk) := by
  have hfit : ¬ Py.icspMaxPayload < chunk.length + Py.icspHeaderLen := by
    simp only [Py.icspMaxPayload, Py.icspHeaderLen]
    omega
  simp only [Py.buildPkt, if_neg hfit, Py.IcspHeader.pack, toBytes_u16, toBytes_u32, toBytes_crc]
  rfl

theorem buildPkt_error (sp dp aid : Nat) {chunk : Bytes} (h : 1388 < chunk.length) :
    Py.buildPkt sp dp aid chunk = .error (.valueError "ICSP packet too large") := by
  have hfit : Py.icspMaxPayload < chunk.length + Py.icspHeaderLen := by
    simp only [Py.icspMaxPayload, Py.icspHeaderLen]
    omega
  simp only [Py.buildPkt, if_pos hfit]
  rfl

/-- `frame` takes a packet from station `src` with its MAC to `dst`, in the frame of either
implementation. -/
def Carries (mac : Arr 6) (src dst : UInt64) (pkt frame : Bytes) : Prop :=
  ∃ (dstMac : Arr 6) (sp dp : UInt16),
    frame = buildFrame dstMac mac src dst ipv69NextStream 64 sp dp pkt

/-- A payload length as either language writes it. -/
theorem toBytes_len {n : Nat} (h : n < 2 ^ 16) : Py.toBytes n 2 = .ok (put16 (.ofNat n)) := by
  have hput := toBytes_u16 (.ofNat n)
  rwa [UInt16.toNat_ofNat_of_lt' (by simpa [UInt16.size] using h)] at hput

theorem buildFrame_eq (dstMac srcMac : Arr 6) {s d : UInt64} (sp dp : UInt16) {p : Bytes}
    (hs : s.toNat < 2 ^ 40) (hd : d.toNat < 2 ^ 40) (hp : p.length < 2 ^ 16) :
    Py.buildFrame dstMac.val srcMac.val s.toNat d.toNat p sp.toNat dp.toNat =
      .ok (buildFrame dstMac srcMac s d ipv69NextStream 64 sp dp p) := by
  have hmac : ¬ (dstMac.val.length ≠ 6 ∨ srcMac.val.length ≠ 6) := by simp
  have hseq : ¬ ([0, 0, 0, 0] : Bytes).length ≠ 4 := by simp
  have hone : Py.toBytes 1 2 = .ok (put16 1) := toBytes_u16 1
  have htype : Py.toBytes Py.ethertypeIpv69 2 = .ok (put16 0x6969) := toBytes_u16 0x6969
  simp only [Py.buildFrame, if_neg hmac, Py.IpV69Header.pack, Py.streamHeader, if_neg hseq, toBytes_len hp, hone,
    htype, toBytes_u16, toBytes_addr hs, toBytes_addr hd]
  rfl


/-- PyNaCl and TweetNaCl compute the same functions: PyNaCl leaves out the 16 zero bytes in
front of a box, accepts what it signed itself, and has nothing to refuse in the product of
two honest key pairs. TweetNaCl's one-time authenticator is the translated one. -/
structure SamePrimitives (nb : Py.PyNaCl) (c : TweetNaCl) : Prop where
  sha512 : ∀ m, nb.sha512 m = c.hash m
  verifyKey : ∀ seed, nb.verifyKey seed = c.seedToPk seed
  sign : ∀ seed m, nb.sign seed m = c.sign m seed
  verify : ∀ seed m, nb.verify (nb.verifyKey seed) (nb.sign seed m) m = true
  encrypt : ∀ k n m, c.secretbox m n k = List.replicate 16 0 ++ nb.encrypt k n m
  scalarmultBase : ∀ a, nb.scalarmultBase a = c.scalarmultBase a
  scalarmult : ∀ a b, nb.scalarmult a (nb.scalarmultBase b) = some (c.scalarmult a (c.scalarmultBase b))
  onetimeauth : ∀ m k, c.onetimeauth m k = Poly1305.cryptoOnetimeauth m k

variable {nb : Py.PyNaCl} {c : TweetNaCl}

@[simp] theorem sized_arr (text : String) (a : Arr n) : Py.sized n text a.val = .ok a := dif_pos a.property

@[simp] theorem sized_pad (text : String) {b : Bytes} (h : b.length = n) :
    Py.sized n text b = .ok ⟨b, h⟩ := dif_pos h

theorem hmacSha512_eq (same : SamePrimitives nb c) (key msg : Bytes) :
    Py.hmacSha512 nb key msg = (ed25519HmacSha512 c msg key).val := by
  simp only [Py.hmacSha512, ed25519HmacSha512, same.sha512]
  rw [← takeD_eq_append]
  split
  · simp
  · omega

theorem kdf_eq (same : SamePrimitives nb c) (prk : Arr 64) (label : Bytes) :
    Py.kdf nb prk.val label = (Icsp.kdfExpand c prk label).val := by
  rw [Py.kdf, hmacSha512_eq same, take_eq_slice (by simp)]
  rfl

/-- The directional keys of either end. -/
theorem deriveKeys_eq (same : SamePrimitives nb c) (shared : Arr 32) (initiator : Bool) :
    Py.deriveKeys nb shared.val initiator =
      ((Icsp.sessionKeys c initiator shared).1.val, (Icsp.sessionKeys c initiator shared).2.val) := by
  have hsalt : ascii "icsp-v1" = [105, 99, 115, 112, 45, 118, 49] := by decide
  have hsend : ascii "icsp-send" = [105, 99, 115, 112, 45, 115, 101, 110, 100] := by decide
  have hrecv : ascii "icsp-recv" = [105, 99, 115, 112, 45, 114, 101, 99, 118] := by decide
  simp only [Py.deriveKeys, hmacSha512_eq same, kdf_eq same, hsalt, hsend, hrecv]
  cases initiator with
  | true => rfl
  | false => rfl

theorem keyFor_eq (same : SamePrimitives nb c) {addr : UInt64} (h : addr.toNat < 2 ^ 40) :
    Py.keyFor nb addr.toNat = .ok (mac1Key c addr).val := by
  have hlabel : Py.mac1Label = [105, 112, 118, 54, 57, 45, 109, 97, 99, 49] := by decide
  simp only [Py.keyFor, if_neg (not_not.mpr h), toBytes_addr h, same.sha512, hlabel, Py.ok_bind,
    Py.pure_eq_ok]
  rw [take_eq_slice (by simp)]
  rfl

theorem mac1Compute_eq (same : SamePrimitives nb c) (key : Arr 32) (msg : Bytes) :
    Py.mac1Compute key.val msg = .ok (mac1Compute c key msg).val := by
  rw [mac1Compute, same.onetimeauth, Poly1305.cryptoOnetimeauth_eq, Py.mac1Compute, sized_arr]
  rfl

theorem zipWith_xor_self (b : Bytes) : (List.zipWith (· ^^^ ·) b b).foldl (· ||| ·) 0 = 0 := by
  induction b with
  | nil => rfl
  | cons x b ih => simpa using ih

theorem mac1Verify_eq (same : SamePrimitives nb c) (key : Arr 32) (msg : Bytes) :
    Py.mac1Verify key.val msg (mac1Compute c key msg).val = .ok true := by
  have hlen : ¬ (mac1Compute c key msg).val.length ≠ Py.mac1Len := by simp [Py.mac1Len]
  simp only [Py.mac1Verify, if_neg hlen, mac1Compute_eq same, Py.ok_bind, Py.pure_eq_ok, zipWith_xor_self,
    decide_true]

theorem dataNonce_eq (same : SamePrimitives nb c) (assocId tsn : UInt32) :
    Py.dataNonce nb assocId.toNat tsn.toNat = .ok (Icsp.dataNonce c assocId tsn).val := by
  simp only [Py.dataNonce, toBytes_u32, same.sha512, Py.ok_bind, Py.pure_eq_ok]
  rw [take_eq_slice (by simp)]
  rfl

theorem chunkPut_eq (type : UInt8) {d : Bytes} (h : d.length < 2 ^ 16) :
    Py.chunkPut type d = .ok (Icsp.icspChunkPut type d.length ++ d) := by
  have hfit : ¬ 0xFFFF < d.length := by omega
  have hlen : Py.toBytes d.length 2 = .ok (Py.bigEndian d.length 2) := toBytes_ok (by omega)
  simp only [Py.chunkPut, if_neg hfit, hlen, Py.ok_bind, Py.pure_eq_ok]
  simp [Py.bigEndian, Icsp.icspChunkPut]

theorem sealBlob_eq (same : SamePrimitives nb c) (key : Arr 32) (nonce : Arr 24) {m : Bytes}
    (h : m.length ≤ 2048) :
    Py.sealBlob nb key.val nonce.val m = .ok (ed25519Secretbox c m nonce key) := by
  rw [ed25519Secretbox, if_neg (by omega), same.encrypt, Py.sealBlob, sized_arr, Py.ok_bind, sized_arr]
  rfl

/-- The DATA chunks of one message are the same bytes. -/
theorem dataChunk_eq (same : SamePrimitives nb c) {q : Py.Assoc} {assocId : UInt32} {key : Arr 32}
    (haid : q.assocId = assocId.toNat) (hkey : q.sendKey = key.val) (m : Icsp.DataMsg)
    (h : m.msg.length ≤ 1400) :
    Py.dataChunk nb q m.tsn.toNat m.streamId.toNat m.seq.toNat m.msg = .ok (m.chunk c assocId key) := by
  have hclear : put32 m.tsn ++ put16 m.streamId ++ put16 m.seq ++ m.msg = m.clear := rfl
  have htake : m.clear.take 8 = Icsp.dataHeader m.tsn m.streamId m.seq := rfl
  have hbox : (m.box c assocId key).length = 8 + m.msg.length + 32 := by
    rw [Icsp.DataMsg.box, ed25519Secretbox_length, m.clear_length]
  have hlen : (Icsp.dataHeader m.tsn m.streamId m.seq ++ m.box c assocId key).length =
      4 + 2 + 2 + 32 + 8 + m.msg.length := by
    rw [List.length_append, Icsp.dataHeader_length, hbox]
    omega
  have hput := chunkPut_eq Py.chunkData
    (d := Icsp.dataHeader m.tsn m.streamId m.seq ++ m.box c assocId key) (by omega)
  simp only [Py.dataChunk, toBytes_u32, toBytes_u16, haid, hkey, hclear, dataNonce_eq same,
    sealBlob_eq same _ _ (m := m.clear) (by rw [m.clear_length]; omega), htake, Py.ok_bind]
  rw [hlen] at hput
  exact hput


/-- The ICSP packets inside frames. -/
def packets (frames : List Bytes) : List Bytes := frames.map framePayload

/-- The associations of the two implementations number, address and seal their next message
on stream `sid` alike. -/
structure SameSender (a : Icsp.IcspAssoc) (q : Py.Assoc) (sid : UInt16) : Prop where
  srcPort : q.srcPort = a.srcPort.toNat
  dstPort : q.dstPort = a.dstPort.toNat
  assocId : q.assocId = a.assocId.toNat
  sendKey : q.sendKey = a.sendKey.val
  nextTsn : q.nextTsn = a.nextTsn.toNat
  sendSeq : (Py.stream q.streams sid.toNat).2.sendSeq = (Icsp.sendSeq a sid).toNat

/-- What `_send_chunk` needs of the link: real MAC addresses and 40-bit addresses. -/
structure Wired (q : Py.Assoc) : Prop where
  mac : q.mac.length = 6
  peerMac : ∀ m, q.peerMac = some m → m.length = 6
  srcAddr : q.srcAddr < 2 ^ 40
  dstAddr : q.dstAddr < 2 ^ 40

theorem Wired.dstMac {q : Py.Assoc} (h : Wired q) : (q.peerMac.getD Py.bcastMac).length = 6 := by
  cases hp : q.peerMac with
  | none => rfl
  | some m => exact h.peerMac m hp

/-- A chunk that fits goes out in the packet of its ports and association id. -/
theorem sendChunk_ok {q : Py.Assoc} (hw : Wired q) {sp dp : UInt16} {aid : UInt32}
    (hsp : q.srcPort = sp.toNat) (hdp : q.dstPort = dp.toNat) (haid : q.assocId = aid.toNat)
    {chunk : Bytes} (h : chunk.length ≤ 1388) :
    ∃ frame, Py.sendChunk q chunk = .ok frame ∧
      Carries ⟨q.mac, hw.mac⟩ (.ofNat q.srcAddr) (.ofNat q.dstAddr) (packet sp dp aid chunk) frame := by
  have hlt : 2 ^ 40 < UInt64.size := by decide
  have hsrc := UInt64.toNat_ofNat_of_lt' (hw.srcAddr.trans hlt)
  have hdst := UInt64.toNat_ofNat_of_lt' (hw.dstAddr.trans hlt)
  have hframe := buildFrame_eq ⟨q.peerMac.getD Py.bcastMac, hw.dstMac⟩ ⟨q.mac, hw.mac⟩
    (s := .ofNat q.srcAddr) (d := .ofNat q.dstAddr) sp dp (p := packet sp dp aid chunk)
    (by rw [hsrc]; exact hw.srcAddr) (by rw [hdst]; exact hw.dstAddr)
    (by rw [packet_length]; omega)
  rw [hsrc, hdst] at hframe
  simp only [Py.sendChunk, hsp, hdp, haid, buildPkt_eq sp dp aid h, Py.ok_bind]
  exact ⟨_, hframe, ⟨_, hw.dstMac⟩, sp, dp, rfl⟩

theorem sendChunk_error {q : Py.Assoc} {chunk : Bytes} (h : 1388 < chunk.length) :
    Py.sendChunk q chunk = .error (.valueError "ICSP packet too large") := by
  simp only [Py.sendChunk, buildPkt_error _ _ _ h, Py.error_bind]

theorem Carries.payload {mac : Arr 6} {src dst : UInt64} {pkt frame : Bytes}
    (h : Carries mac src dst pkt frame) : framePayload frame = pkt := by
  obtain ⟨dm, sp, dp, rfl⟩ := h
  exact framePayload_built ..

/-- The packet of a message: nothing when it exceeds what a packet holds. -/
def dataPackets (c : TweetNaCl) (a : Icsp.IcspAssoc) (m : Icsp.DataMsg) : List Bytes :=
  if m.msg.length ≤ Icsp.maxSendable then
    [packet a.srcPort a.dstPort a.assocId (m.chunk c a.assocId a.sendKey)]
  else []

/-- What `icsp_data_send` puts on a network that takes every frame. -/
theorem icspDataSend_packets (io : Icsp.Io) {a : Icsp.IcspAssoc} {sid : UInt16} (msg : Bytes)
    (hk : a.hasKey = true) (hslot : (Icsp.getStream a sid).2.isSome = true)
    (hnet : ∀ f, io.netOk f = true) :
    packets (Icsp.txFrames (Icsp.icspDataSend c io a sid msg).2.1) =
      dataPackets c a ⟨a.nextTsn, sid, Icsp.sendSeq a sid, msg⟩ := by
  by_cases hfit : msg.length ≤ Icsp.maxSendable
  · obtain ⟨ss, q, -, -, hframes, -⟩ := Icsp.icspDataSend_goes c io a sid msg hk hslot hfit (hnet _)
    have hframes' : Icsp.txFrames (Icsp.icspDataSend c io a sid msg).2.1 =
        [Icsp.dataFrame c a ⟨a.nextTsn, sid, Icsp.sendSeq a sid, msg⟩] := hframes
    have hpay := Icsp.framePayload_assocFrame a
      (Icsp.DataMsg.chunk c ⟨a.nextTsn, sid, Icsp.sendSeq a sid, msg⟩ a.assocId a.sendKey) []
    simp only [List.append_nil] at hpay
    rw [hframes', dataPackets, if_pos hfit, packets, List.map_singleton, Icsp.dataFrame, hpay, assocPkt_eq]
  · rw [dataPackets, if_neg hfit]
    rcases Icsp.icspDataSend_cases c io a sid msg with ⟨ss, hsend, -, -⟩ | ⟨-, -, -, ss, hsend, -, -⟩
    · rw [hsend]
      rfl
    · rw [hsend]
      rcases Icsp.sealSend_cases c io a ⟨a.nextTsn, sid, Icsp.sendSeq a sid, msg⟩ with ⟨-, hle, -⟩ | hseal
      · exact absurd hle hfit
      · simp only [hseal]
        rfl

/-- What `data_send` puts on its transport. -/
theorem dataSend_packets (same : SamePrimitives nb c) (io : Py.Io) {a : Icsp.IcspAssoc} {q : Py.Assoc}
    {sid : UInt16} (h : SameSender a q sid) (hw : Wired q) (msg : Bytes) :
    packets (Py.dataSend nb io q sid.toNat msg).2.1 =
      dataPackets c a ⟨a.nextTsn, sid, Icsp.sendSeq a sid, msg⟩ := by
  have hkey : q.sendKey ≠ [] := by
    intro hnil
    have hlen := a.sendKey.length
    rw [← h.sendKey, hnil] at hlen
    cases hlen
  rw [Py.dataSend, if_neg hkey, dataPackets]
  by_cases hbig : Py.icspMaxPayload - 56 < msg.length
  · have hfit : ¬ msg.length ≤ Icsp.maxSendable := by
      simp only [Py.icspMaxPayload, Icsp.maxSendable] at hbig ⊢
      omega
    rw [if_pos hbig, if_neg hfit]
    rfl
  · have hlen : msg.length ≤ 1344 := by
      simp only [Py.icspMaxPayload] at hbig
      omega
    have hseq := h.sendSeq
    rw [if_neg hbig]
    revert hseq
    generalize Py.stream q.streams sid.toNat = res
    obtain ⟨streams, s⟩ := res
    intro hseq
    have hchunk := dataChunk_eq same
      (q := { q with streams := streams, nextTsn := (q.nextTsn + 1) &&& 0xFFFFFFFF }) h.assocId h.sendKey
      ⟨a.nextTsn, sid, Icsp.sendSeq a sid, msg⟩ (by simp only; omega)
    have hclen := Icsp.DataMsg.chunk_length c ⟨a.nextTsn, sid, Icsp.sendSeq a sid, msg⟩ a.assocId a.sendKey
    simp only at hseq hchunk hclen
    simp only [h.nextTsn, hseq] at hchunk ⊢
    simp only [hchunk]
    by_cases hfit : msg.length ≤ Icsp.maxSendable
    · have hfit' : msg.length ≤ 1336 := hfit
      obtain ⟨frame, hsend, hcar⟩ := sendChunk_ok
        (q := { q with streams := streams, nextTsn := (a.nextTsn.toNat + 1) &&& 0xFFFFFFFF })
        ⟨hw.mac, hw.peerMac, hw.srcAddr, hw.dstAddr⟩ h.srcPort h.dstPort h.assocId (by rw [hclen]; omega)
      rw [if_pos hfit, hsend]
      simp only [packets, List.map_singleton, hcar.payload]
    · have hfit' : ¬ msg.length ≤ 1336 := hfit
      rw [if_neg hfit, sendChunk_error (by rw [hclen]; omega)]
      rfl

end Interop
