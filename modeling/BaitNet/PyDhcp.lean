import BaitNet.Tun
import BaitNet.EstablishedPy

/-!
# The address client of the Python implementation

`core/dhcp.py`: the messages it builds, the frames that carry them and its check of a reply.
The waiting around them is left out.
-/
namespace Py

open Wire

def bcastAddr : Nat := 0xFFFFFFFFFF
def nextControl : UInt8 := 0
def ctrlDhcpDiscover : UInt8 := 7
def ctrlDhcpOffer : UInt8 := 8
def ctrlDhcpRequest : UInt8 := 9
def ctrlDhcpAck : UInt8 := 10
def macLen : Nat := 6
def addrLen : Nat := 5

variable (nb : PyNaCl)

/-- `_signed_body`, with the message as it leaves it. -/
def signedBody (msg : Bytes) (seed : Option Bytes) : Except Exn Bytes :=
  match seed with
  | none => return msg
  | some seed => do
    let pub ← seedToPub nb seed
    let sig ← sign nb seed msg
    return msg ++ pub ++ sig

def tag (msg : Bytes) (dstAddr : Nat) : Except Exn Bytes := do
  let key ← keyFor nb dstAddr
  let t ← mac1Compute key msg
  return msg ++ t

/-- `_msg`. -/
def dhcpMsg (ctype : UInt8) (mac : Bytes) (seed : Option Bytes) (extra : Bytes) : Except Exn Bytes := do
  let msg ← signedBody nb (ctype :: (mac ++ extra)) seed
  tag nb msg bcastAddr

/-- The header that `build_frame` packs for `_frame`. -/
def controlHeader (plen : Nat) : IpV69Header :=
  ⟨plen, 1, nextControl, 64, flagNofrag, 0, 0, 0, [0, 0, 0, 0], 0, [0, 0], bcastAddr, [0, 0], ipv69Version⟩

/-- `_frame`. -/
def dhcpFrame (payload myMac : Bytes) : Except Exn Bytes := do
  if bcastMac.length ≠ 6 ∨ myMac.length ≠ 6 then throw (.valueError "MAC addresses are 6 bytes")
  let ethertype ← toBytes ethertypeIpv69 2
  let header ← (controlHeader payload.length).pack
  return bcastMac ++ myMac ++ ethertype ++ header ++ payload

/-- What `discover` sends. -/
def discoverFrame (mac : Bytes) (seed : Option Bytes) : Except Exn Bytes := do
  let msg ← dhcpMsg nb ctrlDhcpDiscover mac seed []
  dhcpFrame msg mac

/-- What `request` sends. -/
def requestFrame (mac : Bytes) (addr : Nat) (seed : Option Bytes) : Except Exn Bytes := do
  let a ← toBytes addr 5
  let msg ← dhcpMsg nb ctrlDhcpRequest mac seed a
  dhcpFrame msg mac

/-- The signature check of `_parse_reply`. -/
def replyTrusted (data : Bytes) : Option Bytes → Bool
  | none => true
  | some serverPub =>
    let body := data.length - 96
    if data.length ≤ 96 ∨ cut data body (body + 32) ≠ serverPub then false
    else verify nb serverPub (cut data (body + 32) (body + 96)) (data.take body)

/-- `_parse_reply`: the address and the lease time. -/
def parseReply (frameBytes : Bytes) (expect : UInt8) (myMac : Bytes) (serverPub : Option Bytes) : Option (Nat × Nat) :=
  match parseFrame frameBytes with
  | .error _ => none
  | .ok frame =>
    let data := frame.payload
    if data.length < 1 + macLen + addrLen + 4 ∨ byteAt data 0 ≠ expect then none
    else if cut data 1 (1 + macLen) ≠ myMac then none
    else if !replyTrusted nb data serverPub then none
    else some (fromBytes (cut data 7 12), fromBytes (cut data 12 16))

end Py

namespace Interop

open Wire Link Crypto

variable {nb : Py.PyNaCl} {c : TweetNaCl}

/-- The key pair of a seed, as the C programs hold it. -/
def keypair (c : TweetNaCl) (seed : Arr 32) : Arr 64 := ⟨seed.val ++ (c.seedToPk seed).val, by simp⟩

theorem keypair_seed (seed : Arr 32) : arr (keypair c seed).val 0 32 = seed := arr_append_exact seed _

theorem keypair_pub (seed : Arr 32) : arr (keypair c seed).val 32 32 = c.seedToPk seed := by
  rw [keypair, arr_append_right _ _ _ _ seed.length.le, seed.length]
  exact arr_self _

/-- A message with the key and the signature behind it. -/
def signed (c : TweetNaCl) (seed : Arr 32) (msg : Bytes) : Bytes :=
  msg ++ (c.seedToPk seed).val ++ (c.sign msg seed).val

@[simp] theorem signed_length (seed : Arr 32) (msg : Bytes) : (signed c seed msg).length = msg.length + 96 := by
  simp [signed]

section Layout

variable (seed : Arr 32) (msg rest : Bytes)

theorem signed_body : slice (signed c seed msg ++ rest) 0 msg.length = msg := by
  rw [signed, List.append_assoc, List.append_assoc, slice_append_exact]

theorem signed_pub : arr (signed c seed msg ++ rest) msg.length 32 = c.seedToPk seed := by
  rw [signed, List.append_assoc, List.append_assoc, arr_append_right _ _ _ _ le_rfl, Nat.sub_self, arr_append_exact]

theorem signed_sig : arr (signed c seed msg ++ rest) (msg.length + 32) 64 = c.sign msg seed := by
  have hfront : (msg ++ (c.seedToPk seed).val).length = msg.length + 32 := by simp
  rw [signed, List.append_assoc, arr_append_right _ _ _ _ hfront.le, hfront, Nat.sub_self, arr_append_exact]

end Layout

theorem tun_signMsg {t : Tun.Transport} {seed : Arr 32} (hsk : t.hasSk = true) (hkey : t.sk = keypair c seed) (msg : Bytes) :
    Tun.signMsg c t msg = signed c seed msg := by
  rw [Tun.signMsg, if_pos hsk, hkey, keypair_pub, ed25519Sign, keypair_seed]
  rfl

/-- The message of a client: signed, with its mac1 tag. -/
def clientMsg (c : TweetNaCl) (seed : Arr 32) (body : Bytes) : Bytes := Tun.withMac1 c (signed c seed body)

theorem clientMsg_length (seed : Arr 32) (body : Bytes) : (clientMsg c seed body).length = body.length + 112 := by
  rw [clientMsg, Tun.withMac1, List.length_append, signed_length, Arr.length]

theorem dhcpMsg_eq (same : SamePrimitives nb c) (ctype : UInt8) (mac : Arr 6) (seed : Arr 32) (extra : Bytes) :
    Py.dhcpMsg nb ctype mac.val (some seed.val) extra = .ok (clientMsg c seed (ctype :: (mac.val ++ extra))) := by
  have hbcast : Dhcp.ipv69BcastAddr.toNat < 2 ^ 40 := by decide
  rw [Py.dhcpMsg, Py.signedBody, seedToPub_eq same, Py.ok_bind, sign_eq same, Py.ok_bind, Py.pure_eq_ok, Py.ok_bind, Py.tag,
    show Py.bcastAddr = Dhcp.ipv69BcastAddr.toNat from rfl, keyFor_eq same hbcast, Py.ok_bind, mac1Compute_eq same, Py.ok_bind]
  rfl

theorem dhcpFrame_eq (mac : Arr 6) {msg : Bytes} (h : msg.length < 2 ^ 16) :
    Py.dhcpFrame msg mac.val = .ok (buildFrame bcastMac mac 0 Dhcp.ipv69BcastAddr ipv69NextControl 64 0 0 msg) := by
  have hmac : ¬ (Py.bcastMac.length ≠ 6 ∨ mac.val.length ≠ 6) := by simp [Py.bcastMac]
  have hseq : ¬ ([0, 0, 0, 0] : Bytes).length ≠ 4 := by simp
  have hone : Py.toBytes 1 2 = .ok (put16 1) := toBytes_u16 1
  have hzero : Py.toBytes 0 2 = .ok (put16 0) := toBytes_u16 0
  have htype : Py.toBytes Py.ethertypeIpv69 2 = .ok (put16 0x6969) := toBytes_u16 0x6969
  have hsrc : Py.toBytes 0 5 = .ok (put40 0) := toBytes_addr (v := 0) (by decide)
  have hdst : Py.toBytes Py.bcastAddr 5 = .ok (put40 Dhcp.ipv69BcastAddr) := toBytes_addr (v := Dhcp.ipv69BcastAddr) (by decide)
  simp only [Py.dhcpFrame, if_neg hmac, Py.IpV69Header.pack, Py.controlHeader, if_neg hseq, toBytes_len h, hone, hzero,
    htype, hsrc, hdst]
  rfl

/-- What a client asks for. -/
inductive Ask where
  | discover
  | request (addr : UInt64)

def Ask.ctype : Ask → UInt8
  | .discover => Dhcp.ctrlDhcpDiscover
  | .request _ => Dhcp.ctrlDhcpRequest

def Ask.extra : Ask → Bytes
  | .discover => []
  | .request addr => put40 addr

/-- The bytes that are signed. -/
def Ask.body (ask : Ask) (mac : Arr 6) : Bytes := ask.ctype :: (mac.val ++ ask.extra)

/-- A requested address has 40 bits. -/
def Ask.Fits : Ask → Prop
  | .discover => True
  | .request addr => addr.toNat < 2 ^ 40

def pyFrame (nb : Py.PyNaCl) (seed : Arr 32) (mac : Arr 6) : Ask → Except Py.Exn Bytes
  | .discover => Py.discoverFrame nb mac.val (some seed.val)
  | .request addr => Py.requestFrame nb mac.val addr.toNat (some seed.val)

/-- The frame of a signed message from either client. -/
inductive Sent (nb : Py.PyNaCl) (c : TweetNaCl) (seed : Arr 32) (mac : Arr 6) (ask : Ask) : Bytes → Prop
  | c (t : Tun.Transport) (hsk : t.hasSk = true) (hkey : t.sk = keypair c seed) (hmac : t.mac = mac) :
    Sent nb c seed mac ask
      (Tun.rawFrame t.mac (Tun.withMac1 c (Tun.signMsg c t (ask.ctype :: (t.mac.val ++ ask.extra)))))
  | python (frame : Bytes) (h : pyFrame nb seed mac ask = .ok frame) : Sent nb c seed mac ask frame

theorem Ask.body_length (ask : Ask) (mac : Arr 6) : 7 ≤ (ask.body mac).length ∧ (ask.body mac).length ≤ 12 := by
  cases ask with
  | discover => simp [Ask.body, Ask.extra]
  | request addr => simp [Ask.body, Ask.extra]

theorem pyFrame_eq (same : SamePrimitives nb c) (seed : Arr 32) (mac : Arr 6) {ask : Ask} (h : ask.Fits) :
    pyFrame nb seed mac ask =
      .ok (buildFrame bcastMac mac 0 Dhcp.ipv69BcastAddr ipv69NextControl 64 0 0 (clientMsg c seed (ask.body mac))) := by
  have hlen := clientMsg_length (c := c) seed (ask.body mac)
  have hbody := ask.body_length mac
  have hshort : (clientMsg c seed (ask.body mac)).length < 2 ^ 16 := by omega
  have hframe := dhcpFrame_eq mac hshort
  cases ask with
  | discover =>
    rw [pyFrame, Py.discoverFrame, dhcpMsg_eq same, Py.ok_bind]
    exact hframe
  | request addr =>
    rw [pyFrame, Py.requestFrame, toBytes_addr h, Py.ok_bind, dhcpMsg_eq same, Py.ok_bind]
    exact hframe

/-- What the server takes from a control frame to everyone. -/
theorem recvCtrl_control {frame pkt : Bytes} (hlen : 47 ≤ frame.length) (hnext : frameNextHeader frame = ipv69NextControl)
    (hdest : frameDest frame = Dhcp.ipv69BcastAddr) (hpay : framePayload frame = pkt) :
    Dhcp.Server.recvCtrl frame = some (Dhcp.ipv69BcastAddr, pkt) := by
  have hlong : ¬ frame.length < 14 + ipv69HeaderLen + 1 := by
    simp only [ipv69HeaderLen]
    omega
  rw [Dhcp.Server.recvCtrl, if_neg hlong, if_neg (not_not.mpr hnext), hdest, if_neg (fun h => h.1 rfl), hpay]

theorem recvCtrl_build (mac : Arr 6) {pkt : Bytes} (h : 1 ≤ pkt.length) :
    Dhcp.Server.recvCtrl (buildFrame bcastMac mac 0 Dhcp.ipv69BcastAddr ipv69NextControl 64 0 0 pkt) =
      some (Dhcp.ipv69BcastAddr, pkt) := by
  refine recvCtrl_control ?_ (frameNextHeader_built ..) (frameDest_built _ _ _ _ _ _ _ _ _ (by decide)) (framePayload_built ..)
  rw [buildFrame_length]
  omega

theorem recvCtrl_raw (mac : Arr 6) {pkt : Bytes} (h : 1 ≤ pkt.length) :
    Dhcp.Server.recvCtrl (Tun.rawFrame mac pkt) = some (Dhcp.ipv69BcastAddr, pkt) := by
  refine recvCtrl_control ?_ ?_ ?_ ?_
  · simp [Tun.rawFrame]
    omega
  · simp only [Tun.rawFrame, frameNextHeader, List.append_assoc]
    iterate 6 rw [byteAt_append_right _ _ _ (by simp)]
    simp
  · simp only [Tun.rawFrame, frameDest, List.append_assoc]
    iterate 12 rw [get40_append_right _ _ _ (by simp)]
    simpa using get40_put40 Dhcp.ipv69BcastAddr _ (by decide)
  · rw [Tun.rawFrame, framePayload]
    exact List.drop_left' (by simp [frameHeaderLen, ipv69HeaderLen])

/-- The server gets the same bytes from both clients. -/
theorem Sent.payload (same : SamePrimitives nb c) {seed : Arr 32} {mac : Arr 6} {ask : Ask} (hfits : ask.Fits) {frame : Bytes}
    (h : Sent nb c seed mac ask frame) :
    Dhcp.Server.recvCtrl frame = some (Dhcp.ipv69BcastAddr, clientMsg c seed (ask.body mac)) := by
  have hlen : 1 ≤ (clientMsg c seed (ask.body mac)).length := by
    rw [clientMsg_length]
    omega
  cases h with
  | c t hsk hkey hmac =>
    rw [tun_signMsg hsk hkey, hmac]
    exact recvCtrl_raw mac hlen
  | python frame h =>
    rw [pyFrame_eq same seed mac hfits] at h
    rw [← Except.ok.inj h]
    exact recvCtrl_build mac hlen

theorem parseFrame_build (dm mac : Arr 6) (src dst : UInt64) (nh : UInt8) (sp dp : UInt16) {pkt : Bytes} (h : pkt.length < 2 ^ 16) :
    ∃ fr, Py.parseFrame (buildFrame dm mac src dst nh 64 sp dp pkt) = .ok fr ∧ fr.payload = pkt := by
  have hparts : buildFrame dm mac src dst nh 64 sp dp pkt = dm.val ++ (mac.val ++ (put16 0x6969 ++
      (([0x69, 0] ++ (put16 (.ofNat pkt.length) ++ (put16 1 ++ ([nh, 64, 1, 0] ++ (put16 sp ++ (put16 dp ++
        ([0, 0, 0, 0] ++ (put40 src ++ ([0, 0] ++ (put40 dst ++ [0, 0])))))))))) ++ pkt))) := by
    simp only [buildFrame, List.append_assoc]
    rfl
  rw [hparts]
  exact ⟨_, parseFrame_parts dm mac (by simp) (unpack_payloadLen h _), rfl⟩

/-- `_parse_reply` takes a trusted reply of the server that names its MAC. -/
theorem parseReply_build (dm mac : Arr 6) {pkt : Bytes} (hlen : 16 ≤ pkt.length) (hshort : pkt.length < 2 ^ 16)
    (hmac : arr pkt 1 6 = dm) {serverPub : Option Bytes} (htrust : Py.replyTrusted nb pkt serverPub = true) :
    Py.parseReply nb (buildFrame dm mac Dhcp.ipv69ServerAddr Dhcp.ipv69BcastAddr ipv69NextControl 64 0 0 pkt) (byteAt pkt 0)
      dm.val serverPub = some ((get40 pkt 7).toNat, (get32 pkt 12).toNat) := by
  obtain ⟨fr, hparse, hpay⟩ := parseFrame_build dm mac Dhcp.ipv69ServerAddr Dhcp.ipv69BcastAddr ipv69NextControl 0 0 hshort
  have hfor : Py.cut pkt 1 (1 + Py.macLen) = dm.val := by
    rw [← hmac]
    exact cut_eq_slice (by simp only [Py.macLen]; omega)
  have hlong : ¬ (pkt.length < 1 + Py.macLen + Py.addrLen + 4 ∨ byteAt pkt 0 ≠ byteAt pkt 0) := by
    rw [not_or, not_not]
    exact ⟨by simp only [Py.macLen, Py.addrLen]; omega, rfl⟩
  have haddr := fromBytes_addr (b := pkt) (i := 7) (by omega)
  have hlease := fromBytes_u32 (b := pkt) (i := 12) (by omega)
  simp only [Py.parseReply, hparse]
  rw [hpay, if_neg hlong, hfor, if_neg (not_not.mpr rfl), htrust, Bool.not_true, if_neg Bool.false_ne_true, haddr, hlease]

/-- A message that is signed by the pinned key is trusted. -/
theorem replyTrusted_signed (same : SamePrimitives nb c) (seed : Arr 32) {msg : Bytes} (h : msg ≠ []) :
    Py.replyTrusted nb (signed c seed msg) (some (c.seedToPk seed).val) = true := by
  have hpos := List.length_pos_of_ne_nil h
  have hlen := signed_length (c := c) seed msg
  have hpub := congrArg Subtype.val (signed_pub (c := c) seed msg [])
  have hsig := congrArg Subtype.val (signed_sig (c := c) seed msg [])
  have hbody : (signed c seed msg).take msg.length = msg := by
    rw [signed, List.append_assoc, List.take_left]
  rw [List.append_nil, arr_val] at hpub hsig
  rw [Py.replyTrusted, hlen, Nat.add_sub_cancel, cut_eq_slice (by omega), hpub, if_neg (by rintro (hle | hne); exacts [by omega, hne rfl]),
    show msg.length + 96 = msg.length + 32 + 64 from rfl, cut_eq_slice (by omega), hsig, hbody]
  exact verify_eq same seed msg

end Interop
