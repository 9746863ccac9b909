import BaitNet.Wire

/-!
# Frames, checksum and rate limit below ICSP

`l2.c` builds the Ethernet + IPv69 frame, `icsp.c` sums it with CRC-32C and
`ratelimit.c` keeps one token bucket per sender. The frame layout is 14 bytes of
Ethernet header, 32 bytes of IPv69 header, then the payload.
-/
namespace Link

open Wire

def crcRound (c : UInt32) : UInt32 :=
  if c &&& 1 = 1 then (0x82F63B78 : UInt32) ^^^ (c >>> 1) else c >>> 1

/-- Entry `i` of `crc_table`: eight rounds of the reflected polynomial. -/
def crcTable (i : UInt32) : UInt32 := crcRound^[8] i

def crcStep (c : UInt32) (b : UInt8) : UInt32 :=
  crcTable ((c ^^^ b.toUInt32) &&& 0xff) ^^^ (c >>> 8)

def icspCrc32c (data : Bytes) : UInt32 := foldWord crcStep 0xFFFFFFFF data ^^^ 0xFFFFFFFF

def ipv69HeaderLen : Nat := 32
def ipv69NextControl : UInt8 := 0
def ipv69NextStream : UInt8 := 2

/-- Bytes before the payload: Ethernet header and IPv69 header. -/
def frameHeaderLen : Nat := 14 + ipv69HeaderLen

def bcastMac : Arr 6 := ⟨List.replicate 6 0xff, rfl⟩

def buildFrame (dstMac srcMac : Arr 6) (src dst : UInt64) (nextHeader hopLimit : UInt8)
    (srcPort dstPort : UInt16) (payload : Bytes) : Bytes :=
  dstMac.val ++ srcMac.val ++ put16 0x6969 ++
    ([0x69, 0] ++ put16 (.ofNat payload.length) ++ put16 1 ++
      [nextHeader, if hopLimit = 0 then 64 else hopLimit, 1, 0] ++
      put16 srcPort ++ put16 dstPort ++ [0, 0, 0, 0] ++ put40 src ++ [0, 0] ++ put40 dst ++ [0, 0]) ++
    payload

def frameSrcMac (frame : Bytes) : Arr 6 := arr frame 6 6
def frameNextHeader (frame : Bytes) : UInt8 := byteAt frame (14 + 6)
def frameSource (frame : Bytes) : UInt64 := get40 frame (14 + 18)
def frameDest (frame : Bytes) : UInt64 := get40 frame (14 + 25)
def framePayload (frame : Bytes) : Bytes := frame.drop frameHeaderLen

section BuildFrame

variable (dstMac srcMac : Arr 6) (src dst : UInt64) (nh hop : UInt8) (sp dp : UInt16)
variable (payload rest : Bytes)

theorem buildFrame_length :
    (buildFrame dstMac srcMac src dst nh hop sp dp payload).length = 46 + payload.length := by
  simp [buildFrame]
  omega

/-- A receive buffer that starts with a built frame shows its payload, with
whatever the buffer held before behind it. -/
theorem framePayload_build :
    framePayload (buildFrame dstMac srcMac src dst nh hop sp dp payload ++ rest) = payload ++ rest := by
  rw [buildFrame, List.append_assoc, framePayload]
  exact List.drop_left' (by simp [frameHeaderLen, ipv69HeaderLen])

theorem frameSrcMac_build :
    frameSrcMac (buildFrame dstMac srcMac src dst nh hop sp dp payload ++ rest) = srcMac := by
  simp only [buildFrame, frameSrcMac, List.append_assoc]
  rw [arr_append_right _ _ _ _ (by simp), dstMac.length, Nat.sub_self, arr_append_exact]

theorem frameNextHeader_build :
    frameNextHeader (buildFrame dstMac srcMac src dst nh hop sp dp payload ++ rest) = nh := by
  simp only [buildFrame, frameNextHeader, List.append_assoc]
  rw [byteAt_append_right _ _ _ (by simp), byteAt_append_right _ _ _ (by simp),
    byteAt_append_right _ _ _ (by simp), byteAt_append_right _ _ _ (by simp),
    byteAt_append_right _ _ _ (by simp), byteAt_append_right _ _ _ (by simp)]
  simp

theorem frameSource_build (h : src.toNat < 2 ^ 40) :
    frameSource (buildFrame dstMac srcMac src dst nh hop sp dp payload ++ rest) = src := by
  simp only [buildFrame, frameSource, List.append_assoc]
  iterate 10 rw [get40_append_right _ _ _ (by simp)]
  simpa using get40_put40 src _ h

theorem frameDest_build (h : dst.toNat < 2 ^ 40) :
    frameDest (buildFrame dstMac srcMac src dst nh hop sp dp payload ++ rest) = dst := by
  simp only [buildFrame, frameDest, List.append_assoc]
  iterate 12 rw [get40_append_right _ _ _ (by simp)]
  simpa using get40_put40 dst _ h

/-! The frame alone, with nothing behind it. -/

@[simp] theorem framePayload_built : framePayload (buildFrame dstMac srcMac src dst nh hop sp dp payload) = payload := by
  have h := framePayload_build dstMac srcMac src dst nh hop sp dp payload []
  rwa [List.append_nil, List.append_nil] at h

@[simp] theorem frameSrcMac_built : frameSrcMac (buildFrame dstMac srcMac src dst nh hop sp dp payload) = srcMac := by
  have h := frameSrcMac_build dstMac srcMac src dst nh hop sp dp payload []
  rwa [List.append_nil] at h

@[simp] theorem frameNextHeader_built :
    frameNextHeader (buildFrame dstMac srcMac src dst nh hop sp dp payload) = nh := by
  have h := frameNextHeader_build dstMac srcMac src dst nh hop sp dp payload []
  rwa [List.append_nil] at h

theorem frameDest_built (h : dst.toNat < 2 ^ 40) :
    frameDest (buildFrame dstMac srcMac src dst nh hop sp dp payload) = dst := by
  have hdest := frameDest_build dstMac srcMac src dst nh hop sp dp payload [] h
  rwa [List.append_nil] at hdest

end BuildFrame

structure RateBucket where
  id : Arr 8
  used : Bool
  tokens : UInt32
  lastMs : UInt32
  deriving DecidableEq

def rateSlots : Nat := 64

def rateInit : List RateBucket := List.replicate rateSlots ⟨Arr.zero 8, false, 0, 0⟩

/-- The table scan: the slot of `id`, or else the slot to take over, which is the
first free one or the one refilled longest ago. -/
def rateScan (id : Arr 8) : List RateBucket → Nat → Nat → UInt32 → Nat × Bool
  | [], _, oldest, _ => (oldest, false)
  | c :: cs, i, oldest, oldestTs =>
    if c.used ∧ c.id = id then (i, true)
    else if ¬ c.used then (i, false)
    else if c.lastMs < oldestTs then rateScan id cs (i + 1) i c.lastMs
    else rateScan id cs (i + 1) oldest oldestTs

def rateRefill (now : UInt32) (ratePerS burst : Nat) (b : RateBucket) : RateBucket :=
  let elapsed := now - b.lastMs
  if 0 < elapsed then
    let tokens := UInt32.ofNat (b.tokens.toNat + ratePerS * elapsed.toNat / 1000)
    { b with tokens := if (UInt32.ofNat burst) < tokens then .ofNat burst else tokens, lastMs := now }
  else b

/-- `rate_allow`: 1 and the cost deducted, or 0 and the bucket emptied. -/
def rateAllow (table : List RateBucket) (now : UInt32) (id : Arr 8) (ratePerS burst cost : Nat) :
    List RateBucket × Bool :=
  let (i, found) := rateScan id table 0 0 0xFFFFFFFF
  let b := if found then table.getD i ⟨id, true, .ofNat burst, now⟩ else ⟨id, true, .ofNat burst, now⟩
  let b := rateRefill now ratePerS burst b
  if b.tokens < .ofNat cost then (table.set i { b with tokens := 0 }, false)
  else (table.set i { b with tokens := b.tokens - .ofNat cost }, true)

end Link
