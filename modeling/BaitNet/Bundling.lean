import BaitNet.Bundle
import BaitNet.SessionSpec

/-!
# Bundled chunks

One packet with many chunks against one packet for every chunk, through `icsp_handle_frame`.
-/
namespace Icsp

open Wire Link Crypto

/-- What stands around the chunks of a frame: Ethernet and IPv69 header, and the ICSP header up to its
checksum. -/
structure Envelope where
  link : Arr 46
  front : Arr 10

namespace Envelope

variable (e : Envelope) (body stale : Bytes)

def packet : Bytes := e.front.val ++ put16 (icspCrc32c (e.front.val ++ [0, 0] ++ body)).toUInt16 ++ body

def frame : Bytes := e.link.val ++ e.packet body

/-- The frame of another station, for ICSP. -/
def Foreign (a : IcspAssoc) : Prop :=
  frameNextHeader e.link.val = ipv69NextStream ∧
    (frameSrcMac e.link.val ≠ a.srcMac ∨ get16 e.front.val 0 ≠ a.srcPort)

instance (a : IcspAssoc) : Decidable (e.Foreign a) := inferInstanceAs (Decidable (_ ∧ _))

@[simp] theorem packet_length : (e.packet body).length = 12 + body.length := by
  simp [packet]
  omega

@[simp] theorem frame_length : (e.frame body).length = 58 + body.length := by
  simp [frame]
  omega

theorem framePayload_frame : framePayload (e.frame body ++ stale) = e.packet body ++ stale := by
  rw [frame, List.append_assoc, framePayload]
  exact List.drop_left' e.link.length

theorem packet_drop : (e.packet body ++ stale).drop icspHeaderLen = body ++ stale := by
  rw [packet, List.append_assoc]
  exact List.drop_left' (by simp [icspHeaderLen])

theorem frameSrcMac_frame : frameSrcMac (e.frame body ++ stale) = frameSrcMac e.link.val := by
  apply Subtype.ext
  show slice (e.link.val ++ e.packet body ++ stale) 6 6 = slice e.link.val 6 6
  have hlen := e.link.length
  have hdrop := slice_append_left (p := e.link.val.drop 6) (e.packet body ++ stale) (n := 6)
    (by rw [List.length_drop]; omega)
  rw [← List.drop_append_of_le_length (by omega)] at hdrop
  rw [List.append_assoc]
  exact hdrop

theorem frameNextHeader_frame : frameNextHeader (e.frame body ++ stale) = frameNextHeader e.link.val := by
  have hlen := e.link.length
  rw [frame, List.append_assoc, frameNextHeader, byteAt_append_left _ _ _ (by omega)]
  rfl

theorem port_frame : get16 (framePayload (e.frame body ++ stale)) 0 = get16 e.front.val 0 := by
  have hlen := e.front.length
  rw [framePayload_frame, packet, List.append_assoc, List.append_assoc, get16_append_left _ (by omega)]

theorem icspCheckPkt_packet (h : 12 + body.length ≤ icspMaxPayload) :
    icspCheckPkt (e.packet body ++ stale) (12 + body.length) = true := by
  have hslice := slice_append_exact (e.packet body) stale
  rw [packet_length] at hslice
  have hcrc : get16 (e.packet body) 10 = (icspCrc32c (e.front.val ++ [0, 0] ++ body)).toUInt16 := by
    have hlen := e.front.length
    rw [packet, List.append_assoc, get16_append_right _ _ _ (by omega), hlen]
    exact get16_put16 _ _
  have hblank : (e.packet body).take 10 ++ [0, 0] ++ (e.packet body).drop 12 = e.front.val ++ [0, 0] ++ body := by
    have hdrop := e.packet_drop body []
    rw [List.append_nil, List.append_nil] at hdrop
    have htake : (e.packet body).take 10 = e.front.val := by
      rw [packet, List.append_assoc]
      exact List.take_left' e.front.length
    rw [htake]
    exact congrArg _ hdrop
  rw [icspCheckPkt, if_neg (by simp only [icspHeaderLen]; omega)]
  simp only [hslice, hcrc, hblank, beq_self_eq_true]

theorem frameAdmitted_frame {a : IcspAssoc} (hf : e.Foreign a) (hb : 4 ≤ body.length)
    (hfit : 12 + body.length ≤ icspMaxPayload) :
    frameAdmitted a (e.frame body ++ stale) (e.frame body).length = true := by
  have hlen := e.frame_length body
  have hplen : (e.frame body).length - 14 - ipv69HeaderLen = 12 + body.length := by
    simp only [ipv69HeaderLen]
    omega
  have hown : ownTxControl a (e.frame body ++ stale) (e.frame body).length = false := by
    have hshort : ¬ (e.frame body).length < 14 + ipv69HeaderLen + icspHeaderLen + icspChunkHdr := by
      simp only [ipv69HeaderLen, icspHeaderLen, icspChunkHdr]
      omega
    rw [ownTxControl, if_neg hshort, frameSrcMac_frame, port_frame]
    rcases hf.2 with hmac | hport
    · rw [if_pos hmac]
    · rw [if_pos hport, ite_self]
  have hlong : 14 + ipv69HeaderLen + icspHeaderLen ≤ (e.frame body).length := by
    simp only [ipv69HeaderLen, icspHeaderLen]
    omega
  rw [frameAdmitted, decide_eq_true hlong, hown, frameNextHeader_frame, hf.1, hplen, framePayload_frame,
    icspCheckPkt_packet _ _ _ hfit]
  rfl

end Envelope

variable (c : TweetNaCl)

/-- Chunks of the handshake go to the rekey machines. -/
def RawChunk.Plain (k : RawChunk) : Prop :=
  k.type ≠ chunkInit ∧ k.type ≠ chunkInitAck ∧ k.type ≠ chunkCookieEcho ∧ k.type ≠ chunkCookieAck

instance (k : RawChunk) : Decidable k.Plain := inferInstanceAs (Decidable (_ ∧ _))

/-- A packet that begins with a plain chunk passes both rekey machines by. -/
theorem handlePayload_plain (io : Io) (h : Host) (buf payload : Bytes) (plen : ℕ) {k : RawChunk} (hk : k.Plain)
    (hfirst : byteAt payload icspHeaderLen = k.type) :
    handlePayload c io h buf payload plen =
      ({ h with assoc := (handleData c io h.assoc payload plen).1 }, (handleData c io h.assoc payload plen).2.1,
        (handleData c io h.assoc payload plen).2.2) := by
  obtain ⟨hinit, hack, hecho, hdone⟩ := hk
  have hclient : ∀ a, icspRekeyClientStep c io a payload = (a, [], 0) := by
    intro a
    rw [icspRekeyClientStep, hfirst]
    rw [if_neg (fun hno => hack hno.2), if_neg (fun hno => hdone hno.2)]
  have hserver : ∀ g, icspRekeyServerStep c io g buf payload plen = (g, [], 0) := by
    intro g
    rw [icspRekeyServerStep, hfirst]
    rw [if_neg (fun hno => hinit hno.2), if_neg (fun hno => hecho hno.2)]
  rw [handlePayload, hclient]
  simp only [ite_self, handleServer, hserver]
  rfl

/-- The answer to a packet that begins with a heartbeat. -/
def beatFor (io : Io) (a : IcspAssoc) (k : RawChunk) : List Act :=
  if k.type = chunkHeartbeat then (icspHeartbeatAck io a).1 else []

/-- The association once a frame of the envelope came in. -/
def Envelope.linked (e : Envelope) (io : Io) (a : IcspAssoc) : IcspAssoc :=
  { a with peerMac := frameSrcMac e.link.val, hasPeerMac := true, lastRx := io.now }

/-- One frame with the chunks `ks`, in a buffer that ends with `stale`. -/
def handleBundle (io : Io) (e : Envelope) (ks : List RawChunk) (stale : Bytes) (h : Host) : Host × List Act × Int :=
  icspHandleFrame c io h (e.frame (chunkBytes ks) ++ stale) (e.frame (chunkBytes ks)).length

/-- A frame for every chunk. -/
def handleEach (io : Io) (e : Envelope) (stale : Bytes) : List RawChunk → Host → Host × List Act
  | [], h => (h, [])
  | k :: ks, h =>
    let p := handleBundle c io e [k] stale h
    let q := handleEach io e stale ks p.1
    (q.1, p.2.1 ++ q.2)

theorem chunkBytes_cons (k : RawChunk) (ks : List RawChunk) : chunkBytes (k :: ks) = k.bytes ++ chunkBytes ks := by
  rw [chunkBytes, List.flatMap_cons]
  rfl

theorem handleBundle_eq (io : Io) (e : Envelope) {k : RawChunk} {ks : List RawChunk} (stale : Bytes) {h : Host}
    (hk : k.Plain) (hw : ∀ x ∈ k :: ks, x.Whole) (hf : e.Foreign h.assoc)
    (hfit : 12 + (chunkBytes (k :: ks)).length ≤ icspMaxPayload) :
    (handleBundle c io e (k :: ks) stale h).1 =
        { h with assoc := (packetStep c io (e.linked io h.assoc) (k :: ks)).1 } ∧
      (handleBundle c io e (k :: ks) stale h).2.1 =
        beatFor io (e.linked io h.assoc) k ++ (packetStep c io (e.linked io h.assoc) (k :: ks)).2 := by
  have hbody : 4 ≤ (chunkBytes (k :: ks)).length := by
    rw [chunkBytes_cons, List.length_append]
    simp only [RawChunk.bytes, List.length_append, List.length_cons, List.length_nil]
    omega
  have hadm := e.frameAdmitted_frame (chunkBytes (k :: ks)) stale hf hbody hfit
  have hplen : (e.frame (chunkBytes (k :: ks))).length - 14 - ipv69HeaderLen = 12 + (chunkBytes (k :: ks)).length := by
    rw [e.frame_length, ipv69HeaderLen]
    omega
  have hfirst : byteAt (e.packet (chunkBytes (k :: ks)) ++ stale) icspHeaderLen = k.type := by
    have hdrop := byteAt_drop (e.packet (chunkBytes (k :: ks)) ++ stale) icspHeaderLen 0
    rw [Envelope.packet_drop, chunkBytes_cons] at hdrop
    exact hdrop.symm
  have hchunks : chunks (e.packet (chunkBytes (k :: ks)) ++ stale) (12 + (chunkBytes (k :: ks)).length) =
      seenAll (k :: ks) stale := by
    have hlen : 12 + (chunkBytes (k :: ks)).length - icspHeaderLen = (chunkBytes (k :: ks)).length := by
      rw [icspHeaderLen]
      omega
    rw [chunks, Envelope.packet_drop, hlen]
    exact chunkWalk_bytes (k :: ks) stale _ (Nat.le_refl _)
  have hlinked : linked io h.assoc (e.frame (chunkBytes (k :: ks)) ++ stale) = e.linked io h.assoc := by
    rw [linked, Envelope.frameSrcMac_frame]
    rfl
  have hbeat : beatOf io (e.linked io h.assoc) (e.packet (chunkBytes (k :: ks)) ++ stale)
      (12 + (chunkBytes (k :: ks)).length) = beatFor io (e.linked io h.assoc) k := by
    have hlong : icspHeaderLen + icspChunkHdr ≤ 12 + (chunkBytes (k :: ks)).length := by
      simp only [icspHeaderLen, icspChunkHdr]
      omega
    simp only [beatOf, beatFor, hfirst, hlong, true_and]
  have hdata := handleData_packetStep c io (e.linked io h.assoc) (by simp only [icspHeaderLen]; omega) hchunks hw
  rcases icspHandleFrame_cases c io h (e.frame (chunkBytes (k :: ks)) ++ stale) (e.frame (chunkBytes (k :: ks))).length
    with ⟨hno, -⟩ | ⟨-, hcall⟩
  · rw [hadm] at hno
    cases hno
  · rw [hplen, Envelope.framePayload_frame, hlinked, handlePayload_plain c io _ _ _ _ hk hfirst, hbeat] at hcall
    rw [handleBundle, hcall, ← hdata]
    exact ⟨rfl, rfl⟩

theorem packetStep_plane (io : Io) (a : IcspAssoc) (ks : List RawChunk) :
    ∃ d : DataPlane, (packetStep c io a ks).1 = { a with toDataPlane := d } := by
  obtain ⟨d, hd⟩ := (handleChunks_keeps c .start (ks.map RawChunk.own) a).dataPlane
  obtain ⟨ss, hss⟩ := lifeChunks_keeps (ks.map RawChunk.own) (handleChunks c .start (ks.map RawChunk.own) a).1
  rw [packetStep]
  split
  · exact ⟨d, hd⟩
  · rw [hss, hd]
    exact ⟨{ d with streams := ss }, rfl⟩

/-- Behind the first frame the link is known and no heartbeat is left to answer. -/
theorem handleEach_rest (io : Io) (e : Envelope) (stale : Bytes) (a : IcspAssoc) (hf : e.Foreign a)
    (ks : List RawChunk) (hp : ∀ k ∈ ks, k.Plain ∧ k.Whole ∧ k.type ≠ chunkHeartbeat)
    (hfit : ∀ k ∈ ks, 12 + (chunkBytes [k]).length ≤ icspMaxPayload) (h : Host)
    (hplane : ∃ d : DataPlane, h.assoc = { e.linked io a with toDataPlane := d }) :
    handleEach c io e stale ks h =
      ({ h with assoc := (chunkSteps c io ks h.assoc).1 }, (chunkSteps c io ks h.assoc).2) := by
  induction ks generalizing h with
  | nil => rfl
  | cons k ks ih =>
    obtain ⟨hk, hw, hbeat⟩ := hp k (List.mem_cons_self ..)
    obtain ⟨d, hd⟩ := hplane
    have hforeign : e.Foreign h.assoc := by
      rw [hd]
      exact hf
    have hlinked : e.linked io h.assoc = h.assoc := by
      rw [hd]
      rfl
    obtain ⟨hstate, hacts⟩ := @handleBundle_eq c io e k [] stale h hk
      (fun x hx => List.mem_singleton.mp hx ▸ hw) hforeign (hfit k (List.mem_cons_self ..))
    rw [hlinked] at hstate hacts
    obtain ⟨d', hd'⟩ := packetStep_plane c io h.assoc [k]
    have hrest := ih (fun x hx => hp x (List.mem_cons_of_mem k hx)) (fun x hx => hfit x (List.mem_cons_of_mem k hx))
      { h with assoc := (packetStep c io h.assoc [k]).1 } ⟨d', by rw [hd', hd]⟩
    rw [handleEach, hstate, hacts, hrest, beatFor, if_neg hbeat]
    rfl

/-- A packet does what its chunks do one per packet. -/
def Transparent (io : Io) (h : Host) (e : Envelope) (ks : List RawChunk) (stale : Bytes) : Prop :=
  (handleBundle c io e ks stale h).1 = (handleEach c io e stale ks h).1 ∧
    (handleBundle c io e ks stale h).2.1.filter Act.isDelivery =
      (handleEach c io e stale ks h).2.filter Act.isDelivery ∧
    (handleBundle c io e ks stale h).2.1.filter Act.isReply = (handleEach c io e stale ks h).2.filter Act.isReply

instance (io : Io) (h : Host) (e : Envelope) (ks : List RawChunk) (stale : Bytes) :
    Decidable (Transparent c io h e ks stale) := inferInstanceAs (Decidable (_ ∧ _ ∧ _))

/-- The packet comes from another station, fits, and holds whole chunks in an order that both walks bear. -/
structure Bundleable (io : Io) (a : IcspAssoc) (e : Envelope) (ks : List RawChunk) : Prop where
  nonempty : ks ≠ []
  plain : ∀ k ∈ ks, k.Plain
  whole : ∀ k ∈ ks, k.Whole
  -- of an opened box without the inner header the source compares and copies stale stack bytes
  headed : ∀ k ∈ ks, k.type = chunkData → (openData c a k.own).isSome → 48 ≤ k.data.length
  ordered : ks.Pairwise Follows
  undisturbed : Undisturbed c (e.linked io a) ks
  foreign : e.Foreign a
  fits : 12 + (chunkBytes ks).length ≤ icspMaxPayload

theorem beatFor_replies (io : Io) (a : IcspAssoc) (k : RawChunk) (cum : UInt32) :
    (beatFor io a k).filter Act.isDelivery = [] ∧
      ((beatFor io a k).filter Act.isReply).filter (fun act => !act.outdated cum) =
        (beatFor io a k).filter Act.isReply := by
  rw [beatFor]
  split
  · rw [icspHeartbeatAck]
    rcases icspSendPkt_cases io a (heartbeatChunk io chunkHeartbeatAck) with ⟨hs, -, -⟩ | ⟨hs, -⟩
    · rw [hs]
      exact ⟨rfl, rfl⟩
    · rw [hs]
      exact ⟨rfl, rfl⟩
  · exact ⟨rfl, rfl⟩

theorem chunkBytes_single_le {k : RawChunk} {ks : List RawChunk} (h : k ∈ ks) :
    (chunkBytes [k]).length ≤ (chunkBytes ks).length := by
  obtain ⟨pre, post, rfl⟩ := List.append_of_mem h
  simp only [chunkBytes, List.flatMap_append, List.flatMap_cons, List.flatMap_nil, List.length_append,
    List.length_nil]
  omega

/-- A bundle leaves the association and the deliveries of its chunks one per packet, and sends the same
replies, but of the SACKs only the last. No chunk is read beyond its end. -/
theorem bundle_transparent (io : Io) (h : Host) (e : Envelope) (ks : List RawChunk) (stale stale' : Bytes)
    (hb : Bundleable c io h.assoc e ks) :
    (handleBundle c io e ks stale h).1 = (handleEach c io e stale' ks h).1 ∧
      (handleBundle c io e ks stale h).2.1.filter Act.isDelivery =
        (handleEach c io e stale' ks h).2.filter Act.isDelivery ∧
      (handleBundle c io e ks stale h).2.1.filter Act.isReply =
        ((handleEach c io e stale' ks h).2.filter Act.isReply).filter
          (fun act => !act.outdated (handleEach c io e stale' ks h).1.assoc.cumTsn) ∧
      ∀ k ∈ ks, ∀ a r rest chs, handleChunk c a (k.seen rest) r = handleChunk c a k.own r ∧
        lifeChunks (k.seen rest :: chs) a = lifeChunks (k.own :: chs) a := by
  obtain ⟨hne, hplain, hwhole, -, hordered, hundisturbed, hforeign, hfits⟩ := hb
  obtain ⟨k, ks, rfl⟩ := List.exists_cons_of_ne_nil hne
  have hk := hplain k (List.mem_cons_self ..)
  have hfit : ∀ x ∈ k :: ks, 12 + (chunkBytes [x]).length ≤ icspMaxPayload := fun x hx =>
    (Nat.add_le_add_left (chunkBytes_single_le hx) 12).trans hfits
  have hrest : ∀ x ∈ ks, x.Plain ∧ x.Whole ∧ x.type ≠ chunkHeartbeat := fun x hx =>
    ⟨hplain x (List.mem_cons_of_mem k hx), hwhole x (List.mem_cons_of_mem k hx),
      ((List.pairwise_cons.mp hordered).1 x hx).notBeat⟩
  have hinside : ∀ x ∈ k :: ks, ∀ a r rest chs, handleChunk c a (x.seen rest) r = handleChunk c a x.own r ∧
      lifeChunks (x.seen rest :: chs) a = lifeChunks (x.own :: chs) a := by
    intro x hx a r rest chs
    refine ⟨handleChunk_seen_own c a (hwhole x hx) rest r, ?_⟩
    rw [RawChunk.own, lifeChunks_seen, lifeChunks_seen]
  -- the frame with all the chunks, that with the first, and those with the others
  obtain ⟨hstate, hacts⟩ := handleBundle_eq c io e stale hk hwhole hforeign hfits
  obtain ⟨hfirst, hfirstActs⟩ := @handleBundle_eq c io e k [] stale' h hk
    (fun x hx => List.mem_singleton.mp hx ▸ hwhole k (List.mem_cons_self ..)) hforeign
    (hfit k (List.mem_cons_self ..))
  obtain ⟨d, hd⟩ := packetStep_plane c io (e.linked io h.assoc) [k]
  have hothers := handleEach_rest c io e stale' h.assoc hforeign ks hrest
    (fun x hx => hfit x (List.mem_cons_of_mem k hx))
    { h with assoc := (packetStep c io (e.linked io h.assoc) [k]).1 } ⟨d, hd⟩
  have heach : handleEach c io e stale' (k :: ks) h =
      ({ h with assoc := (chunkSteps c io (k :: ks) (e.linked io h.assoc)).1 },
        beatFor io (e.linked io h.assoc) k ++ (chunkSteps c io (k :: ks) (e.linked io h.assoc)).2) := by
    rw [handleEach, hfirst, hfirstActs, hothers, List.append_assoc]
    rfl
  obtain ⟨hsame, hdel, hreplies⟩ := packet_replies c io (k :: ks) (e.linked io h.assoc) hundisturbed hordered
  obtain ⟨hbeatDel, hbeatReply⟩ := beatFor_replies io (e.linked io h.assoc) k
    (chunkSteps c io (k :: ks) (e.linked io h.assoc)).1.cumTsn
  rw [heach, hstate, hacts]
  refine ⟨by rw [hsame], ?_, ?_, hinside⟩
  · rw [List.filter_append, List.filter_append, hbeatDel, hdel]
  · rw [List.filter_append, List.filter_append, List.filter_append, hreplies, hbeatReply]

/-- The DATA chunk of a message, sealed under the key 3 of association 5. -/
def toyData (tsn : UInt32) (seq : UInt16) : RawChunk where
  type := chunkData
  flags := 0
  data := dataHeader tsn 1 seq ++ DataMsg.box toy ⟨tsn, 1, seq, [5]⟩ 5 (toyId 3)
  short := by
    rw [List.length_append, DataMsg.box, ed25519Secretbox_length]
    simp [dataHeader, DataMsg.clear, dataClear]

def toySack : RawChunk := ⟨chunkSack, 0, put32 9, by decide⟩

def toyHost : Host :=
  ⟨{ toyAssoc 7 with hasKey := true, recvKey := toyId 3, assocId := 5, sendq := [⟨4, 1, 0, [], 0, false, 0⟩] }, .zero⟩

def toyEnvelope : Envelope :=
  ⟨arr (assocFrame { toyAssoc 9 with dstAddr := 7, assocId := 5 } []) 0 46,
    arr (framePayload (assocFrame { toyAssoc 9 with dstAddr := 7, assocId := 5 } [])) 0 10⟩

theorem toyBundle_bundleable : Bundleable toy (.quiet 1) toyHost.assoc toyEnvelope [toySack, toyData 1 0] := by
  refine ⟨List.cons_ne_nil _ _, by decide, by decide +kernel, by decide +kernel, ?_, ?_, by decide +kernel,
    by decide +kernel⟩
  · refine List.pairwise_pair.mpr ⟨by decide, by decide, fun sid hsid => ?_⟩
    have hnone : toySack.resets = none := by decide
    rw [hnone] at hsid
    cases hsid
  · have hsack : (handleChunk toy (toyEnvelope.linked (.quiet 1) toyHost.assoc) toySack.own .start).2 = none := by
      decide +kernel
    have hdata : (handleChunk toy (after toy (toyEnvelope.linked (.quiet 1) toyHost.assoc) toySack) (toyData 1 0).own
        .start).2 = some ⟨1, [5], 1, 1⟩ := by decide +kernel
    rw [Undisturbed, hsack]
    simp only
    rw [Undisturbed, hdata]
    exact ⟨by decide, fun _ hno => by cases hno⟩

/-- An acknowledgement and the next message. -/
theorem toyBundle_transparent :
    (handleBundle toy (.quiet 1) toyEnvelope [toySack, toyData 1 0] [] toyHost).1 =
      (handleEach toy (.quiet 1) toyEnvelope [] [toySack, toyData 1 0] toyHost).1 :=
  (bundle_transparent toy (.quiet 1) toyHost toyEnvelope [toySack, toyData 1 0] [] [] toyBundle_bundleable).1

/-- Two messages out of order get one SACK in a bundle and two one by one. Behind a delivered message an
acknowledgement is lost. -/
theorem bundles_differ :
    ¬ Transparent toy (.quiet 1) toyHost toyEnvelope [toyData 2 1, toyData 3 2] [] ∧
      ¬ Transparent toy (.quiet 1) toyHost toyEnvelope [toyData 1 0, toySack] [] := by
  decide +kernel

end Icsp
