import BaitNet.Runs
import BaitNet.InitRoundTrip

/-!
# Key agreement between the two calls

One `icsp_client_handshake` and one `icsp_server_accept` on a network that loses, delays,
repeats and reorders their frames but adds none. Every retransmitted INIT has a new
ephemeral, and an INIT-ACK does not say which INIT it answers.
-/
namespace Icsp

open Wire Link Crypto Runs

/-- Both calls, all frames that each has sent, and the client's clock when it last sent an INIT.
A frame of the server stands with the number of the client's frame that it answers. Announces
are not among them: they go to the gateway, and a wait counts them as noise. -/
structure Calls where
  client : ClientCall
  server : ServerCall
  fromClient : List Bytes
  fromServer : List (Bytes × Nat)
  clock : UInt64
  deriving DecidableEq

/-- What ends a wait: a timeout, an error, or frame number `i` of the other end with
`stale` behind it in the buffer. -/
inductive Wake where
  | timedOut
  | failed (transient : Bool)
  | frame (i : Nat) (stale : Bytes)
  deriving DecidableEq

def Wake.index : Wake → Nat
  | .frame i _ => i
  | _ => 0

/-- A frame arrives as it was sent. -/
def Wake.rx (frames : List Bytes) : Wake → Option Rx
  | .timedOut => some .timedOut
  | .failed transient => some (.failed transient)
  | .frame i stale => frames[i]?.map fun f => .frame (f ++ stale) f.length

inductive CallsEv where
  | client (io : Io) (x : Wake)
  | server (io : Io) (x : Wake)

variable (c : TweetNaCl)

/-- The server waits before anything of the client arrives. -/
def Calls.start (ioC ioS : Io) (ca : ClientArgs) (sa : ServerArgs) (a : IcspAssoc) (h : Host) : Calls :=
  ⟨(clientStart c ioC ca a).1, (serverStart c ioS sa h).1, txFrames (clientStart c ioC ca a).2, [],
    .ofNat ioC.now⟩

/-- One round of either wait. Every frame stays on the network for good. -/
def Calls.step (ca : ClientArgs) (sa : ServerArgs) (s : Calls) : CallsEv → Calls
  | .client io x =>
    match x.rx (s.fromServer.map (·.1)) with
    | none => s
    | some rx =>
      let (client, acts) := clientStep c io ca s.client rx
      { s with
        client
        fromClient := s.fromClient ++ txFrames acts
        clock := if asksAgain s.client rx then .ofNat io.now else s.clock }
  | .server io x =>
    match x.rx s.fromClient with
    | none => s
    | some rx =>
      let (server, acts) := serverStep c io sa s.server rx
      { s with server, fromServer := s.fromServer ++ (txFrames acts).map (·, x.index) }

/-- Both associations hold the same id and mirrored keys. -/
def KeysMatch (a b : IcspAssoc) : Prop :=
  a.assocId = b.assocId ∧ a.sendKey = b.recvKey ∧ a.recvKey = b.sendKey

instance (a b : IcspAssoc) : Decidable (KeysMatch a b) :=
  inferInstanceAs (Decidable (a.assocId = b.assocId ∧ a.sendKey = b.recvKey ∧ a.recvKey = b.sendKey))

/-- If both calls have returned 0, their associations match. -/
def Calls.Agreed (s : Calls) : Prop :=
  s.client.phase = .done 0 → s.server.phase = .done 0 → KeysMatch s.client.assoc s.server.host.assoc

instance (s : Calls) : Decidable s.Agreed :=
  inferInstanceAs (Decidable (s.client.phase = .done 0 → s.server.phase = .done 0 → _))

/-- The number of the INIT whose INIT-ACK the client takes up. -/
def ackTakenOf (ca : ClientArgs) (s : Calls) : CallsEv → Option Nat
  | .client _ (.frame i stale) =>
    match s.client.phase, s.fromServer[i]? with
    | .waitInitAck _, some (f, n) =>
      if isInitAck ca (framePayload (f ++ stale)) (f.length - 46) = true then some n else none
    | _, _ => none
  | _ => none

/-- The client's clock has not gone back when it sends a further INIT. -/
def clockAhead (s : Calls) : CallsEv → Prop
  | .client io x => ∀ rx ∈ x.rx (s.fromServer.map (·.1)), asksAgain s.client rx = true → s.clock ≤ .ofNat io.now
  | .server _ _ => True

instance (s : Calls) : (ev : CallsEv) → Decidable (clockAhead s ev)
  | .client io x => inferInstanceAs (Decidable (∀ rx ∈ x.rx (s.fromServer.map (·.1)),
      asksAgain s.client rx = true → s.clock ≤ .ofNat io.now))
  | .server _ _ => .isTrue trivial

/-- An INIT-ACK is taken up only if it answers the last INIT that the client sent. -/
def Prompt (ca : ClientArgs) (s : Calls) (ev : CallsEv) : Prop :=
  clockAhead s ev ∧ ∀ n ∈ ackTakenOf ca s ev, n + 1 = s.fromClient.length

instance (ca : ClientArgs) (s : Calls) (ev : CallsEv) : Decidable (Prompt ca s ev) :=
  inferInstanceAs (Decidable (_ ∧ ∀ n ∈ ackTakenOf ca s ev, n + 1 = s.fromClient.length))

/-- An INIT with these fields, whatever stands behind it in the buffer. -/
def ReadsInit (assocId : UInt32) (eph : Arr 32) (ts : UInt64) (f : Bytes) : Prop :=
  ∀ stale, byteAt (framePayload (f ++ stale)) icspHeaderLen = chunkInit ∧
    get32 (framePayload (f ++ stale)) 6 = assocId ∧
    arr (chunkData0 (framePayload (f ++ stale))) 5 32 = eph ∧
    get64 (chunkData0 (framePayload (f ++ stale))) 37 = ts

/-- Any other chunk. -/
def ReadsType (type : UInt8) (f : Bytes) : Prop :=
  ∀ stale, byteAt (framePayload (f ++ stale)) icspHeaderLen = type

/-- A message that carries this ephemeral. -/
def ReadsEph (eph : Arr 32) (f : Bytes) : Prop :=
  ∀ stale, arr (chunkData0 (framePayload (f ++ stale))) 5 32 = eph

section Reads

variable (a : IcspAssoc) (stale : Bytes)

theorem readsType_assocFrame (type : UInt8) (chunk : Bytes) : ReadsType type (assocFrame a (type :: chunk)) :=
  fun stale => byteAt_assocFrame a (type :: chunk) stale (i := 0) (by simp)

theorem readsInit_initChunk (io : Io) (sk : Arr 64) (flags : UInt8) (serverPub : Option (Arr 32)) :
    ReadsInit a.assocId a.ephPub (.ofNat io.now)
      (assocFrame a (initChunk c a sk flags (initBody c io a serverPub))) := by
  intro stale
  obtain ⟨rest, hdrop⟩ : ∃ rest, (initChunk c a sk flags (initBody c io a serverPub)).drop 4 =
      initBody c io a serverPub ++ rest := ⟨_, List.append_assoc _ _ _⟩
  have hdata : chunkData0 (framePayload
      (assocFrame a (initChunk c a sk flags (initBody c io a serverPub)) ++ stale)) =
        initBody c io a serverPub ++ (rest ++ stale) := by
    rw [chunkData0, assocFrame_data a _ stale (by simp [initChunk]), hdrop, List.append_assoc]
  obtain ⟨-, heph, hts, -⟩ := initBody_reads c io a serverPub (rest ++ stale)
  rw [hdata]
  exact ⟨readsType_assocFrame a chunkInit _ stale, assocFrame_assocId a _ stale, heph, hts⟩

theorem readsEph_initAckChunk (sk : Arr 64) : ReadsEph a.ephPub (assocFrame a (initAckChunk c a sk)) := by
  intro stale
  rw [chunkData0, assocFrame_data a _ stale (by simp [initAckChunk])]
  have hdrop : (initAckChunk c a sk).drop 4 =
      (icspVersion :: putStreams a ++ a.ephPub.val) ++
        (a.idPub.val ++ ((ed25519Sign c (initAckBody a) sk).val ++ (cookieOf c a).val)) := by
    rw [initAckChunk, List.drop_left' (icspChunkPut_length _ _), initAckBody]
    simp only [List.append_assoc]
  rw [hdrop, List.append_assoc]
  exact arr_eph a a.ephPub _

end Reads

/-- What an exchange leaves in an association. -/
structure Keying extends KeyState where
  assocId : UInt32

def IcspAssoc.keying (a : IcspAssoc) : Keying := ⟨a.toKeyState, a.assocId⟩

theorem SameCore.keying {a b : IcspAssoc} (h : SameCore a b) : b.keying = a.keying := by
  obtain ⟨e, l, rfl⟩ := h
  rfl

/-- The data keys are those of both ephemerals. -/
def Keying.Derived (k : Keying) : Prop :=
  k.ephPub = c.scalarmultBase k.ephPriv ∧
    (k.sendKey, k.recvKey) = sessionKeys c k.isInitiator (c.scalarmult k.ephPriv k.peerEph)

/-- The server's keys belong to the current INIT of the client. -/
structure Answers (b a : Keying) : Prop where
  assocId : b.assocId = a.assocId
  peerEph : b.peerEph = a.ephPub
  role : b.isInitiator = false
  derived : b.Derived c

/-- A client that takes the ephemeral of that answer has the mirrored keys. -/
theorem Answers.keysMatch {a b : IcspAssoc} (h : Answers c b.keying a.keying) (hrole : a.isInitiator = true)
    (hd : a.keying.Derived c) (hp : a.peerEph = b.ephPub) : KeysMatch a b := by
  obtain ⟨hid, hpe, hr, he', hk'⟩ := h
  obtain ⟨he, hk⟩ := hd
  have hsecret : c.scalarmult a.ephPriv a.peerEph = c.scalarmult b.ephPriv b.peerEph := by
    have hb : b.ephPub = c.scalarmultBase b.ephPriv := he'
    have ha : b.peerEph = c.scalarmultBase a.ephPriv := Eq.trans hpe he
    rw [hp, hb, ha]
    exact c.scalarmult_comm a.ephPriv b.ephPriv
  have hka : (a.sendKey, a.recvKey) = kdf c (c.scalarmult b.ephPriv b.peerEph) := by
    have h : (a.sendKey, a.recvKey) = sessionKeys c a.isInitiator (c.scalarmult a.ephPriv a.peerEph) := hk
    rwa [hrole, sessionKeys, if_pos rfl, hsecret] at h
  have hkb : (b.sendKey, b.recvKey) = (kdf c (c.scalarmult b.ephPriv b.peerEph)).swap := by
    have h : (b.sendKey, b.recvKey) = sessionKeys c b.isInitiator (c.scalarmult b.ephPriv b.peerEph) := hk'
    have hb : b.isInitiator = false := hr
    rwa [hb, sessionKeys, if_neg Bool.false_ne_true] at h
  rw [← hka, Prod.swap_prod_mk, Prod.mk.injEq] at hkb
  exact ⟨hid.symm, hkb.2.symm, hkb.1.symm⟩

theorem txFrames_announces {acts : List Act} (h : Announces acts) : txFrames acts = [] := by
  rw [txFrames, List.filterMap_eq_nil_iff]
  intro act hact
  rcases h act hact with ⟨m, rfl, -⟩ | ⟨frame, rfl⟩
  · rfl
  · rfl

/-- One packet at most. -/
theorem txFrames_sendPkt (io : Io) (a : IcspAssoc) (chunk : Bytes) :
    txFrames (icspSendPkt io a chunk).1 = [] ∧ (icspSendPkt io a chunk).2 = false ∨
      txFrames (icspSendPkt io a chunk).1 = [assocFrame a chunk] ∧ (icspSendPkt io a chunk).2 = true := by
  rcases icspSendPkt_cases io a chunk with ⟨h, -, -⟩ | ⟨h, -⟩
  · rw [h]
    exact .inr ⟨rfl, rfl⟩
  · rw [h]
    exact .inl ⟨rfl, rfl⟩

/-- What a round of the server does to its keys, and the frames that it sends. -/
inductive ServerMove (b : Keying) (rx : Rx) : Keying × List Bytes → Prop
  | keeps : ServerMove b rx (b, [])
  /-- a COOKIE-ECHO -/
  | acks (buf : Bytes) (n : Nat) (out : List Bytes) (hrx : rx = .frame buf n)
      (hty : byteAt (framePayload buf) icspHeaderLen = chunkCookieEcho) : ServerMove b rx (b, out)
  /-- an INIT that is newer than the last one; only an acceptable one is answered -/
  | took (buf : Bytes) (n : Nat) (b' : Keying) (out : List Bytes) (hrx : rx = .frame buf n)
      (hty : byteAt (framePayload buf) icspHeaderLen = chunkInit)
      (hnew : b.lastInitTs < get64 (chunkData0 (framePayload buf)) 37)
      (hts : b'.lastInitTs = get64 (chunkData0 (framePayload buf)) 37) (hrole : b'.isInitiator = b.isInitiator)
      (hout : ∀ g ∈ out, ReadsEph b'.ephPub g ∧ b'.Derived c ∧
        b'.assocId = get32 (framePayload buf) 6 ∧
        b'.peerEph = arr (chunkData0 (framePayload buf)) 5 32) : ServerMove b rx (b', out)

theorem initAdmitted_newer {io : Io} {h : Host} {buf payload : Bytes} {plen : Nat}
    (hadm : initAdmitted c io h buf payload plen = true) :
    h.assoc.lastInitTs < get64 (chunkData0 payload) 37 := by
  rw [initAdmitted, Bool.and_eq_true, Bool.and_eq_true] at hadm
  exact of_decide_eq_true hadm.2

theorem serverStep_move (io : Io) (args : ServerArgs) (call : ServerCall) (rx : Rx) :
    ServerMove c call.host.assoc.keying rx
      ((serverStep c io args call rx).1.host.assoc.keying, txFrames (serverStep c io args call rx).2) := by
  have hout := serverStep_outcome c io args call rx
  revert hout
  generalize serverStep c io args call rx = res
  intro hout
  cases hout with
  | ended ret hp => exact .keeps
  | waits a g phase acts hp hcore hph hacts =>
    show ServerMove c _ rx (a.keying, txFrames acts)
    rw [txFrames_announces hacts, hcore.keying]
    exact .keeps
  | dropped buf n h' a acts hp hrx hty hinit hcore hacts =>
    show ServerMove c _ rx (a.keying, txFrames acts)
    rw [txFrames_announces hacts, hcore.keying]
    cases hinit with
    | refused g hadm => exact .keeps
    | boxed g hadm hid =>
      exact .took buf n _ [] hrx hty (initAdmitted_newer c hadm) rfl rfl (fun _ h => nomatch h)
    | rejected g id hadm hid =>
      exact .took buf n _ [] hrx hty (initAdmitted_newer c hadm) rfl rfl (fun _ h => nomatch h)
  | answered buf n h' flags acts sent hp hrx hty hinit hs =>
    cases hinit with
    | accepted g id hadm hid hsig hpeers =>
      refine .took buf n _ _ hrx hty (initAdmitted_newer c hadm) rfl rfl ?_
      intro frame hmem
      have hmem : frame ∈ txFrames acts := hmem
      rcases txFrames_sendPkt io _ (initAckChunk c (Icsp.answered c io
        { takeInit (recvd io call.host.assoc buf) (framePayload buf) with peerId := id }) args.sk)
        with ⟨h, -⟩ | ⟨h, -⟩
      · rw [hs] at h
        rw [h] at hmem
        cases hmem
      · rw [hs] at h
        rw [h] at hmem
        obtain rfl := List.mem_singleton.mp hmem
        exact ⟨readsEph_initAckChunk c _ args.sk, ⟨rfl, rfl⟩, rfl, rfl⟩
  | completed buf n acts hp hrx hty hv hs => exact .acks buf n _ hrx hty
  | unsent buf n acts hp hrx hs =>
    have hnone : txFrames acts = [] := by
      rcases txFrames_sendPkt io (recvd io call.host.assoc buf) cookieAck with ⟨h, -⟩ | ⟨-, h⟩
      · rwa [hs] at h
      · rw [hs] at h
        cases h
    show ServerMove c _ rx (call.host.assoc.keying, txFrames acts)
    rw [hnone]
    exact .keeps

def Calls.clientKeying (s : Calls) : Keying := s.client.assoc.keying
def Calls.serverKeying (s : Calls) : Keying := s.server.host.assoc.keying

/-- The client waits for an INIT-ACK: all its frames are INITs, the last one, of time `ts`, has
its current ephemeral, and an answer to that one is what the server holds. -/
structure Asking (s : Calls) (ts : UInt64) : Prop where
  role : s.clientKeying.isInitiator = true
  eph : s.clientKeying.ephPub = c.scalarmultBase s.clientKeying.ephPriv
  last : ∃ f, s.fromClient.getLast? = some f ∧
    ReadsInit s.clientKeying.assocId s.clientKeying.ephPub ts f
  inits : ∀ f ∈ s.fromClient, ∃ e t, ReadsInit s.clientKeying.assocId e t f ∧ t ≤ ts
  ahead : ts ≤ s.clock
  known : ∀ x ∈ s.fromServer, x.2 < s.fromClient.length
  current : ∀ x ∈ s.fromServer, x.2 + 1 = s.fromClient.length →
    Answers c s.serverKeying s.clientKeying ∧ ts ≤ s.serverKeying.lastInitTs ∧
      ReadsEph s.serverKeying.ephPub x.1

/-- The client has taken an INIT-ACK: both ends hold its keys, and the server will take no
further INIT. -/
structure Settled (s : Calls) : Prop where
  role : s.clientKeying.isInitiator = true
  derived : s.clientKeying.Derived c
  answers : Answers c s.serverKeying s.clientKeying
  taken : s.clientKeying.peerEph = s.serverKeying.ephPub
  quiet : ∀ f ∈ s.fromClient, ReadsType chunkCookieEcho f ∨
    ∃ e t, ReadsInit s.clientKeying.assocId e t f ∧ t ≤ s.serverKeying.lastInitTs

/-- What holds in the phase of the client. -/
def Calls.Phased (s : Calls) : Prop :=
  match s.client.phase with
  | .waitInitAck _ => ∃ ts, Asking c s ts
  | .waitCookieAck _ ck => Settled c s ∧ ck.head? = some chunkCookieEcho
  | .done ret => ret = 0 → Settled c s

structure Calls.Inv (s : Calls) : Prop where
  responder : s.serverKeying.isInitiator = false
  phased : s.Phased c

theorem Calls.Inv.agreed {s : Calls} (h : s.Inv c) : s.Agreed := by
  intro hc _
  have hp := h.phased
  rw [Phased, hc] at hp
  obtain ⟨hrole, hd, hans, htaken, -⟩ := hp rfl
  exact Answers.keysMatch c hans hrole hd htaken

/-- Failed calls are of no interest. -/
theorem phased_failed {s : Calls} (h : s.client.phase = .done (-1)) : s.Phased c := by
  rw [Calls.Phased, h]
  exact fun h => absurd h (by decide)

theorem Wake.rx_frame {frames : List Bytes} {x : Wake} {buf : Bytes} {n : Nat}
    (h : x.rx frames = some (.frame buf n)) :
    ∃ f stale, frames[x.index]? = some f ∧ buf = f ++ stale ∧ n = f.length ∧ x = .frame x.index stale := by
  cases x with
  | timedOut => cases h
  | failed transient => cases h
  | frame i stale =>
    rw [rx, Option.map_eq_some_iff] at h
    obtain ⟨f, hf, heq⟩ := h
    cases heq
    exact ⟨f, stale, hf, rfl, rfl, rfl⟩

section Server

variable {s : Calls} {x : Wake} {rx : Rx} {sv : ServerCall} {out : List Bytes}

/-- While the client waits for an INIT-ACK the server can only answer INITs. -/
theorem Asking.serverRound {ts : UInt64} (h : Asking c s ts) (hb : s.serverKeying.isInitiator = false)
    (hrx : x.rx s.fromClient = some rx) (hm : ServerMove c s.serverKeying rx (sv.host.assoc.keying, out)) :
    Asking c { s with server := sv, fromServer := s.fromServer ++ out.map (·, x.index) } ts := by
  obtain ⟨hrole, heph, ⟨f, hf, hlast⟩, hinits, hahead, hknown, hcur⟩ := h
  have hread : ∀ buf n, rx = .frame buf n → ∃ g stale e t, s.fromClient[x.index]? = some g ∧ buf = g ++ stale ∧
      ReadsInit s.clientKeying.assocId e t g ∧ t ≤ ts := by
    intro buf n hbuf
    rw [hbuf] at hrx
    obtain ⟨g, stale, hg, rfl, -, -⟩ := Wake.rx_frame hrx
    obtain ⟨e, t, hi, ht⟩ := hinits g (List.mem_of_getElem? hg)
    exact ⟨g, stale, e, t, hg, rfl, hi, ht⟩
  generalize hk : sv.host.assoc.keying = k at hm
  have hsv : Calls.serverKeying { s with server := sv, fromServer := s.fromServer ++ out.map (·, x.index) } = k := hk
  cases hm with
  | keeps =>
    refine ⟨hrole, heph, ⟨f, hf, hlast⟩, hinits, hahead, ?_, ?_⟩
    · rw [List.map_nil, List.append_nil]
      exact hknown
    · rw [hsv, List.map_nil, List.append_nil]
      exact hcur
  | acks buf n _ hbuf hty =>
    obtain ⟨g, stale, e, t, -, rfl, hi, -⟩ := hread buf n hbuf
    rw [(hi stale).1] at hty
    cases hty
  | took buf n _ _ hbuf hty hnew hts hr hout =>
    obtain ⟨g, stale, e, t, hg, rfl, hi, ht⟩ := hread buf n hbuf
    obtain ⟨-, hid, he, htime⟩ := hi stale
    rw [htime] at hnew hts
    -- an INIT that is newer than the last one has not been answered yet
    have hold : ∀ y ∈ s.fromServer, y.2 + 1 ≠ s.fromClient.length := by
      intro y hy hn
      exact UInt64.lt_irrefl _ (UInt64.lt_of_lt_of_le hnew (UInt64.le_trans ht (hcur y hy hn).2.1))
    refine ⟨hrole, heph, ⟨f, hf, hlast⟩, hinits, hahead, ?_, ?_⟩
    · intro y hy
      rcases List.mem_append.mp hy with hy | hy
      · exact hknown y hy
      · obtain ⟨z, hz, rfl⟩ := List.mem_map.mp hy
        obtain ⟨hlt, -⟩ := List.getElem?_eq_some_iff.mp hg
        exact hlt
    · intro y hy hn
      rcases List.mem_append.mp hy with hy | hy
      · exact absurd hn (hold y hy)
      · obtain ⟨z, hz, rfl⟩ := List.mem_map.mp hy
        obtain ⟨heph', hd, hid', hpe⟩ := hout z hz
        have hgf : g = f := by
          rw [List.getLast?_eq_getElem?] at hf
          have hi : x.index = s.fromClient.length - 1 := by
            have hn : x.index + 1 = s.fromClient.length := hn
            omega
          rw [hi, hf] at hg
          exact (Option.some.inj hg).symm
        obtain ⟨-, -, hel, htl⟩ := hlast stale
        rw [hgf] at hpe htime
        rw [hsv]
        refine ⟨⟨hid'.trans hid, hpe.trans hel, hr.trans hb, hd⟩, ?_, heph'⟩
        rw [hts, ← htime, htl]
        exact UInt64.le_refl _

/-- Afterwards nothing that the client has sent changes the server's keys. -/
theorem Settled.serverRound (h : Settled c s)
    (hrx : x.rx s.fromClient = some rx) (hm : ServerMove c s.serverKeying rx (sv.host.assoc.keying, out)) :
    Settled c { s with server := sv, fromServer := s.fromServer ++ out.map (·, x.index) } := by
  have hsame : sv.host.assoc.keying = s.serverKeying := by
    generalize sv.host.assoc.keying = k at hm
    cases hm with
    | keeps => rfl
    | acks buf n _ hbuf hty => rfl
    | took buf n _ _ hbuf hty hnew hts hr hout =>
      rw [hbuf] at hrx
      obtain ⟨g, stale, hg, rfl, -, -⟩ := Wake.rx_frame hrx
      rcases h.quiet g (List.mem_of_getElem? hg) with hecho | ⟨e, t, hi, ht⟩
      · rw [hecho stale] at hty
        cases hty
      · rw [(hi stale).2.2.2] at hnew
        exact absurd (UInt64.lt_of_lt_of_le hnew ht) (UInt64.lt_irrefl _)
  have hsv : Calls.serverKeying { s with server := sv, fromServer := s.fromServer ++ out.map (·, x.index) } =
      s.serverKeying := hsame
  exact ⟨h.role, h.derived, hsv ▸ h.answers, hsv ▸ h.taken, hsv ▸ h.quiet⟩

end Server

theorem ServerMove.role {b k : Keying} {rx : Rx} {out : List Bytes} (h : ServerMove c b rx (k, out)) :
    k.isInitiator = b.isInitiator := by
  cases h with
  | keeps => rfl
  | acks buf n _ hrx hty => rfl
  | took buf n _ _ hrx hty hnew hts hrole hout => exact hrole

theorem Calls.Inv.serverRound {s : Calls} (h : s.Inv c) {x : Wake} {rx : Rx}
    (hrx : x.rx s.fromClient = some rx) {sv : ServerCall} {out : List Bytes}
    (hm : ServerMove c s.serverKeying rx (sv.host.assoc.keying, out)) :
    Calls.Inv c { s with server := sv, fromServer := s.fromServer ++ out.map (·, x.index) } := by
  obtain ⟨hb, hp⟩ := h
  refine ⟨hm.role.trans hb, ?_⟩
  rw [Calls.Phased] at hp ⊢
  cases hph : s.client.phase with
  | waitInitAck tries =>
    simp only [hph] at hp ⊢
    obtain ⟨ts, hask⟩ := hp
    exact ⟨ts, hask.serverRound c hb hrx hm⟩
  | waitCookieAck tries ck =>
    simp only [hph] at hp ⊢
    exact ⟨hp.1.serverRound c hrx hm, hp.2⟩
  | done ret =>
    simp only [hph] at hp ⊢
    exact fun hret => (hp hret).serverRound c hrx hm

/-- What a round of the client does to its keys, and the frames that it sends. -/
inductive ClientMove (now : UInt64) (args : ClientArgs) (call : ClientCall) (rx : Rx) :
    ClientCall × List Bytes → Prop
  | stays (call' : ClientCall) (hk : call'.assoc.keying = call.assoc.keying)
      (hph : call'.phase = call.phase) : ClientMove now args call rx (call', [])
  | fails (call' : ClientCall) (out : List Bytes) (hph : call'.phase = .done (-1)) :
      ClientMove now args call rx (call', out)
  | asks (call' : ClientCall) (f : Bytes) (tries tries' : Nat) (hp : call.phase = .waitInitAck tries)
      (hask : asksAgain call rx = true) (hph : call'.phase = .waitInitAck tries') (hid : call'.assoc.assocId = call.assoc.assocId)
      (hrole : call'.assoc.isInitiator = call.assoc.isInitiator)
      (heph : call'.assoc.ephPub = c.scalarmultBase call'.assoc.ephPriv)
      (hf : ReadsInit call'.assoc.assocId call'.assoc.ephPub now f) : ClientMove now args call rx (call', [f])
  | takes (call' : ClientCall) (buf : Bytes) (n tries tries' : Nat) (ck f : Bytes)
      (hp : call.phase = .waitInitAck tries) (hrx : rx = .frame buf n)
      (hack : isInitAck args (framePayload buf) (n - 46) = true)
      (hph : call'.phase = .waitCookieAck tries' ck) (hck : ck.head? = some chunkCookieEcho)
      (hid : call'.assoc.assocId = call.assoc.assocId)
      (hrole : call'.assoc.isInitiator = call.assoc.isInitiator)
      (hpub : call'.assoc.ephPub = call.assoc.ephPub) (hpriv : call'.assoc.ephPriv = call.assoc.ephPriv)
      (hpeer : call'.assoc.peerEph = arr (chunkData0 (framePayload buf)) 5 32)
      (hkeys : (call'.assoc.sendKey, call'.assoc.recvKey) =
        sessionKeys c call'.assoc.isInitiator (c.scalarmult call'.assoc.ephPriv call'.assoc.peerEph))
      (hf : ReadsType chunkCookieEcho f) : ClientMove now args call rx (call', [f])
  | echoes (call' : ClientCall) (tries tries' : Nat) (ck f : Bytes)
      (hp : call.phase = .waitCookieAck tries ck) (hph : call'.phase = .waitCookieAck tries' ck)
      (hk : call'.assoc.keying = call.assoc.keying)
      (hf : ck.head? = some chunkCookieEcho → ReadsType chunkCookieEcho f) :
      ClientMove now args call rx (call', [f])
  | completes (call' : ClientCall) (tries : Nat) (ck : Bytes) (hp : call.phase = .waitCookieAck tries ck)
      (hph : call'.phase = .done 0) (hk : call'.assoc.keying = call.assoc.keying) :
      ClientMove now args call rx (call', [])

theorem readsType_head {a : IcspAssoc} {type : UInt8} {chunk : Bytes} (h : chunk.head? = some type) :
    ReadsType type (assocFrame a chunk) := by
  obtain ⟨rest, rfl⟩ := List.head?_eq_some_iff.mp h
  exact readsType_assocFrame a type rest

/-- A new INIT has a new ephemeral and the time of the round. -/
theorem clientInit_sends (io : Io) (args : ClientArgs) (a : IcspAssoc) (tries : Nat) :
    (clientInit c io args a tries).1.phase = .done (-1) ∨
      ∃ f, (clientInit c io args a tries).1 = ⟨newEph c io a, .waitInitAck tries⟩ ∧
        txFrames (clientInit c io args a tries).2 = [f] ∧
        ReadsInit a.assocId (newEph c io a).ephPub (.ofNat io.now) f := by
  have hinit : clientInit c io args a tries =
      (⟨newEph c io a, if (icspSendPkt io (newEph c io a)
          (initBuild c io a args.sk args.serverPub).2.1).2 then .waitInitAck tries else .done (-1)⟩,
        .sign (initBody c io (newEph c io a) args.serverPub) ::
          (icspSendPkt io (newEph c io a) (initBuild c io a args.sk args.serverPub).2.1).1) := rfl
  rw [hinit]
  rcases txFrames_sendPkt io (newEph c io a) (initBuild c io a args.sk args.serverPub).2.1
    with ⟨-, hsent⟩ | ⟨htx, hsent⟩
  · rw [hsent]
    exact .inl rfl
  · rw [hsent]
    exact .inr ⟨_, rfl, htx,
      readsInit_initChunk c (newEph c io a) io args.sk (initFlags args.serverPub) args.serverPub⟩

theorem clientStep_move (io : Io) (args : ClientArgs) (call : ClientCall) (rx : Rx) :
    ClientMove c (.ofNat io.now) args call rx
      ((clientStep c io args call rx).1, txFrames (clientStep c io args call rx).2) := by
  have hout := clientStep_outcome c io args call rx
  revert hout
  generalize clientStep c io args call rx = res
  intro hout
  cases hout with
  | ended ret hp => exact .stays call rfl rfl
  | waits a phase hp hcore hph =>
    cases hph with
    | inl hsame => exact .stays _ hcore.keying hsame
    | inr hfail => exact .fails _ _ hfail
  | again tries hp hask =>
    rcases clientInit_sends c io args call.assoc (tries + 1) with hfail | ⟨f, hcall, htx, hf⟩
    · exact .fails _ _ hfail
    · rw [htx, hcall]
      exact .asks _ f tries (tries + 1) hp hask rfl rfl rfl rfl hf
  | badAck tries buf n hp hrx hack hver => exact .fails _ _ rfl
  | took tries buf n acts sent hp hrx hack hver hs =>
    show ClientMove c _ args call rx (_, txFrames acts)
    rcases txFrames_sendPkt io (ackTaken c io call.assoc buf)
      (cookieEcho c (chunkData0 (framePayload buf)) args.sk) with ⟨htx, hsent⟩ | ⟨htx, hsent⟩
    · rw [hs] at htx hsent
      rw [show sent = false from hsent]
      exact .fails _ _ rfl
    · rw [hs] at htx hsent
      rw [show sent = true from hsent, show txFrames acts = _ from htx]
      exact .takes _ buf n tries 0 _ _ hp hrx hack rfl rfl rfl rfl rfl rfl rfl rfl (readsType_head rfl)
  | echoes tries ck acts sent hp hs =>
    show ClientMove c _ args call rx (_, txFrames acts)
    rcases txFrames_sendPkt io call.assoc ck with ⟨htx, hsent⟩ | ⟨htx, hsent⟩
    · rw [hs] at htx hsent
      rw [show sent = false from hsent]
      exact .fails _ _ rfl
    · rw [hs] at htx hsent
      rw [show sent = true from hsent, show txFrames acts = _ from htx]
      exact .echoes _ tries (tries + 1) ck _ hp rfl rfl fun hck => readsType_head hck
  | completed tries ck buf n hp hrx hty => exact .completes _ tries ck hp rfl rfl

section Client

variable {c} {s : Calls} {ca : ClientArgs} {x : Wake} {rx : Rx} {cl : ClientCall} {out : List Bytes}

/-- The state after a round of the client. -/
def Calls.afterClient (s : Calls) (cl : ClientCall) (out : List Bytes) (now : UInt64) : Calls :=
  { s with client := cl, fromClient := s.fromClient ++ out, clock := now }

/-- With a new INIT no answer is current any more. -/
theorem Asking.again {ts now : UInt64} (h : Asking c s ts) (hclock : s.clock ≤ now) {f : Bytes}
    (hid : cl.assoc.assocId = s.client.assoc.assocId)
    (hrole : cl.assoc.isInitiator = s.client.assoc.isInitiator)
    (heph : cl.assoc.ephPub = c.scalarmultBase cl.assoc.ephPriv)
    (hf : ReadsInit cl.assoc.assocId cl.assoc.ephPub now f) : Asking c (s.afterClient cl [f] now) now := by
  have hid' : (s.afterClient cl [f] now).clientKeying.assocId = s.clientKeying.assocId := hid
  have hlen : (s.afterClient cl [f] now).fromClient.length = s.fromClient.length + 1 := by
    simp [Calls.afterClient]
  refine ⟨Eq.trans hrole h.role, heph, ⟨f, List.getLast?_concat, hf⟩, ?_, UInt64.le_refl _, ?_, ?_⟩
  · intro g hg
    rw [hid']
    rcases List.mem_append.mp hg with hg | hg
    · obtain ⟨e, t, hi, ht⟩ := h.inits g hg
      exact ⟨e, t, hi, UInt64.le_trans ht (UInt64.le_trans h.ahead hclock)⟩
    · obtain rfl := List.mem_singleton.mp hg
      rw [hid] at hf
      exact ⟨_, now, hf, UInt64.le_refl _⟩
  · intro y hy
    rw [hlen]
    exact Nat.lt_succ_of_lt (h.known y hy)
  · intro y hy hn
    rw [hlen] at hn
    exact absurd (h.known y hy) (by omega)

/-- An answer to the last INIT, taken up, settles the keys. -/
theorem Asking.takes {ts now : UInt64} (h : Asking c s ts) {f g : Bytes} {n : Nat} (hg : (g, n) ∈ s.fromServer)
    (hn : n + 1 = s.fromClient.length) (stale : Bytes)
    (hid : cl.assoc.assocId = s.client.assoc.assocId)
    (hrole : cl.assoc.isInitiator = s.client.assoc.isInitiator)
    (hpub : cl.assoc.ephPub = s.client.assoc.ephPub) (hpriv : cl.assoc.ephPriv = s.client.assoc.ephPriv)
    (hpeer : cl.assoc.peerEph = arr (chunkData0 (framePayload (g ++ stale))) 5 32)
    (hkeys : (cl.assoc.sendKey, cl.assoc.recvKey) =
      sessionKeys c cl.assoc.isInitiator (c.scalarmult cl.assoc.ephPriv cl.assoc.peerEph))
    (hf : ReadsType chunkCookieEcho f) : Settled c (s.afterClient cl [f] now) := by
  obtain ⟨hans, hlast, heph⟩ := h.current (g, n) hg hn
  have hpub' : (s.afterClient cl [f] now).clientKeying.ephPub = s.clientKeying.ephPub := hpub
  have hid' : (s.afterClient cl [f] now).clientKeying.assocId = s.clientKeying.assocId := hid
  have hbase : cl.assoc.ephPub = c.scalarmultBase cl.assoc.ephPriv := by
    rw [hpub, hpriv]
    exact h.eph
  refine ⟨Eq.trans hrole h.role, ⟨hbase, hkeys⟩, ?_, Eq.trans hpeer (heph stale), ?_⟩
  · exact ⟨hans.assocId.trans hid'.symm, hans.peerEph.trans hpub'.symm, hans.role, hans.derived⟩
  · intro y hy
    rcases List.mem_append.mp hy with hy | hy
    · obtain ⟨e, t, hi, ht⟩ := h.inits y hy
      exact .inr ⟨e, t, hid' ▸ hi, UInt64.le_trans ht hlast⟩
    · obtain rfl := List.mem_singleton.mp hy
      exact .inl hf

/-- A settled client sends COOKIE-ECHOs only. -/
theorem Settled.sends {now : UInt64} (h : Settled c s) (hk : cl.assoc.keying = s.client.assoc.keying)
    (hout : ∀ f ∈ out, ReadsType chunkCookieEcho f) : Settled c (s.afterClient cl out now) := by
  have hk : (s.afterClient cl out now).clientKeying = s.clientKeying := hk
  refine ⟨hk ▸ h.role, hk ▸ h.derived, hk ▸ h.answers, hk ▸ h.taken, ?_⟩
  intro f hf
  rw [hk]
  exact (List.mem_append.mp hf).elim (h.quiet f) fun hf => .inl (hout f hf)

theorem Asking.waits {ts now : UInt64} (h : Asking c s ts) (hclock : s.clock ≤ now)
    (hk : cl.assoc.keying = s.client.assoc.keying) : Asking c (s.afterClient cl [] now) ts := by
  have hk : (s.afterClient cl [] now).clientKeying = s.clientKeying := hk
  have hfrom : (s.afterClient cl [] now).fromClient = s.fromClient := List.append_nil _
  refine ⟨hk ▸ h.role, hk ▸ h.eph, ?_, ?_, UInt64.le_trans h.ahead hclock, ?_, ?_⟩
  · rw [hfrom, hk]
    exact h.last
  · rw [hfrom, hk]
    exact h.inits
  · rw [hfrom]
    exact h.known
  · rw [hfrom, hk]
    exact h.current

end Client

/-- A round of the client in which Prompt holds. -/
theorem Calls.Inv.clientRound {s : Calls} (h : s.Inv c) {ca : ClientArgs} {io : Io} {x : Wake} {rx : Rx}
    (hok : Prompt ca s (.client io x)) (hrx : x.rx (s.fromServer.map (·.1)) = some rx) {cl : ClientCall}
    {out : List Bytes} (hm : ClientMove c (.ofNat io.now) ca s.client rx (cl, out)) :
    Calls.Inv c (s.afterClient cl out (if asksAgain s.client rx then .ofNat io.now else s.clock)) := by
  obtain ⟨hahead, hcur⟩ := hok
  have hask : asksAgain s.client rx = true → s.clock ≤ .ofNat io.now := hahead rx hrx
  have hclock : s.clock ≤ if asksAgain s.client rx then .ofNat io.now else s.clock := by
    split
    · rename_i hagain
      exact hask hagain
    · exact UInt64.le_refl _
  obtain ⟨hb, hp⟩ := h
  refine ⟨hb, ?_⟩
  have hafter : (s.afterClient cl out (if asksAgain s.client rx then .ofNat io.now else s.clock)).client.phase =
      cl.phase := rfl
  rw [Calls.Phased] at hp
  cases hm with
  | fails _ _ hph => exact phased_failed c (hafter.trans hph)
  | stays _ hk hph =>
    rw [Calls.Phased, hafter, hph]
    cases hphase : s.client.phase with
    | waitInitAck tries =>
      simp only [hphase] at hp ⊢
      obtain ⟨ts, hask⟩ := hp
      exact ⟨ts, hask.waits hclock hk⟩
    | waitCookieAck tries ck =>
      simp only [hphase] at hp ⊢
      exact ⟨hp.1.sends hk (fun _ hf => nomatch hf), hp.2⟩
    | done ret =>
      simp only [hphase] at hp ⊢
      exact fun hret => (hp hret).sends hk fun _ hf => nomatch hf
  | asks _ f tries tries' hphase hagain hph hid hrole heph hf =>
    simp only [hphase] at hp
    obtain ⟨ts, hask'⟩ := hp
    rw [Calls.Phased, hafter, hph, if_pos hagain]
    exact ⟨_, hask'.again (hask hagain) hid hrole heph hf⟩
  | takes _ buf n tries tries' ck f hphase hbuf hack hph hck hid hrole hpub hpriv hpeer hkeys hf =>
    simp only [hphase] at hp
    obtain ⟨ts, hask⟩ := hp
    rw [hbuf] at hrx
    obtain ⟨g, stale, hg, rfl, rfl, hx⟩ := Wake.rx_frame hrx
    rw [List.getElem?_map, Option.map_eq_some_iff] at hg
    obtain ⟨⟨g, m⟩, hg, rfl⟩ := hg
    have hm : m + 1 = s.fromClient.length := by
      refine hcur m ?_
      rw [hx, ackTakenOf, hphase]
      simp only [hg]
      rw [if_pos hack]
      rfl
    rw [Calls.Phased, hafter, hph]
    exact ⟨hask.takes (List.mem_of_getElem? hg) hm stale hid hrole hpub hpriv hpeer hkeys hf, hck⟩
  | echoes _ tries tries' ck f hphase hph hk hf =>
    simp only [hphase] at hp
    rw [Calls.Phased, hafter, hph]
    refine ⟨hp.1.sends hk fun g hg => ?_, hp.2⟩
    obtain rfl := List.mem_singleton.mp hg
    exact hf hp.2
  | completes _ tries ck hphase hph hk =>
    simp only [hphase] at hp
    rw [Calls.Phased, hafter, hph]
    exact fun _ => hp.1.sends hk fun _ hf => nomatch hf

theorem Calls.Inv.step {s : Calls} (h : s.Inv c) (ca : ClientArgs) (sa : ServerArgs) (ev : CallsEv)
    (hok : Prompt ca s ev) : (Calls.step c ca sa s ev).Inv c := by
  cases ev with
  | client io x =>
    rw [Calls.step]
    cases hrx : x.rx (s.fromServer.map (·.1)) with
    | none => exact h
    | some rx => exact h.clientRound c hok hrx (clientStep_move c io ca s.client rx)
  | server io x =>
    rw [Calls.step]
    cases hrx : x.rx s.fromClient with
    | none => exact h
    | some rx => exact h.serverRound c hrx (serverStep_move c io sa s.server rx)

/-- At first the client has sent its INIT at most, and the server nothing. -/
theorem Calls.start_inv (ioC ioS : Io) (ca : ClientArgs) (sa : ServerArgs) (a : IcspAssoc) (h : Host) :
    (Calls.start c ioC ioS ca sa a h).Inv c := by
  obtain ⟨b, acts, hserver, hcore, -⟩ := serverStart_core c ioS sa h
  obtain ⟨d, hdial, hrole⟩ : ∃ d, clientStart c ioC ca a = clientInit c ioC ca d 0 ∧ d.isInitiator = true :=
    ⟨_, rfl, rfl⟩
  rw [start, hdial, hserver]
  refine ⟨congrArg (fun k : Keying => k.isInitiator) hcore.keying, ?_⟩
  rcases clientInit_sends c ioC ca d 0 with hfail | ⟨f, hcall, htx, hf⟩
  · exact phased_failed c hfail
  · rw [hcall, htx]
    refine ⟨.ofNat ioC.now, hrole, rfl, ⟨f, rfl, hf⟩, ?_, UInt64.le_refl _, ?_, ?_⟩
    · intro g hg
      obtain rfl := List.mem_singleton.mp hg
      exact ⟨_, _, hf, UInt64.le_refl _⟩
    · exact fun _ hy => nomatch hy
    · exact fun _ hy => nomatch hy

/-- Whatever the network loses, delays, repeats or reorders: as long as the client's clock does
not go back between two INITs and the client takes up no INIT-ACK but one that answers its last
INIT, two calls that return 0 hold the same id and mirrored keys. -/
theorem keys_agree (ioC ioS : Io) (ca : ClientArgs) (sa : ServerArgs) (a : IcspAssoc) (h : Host)
    (es : List CallsEv) (hok : Along (Calls.step c ca sa) (Prompt ca) (Calls.start c ioC ioS ca sa a h) es) :
    Throughout (Calls.step c ca sa) Calls.Agreed (Calls.start c ioC ioS ca sa a h) es :=
  throughout_of_inv (fun _ ev hi hp => Calls.Inv.step c hi ca sa ev hp) (fun _ hi => Calls.Inv.agreed c hi) _ es
    (Calls.start_inv c ioC ioS ca sa a h) hok

/-- A quiet round in which `x` is the new ephemeral. -/
def toyIo (now : Nat) (x : UInt8) : Io := { Io.quiet now with ephRnd := toyId x }

def toyCalls : Calls :=
  Calls.start toy (toyIo 1 1) (toyIo 1 0) toyClient toyServer (toyAssoc 9) ⟨toyAssoc 7, .zero⟩

/-- The first INIT is late: the server takes the second, and the late one does no harm. -/
def lateInit : List CallsEv :=
  [.client (toyIo 4 2) .timedOut, .server (toyIo 4 5) (.frame 1 []), .server (toyIo 5 6) (.frame 0 []),
    .client (toyIo 5 3) (.frame 0 []), .server (toyIo 5 7) (.frame 2 []), .client (toyIo 5 4) (.frame 1 [])]

theorem keys_agree_lateInit :
    (run (Calls.step toy toyClient toyServer) toyCalls lateInit).client.phase = .done 0 ∧
      (run (Calls.step toy toyClient toyServer) toyCalls lateInit).server.phase = .done 0 ∧
      Throughout (Calls.step toy toyClient toyServer) Calls.Agreed toyCalls lateInit :=
  ⟨by decide +kernel, by decide +kernel,
    keys_agree toy (toyIo 1 1) (toyIo 1 0) toyClient toyServer (toyAssoc 9) ⟨toyAssoc 7, .zero⟩ lateInit
      (by decide +kernel)⟩

/-- The INIT-ACK is late: the client has a new ephemeral when it comes. -/
def lateInitAck : List CallsEv :=
  [.server (toyIo 1 5) (.frame 0 []), .client (toyIo 4 2) .timedOut, .client (toyIo 5 3) (.frame 0 []),
    .server (toyIo 5 6) (.frame 2 []), .client (toyIo 5 4) (.frame 1 [])]

/-- Both calls return 0, with different keys. -/
theorem late_initAck_disagrees :
    (run (Calls.step toy toyClient toyServer) toyCalls lateInitAck).client.phase = .done 0 ∧
      (run (Calls.step toy toyClient toyServer) toyCalls lateInitAck).server.phase = .done 0 ∧
      ¬ (run (Calls.step toy toyClient toyServer) toyCalls lateInitAck).Agreed := by
  decide +kernel

end Icsp

