import BaitNet.PppoeIsolation
import BaitNet.Tun

/-!
# Who may dial

The command line of the concentrator decides which checks a PADR meets. Each session
remembers the PADR that opened it, so that admission is a property of whole runs.
-/
namespace Pppoe

open Wire Link Crypto Text Tables Runs
open Tun (hexDecode32)
open Gw (AddrClass)
open Dhcp (ipv69AddrDerive)

variable (c : TweetNaCl)

/-- `ipv69_addr_parse_peer`, its key: 64 hex digits and an optional prefix. -/
def addrParsePeer (s : Bytes) : Option (Arr 32) :=
  let buf := s.take 79
  if 47 ∈ buf then
    let prefixLen := (atoi ((buf.dropWhile (· ≠ 47)).drop 1)).bmod (2 ^ 32)
    if prefixLen < 8 ∨ 40 < prefixLen then none else hexDecode32 (buf.takeWhile (· ≠ 47))
  else hexDecode32 buf

/-- The lines of a file as `fgets` with 96 bytes reads them, in `fuel` reads. -/
def fileLines : Nat → Bytes → List Bytes
  | 0, _ => []
  | _ + 1, [] => []
  | fuel + 1, b :: bs =>
    let line := ((b :: bs).take 95).takeWhile (· ≠ 10)
    let rest := (b :: bs).drop (if line.length < ((b :: bs).take 95).length then line.length + 1 else line.length)
    line :: fileLines fuel rest

/-- The key of a line, unless it is a comment, blank or invalid. -/
def peerLine (line : Bytes) : Option (Arr 32) :=
  match (line.takeWhile (· ≠ 0)).dropWhile fun b => b = 32 || b = 9 with
  | [] => none
  | b :: p => if b = 35 then none else addrParsePeer (b :: p)

def peerFileLoad (content : Bytes) : Table maxPeers (Arr 32) :=
  ⟨((fileLines content.length content).filterMap peerLine).take maxPeers, by rw [List.length_take]; omega⟩

/-- The variables that the options set. -/
structure Opts where
  peers : Table maxPeers (Arr 32)
  authEnabled : Bool
  learn : Bool
  peerFile : Option Bytes
  cls : UInt8
  sk : Option (Arr 64)

def Opts.initial : Opts := ⟨.empty, false, false, none, 65, none⟩

/-- What the command finds around it: the files that can be read, the keyring, the MACs of
the interfaces. -/
structure Env where
  files : Bytes → Option Bytes
  keyring : Option (Arr 64)
  ifaces : Bytes → Option (Arr 6)

def Opts.withFile (o : Opts) (env : Env) (path : Bytes) : Opts :=
  let o := { o with peerFile := some path, authEnabled := true }
  match env.files path with
  | none => o
  | some content => { o with peers := peerFileLoad content }

/-- The option loop of `cmd_pppoe_ac`; `none` where it returns 1. -/
def parseAc (env : Env) : Opts → List Bytes → Option Opts
  | o, [] => some o
  | o, [a] => some (if a = ascii "--learn" then { o with learn := true } else o)
  | o, a :: v :: rest =>
    if a = ascii "--peer" then
      if maxPeers ≤ o.peers.entries.length then none
      else
        match addrParsePeer v with
        | none => none
        | some pub => parseAc env { o with peers := o.peers.push pub, authEnabled := true } rest
    else if a = ascii "--peer-file" then parseAc env (o.withFile env v) rest
    else if a = ascii "--learn" then parseAc env { o with learn := true } (v :: rest)
    else if a = ascii "--class" then parseAc env { o with cls := v.headD 0 } rest
    else if a = ascii "--key" then
      match hexDecode32 v with
      | none => none
      | some seed => parseAc env { o with sk := some (pad 64 (seed.val ++ (c.seedToPk seed).val)) } rest
    else parseAc env o (v :: rest)

/-- The class that `--class` names, if the concentrator accepts it. -/
def addrClass (cls : UInt8) : Option AddrClass :=
  if cls = 65 then some .A else if cls = 66 then some .B else if cls = 67 then some .C else none

/-- `cmd_pppoe_ac` up to its loop, with the arguments behind the interface. -/
def startAc (env : Env) (ifname : Bytes) (argv : List Bytes) (clock : Nat) : Option Ac :=
  match parseAc c env Opts.initial argv with
  | none => none
  | some o =>
    match addrClass o.cls, o.sk.or env.keyring, env.ifaces ifname with
    | some cls, some sk, some mac =>
      some (start ⟨mac, ipv69AddrDerive c (arr sk.val 32 32) cls, sk, o.authEnabled, o.learn, o.peerFile⟩ o.peers clock)
    | _, _, _ => none

/-- An allowlist is always enforced: without `--peer` and `--peer-file` there is none. -/
def Opts.Closed (o : Opts) : Prop := o.authEnabled = false → o.peers.entries = [] ∧ o.peerFile = none

theorem withFile_auth (o : Opts) (env : Env) (path : Bytes) : (o.withFile env path).authEnabled = true := by
  rw [Opts.withFile]
  dsimp only
  split
  · rfl
  · rfl

theorem parseAc_closed {env : Env} {o o' : Opts} {argv : List Bytes} (h : parseAc c env o argv = some o')
    (ho : o.Closed) : o'.Closed := by
  fun_induction parseAc c env o argv with
  | case1 o =>
    obtain rfl := Option.some.inj h
    exact ho
  | case2 o a =>
    obtain rfl := Option.some.inj h
    split
    · exact ho
    · exact ho
  | case3 => cases h
  | case4 => cases h
  | case5 o v rest hroom pub hpub ih => exact ih h fun hauth => nomatch hauth
  | case6 o v rest hpeer ih =>
    apply ih h
    intro hauth
    rw [withFile_auth] at hauth
    cases hauth
  | case7 o v rest hpeer hfile ih => exact ih h ho
  | case8 o v rest hpeer hfile hlearn ih => exact ih h ho
  | case9 => cases h
  | case10 o v rest hpeer hfile hlearn hclass seed hseed ih => exact ih h ho
  | case11 o a v rest hpeer hfile hlearn hclass hkey ih => exact ih h ho

/-- The signature of a PADR verifies under the key it carries. -/
def signed (p : Bytes) : Bool := ed25519Verify c (slice p 0 7) (arr p 39 64) (arr p 7 32)

namespace Ac

/-- A PADR passes unchecked without an allowlist; else it is signed, and its key is listed
or gets on the list if there is room. -/
theorem checkPadr_accepted {a : Ac} {p : Bytes} (h : (a.checkPadr c p).2 = true) :
    a.cfg.authEnabled = false ∧ (a.checkPadr c p).1 = a ∨
      a.cfg.authEnabled = true ∧ signed c p = true ∧
        (arr p 7 32 ∈ a.peers.entries ∧ (a.checkPadr c p).1 = a ∨
          arr p 7 32 ∉ a.peers.entries ∧ (a.checkPadr c p).1 = { a with peers := a.peers.push (arr p 7 32) }) := by
  revert h
  rw [checkPadr]
  split
  · exact fun h => Bool.noConfusion h
  split
  · rename_i hopen
    exact fun _ => .inl ⟨by simpa using hopen, rfl⟩
  rename_i hauth
  have hauth' : a.cfg.authEnabled = true := by simpa using hauth
  split
  · rename_i hlisted
    exact fun h => .inr ⟨hauth', h, .inl ⟨hlisted, rfl⟩⟩
  rename_i hlisted
  split
  · rename_i hlearn
    rw [Bool.and_eq_true] at hlearn
    refine fun _ => .inr ⟨hauth', hlearn.2, .inr ⟨hlisted, ?_⟩⟩
    rw [learnPub, if_neg hlisted]
  · exact fun h => Bool.noConfusion h

theorem vetPadr_accepted {a : Ac} {p : Bytes} (h : (a.vetPadr c p).2 = true) :
    ∃ rate, a.vetPadr c p = checkPadr c { a with rate := rate } p := by
  revert h
  rw [vetPadr]
  split
  · exact fun h => Bool.noConfusion h
  split
  · exact fun h => Bool.noConfusion h
  obtain ⟨rate, hrate⟩ := a.allow_state (arr p 1 6)
  cases hallow : a.allow (arr p 1 6) with
  | mk a₁ ok =>
    rw [hallow] at hrate
    dsimp only at hrate
    subst hrate
    cases ok with
    | false => exact fun h => Bool.noConfusion h
    | true => exact fun _ => ⟨rate, rfl⟩

/-- The PADR behind an admitted dial. -/
theorem dialing_vetted {a a' : Ac} {frame : Bytes} {mac : Arr 6} (h : a.dialing c frame = some (a', mac)) :
    mac = arr (framePayload frame) 1 6 ∧ ∃ rate, checkPadr c { a with rate := rate } (framePayload frame) = (a', true) := by
  obtain ⟨-, hvet, hmac⟩ := dialing_elim c h
  obtain ⟨rate, hrate⟩ := vetPadr_accepted c (congrArg Prod.snd hvet)
  exact ⟨hmac, rate, hrate.symm.trans hvet⟩

/-- With an allowlist: the key is on it, or there is room to learn it. Without one: the
signature happens to be right, and nothing is to be learned. -/
def Vouched (a : Ac) (p : Bytes) : Prop :=
  if a.cfg.authEnabled then arr p 7 32 ∈ a.peers.entries ∨ a.peers.entries.length < maxPeers
  else signed c p = true ∧ a.cfg.learn = false

/-- A PADR that opens a session for its host. -/
def opening (a : Ac) (frame : Bytes) : Bool :=
  match a.dialing c frame with
  | some (a', mac) => (a'.sessByCmac mac).isNone && a'.sessAlloc.isSome
  | none => false

/-- An allowlist is always enforced. -/
def Closed (a : Ac) : Prop := a.cfg.authEnabled = false → a.peers.entries = [] ∧ a.cfg.peerFile = none

end Ac

/-- The PADR that opened a session, with the allowlist after it. -/
structure Origin where
  padr : Bytes
  known : List (Arr 32)

/-- What admission promises of a session of the host `mac`. -/
structure Genuine (cfg : Config) (mac : Arr 6) (o : Origin) : Prop where
  host : mac = arr o.padr 1 6
  signed : signed c o.padr = true
  listed : cfg.authEnabled = true ∨ cfg.learn = true → arr o.padr 7 32 ∈ o.known

/-- A concentrator, and for each slot the origin of its session. -/
structure Watched where
  ac : Ac
  origin : Nat → Origin

/-- A frame that fills an unused slot is the origin of the session there. -/
def watch (w : Watched) (e : Event) : Watched :=
  match e with
  | .recv frame =>
    let ac := step c w.ac (.recv frame)
    ⟨ac, fun i => if (w.ac.sessAt i).used then w.origin i else ⟨framePayload frame, ac.peers.entries⟩⟩
  | e => ⟨step c w.ac e, w.origin⟩

def Watched.start (a : Ac) : Watched := ⟨a, fun _ => ⟨[], []⟩⟩

/-- Each session was admitted. -/
def Admitted (w : Watched) : Prop :=
  ∀ (i : Nat) (s : Session), w.ac.At i s → Genuine c w.ac.cfg s.cmac (w.origin i)

/-- A PADR that opens a session is vouched for. -/
def VouchedStep (w : Watched) : Event → Prop
  | .recv frame => w.ac.opening c frame = true → w.ac.Vouched c (framePayload frame)
  | _ => True


namespace Ac

/-- Of an opening PADR, what admission promises is exactly what vouches for it. -/
theorem genuine_iff {a a' : Ac} {frame : Bytes} {mac : Arr 6} (hclosed : a.Closed)
    (hd : a.dialing c frame = some (a', mac)) :
    Genuine c a.cfg mac ⟨framePayload frame, a'.peers.entries⟩ ↔ a.Vouched c (framePayload frame) := by
  obtain ⟨rfl, rate, hcheck⟩ := dialing_vetted c hd
  have hstate := congrArg Prod.fst hcheck
  dsimp only at hstate
  rw [Vouched]
  cases checkPadr_accepted c (congrArg Prod.snd hcheck) with
  | inl hopen =>
    obtain ⟨hauth, hsame⟩ := hopen
    dsimp only at hauth
    have hpeers : a'.peers.entries = [] := by
      rw [← hstate, hsame]
      exact (hclosed hauth).1
    rw [hauth, if_neg Bool.false_ne_true]
    constructor
    · intro h
      refine ⟨h.signed, Bool.eq_false_iff.mpr fun hlearn => ?_⟩
      have hlisted := h.listed (.inr hlearn)
      rw [hpeers] at hlisted
      cases hlisted
    · rintro ⟨hsigned, hlearn⟩
      refine ⟨rfl, hsigned, fun h => ?_⟩
      rw [hauth, hlearn] at h
      cases h <;> contradiction
  | inr hguarded =>
    obtain ⟨hauth, hsigned, hlist⟩ := hguarded
    dsimp only at hauth hlist
    rw [hauth, if_pos rfl]
    cases hlist with
    | inl hlisted =>
      have hpeers : a'.peers = a.peers := by rw [← hstate, hlisted.2]
      exact ⟨fun _ => .inl hlisted.1, fun _ => ⟨rfl, hsigned, fun _ => hpeers ▸ hlisted.1⟩⟩
    | inr hnew =>
      have hpeers : a'.peers = a.peers.push (arr (framePayload frame) 7 32) := by rw [← hstate, hnew.2]
      constructor
      · intro h
        right
        by_contra hfull
        have hlisted := h.listed (.inl hauth)
        rw [hpeers, Table.push_full hfull] at hlisted
        exact hnew.1 hlisted
      · rintro (hlisted | hroom)
        · exact absurd hlisted hnew.1
        · refine ⟨rfl, hsigned, fun _ => ?_⟩
          rw [hpeers, Table.push_entries hroom]
          exact List.mem_append_right _ (List.mem_singleton_self _)

/-- A session after a frame was there before it, or its host has just dialed. -/
theorem Received.session_from {a : Ac} {frame : Bytes} {r : Ac × List Out} (h : a.Received c frame r) {i : Nat}
    {s' : Session} (hs' : r.1.At i s') :
    (∃ s, a.At i s ∧ s.cmac = s'.cmac) ∨
      (a.sessAt i).used = false ∧ a.opening c frame = true ∧
        ∃ a', a.dialing c frame = some (a', s'.cmac) ∧ r.1.peers = a'.peers := by
  rcases h.at_elim hs' with hwas | ⟨inner, s, -, hs, rfl⟩ | ⟨a', mac, sid, hd, hnone, hgot, hunused, rfl, hpeers⟩
  · exact .inl ⟨s', hwas, rfl⟩
  · exact .inl ⟨s, hs, (acLearn_cmac a inner s).symm⟩
  · refine .inr ⟨hunused, ?_, a', hd, hpeers⟩
    rw [opening, hd]
    dsimp only
    rw [hnone, hgot]
    rfl

/-- An opening PADR puts a session of its host into an unused slot. -/
theorem acRx_opening {a : Ac} {frame : Bytes} (h : a.opening c frame = true) :
    ∃ a' mac slot s, a.dialing c frame = some (a', mac) ∧ (a.sessAt slot).used = false ∧ s.cmac = mac ∧
      (a.acRx c frame).1.At slot s ∧ (a.acRx c frame).1.peers = a'.peers := by
  rw [opening] at h
  cases hd : a.dialing c frame with
  | none =>
    rw [hd] at h
    cases h
  | some d =>
    obtain ⟨a', mac⟩ := d
    rw [hd] at h
    dsimp only at h
    rw [Bool.and_eq_true, Option.isNone_iff_eq_none] at h
    obtain ⟨rate, peers, heq'⟩ := dialing_state c hd
    have hsess : a'.sess = a.sess := by rw [heq']
    rw [acRx_dialing hd]
    cases answerPadr_new (c := c) h.1 with
    | inl hfull =>
      rw [hfull.1] at h
      cases h.2
    | inr hgot =>
      obtain ⟨-, slot, old, sid, hslot, hold, -, -, heq⟩ := hgot
      obtain ⟨hlt, -⟩ := List.getElem?_eq_some_iff.mp hslot
      rw [heq]
      refine ⟨a', mac, slot, a'.newSession mac sid, rfl, ?_, rfl, ⟨List.getElem?_set_self hlt, rfl⟩, rfl⟩
      rw [sessAt, List.getD_eq_getElem?_getD, ← hsess, hslot]
      exact hold

/-- Without an allowlist a PADR leaves none behind. -/
theorem dialing_open {a a' : Ac} {frame : Bytes} {mac : Arr 6} (hauth : a.cfg.authEnabled = false)
    (hd : a.dialing c frame = some (a', mac)) : a'.peers = a.peers := by
  obtain ⟨-, rate, hcheck⟩ := dialing_vetted c hd
  have hstate := congrArg Prod.fst hcheck
  dsimp only at hstate
  cases checkPadr_accepted c (congrArg Prod.snd hcheck) with
  | inl hopen => rw [← hstate, hopen.2]
  | inr hguarded =>
    have hauth' : a.cfg.authEnabled = true := hguarded.1
    rw [hauth] at hauth'
    cases hauth'

theorem Received.peers {a : Ac} {frame : Bytes} {r : Ac × List Out} (h : a.Received c frame r)
    (hauth : a.cfg.authEnabled = false) : r.1.peers = a.peers := by
  have hdial : ∀ a' mac, a.dialing c frame = some (a', mac) → a'.peers = a.peers := fun a' mac => dialing_open c hauth
  cases h with
  | passed rate outs houts => rfl
  | learned i s inner hi hs hsrc => rfl
  | redialed a' mac i s hd hi hs => exact hdial a' mac hd
  | refused a' mac hd hnone hfull => exact hdial a' mac hd
  | dialed a' mac slot old sid hd hnone hgot hslot hold hfree hsid => exact hdial a' mac hd
  | closed i s hc hs => rfl
  | island h => rfl

theorem closed_step (a : Ac) (e : Event) (h : a.Closed) : (step c a e).Closed := by
  intro hauth
  rw [step_cfg] at hauth ⊢
  refine ⟨?_, (h hauth).2⟩
  cases e with
  | recv frame =>
    rw [step, (a.acRx_received frame).peers c hauth]
    exact (h hauth).1
  | reap => exact (h hauth).1
  | wait ms => exact (h hauth).1
  | reload peers =>
    rw [step, (h hauth).2]
    exact (h hauth).1

end Ac

theorem startAc_closed {env : Env} {ifname : Bytes} {argv : List Bytes} {clock : Nat} {a : Ac}
    (h : startAc c env ifname argv clock = some a) : a.Closed ∧ ∀ i s, ¬ a.At i s := by
  rw [startAc] at h
  cases hparse : parseAc c env Opts.initial argv with
  | none =>
    rw [hparse] at h
    cases h
  | some o =>
    rw [hparse] at h
    dsimp only at h
    split at h
    · obtain rfl := Option.some.inj h
      exact ⟨parseAc_closed c hparse fun _ => ⟨rfl, rfl⟩, Ac.not_at_start _ o.peers clock⟩
    · cases h

/-- On top of a list that is enforced, one step keeps admission exactly if an opening PADR
is vouched for. -/
theorem admitted_step_iff (w : Watched) (e : Event) (hclosed : w.ac.Closed) (hw : Admitted c w) :
    Admitted c (watch c w e) ↔ VouchedStep c w e := by
  cases e with
  | recv frame =>
    rw [VouchedStep, Admitted, watch]
    dsimp only
    rw [Ac.step_cfg]
    constructor
    · intro hall hopening
      obtain ⟨a', mac, slot, s, hd, hunused, hmac, hs, hpeers⟩ := Ac.acRx_opening c hopening
      have hgenuine := hall slot s hs
      rw [hunused, if_neg Bool.false_ne_true, hmac, step, hpeers] at hgenuine
      exact (Ac.genuine_iff c hclosed hd).mp hgenuine
    · intro hvouched i s' hs'
      cases (w.ac.acRx_received frame).session_from c hs' with
      | inl hwas =>
        obtain ⟨s, hs, hmac⟩ := hwas
        rw [hs.sessAt, hs.used, if_pos rfl, ← hmac]
        exact hw i s hs
      | inr hnew =>
        obtain ⟨hunused, hopening, a', hd, hpeers⟩ := hnew
        rw [hunused, if_neg Bool.false_ne_true, step, hpeers]
        exact (Ac.genuine_iff c hclosed hd).mpr (hvouched hopening)
  | reap => exact ⟨fun _ => trivial, fun _ i s hs => hw i s hs.of_reap⟩
  | wait ms => exact ⟨fun _ => trivial, fun _ i s hs => hw i s ⟨hs.slot, hs.used⟩⟩
  | reload peers =>
    refine ⟨fun _ => trivial, fun _ i s hs => ?_⟩
    have hgenuine := hw i s (Ac.At.of_reload (c := c) hs)
    rwa [← Ac.step_cfg (c := c) w.ac (.reload peers)] at hgenuine

/-- Every session was opened by a signed PADR whose key was let in, in all states of a run,
exactly if every opening PADR of the run was vouched for. -/
theorem admission_iff {env : Env} {ifname : Bytes} {argv : List Bytes} {clock : Nat} {a : Ac}
    (h : startAc c env ifname argv clock = some a) (es : List Event) :
    Throughout (watch c) (Admitted c) (Watched.start a) es ↔ Along (watch c) (VouchedStep c) (Watched.start a) es := by
  obtain ⟨hclosed, hempty⟩ := startAc_closed c h
  apply throughout_iff_along (I := fun w => w.ac.Closed)
  · intro w e hI _ _
    have hstep := Ac.closed_step c w.ac e hI
    cases e with
    | recv frame => exact hstep
    | reap => exact hstep
    | wait ms => exact hstep
    | reload peers => exact hstep
  · exact fun w e hI hw => admitted_step_iff c w e hI hw
  · exact hclosed
  · exact fun i s hs => (hempty i s hs).elim

def toyEnv : Env := ⟨fun _ => none, some (.zero 64), fun _ => some (toyMac 1)⟩

/-- `pppoe ac eth0 --peer 99..99`. -/
def toyListed : Ac := (startAc toy toyEnv (ascii "eth0") [ascii "--peer", List.replicate 64 57] 0).get (by decide +kernel)

/-- The listed host dials. -/
theorem admission_listed : Throughout (watch toy) (Admitted toy) (Watched.start toyListed) [.recv (toyPadr 7 0x99 0x99)] := by
  have hvouched : toyListed.cfg.authEnabled = true ∧ toyListed.peers.entries.length < maxPeers := by decide +kernel
  refine (admission_iff toy (Option.some_get _).symm _).mpr ⟨fun _ => ?_, trivial⟩
  change Ac.Vouched toy toyListed _
  rw [Ac.Vouched, hvouched.1, if_pos rfl]
  exact .inr hvouched.2

/-- `pppoe ac eth0`. -/
def toyOpen : Ac := (startAc toy toyEnv (ascii "eth0") [] 0).get (by decide +kernel)

/-- Host 7 dials with the key 9, and the signature is of the key 8. -/
theorem unsigned_padr_admitted :
    ¬ Throughout (watch toy) (Admitted toy) (Watched.start toyOpen) [.recv (toyPadr 7 9 8)] := by
  intro hall
  have hslot : (watch toy (Watched.start toyOpen) (.recv (toyPadr 7 9 8))).ac.sess[0]? =
      some ⟨1, true, toyMac 7, .zero 6, 0, 0⟩ := by decide +kernel
  have hbad : signed toy ((watch toy (Watched.start toyOpen) (.recv (toyPadr 7 9 8))).origin 0).padr = false := by
    decide +kernel
  have hgenuine := hall.2 0 _ ⟨hslot, rfl⟩
  rw [hgenuine.signed] at hbad
  cases hbad

end Pppoe
