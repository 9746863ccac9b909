import BaitNet.BtlsCalls
import BaitNet.BtlsFlight

/-!
# Nonces of bTLS

A session numbers the records of each epoch from zero and changes its key with the
epoch, so that no nonce comes twice under a key.
-/
namespace Bite

open Wire Crypto Runs

/-- The key and the number of each sealing in a log. -/
def sealed (log : List (Nat × Act)) : List (Arr 32 × UInt64) :=
  log.filterMap fun
    | (_, .seal key seq _) => some (key, seq)
    | (_, .install ..) => none

/-- Label, transcript and key of each derivation in a log. -/
def derived (log : List (Nat × Act)) : List (Bytes × Bytes × Arr 32) :=
  log.flatMap fun
    | (_, .install lC2s lS2c th c2s s2c) => [(lC2s, th, c2s), (lS2c, th, s2c)]
    | (_, .seal ..) => []

/-- No two derivations of a log that differ in label or transcript give the same key. -/
def DistinctKeys (log : List (Nat × Act)) : Prop :=
  ∀ d ∈ derived log, ∀ d' ∈ derived log, d.2.2 = d'.2.2 → d.1 = d'.1 ∧ d.2.1 = d'.2.1

instance (log : List (Nat × Act)) : Decidable (DistinctKeys log) :=
  inferInstanceAs (Decidable (∀ d ∈ derived log, ∀ d' ∈ derived log,
    d.2.2 = d'.2.2 → d.1 = d'.1 ∧ d.2.1 = d'.2.1))

/-- Of the two values for the two directions, the one for what `role` sends. -/
def sendSide {α : Type} (role : Role) (c2s s2c : α) : α :=
  match role with
  | .client => c2s
  | .server => s2c

def Role.other : Role → Role
  | .client => .server
  | .server => .client

theorem Role.other_ne (role : Role) : role.other ≠ role := by cases role <;> decide

/-- The log entries of records numbered from zero under one key. -/
def sealsUnder (epoch : Nat) (key : Arr 32) (inners : List Bytes) : List (Nat × Act) :=
  inners.zipIdx.map fun x => (epoch, .seal key (.ofNat x.2) x.1)

theorem sealsUnder_concat (epoch : Nat) (key : Arr 32) (inners : List Bytes) (inner : Bytes) :
    sealsUnder epoch key (inners ++ [inner]) =
      sealsUnder epoch key inners ++ [(epoch, .seal key (.ofNat inners.length) inner)] := by
  simp [sealsUnder, List.zipIdx_append]

variable (c : TweetNaCl)

/-- The keys of the handshake epoch and of the application epoch. -/
def hsEpochKeys (prk : Arr 64) (th : Bytes) : Act :=
  epochKeys c prk th (ascii "btls-hs-c2s") (ascii "btls-hs-s2c")
def appEpochKeys (prk : Arr 64) (th : Bytes) : Act :=
  epochKeys c prk th (ascii "btls-app-c2s") (ascii "btls-app-s2c")

def hsSendKey (role : Role) (prk : Arr 64) (th : Bytes) : Arr 32 :=
  keyOf c prk th (sendSide role (ascii "btls-hs-c2s") (ascii "btls-hs-s2c"))
def appSendKey (role : Role) (prk : Arr 64) (th : Bytes) : Arr 32 :=
  keyOf c prk th (sendSide role (ascii "btls-app-c2s") (ascii "btls-app-s2c"))

/-- The epoch of a session and all that it has sealed so far. -/
inductive Numbered (t : Btls) (log : List (Nat × Act)) : Prop where
  | clear (hepoch : t.epoch = 0) (hlog : log = [])
      (hst : t.state = .hs → t.role = .server ∧ t.wantHs = hsServerHello) (hwait : t.state ≠ .waitFin)
  | handshake (hepoch : t.epoch = 1) (hst : t.state = .hs ∨ t.state = .waitFin)
      (hsent : t.role = .server → t.state = .hs → t.wantHs ≠ hsServerHello)
      (prk : Arr 64) (th : Bytes) (inners : List Bytes)
      (hkey : t.sendKey = hsSendKey c t.role prk th) (hseq : t.sendSeq = .ofNat inners.length)
      (hlog : log = (0, hsEpochKeys c prk th) :: sealsUnder 1 t.sendKey inners)
  | application (hepoch : t.epoch = 2) (hst : t.state = .done)
      (prk prk' : Arr 64) (th th' : Bytes) (inners inners' : List Bytes)
      (hkey : t.sendKey = appSendKey c t.role prk' th') (hseq : t.sendSeq = .ofNat inners'.length)
      (hlog : log = (0, hsEpochKeys c prk th) :: sealsUnder 1 (hsSendKey c t.role prk th) inners ++
        (1, appEpochKeys c prk' th') :: sealsUnder 2 t.sendKey inners')

variable {c}

theorem ofNat_succ64 (n : Nat) : UInt64.ofNat n + 1 = UInt64.ofNat (n + 1) := (UInt64.ofNat_add n 1).symm

/-- What a call that neither seals nor installs leaves as it was. -/
structure SendsAlike (t t' : Btls) : Prop where
  role : t'.role = t.role
  epoch : t'.epoch = t.epoch
  state : t'.state = t.state
  key : t'.sendKey = t.sendKey
  seq : t'.sendSeq = t.sendSeq
  want : t.role = .server → t'.wantHs = t.wantHs

section Numbering

variable {t t' : Btls} {log : List (Nat × Act)} (h : Numbered c t log)
include h

theorem Numbered.alike (ht : SendsAlike t t') : Numbered c t' (log ++ []) := by
  obtain ⟨hrole, hepoch', hst', hkey', hseq', hwant⟩ := ht
  rw [List.append_nil]
  cases h with
  | clear hepoch hlog hst hwait =>
    have hfirst : t'.state = .hs → t'.role = .server ∧ t'.wantHs = hsServerHello := by
      intro hhs
      obtain ⟨hserver, hsh⟩ := hst (hst'.symm.trans hhs)
      exact ⟨hrole.trans hserver, (hwant hserver).trans hsh⟩
    exact .clear (hepoch'.trans hepoch) hlog hfirst (hst' ▸ hwait)
  | handshake hepoch hst hsent prk th inners hkey hseq hlog =>
    have hpast : t'.role = .server → t'.state = .hs → t'.wantHs ≠ hsServerHello := by
      intro hserver hhs
      rw [hwant (hrole.symm.trans hserver)]
      exact hsent (hrole.symm.trans hserver) (hst'.symm.trans hhs)
    rw [← hrole] at hkey
    rw [← hkey'] at hkey hlog
    exact .handshake (hepoch'.trans hepoch) (hst' ▸ hst) hpast prk th inners hkey (hseq'.trans hseq) hlog
  | application hepoch hst prk prk' th th' inners inners' hkey hseq hlog =>
    rw [← hrole] at hkey hlog
    rw [← hkey'] at hkey hlog
    exact .application (hepoch'.trans hepoch) (hst'.trans hst) prk prk' th th' inners inners' hkey
      (hseq'.trans hseq) hlog

/-- The handshake epoch, in the states that belong to it. -/
theorem Numbered.inHandshake (hst : t.state = .hs ∨ t.state = .waitFin)
    (hpast : t.epoch ≠ 0 ∨ t.wantHs ≠ hsServerHello) :
    t.epoch = 1 ∧ (t.role = .server → t.state = .hs → t.wantHs ≠ hsServerHello) ∧
      ∃ prk th inners, t.sendKey = hsSendKey c t.role prk th ∧ t.sendSeq = .ofNat inners.length ∧
        log = (0, hsEpochKeys c prk th) :: sealsUnder 1 t.sendKey inners := by
  cases h with
  | clear hepoch _ hhs hwait =>
    obtain hst | hst := hst
    · obtain hne | hne := hpast
      · exact absurd hepoch hne
      · exact absurd (hhs hst).2 hne
    · exact absurd hst hwait
  | handshake hepoch _ hsent prk th inners hkey hseq hlog =>
    exact ⟨hepoch, hsent, prk, th, inners, hkey, hseq, hlog⟩
  | application _ hdone =>
    rw [hdone] at hst
    obtain hst | hst := hst
    · cases hst
    · cases hst

/-- The first keys are installed once. -/
theorem Numbered.install (prk : Arr 64) (th : Bytes) (hepoch : t.epoch = 0) (hepoch' : t'.epoch = 1)
    (hst' : t'.state = .hs) (hsent : t'.role = .server → t'.wantHs ≠ hsServerHello)
    (hkey : t'.sendKey = hsSendKey c t'.role prk th) (hseq : t'.sendSeq = 0) :
    Numbered c t' (log ++ [(t.epoch, hsEpochKeys c prk th)]) := by
  cases h with
  | clear _ hlog =>
    subst hlog
    rw [hepoch]
    exact .handshake hepoch' (.inl hst') (fun hserver _ => hsent hserver) prk th [] hkey hseq rfl
  | handshake hone =>
    rw [hepoch] at hone
    cases hone
  | application htwo =>
    rw [hepoch] at htwo
    cases htwo

end Numbering

theorem Numbered.feed {t : Btls} {log : List (Nat × Act)} (h : Numbered c t log) {frame : Bytes}
    {r : Btls × List Act × Int} (hr : FeedOutcome c t frame r) :
    Numbered c r.1 (log ++ r.2.1.map (t.epoch, ·)) := by
  have hclient : t.role = .client → ∀ {p : Prop}, t.role = .server → p := by
    intro hclient p hserver
    rw [hclient] at hserver
    cases hserver
  cases hr with
  | refused n pub hpub => exact h.alike ⟨rfl, rfl, rfl, rfl, rfl, fun _ => rfl⟩
  | clientHello hrole hst hepoch hshape =>
    cases h with
    | clear _ hlog =>
      subst hlog
      exact .clear hepoch rfl (fun _ => ⟨hrole, rfl⟩) St.noConfusion
    | handshake hone =>
      rw [hepoch] at hone
      cases hone
    | application htwo =>
      rw [hepoch] at htwo
      cases htwo
  | serverHello hrole hst hepoch hshape th hth prk hprk =>
    have hkey : keyOf c prk th (ascii "btls-hs-c2s") = hsSendKey c t.role prk th := by
      rw [hrole]
      rfl
    exact h.install prk th hepoch rfl rfl (hclient hrole) hkey rfl
  | cert n pub hrole hepoch hwant hframe hlabel =>
    exact h.alike ⟨rfl, rfl, rfl, rfl, rfl, hclient hrole⟩
  | certVerify n sig hrole hepoch hwant hframe hver =>
    exact h.alike ⟨rfl, rfl, rfl, rfl, rfl, hclient hrole⟩
  | serverFin n hrole hepoch hwant hframe =>
    exact h.alike ⟨rfl, rfl, rfl, rfl, rfl, hclient hrole⟩
  | clientFin hrole hst hepoch hframe th hth =>
    obtain ⟨hone, -, prk, th', inners, hkey, hseq, hlog⟩ := h.inHandshake (.inr hst) (.inl hepoch)
    have hkey' : keyOf c t.prk th (ascii "btls-app-s2c") = appSendKey c t.role t.prk th := by
      rw [hrole]
      rfl
    have hlog' : log ++ [(t.epoch, appEpochKeys c t.prk th)] =
        (0, hsEpochKeys c prk th') :: sealsUnder 1 (hsSendKey c t.role prk th') inners ++
          (1, appEpochKeys c t.prk th) :: sealsUnder 2 (keyOf c t.prk th (ascii "btls-app-s2c")) [] := by
      rw [hlog, hone, ← hkey]
      rfl
    exact .application rfl rfl prk t.prk th' th inners [] hkey' rfl hlog'

/-- A record takes the next number under the key of the handshake epoch. -/
theorem handshake_seal {t : Btls} {log : List (Nat × Act)} {prk : Arr 64} {th : Bytes}
    {inners : List Bytes} (hone : t.epoch = 1) (hseq : t.sendSeq = .ofNat inners.length)
    (hlog : log = (0, hsEpochKeys c prk th) :: sealsUnder 1 t.sendKey inners) (inner : Bytes) :
    log ++ [(t.epoch, .seal t.sendKey t.sendSeq inner)] =
      (0, hsEpochKeys c prk th) :: sealsUnder 1 t.sendKey (inners ++ [inner]) := by
  rw [hlog, hone, hseq, sealsUnder_concat]
  rfl

theorem Numbered.pump {t : Btls} {log : List (Nat × Act)} (h : Numbered c t log)
    {r : Btls × List Act × Int × Bytes} (hr : PumpOutcome c t r) :
    Numbered c r.1 (log ++ r.2.1.map (t.epoch, ·)) := by
  cases hr with
  | idle => exact h.alike ⟨rfl, rfl, rfl, rfl, rfl, fun _ => rfl⟩
  | hello hrole hst hwant rnd th prk rec =>
    have hkey : keyOf c prk th (ascii "btls-hs-s2c") = hsSendKey c t.role prk th := by
      rw [hrole]
      rfl
    have hepoch : t.epoch = 0 := by
      cases h with
      | clear hepoch => exact hepoch
      | handshake _ _ hsent => exact absurd hwant (hsent hrole hst)
      | application _ hdone =>
        rw [hst] at hdone
        cases hdone
    have hnext : hsCertificate ≠ hsServerHello := by decide
    exact h.install prk th hepoch rfl hst (fun _ => hnext) hkey rfl
  | flight hrole hst hwant th state wantHs inner rec hnext =>
    obtain ⟨hone, -, prk, th', inners, hkey, hseq, hlog⟩ := h.inHandshake (.inl hst) (.inr hwant)
    have hnum : t.sendSeq + 1 = .ofNat (inners ++ [inner]).length := by
      rw [hseq, ofNat_succ64, List.length_append, List.length_singleton]
    have hst' : state = .hs ∨ state = .waitFin := hnext.imp_left And.left
    have hsent : t.role = .server → state = .hs → wantHs ≠ hsServerHello := by
      rintro - hhs
      obtain ⟨-, hne⟩ | hwait := hnext
      · exact hne
      · rw [hhs] at hwait
        cases hwait
    exact .handshake hone hst' hsent prk th' _ hkey hnum (handshake_seal hone hseq hlog inner)
  | clientFin hrole hst hwant th inner rec =>
    have hpast : t.wantHs ≠ hsServerHello := by
      rw [hwant]
      decide
    obtain ⟨hone, -, prk, th', inners, hkey, hseq, hlog⟩ := h.inHandshake (.inl hst) (.inr hpast)
    have hkey' : keyOf c t.prk th (ascii "btls-app-c2s") = appSendKey c t.role t.prk th := by
      rw [hrole]
      rfl
    have hlog' : log ++ [(t.epoch, .seal t.sendKey t.sendSeq inner), (t.epoch, appEpochKeys c t.prk th)] =
        (0, hsEpochKeys c prk th') :: sealsUnder 1 (hsSendKey c t.role prk th') (inners ++ [inner]) ++
          (1, appEpochKeys c t.prk th) :: sealsUnder 2 (keyOf c t.prk th (ascii "btls-app-c2s")) [] := by
      rw [← hkey, ← handshake_seal hone hseq hlog inner, hone, List.append_assoc]
      rfl
    exact .application rfl rfl prk t.prk th' th _ [] hkey' rfl hlog'

theorem Numbered.send {t : Btls} {log : List (Nat × Act)} (h : Numbered c t log)
    {r : Btls × List Act × Int × Bytes} (hr : SendOutcome t r) :
    Numbered c r.1 (log ++ r.2.1.map (t.epoch, ·)) := by
  cases hr with
  | refused => exact h.alike ⟨rfl, rfl, rfl, rfl, rfl, fun _ => rfl⟩
  | sealed hst hepoch ptr len off inner rec ret =>
    cases h with
    | clear h0 =>
      rw [hepoch] at h0
      cases h0
    | handshake hone =>
      rw [hepoch] at hone
      cases hone
    | application _ _ prk prk' th th' inners inners' hkey hseq hlog =>
      have hnum : t.sendSeq + 1 = .ofNat (inners' ++ [inner]).length := by
        rw [hseq, ofNat_succ64, List.length_append, List.length_singleton]
      have hlog' : log ++ [(t.epoch, .seal t.sendKey t.sendSeq inner)] =
          (0, hsEpochKeys c prk th) :: sealsUnder 1 (hsSendKey c t.role prk th) inners ++
            (1, appEpochKeys c prk' th') :: sealsUnder 2 t.sendKey (inners' ++ [inner]) := by
        rw [hlog, hepoch, hseq, sealsUnder_concat, List.append_assoc]
        rfl
      exact .application hepoch hst prk prk' th th' inners _ hkey hnum hlog'

theorem numbered_step (s : Sess) (e : SessEv) (h : Numbered c s.t s.log) :
    Numbered c (sessStep c s e).t (sessStep c s e).log := by
  apply sessStep_inv (I := fun s => Numbered c s.t s.log)
  · intro rnd hrole hst
    have hempty : s.t.epoch = 0 ∧ s.log = [] := by
      cases h with
      | clear hepoch hlog => exact ⟨hepoch, hlog⟩
      | handshake _ hst' =>
        rw [hst] at hst'
        obtain hst' | hst' := hst'
        · cases hst'
        · cases hst'
      | application _ hst' =>
        rw [hst] at hst'
        cases hst'
    have hlog : s.log ++ ([] : List Act).map (s.t.epoch, ·) = [] := by
      rw [hempty.2]
      rfl
    exact .clear hempty.1 hlog St.noConfusion St.noConfusion
  · exact fun frame r hr => h.feed hr
  · exact fun r hr => h.pump hr
  · exact fun r hr => h.send hr
  · intro t' ht
    cases ht with
    | refused => exact h.alike ⟨rfl, rfl, rfl, rfl, rfl, fun _ => rfl⟩
    | opened _ _ n rx => exact h.alike ⟨rfl, rfl, rfl, rfl, rfl, fun _ => rfl⟩

theorem sessStep_role (s : Sess) (e : SessEv) : (sessStep c s e).t.role = s.t.role := by
  apply sessStep_inv (I := fun s' => s'.t.role = s.t.role)
  · exact fun _ _ _ => rfl
  · intro frame r hr
    cases hr <;> rfl
  · intro r hr
    cases hr <;> rfl
  · intro r hr
    cases hr <;> rfl
  · intro t' ht
    cases ht <;> rfl

theorem sealed_append (log log' : List (Nat × Act)) : sealed (log ++ log') = sealed log ++ sealed log' :=
  List.filterMap_append

theorem derived_append (log log' : List (Nat × Act)) :
    derived (log ++ log') = derived log ++ derived log' := List.flatMap_append

@[simp] theorem sealed_epochKeys (e : Nat) (prk : Arr 64) (th lC2s lS2c : Bytes) (log : List (Nat × Act)) :
    sealed ((e, epochKeys c prk th lC2s lS2c) :: log) = sealed log := rfl

@[simp] theorem sealed_sealsUnder (e : Nat) (key : Arr 32) (inners : List Bytes) :
    sealed (sealsUnder e key inners) = (List.range inners.length).map fun i => (key, .ofNat i) := by
  rw [sealed, sealsUnder, List.filterMap_map, List.range_eq_range', ← List.zipIdx_map_snd 0 inners,
    List.map_map, ← List.filterMap_eq_map]
  rfl

theorem nodup_numbers (key : Arr 32) (n : Nat) (h : n ≤ 2 ^ 64) :
    ((List.range n).map fun i => (key, UInt64.ofNat i)).Nodup := by
  apply List.Nodup.map_on _ List.nodup_range
  intro i hi j hj hij
  have hi' := List.mem_range.mp hi
  have hj' := List.mem_range.mp hj
  have hnum := congrArg UInt64.toNat (Prod.ext_iff.mp hij).2
  simp only [UInt64.toNat_ofNat'] at hnum
  omega

/-- The label of the key under which `role` seals in an epoch. -/
def sealLabel (role : Role) (epoch : Nat) : Bytes :=
  if epoch = 1 then sendSide role (ascii "btls-hs-c2s") (ascii "btls-hs-s2c")
  else sendSide role (ascii "btls-app-c2s") (ascii "btls-app-s2c")

theorem mem_sealed {log : List (Nat × Act)} {key : Arr 32} {seq : UInt64} :
    (key, seq) ∈ sealed log ↔ ∃ e inner, (e, Act.seal key seq inner) ∈ log := by
  rw [sealed, List.mem_filterMap]
  constructor
  · rintro ⟨⟨e, act⟩, hmem, hact⟩
    match act, hact with
    | .seal _ _ inner, rfl => exact ⟨e, inner, hmem⟩
  · rintro ⟨e, inner, hmem⟩
    exact ⟨_, hmem, rfl⟩

theorem mem_derived {log : List (Nat × Act)} {e : Nat} {lC2s lS2c th : Bytes} {c2s s2c : Arr 32}
    (h : (e, Act.install lC2s lS2c th c2s s2c) ∈ log) (role : Role) :
    (sendSide role lC2s lS2c, th, sendSide role c2s s2c) ∈ derived log := by
  apply List.mem_flatMap.mpr
  cases role with
  | client => exact ⟨_, h, List.mem_cons_self⟩
  | server => exact ⟨_, h, List.mem_cons_of_mem _ List.mem_cons_self⟩

theorem mem_derived_keys {log : List (Nat × Act)} {e : Nat} {prk : Arr 64} {lC2s lS2c th : Bytes}
    (h : (e, epochKeys c prk th lC2s lS2c) ∈ log) (role : Role) :
    (sendSide role lC2s lS2c, th, keyOf c prk th (sendSide role lC2s lS2c)) ∈ derived log := by
  have hmem := mem_derived h role
  cases role with
  | client => exact hmem
  | server => exact hmem

theorem mem_sealsUnder {e epoch : Nat} {key key' : Arr 32} {seq : UInt64} {inner : Bytes}
    {inners : List Bytes} (h : (e, Act.seal key seq inner) ∈ sealsUnder epoch key' inners) :
    e = epoch ∧ key = key' := by
  obtain ⟨x, -, hx⟩ := List.mem_map.mp h
  cases hx
  exact ⟨rfl, rfl⟩

theorem not_mem_sealsUnder {e epoch : Nat} {key : Arr 32} {lC2s lS2c th : Bytes} {c2s s2c : Arr 32}
    {inners : List Bytes} :
    (e, Act.install lC2s lS2c th c2s s2c) ∉ sealsUnder epoch key inners := by
  intro h
  obtain ⟨x, -, hx⟩ := List.mem_map.mp h
  cases hx

theorem sealLabel_epoch (role : Role) {e e' : Nat} (he : e = 1 ∨ e = 2) (he' : e' = 1 ∨ e' = 2)
    (h : sealLabel role e = sealLabel role e') : e = e' := by
  have hdiffer : sealLabel role 1 ≠ sealLabel role 2 := by cases role <;> decide
  obtain rfl | rfl := he
  · obtain rfl | rfl := he'
    · rfl
    · exact absurd h hdiffer
  · obtain rfl | rfl := he'
    · exact absurd h.symm hdiffer
    · rfl

theorem sealLabel_role {role role' : Role} (hne : role' ≠ role) {e e' : Nat} (he : e = 1 ∨ e = 2)
    (he' : e' = 1 ∨ e' = 2) : sealLabel role e ≠ sealLabel role' e' := by
  cases role with
  | client =>
    cases role' with
    | client => exact absurd rfl hne
    | server => obtain rfl | rfl := he <;> obtain rfl | rfl := he' <;> decide
  | server =>
    cases role' with
    | client => obtain rfl | rfl := he <;> obtain rfl | rfl := he' <;> decide
    | server => exact absurd rfl hne

/-- The keys of the two epochs differ. -/
theorem epochs_differ {log : List (Nat × Act)} (role : Role) {prk prk' : Arr 64} {th th' : Bytes}
    (hkeys : DistinctKeys log) (hfirst : (0, hsEpochKeys c prk th) ∈ log)
    (hsecond : (1, appEpochKeys c prk' th') ∈ log) : hsSendKey c role prk th ≠ appSendKey c role prk' th' := by
  intro heq
  have hlabel : sealLabel role 1 = sealLabel role 2 :=
    (hkeys _ (mem_derived_keys hfirst role) _ (mem_derived_keys hsecond role) heq).1
  exact absurd (sealLabel_epoch role (.inl rfl) (.inr rfl) hlabel) (by decide)

section Log

variable {t : Btls} {log : List (Nat × Act)} (h : Numbered c t log)
include h

/-- A record is sealed under a key of its epoch and of its direction. -/
theorem Numbered.seal_label {e : Nat} {key : Arr 32} {seq : UInt64} {inner : Bytes}
    (hmem : (e, Act.seal key seq inner) ∈ log) :
    (e = 1 ∨ e = 2) ∧ ∃ th, (sealLabel t.role e, th, key) ∈ derived log := by
  cases h with
  | clear _ hlog =>
    rw [hlog] at hmem
    cases hmem
  | handshake _ _ _ prk th inners hkey _ hlog =>
    have hfirst : (0, hsEpochKeys c prk th) ∈ log := hlog ▸ List.mem_cons_self
    rw [hlog] at hmem
    obtain hmem | hmem := List.mem_cons.mp hmem
    · cases hmem
    · obtain ⟨rfl, rfl⟩ := mem_sealsUnder hmem
      have hderived := mem_derived_keys hfirst t.role
      rw [hkey]
      exact ⟨.inl rfl, th, hderived⟩
  | application _ _ prk prk' th th' inners inners' hkey _ hlog =>
    have hfirst : (0, hsEpochKeys c prk th) ∈ log := hlog ▸ List.mem_cons_self
    have hsecond : (1, appEpochKeys c prk' th') ∈ log := by
      rw [hlog]
      exact List.mem_append_right _ List.mem_cons_self
    rw [hlog] at hmem
    obtain hmem | hmem := List.mem_append.mp hmem
    · obtain hmem | hmem := List.mem_cons.mp hmem
      · cases hmem
      · obtain ⟨rfl, rfl⟩ := mem_sealsUnder hmem
        exact ⟨.inl rfl, th, mem_derived_keys hfirst t.role⟩
    · obtain hmem | hmem := List.mem_cons.mp hmem
      · cases hmem
      · obtain ⟨rfl, rfl⟩ := mem_sealsUnder hmem
        have hderived := mem_derived_keys hsecond t.role
        rw [hkey]
        exact ⟨.inr rfl, th', hderived⟩

/-- Keys are installed under the labels of an epoch. -/
theorem Numbered.install_labels {e : Nat} {lC2s lS2c th : Bytes} {c2s s2c : Arr 32}
    (hmem : (e, Act.install lC2s lS2c th c2s s2c) ∈ log) (role : Role) :
    ∃ e', (e' = 1 ∨ e' = 2) ∧ sendSide role lC2s lS2c = sealLabel role e' := by
  cases h with
  | clear _ hlog =>
    rw [hlog] at hmem
    cases hmem
  | handshake _ _ _ prk th' inners hkey _ hlog =>
    rw [hlog] at hmem
    obtain hmem | hmem := List.mem_cons.mp hmem
    · cases hmem
      exact ⟨1, .inl rfl, rfl⟩
    · exact absurd hmem not_mem_sealsUnder
  | application _ _ prk prk' th₁ th₂ inners inners' hkey _ hlog =>
    rw [hlog] at hmem
    obtain hmem | hmem := List.mem_append.mp hmem
    · obtain hmem | hmem := List.mem_cons.mp hmem
      · cases hmem
        exact ⟨1, .inl rfl, rfl⟩
      · exact absurd hmem not_mem_sealsUnder
    · obtain hmem | hmem := List.mem_cons.mp hmem
      · cases hmem
        exact ⟨2, .inr rfl, rfl⟩
      · exact absurd hmem not_mem_sealsUnder

theorem Numbered.nodup (hkeys : DistinctKeys log) (hfew : (sealed log).length ≤ 2 ^ 64) :
    (sealed log).Nodup := by
  cases h with
  | clear _ hlog =>
    rw [hlog]
    exact List.nodup_nil
  | handshake _ _ _ prk th inners _ _ hlog =>
    rw [hlog, hsEpochKeys, sealed_epochKeys, sealed_sealsUnder] at hfew ⊢
    rw [List.length_map, List.length_range] at hfew
    exact nodup_numbers _ _ hfew
  | application _ _ prk prk' th th' inners inners' hkey _ hlog =>
    have hfirst : (0, hsEpochKeys c prk th) ∈ log := hlog ▸ List.mem_cons_self
    have hsecond : (1, appEpochKeys c prk' th') ∈ log := by
      rw [hlog]
      exact List.mem_append_right _ List.mem_cons_self
    have hdiffer := epochs_differ t.role hkeys hfirst hsecond
    rw [hlog, sealed_append, hsEpochKeys, appEpochKeys, sealed_epochKeys, sealed_epochKeys,
      sealed_sealsUnder, sealed_sealsUnder] at hfew ⊢
    rw [List.length_append, List.length_map, List.length_map, List.length_range, List.length_range] at hfew
    apply List.Nodup.append (nodup_numbers _ _ (by omega)) (nodup_numbers _ _ (by omega))
    intro x hx hx'
    obtain ⟨i, -, rfl⟩ := List.mem_map.mp hx
    obtain ⟨j, -, hij⟩ := List.mem_map.mp hx'
    exact hdiffer ((Prod.ext_iff.mp hij).1.symm.trans hkey)

end Log

variable (c)

/-- Any session after any calls. -/
def sessRun (role : Role) (ephRnd : Arr 32) (sk : Option (Arr 64)) (label : Option Bytes)
    (es : List SessEv) : Sess :=
  run (sessStep c) (freshSess (btlsInit c role ephRnd sk label)) es

variable {c}

theorem sessRun_role (role : Role) (ephRnd : Arr 32) (sk : Option (Arr 64)) (label : Option Bytes)
    (es : List SessEv) : (sessRun c role ephRnd sk label es).t.role = role :=
  inv_run_all (I := fun s : Sess => s.t.role = role) (fun s e h => (sessStep_role s e).trans h) _ es rfl

theorem numbered_run (role : Role) (ephRnd : Arr 32) (sk : Option (Arr 64)) (label : Option Bytes)
    (es : List SessEv) :
    Numbered c (sessRun c role ephRnd sk label es).t (sessRun c role ephRnd sk label es).log :=
  inv_run_all (I := fun s : Sess => Numbered c s.t s.log) numbered_step _ es
    (.clear rfl rfl St.noConfusion St.noConfusion)

/-- No two sealings of a session share key and number, no key seals in both epochs, and
none is the key of the other direction, at this session or at one of the other role. -/
theorem nonces_unique (role : Role) (ephRnd : Arr 32) (sk : Option (Arr 64)) (label : Option Bytes)
    (es : List SessEv) (hkeys : DistinctKeys (sessRun c role ephRnd sk label es).log)
    (hfew : (sealed (sessRun c role ephRnd sk label es).log).length ≤ 2 ^ 64) :
    let log := (sessRun c role ephRnd sk label es).log
    (sealed log).Nodup ∧
    (∀ e e' key seq seq' inner inner', (e, .seal key seq inner) ∈ log →
      (e', .seal key seq' inner') ∈ log → e = e') ∧
    (∀ e e' key seq inner lC2s lS2c th c2s s2c, (e, .seal key seq inner) ∈ log →
      (e', .install lC2s lS2c th c2s s2c) ∈ log → key ≠ sendSide role.other c2s s2c) ∧
    ∀ role' ephRnd' sk' label' es', role' ≠ role →
      let log' := (sessRun c role' ephRnd' sk' label' es').log
      DistinctKeys (log ++ log') → ∀ key seq seq', (key, seq) ∈ sealed log → (key, seq') ∉ sealed log' := by
  intro log
  have hrole := sessRun_role (c := c) role ephRnd sk label es
  have hnum := numbered_run (c := c) role ephRnd sk label es
  have hlabel : ∀ {e key seq inner}, (e, Act.seal key seq inner) ∈ log →
      (e = 1 ∨ e = 2) ∧ ∃ th, (sealLabel role e, th, key) ∈ derived log := by
    intro e key seq inner hmem
    have h := hnum.seal_label hmem
    rwa [hrole] at h
  constructor
  · exact hnum.nodup hkeys hfew
  constructor
  · intro e e' key seq seq' inner inner' hmem hmem'
    obtain ⟨he, th, hth⟩ := hlabel hmem
    obtain ⟨he', th', hth'⟩ := hlabel hmem'
    exact sealLabel_epoch role he he' (hkeys _ hth _ hth' rfl).1
  constructor
  · intro e e' key seq inner lC2s lS2c th c2s s2c hmem hinst heq
    obtain ⟨he, th', hth'⟩ := hlabel hmem
    obtain ⟨e'', he'', hrecv⟩ := hnum.install_labels hinst role.other
    have hsame := (hkeys _ hth' _ (mem_derived hinst role.other) heq).1
    exact sealLabel_role role.other_ne he he'' (hsame.trans hrecv)
  · intro role' ephRnd' sk' label' es' hne log' hkeys' key seq seq' hmem hmem'
    have hnum' := numbered_run (c := c) role' ephRnd' sk' label' es'
    obtain ⟨e, inner, hseal⟩ := mem_sealed.mp hmem
    obtain ⟨e', inner', hseal'⟩ := mem_sealed.mp hmem'
    obtain ⟨he, th, hth⟩ := hlabel hseal
    obtain ⟨he', th', hth'⟩ := hnum'.seal_label hseal'
    rw [sessRun_role] at hth'
    have hmem₁ : (sealLabel role e, th, key) ∈ derived (log ++ log') := by
      rw [derived_append]
      exact List.mem_append_left _ hth
    have hmem₂ : (sealLabel role' e', th', key) ∈ derived (log ++ log') := by
      rw [derived_append]
      exact List.mem_append_right _ hth'
    exact sealLabel_role hne he he' (hkeys' _ hmem₁ _ hmem₂ rfl).1

/-- A server that completes the handshake and sends two messages. -/
def toyServerCalls : List SessEv :=
  [.feed toySetup.rec0, .pump (.zero 32), .pump (.zero 32), .pump (.zero 32), .pump (.zero 32),
    .feed (toySetup.answer (.zero 32)), .send 1 [1], .send 1 [2]]

theorem nonces_unique_server :
    let log := (sessRun toy .server toySetup.ephS (some toySetup.serverSk) none toyServerCalls).log
    DistinctKeys log ∧ (sealed log).length = 5 ∧ (sealed log).Nodup := by
  intro log
  have hkeys : DistinctKeys log := by decide +kernel
  have hcount : (sealed log).length = 5 := by decide +kernel
  have hfew : (sealed log).length ≤ 2 ^ 64 := by
    rw [hcount]
    decide
  exact ⟨hkeys, hcount, (nonces_unique .server toySetup.ephS (some toySetup.serverSk) none toyServerCalls
    hkeys hfew).1⟩

end Bite
