import BaitNet.PppoeTable

/-!
# One host and the sessions of the others

Session data finds its session by the Ethernet source and compares the id; a PADT finds
its session by the id alone.
-/
namespace Pppoe

open Wire Link Crypto Tables Runs

variable {c : TweetNaCl}

namespace Ac

/-- The sessions of all hosts but the sender stay exactly as they were. -/
def Isolated (c : TweetNaCl) (a : Ac) (frame : Bytes) : Prop :=
  ∀ (i : Nat) (s : Session), a.At i s → s.cmac ≠ frameSrcMac frame → (a.acRx c frame).1.At i s

/-- The frame is no accepted PADT for the session of another host. -/
def ClosesOwn (c : TweetNaCl) (a : Ac) (frame : Bytes) : Prop :=
  ∀ (i : Nat) (s : Session), a.closing c frame = some i → a.At i s → s.cmac = frameSrcMac frame

theorem not_at_sessFree (a : Ac) (i : Nat) (s : Session) : ¬ (a.sessFree i).At i s := by
  intro h
  have hslot := h.slot
  rw [sessFree] at hslot
  cases getElem?_set_elim hslot with
  | inl hzero =>
    have hused := h.used
    rw [hzero.2] at hused
    cases hused
  | inr hne => exact hne.1 rfl

/-- What a received frame does to the session of another host: nothing, unless it closes it. -/
theorem Received.kept {a : Ac} {frame : Bytes} {r : Ac × List Out} (h : a.Received c frame r) {i : Nat} {s : Session}
    (hs : a.At i s) (hne : s.cmac ≠ frameSrcMac frame) (hopen : a.closing c frame ≠ some i) : r.1.At i s := by
  cases h with
  | passed rate outs houts => exact ⟨hs.slot, hs.used⟩
  | learned j t inner hj ht hsrc =>
    apply hs.set_ne
    rintro rfl
    obtain rfl := Option.some.inj (ht.slot.symm.trans hs.slot)
    exact hne hsrc
  | redialed a' mac j t hd hj ht => exact hs.dialing hd
  | refused a' mac hd hnone hfull => exact hs.dialing hd
  | dialed a' mac slot old sid hd hnone hgot hslot hold hfree hsid =>
    have hs' := hs.dialing hd
    exact hs'.set_ne (hs'.ne_unused hslot hold) _
  | closed j t hc ht =>
    apply hs.set_ne
    rintro rfl
    exact hopen hc
  | island h => exact hs

/-- A frame leaves the sessions of the others alone exactly if it is no PADT for one of
them. -/
theorem isolated_iff (a : Ac) (frame : Bytes) : a.Isolated c frame ↔ a.ClosesOwn c frame := by
  constructor
  · intro hiso i s hc hs
    by_contra hne
    have hkept := hiso i s hs hne
    rw [acRx_closing hc] at hkept
    exact not_at_sessFree a i s hkept
  · intro hown i s hs hne
    exact (acRx_received a frame).kept hs hne fun hc => hne (hown i s hc hs)

end Ac

def toyMac (x : UInt8) : Arr 6 := pad 6 [0, 0, 0, 0, 0, x]
def toyPub (x : UInt8) : Arr 32 := .fill 32 x

/-- The address that belongs to the zero key. -/
def toyAddr : UInt64 := 0x30e6240700

/-- An open concentrator with MAC 1 and the zero key. -/
def toyCfg : Config := ⟨toyMac 1, toyAddr, .zero 64, false, false, none⟩

/-- A frame of the host with MAC `x` for the concentrator. -/
def toyFrame (x : UInt8) (nh : UInt8) (payload : Bytes) : Bytes :=
  buildFrame (toyMac 1) (toyMac x) 0 toyAddr nh 64 0 0 payload

/-- A discovery message with its mac1. -/
def toyControl (x : UInt8) (body : Bytes) : Bytes :=
  toyFrame x ipv69NextControl (body ++ (mac1Compute toy (mac1Key toy toyAddr) body).val)

/-- The PADR of the host with MAC `x` and key `y`, signed by the key `z`. -/
def toyPadr (x y z : UInt8) : Bytes :=
  let body := ctrlPadr :: (toyMac x).val
  toyControl x (body ++ (toyPub y).val ++ (toy.sign body (toyPub z)).val)

def toyPadt (x : UInt8) (sid : UInt16) : Bytes := toyControl x (ctrlPadt :: put16 sid)

/-- Host 7 dials, and host 8 sends a PADT with the id of that session. -/
theorem stranger_closes_session :
    ¬ Ac.Isolated toy (step toy (start toyCfg .empty 0) (.recv (toyPadr 7 9 9))) (toyPadt 8 1) := by
  generalize hs : step toy (start toyCfg .empty 0) (.recv (toyPadr 7 9 9)) = a
  intro hiso
  have hslot : a.sess[0]? = some ⟨1, true, toyMac 7, .zero 6, 0, 0⟩ := by
    rw [← hs]
    decide +kernel
  have hclosing : a.closing toy (toyPadt 8 1) = some 0 := by
    rw [← hs]
    decide +kernel
  have hkept := hiso 0 _ ⟨hslot, rfl⟩ (by decide +kernel)
  rw [Ac.acRx_closing hclosing] at hkept
  exact Ac.not_at_sessFree a 0 _ hkept

end Pppoe
