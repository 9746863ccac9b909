import BaitNet.AddrText
import BaitNet.BaitName
import BaitNet.BiteTargets
import BaitNet.GwResolve
import BaitNet.PyBite

/-!
# Fetching

`run_fetch` of `bite.c`: what its URL means and what it prints of a response, and what
`cmd_bite` of `cli.py` makes of the same URL.
-/
namespace Bite

open Wire Text
open Parse (parseIpv69AddrPort addrText)

/-- Where a URL leads to. -/
structure Dest where
  /-- empty where no name is checked -/
  label : Bytes
  dst : UInt64
  port : UInt16
  path : Bytes
  deriving DecidableEq

def dotBait : Bytes := ascii ".bait"

/-- The host, the port and the path that a URL is split into. -/
def splitUrl (url : Bytes) : Bytes × UInt16 × Bytes :=
  let url := if (ascii "bite://").isPrefixOf url then url.drop 7 else url
  let hostport := url.takeWhile (· ≠ 47)
  let path := if 47 ∈ url then url.dropWhile (· ≠ 47) else [47]
  match splitFirst 58 hostport with
  | some (host, behind) =>
    let port : UInt16 := .ofInt (Gwfile.atoiInt behind)
    (host, if port = 0 then bitePort else port, path.take 511)
  | none => (hostport, bitePort, path.take 511)

/-- What the host stands for; the port of a numeric address is read again, from the host. -/
def fetchHost (host : Bytes) (port : UInt16) (path : Bytes) : Option Dest :=
  if host = [] ∨ 128 ≤ host.length then none
  else if 5 < host.length ∧ dotBait.isSuffixOf host then
    if host.length ≠ baitLabelLen + 5 then none
    else
      let lb := host.take baitLabelLen
      if baitLabelValid lb = false then none
      else (baitLabelToAddr lb).map fun a5 => ⟨lb, get40 a5 0, port, path⟩
  else
    match parseIpv69AddrPort host with
    | none => none
    | some (dst, port) => if dst = 0 then none else some ⟨[], dst, if port = 0 then bitePort else port, path⟩

/-- `bite fetch`, as far as it reads its URL. -/
def fetchUrl (url : Bytes) : Option Dest :=
  let (host, port, path) := splitUrl url
  fetchHost host port path

/-- The status that `sscanf(c.msg, "BITE/1.0 %d", &code)` finds. -/
def statusOf (msg : Bytes) : Int :=
  if (ascii "BITE/1.0").isPrefixOf msg then Gwfile.atoiInt (msg.drop 8) else 0

/-- What is behind the head. -/
def bodyOf (msg : Bytes) : Bytes :=
  match Heads.cutAt emptyLine msg with
  | some (_, body) => body
  | none => []

/-- What `fetch` writes to its output. -/
def shown (meth msg : Bytes) : Bytes := if meth = ascii "HEAD" then msg else bodyOf msg

end Bite

namespace Py

open Wire

/-- `name_to_addr`. -/
def nameToAddr (name : List Char) : Except Exn Nat :=
  labelToAddr (if ".bait".toList.isSuffixOf name then name.take (name.length - 5) else name)

/-- `resolve_name`. -/
def resolveName (name : List Char) (default : Int) : Except Exn (Nat × Int) := do
  let host := name.takeWhile (· ≠ '/')
  let (host, port) ←
    if ':' ∈ host then do
      -- `rpartition`
      let p := (host.reverse.takeWhile (· ≠ ':')).reverse
      let port ← int p
      pure (host.take (host.length - (p.length + 1)), port)
    else pure (host, default)
  let label := if ".bait".toList.isSuffixOf host then host.take (host.length - 5) else host
  let addr ← nameToAddr label
  return (addr, port)

/-- What `cmd_bite` fetches: from where, whose certificate it wants to see, and what. -/
structure Fetch where
  dst : Nat
  port : Int
  expect : Option (List Char)
  target : List Char
  deriving DecidableEq

/-- `cmd_bite` in its fetch mode, up to the handshake. -/
def cmdBite (url : List Char) (port : Int) (noCheck : Bool) : Except Exn Fetch := do
  let host := url.takeWhile (· ≠ '/')
  let rest := (url.dropWhile (· ≠ '/')).drop 1
  let (dst, port) ← resolveName host port
  let expect := if ".bait".toList.isSuffixOf host then some (host.take (host.length - 5)) else none
  return ⟨dst, port, if noCheck then none else expect, if rest = [] then ['/'] else '/' :: rest⟩

end Py
