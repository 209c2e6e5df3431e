import Mathlib.Data.List.Basic
import Mathlib.Data.BitVec

/-!
# Addresses of hosts

IPv4 and IPv6 addresses, how they are read, and the classes of addresses that are not for the public, as
the Python standard library has them.
-/

/-- An address. The zone of an IPv6 address plays no part in its class. -/
inductive Ip where
  | v4 (address : BitVec 32)
  | v6 (address : BitVec 128)
  deriving DecidableEq, Repr

namespace Ip

/-! ## Reading -/

/-- A decimal number up to 255 without leading zeros. -/
def readOctet (text : List Char) : Option Nat :=
  let value := text.foldl (fun n c => 10 * n + (c.toNat - '0'.toNat)) 0
  if text ≠ [] ∧ text.all Char.isDigit ∧ text.length ≤ 3 ∧ (text = ['0'] ∨ text.head? ≠ some '0') ∧
    value ≤ 255 then some value else none

def readV4 (text : List Char) : Option Nat := do
  let octets ← (text.splitOn '.').mapM readOctet
  if octets.length = 4 then some (octets.foldl (fun n octet => 256 * n + octet) 0) else none

def isHexDigit (c : Char) : Bool :=
  c.isDigit || ('a' ≤ c && c ≤ 'f') || ('A' ≤ c && c ≤ 'F')

def hexValue (c : Char) : Nat :=
  if c.isDigit then c.toNat - '0'.toNat
  else if 'a' ≤ c then c.toNat - 'a'.toNat + 10
  else c.toNat - 'A'.toNat + 10

/-- Sixteen bits in at most four hexadecimal digits. -/
def readHextet (text : List Char) : Option Nat :=
  if text ≠ [] ∧ text.all isHexDigit ∧ text.length ≤ 4 then
    some (text.foldl (fun n c => 16 * n + hexValue c) 0)
  else none

/-- The parts of an address, the ones of an IPv4 suffix as numbers. -/
def readParts (text : List Char) : Option (List (List Char ⊕ Nat)) :=
  let parts := text.splitOn ':'
  if parts.length < 3 then none
  else match parts.getLast? with
    | none => none
    | some last =>
      if '.' ∈ last then (readV4 last).map fun n =>
        parts.dropLast.map .inl ++ [.inr (n / 65536), .inr (n % 65536)]
      else some (parts.map .inl)

def readPart : List Char ⊕ Nat → Option Nat
  | .inl text => readHextet text
  | .inr n => some n

def isEmptyPart (part : List Char ⊕ Nat) : Bool := part = .inl []

/-- Without the empty part that a double colon at an end leaves. -/
def trimEnd (parts : List (List Char ⊕ Nat)) : List (List Char ⊕ Nat) :=
  if parts = [.inl []] then [] else parts

def readV6 (text : List Char) : Option Nat := do
  let parts ← readParts text
  let inner := (parts.drop 1).dropLast
  let hextets ←
    if 9 < parts.length ∨ 1 < inner.countP isEmptyPart then none
    else match inner.findIdx? isEmptyPart with
      | none => if parts.length = 8 then parts.mapM readPart else none
      | some i => do
        let high ← (trimEnd (parts.take (i + 1))).mapM readPart
        let low ← (trimEnd (parts.drop (i + 2))).mapM readPart
        let skipped := 8 - (high.length + low.length)
        if skipped < 1 then none else some (high ++ List.replicate skipped 0 ++ low)
  some (hextets.foldl (fun n hextet => 65536 * n + hextet) 0)

/-- An address without its zone. An empty zone or a second one is refused. -/
def splitScope (text : List Char) : Option (List Char) :=
  match text.splitOn '%' with
  | [address] => some address
  | [address, zone] => if zone = [] then none else some address
  | _ => none

def read (text : String) : Option Ip :=
  let text := text.toList
  if '/' ∈ text then none
  else match readV4 text with
    | some n => some (.v4 (BitVec.ofNat 32 n))
    | none => ((splitScope text).bind readV6).map fun n => .v6 (BitVec.ofNat 128 n)

/-! ## Classes -/

/-- The address lies in the network of so many leading bits. -/
def inNet {w : Nat} (address : BitVec w) (net : Nat × Nat) : Bool :=
  address.toNat / 2 ^ (w - net.2) = net.1 / 2 ^ (w - net.2)

def quad (a b c d : Nat) : Nat := ((a * 256 + b) * 256 + c) * 256 + d

def privateV4 : List (Nat × Nat) :=
  [(quad 0 0 0 0, 8), (quad 10 0 0 0, 8), (quad 127 0 0 0, 8), (quad 169 254 0 0, 16),
    (quad 172 16 0 0, 12), (quad 192 0 0 0, 24), (quad 192 0 0 170, 31), (quad 192 0 2 0, 24),
    (quad 192 168 0 0, 16), (quad 198 18 0 0, 15), (quad 198 51 100 0, 24), (quad 203 0 113 0, 24),
    (quad 240 0 0 0, 4), (quad 255 255 255 255, 32)]

def privateV4Exceptions : List (Nat × Nat) := [(quad 192 0 0 9, 32), (quad 192 0 0 10, 32)]

/-- A network by its first hextets. -/
def net6 (hextets : List Nat) (bits : Nat) : Nat × Nat :=
  ((hextets ++ List.replicate (8 - hextets.length) 0).foldl (fun n hextet => 65536 * n + hextet) 0, bits)

def privateV6 : List (Nat × Nat) :=
  [net6 [0, 0, 0, 0, 0, 0, 0, 1] 128, net6 [] 128, net6 [0, 0, 0, 0, 0, 0xffff] 96,
    net6 [0x64, 0xff9b, 1] 48, net6 [0x100] 64, net6 [0x2001] 23, net6 [0x2001, 0xdb8] 32,
    net6 [0x2002] 16, net6 [0xfc00] 7, net6 [0xfe80] 10]

def privateV6Exceptions : List (Nat × Nat) :=
  [net6 [0x2001, 1, 0, 0, 0, 0, 0, 1] 128, net6 [0x2001, 1, 0, 0, 0, 0, 0, 2] 128,
    net6 [0x2001, 3] 32, net6 [0x2001, 4, 0x112] 48, net6 [0x2001, 0x20] 28, net6 [0x2001, 0x30] 28]

def reservedV6 : List (Nat × Nat) :=
  [net6 [] 8, net6 [0x100] 8, net6 [0x200] 7, net6 [0x400] 6, net6 [0x800] 5, net6 [0x1000] 4,
    net6 [0x4000] 3, net6 [0x6000] 3, net6 [0x8000] 3, net6 [0xa000] 3, net6 [0xc000] 3,
    net6 [0xe000] 4, net6 [0xf000] 5, net6 [0xf800] 6, net6 [0xfe00] 9]

/-- The IPv4 address that an IPv6 address stands for. -/
def mapped (address : BitVec 128) : Option (BitVec 32) :=
  if address.toNat / 2 ^ 32 = 0xffff then some (BitVec.ofNat 32 address.toNat) else none

def isPrivateV4 (address : BitVec 32) : Bool :=
  privateV4.any (inNet address) && !privateV4Exceptions.any (inNet address)

def isReservedV4 (address : BitVec 32) : Bool := inNet address (quad 240 0 0 0, 4)

def isLoopbackV4 (address : BitVec 32) : Bool := inNet address (quad 127 0 0 0, 8)

def isLinkLocalV4 (address : BitVec 32) : Bool := inNet address (quad 169 254 0 0, 16)

def isPrivate : Ip → Bool
  | .v4 address => isPrivateV4 address
  | .v6 address => ((mapped address).map isPrivateV4).getD
      (privateV6.any (inNet address) && !privateV6Exceptions.any (inNet address))

def isReserved : Ip → Bool
  | .v4 address => isReservedV4 address
  | .v6 address => ((mapped address).map isReservedV4).getD (reservedV6.any (inNet address))

def isLoopback : Ip → Bool
  | .v4 address => isLoopbackV4 address
  | .v6 address => ((mapped address).map isLoopbackV4).getD (address.toNat = 1)

def isLinkLocal : Ip → Bool
  | .v4 address => isLinkLocalV4 address
  | .v6 address => ((mapped address).map isLinkLocalV4).getD (inNet address (net6 [0xfe80] 10))

/-- Private, reserved, of the host itself or of the link. -/
def isInternal (ip : Ip) : Bool := ip.isPrivate || ip.isReserved || ip.isLoopback || ip.isLinkLocal

end Ip
