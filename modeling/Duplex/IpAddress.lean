import Duplex.Numbers

/-!
# IP addresses

An address of version 4 is 32 bits, written as four decimal octets. An address of version 6 is 128
bits, written as eight groups of hexadecimal digits: one run of zero groups may be left out
(`::`), and the last two groups may be written as an address of version 4. The zone of an address
of version 6 is the number of the interface on which the address is meant, and 0 means none.

`IpAddress.text` writes an address, `IpAddress.readV4?` and `IpAddress.readZoned?` read one, and the
classes of addresses (`isMulticast`, `needsZone` and so on) decide which addresses a socket can be
bound to.
-/

namespace Duplex

open scoped Numbers

/-- An address of a network interface. -/
inductive IpAddress where
  | v4 (bits : BitVec 32)
  | v6 (bits : BitVec 128) (zone : Nat)
deriving DecidableEq

namespace IpAddress

/-- The first address of the machine itself. -/
def localhost : IpAddress := .v4 0x7f000001#32

/-! ## Classes -/

/-- Whether the address stands for every address of the machine. -/
def isUnspecified : IpAddress → Bool
  | v4 bits => bits == 0
  | v6 bits _ => bits == 0

/-- The address of version 4 that an address of version 6 stands for, if it is a mapped one. -/
def mapped? (bits : BitVec 128) : Option (BitVec 32) :=
  if bits >>> 32 == 0xffff#128 then some (bits.truncate 32) else none

/-- The address, as one of version 4 if it stands for one. -/
def canonical : IpAddress → IpAddress
  | v4 bits => .v4 bits
  | v6 bits zone => (mapped? bits).elim (.v6 bits zone) .v4

/-- Whether the address of version 6 names a group of machines. -/
def isMulticast (bits : BitVec 128) : Bool := bits >>> 120 == 0xff#128

/-- Whether the address of version 6 names a machine on one link only. -/
def isLinkLocal (bits : BitVec 128) : Bool := bits >>> 118 == 0x3fa#128

/-- How far a multicast address reaches: 1 is the machine, 2 the link. -/
def multicastScope (bits : BitVec 128) : Nat := ((bits >>> 112) &&& 0xf#128).toNat

/-- Whether the address of version 6 means something only together with a zone. -/
def needsZone (bits : BitVec 128) : Bool :=
  isLinkLocal bits || isMulticast bits && (multicastScope bits == 1 || multicastScope bits == 2)

/-- Whether two sockets, each of which takes what is sent to its address, may get the same. The
unspecified address of version 6 covers both versions. -/
def overlaps (a b : IpAddress) : Bool :=
  match a.canonical, b.canonical with
  | v4 a, v4 b => a == b || a == 0 || b == 0
  | v6 a zone, v6 b zone' => a == b && zone == zone' || a == 0 || b == 0
  | v4 _, v6 b _ => b == 0
  | v6 a _, v4 _ => a == 0

/-! ## Writing -/

/-- The parts of `width` bits, most significant first. -/
def parts (width count : Nat) (n : Nat) : List Nat :=
  (List.range count).map fun i => n / 2 ^ (width * (count - 1 - i)) % 2 ^ width

/-- Four decimal octets. -/
def textV4 (bits : BitVec 32) : String :=
  ".".intercalate ((parts 8 4 bits.toNat).map toString)

/-- Groups in hexadecimal. -/
def textGroups (groups : List Nat) : String :=
  ":".intercalate (groups.map fun n => String.ofList (Nat.toDigits 16 n))

/-- Where the longest run of zeros begins, the first one if there are several, and its length. -/
def longestZeros (groups : List Nat) : Nat × Nat :=
  (List.range groups.length).foldl (fun best start =>
    let length := ((groups.drop start).takeWhile (· == 0)).length
    if best.2 < length then (start, length) else best) (0, 0)

/-- Groups of hexadecimal digits. The longest run of at least two zero groups is left out. -/
def textV6 (bits : BitVec 128) : String :=
  match mapped? bits with
  | some bits => "::ffff:" ++ textV4 bits
  | none =>
    let groups := parts 16 8 bits.toNat
    let (start, length) := longestZeros groups
    if length < 2 then textGroups groups
    else textGroups (groups.take start) ++ "::" ++ textGroups (groups.drop (start + length))

/-- The address, with its zone if it has one. -/
def text : IpAddress → String
  | v4 bits => textV4 bits
  | v6 bits zone => if zone = 0 then textV6 bits else textV6 bits ++ "%" ++ toString zone

/-! ## Reading -/

/-- The value of a hexadecimal digit. -/
def digit? (c : Char) : Option Nat :=
  if '0' ≤ c ∧ c ≤ '9' then some (c.toNat - '0'.toNat)
  else if 'a' ≤ c ∧ c ≤ 'f' then some (c.toNat - 'a'.toNat + 10)
  else if 'A' ≤ c ∧ c ≤ 'F' then some (c.toNat - 'A'.toNat + 10)
  else none

/-- The number that digits write, most significant first. -/
def number? (base : Nat) (text : String) : Option Nat :=
  if text.isEmpty then none
  else
    text.toList.foldlM (fun n c =>
      (digit? c).bind fun d => if d < base then some (n * base + d) else none) 0

/-- A number below 256 in decimal, without leading zeros. -/
def octet? (text : String) : Option Nat :=
  if 3 < text.length ∨ (text.startsWith "0" ∧ text ≠ "0") then none
  else (number? 10 text).filter (· < 256)

/-- A group of at most four hexadecimal digits. -/
def group? (text : String) : Option Nat :=
  if 4 < text.length then none else number? 16 text

/-- The number whose parts of `width` bits are these. -/
def ofParts (width : Nat) (ns : List Nat) : Nat := ns.foldl (fun n part => n * 2 ^ width + part) 0

/-- Reads four decimal octets. -/
def readV4? (text : String) : Option (BitVec 32) := do
  let octets ← (text.splitOn ".").mapM octet?
  if octets.length = 4 then some (BitVec.ofNat 32 (ofParts 8 octets)) else none

/-- Reads groups, the last two of which may be written as an address of version 4. -/
def readGroups? : List String → Option (List Nat)
  | [] => some []
  | [last] =>
    match readV4? last with
    | some bits => some (parts 16 2 bits.toNat)
    | none => (group? last).map ([·])
  | first :: rest => do return (← group? first) :: (← readGroups? rest)

/-- The texts between colons; there are none in the empty text. -/
def pieces (text : String) : List String := if text.isEmpty then [] else text.splitOn ":"

/-- Reads an address of version 6 without a zone. Where a run of zeros is left out, it stands for
at least one group. -/
def readV6? (text : String) : Option (BitVec 128) := do
  let groups ← match text.splitOn "::" with
    | [all] => readGroups? (pieces all)
    | [front, back] =>
      let front ← (pieces front).mapM group?
      let back ← readGroups? (pieces back)
      if 7 < front.length + back.length then none
      else some (front ++ List.replicate (8 - (front.length + back.length)) 0 ++ back)
    | _ => none
  if groups.length = 8 then some (BitVec.ofNat 128 (ofParts 16 groups)) else none

/-- Reads an address of version 6, with or without a zone. -/
def readZoned? (text : String) : Option IpAddress :=
  match text.splitOn "%" with
  | [address] => (readV6? address).map (.v6 · 0)
  | [address, zone] => do
    let zone ← (number? 10 zone).filter (· < 2 ^ (32 : Nat))
    return .v6 (← readV6? address) zone
  | _ => none

end IpAddress

end Duplex
