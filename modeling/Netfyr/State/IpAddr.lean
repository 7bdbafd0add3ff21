import Mathlib.Algebra.Group.Nat.Defs
import Mathlib.Data.List.Basic

/-!
# IP Addresses and Their Text

Addresses as bit vectors, with the text forms the standard library reads and
writes. The model needs the reader wherever a schema asks whether a string is a
network, and the writer wherever a value is turned into text.

The reader follows the library's recursive-descent parser: each piece either
consumes characters and yields a value, or fails and consumes nothing. Decimal
octets have at most three digits and no leading zero; hexadecimal groups have
at most four digits; one `::` may stand for at least one zero group, and the
last two groups may be written as an IPv4 address.

## Main definitions

* `Ipv4Addr`, `IpAddr`: The address types.
* `IpAddr.parse`: Reading an address.
* `IpAddr.display`: Writing an address.
* `parseU8`: Reading a `u8` in decimal.
* `parseIpNetwork`: Reading `address/prefix`, keeping host bits.
-/

namespace Netfyr

/-- An IPv4 address, as its 32 bits. -/
abbrev Ipv4Addr : Type := BitVec 32

/-- An IPv6 address, as its 128 bits. -/
abbrev Ipv6Addr : Type := BitVec 128

/-- Either kind of address. -/
inductive IpAddr where
  | v4 (addr : Ipv4Addr)
  | v6 (addr : Ipv6Addr)
  deriving DecidableEq

namespace Ipv4Addr

/-- The address of four octets, first octet first. -/
def new (a b c d : BitVec 8) : Ipv4Addr := a ++ b ++ c ++ d

/-- The octets, first first. -/
def octets (ip : Ipv4Addr) : List Nat :=
  [ip.toNat / 2 ^ 24, ip.toNat / 2 ^ 16 % 256, ip.toNat / 2 ^ 8 % 256, ip.toNat % 256]

/-- Whether the address lies in `127.0.0.0/8`. -/
def isLoopback (ip : Ipv4Addr) : Bool := ip.toNat / 2 ^ 24 == 127

/-- Dotted decimal. -/
def display (ip : Ipv4Addr) : String :=
  ".".intercalate (ip.octets.map toString)

end Ipv4Addr

namespace IpText

/-- A piece of a parser: what it read and the characters left, or failure. -/
abbrev Reader (α : Type) : Type := List Char → Option (α × List Char)

/-- The value of a digit in the given radix. -/
def toDigit (radix : Nat) (c : Char) : Option Nat :=
  let d :=
    if '0' ≤ c ∧ c ≤ '9' then some (c.toNat - '0'.toNat)
    else if 'a' ≤ c ∧ c ≤ 'f' then some (c.toNat - 'a'.toNat + 10)
    else if 'A' ≤ c ∧ c ≤ 'F' then some (c.toNat - 'A'.toNat + 10)
    else none
  d.filter (· < radix)

/-- Digits as far as they go: the value so far, the digits seen, the rest. -/
def readDigits (radix : Nat) : Nat → Nat → List Char → Nat × Nat × List Char
  | value, count, [] => (value, count, [])
  | value, count, c :: cs =>
      match toDigit radix c with
      | some d => readDigits radix (value * radix + d) (count + 1) cs
      | none => (value, count, c :: cs)

/-- A number of at most `maxDigits` digits below `bound`. -/
def readNumber (radix maxDigits bound : Nat) (allowZeroPrefix : Bool) : Reader Nat := fun cs =>
  match readDigits radix 0 0 cs with
  | (value, count, rest) =>
      -- The library counts digits as it reads them; the outcome is the same.
      if maxDigits < count || bound ≤ value || count == 0 then none
      else if !allowZeroPrefix && cs.head? == some '0' && 1 < count then none
      else some (value, rest)

/-- A given character. -/
def readGivenChar (c : Char) : Reader Unit
  | c' :: cs => if c' = c then some ((), cs) else none
  | [] => none

/-- A separator, except before the first item, and then the item. -/
def readSeparator {α : Type} (sep : Char) (index : Nat) (inner : Reader α) : Reader α := fun cs =>
  if index = 0 then inner cs
  else (readGivenChar sep cs).bind fun (_, rest) => inner rest

/-- Four decimal octets separated by dots. -/
def readIpv4Addr : Reader Ipv4Addr := fun cs => do
  let octet := readNumber 10 3 256 false
  let (a, cs) ← readSeparator '.' 0 octet cs
  let (b, cs) ← readSeparator '.' 1 octet cs
  let (c, cs) ← readSeparator '.' 2 octet cs
  let (d, cs) ← readSeparator '.' 3 octet cs
  some (BitVec.ofNat 32 (((a * 256 + b) * 256 + c) * 256 + d), cs)

/-- Up to `left` hexadecimal groups starting at number `i`, with whether the
    last two came from an embedded IPv4 address. -/
def readGroups : (left i : Nat) → List Char → (List Nat × Bool) × List Char
  | 0, _, cs => (([], false), cs)
  | left + 1, i, cs =>
      -- An embedded IPv4 address takes two groups, so it needs room for both.
      match (if 0 < left then readSeparator ':' i readIpv4Addr cs else none) with
      | some (v4, rest) => (([v4.toNat / 2 ^ 16, v4.toNat % 2 ^ 16], true), rest)
      | none =>
          match readSeparator ':' i (readNumber 16 4 65536 true) cs with
          | some (g, rest) =>
              match readGroups left (i + 1) rest with
              | ((gs, v4), rest') => ((g :: gs, v4), rest')
          | none => (([], false), cs)

/-- The address of eight groups, first group first. -/
def ofGroups (groups : List Nat) : Ipv6Addr :=
  BitVec.ofNat 128 (groups.foldl (fun acc g => acc * 65536 + g) 0)

/-- Eight groups, or fewer around one `::`. -/
def readIpv6Addr : Reader Ipv6Addr := fun cs =>
  match readGroups 8 0 cs with
  | ((head, headV4), rest) =>
      if head.length = 8 then some (ofGroups head, rest)
      else if headV4 then none
      else do
        let (_, rest) ← readGivenChar ':' rest
        let (_, rest) ← readGivenChar ':' rest
        -- `::` stands for one group of zeros at least.
        match readGroups (8 - (head.length + 1)) 0 rest with
        | ((tail, _), rest) =>
            let zeros := List.replicate (8 - head.length - tail.length) 0
            some (ofGroups (head ++ zeros ++ tail), rest)

/-- Hexadecimal without leading zeros. -/
def hex (n : Nat) : String := String.ofList (Nat.toDigits 16 n)

/-- The longest run of zero groups, by start and length; the first of equals. -/
def longestZeroRun (groups : List Nat) : Nat × Nat :=
  let step := fun (acc : (Nat × Nat) × (Nat × Nat)) (entry : Nat × Nat) =>
    let (longest, current) := acc
    let (group, i) := entry
    if group = 0 then
      let current := (if current.2 = 0 then i else current.1, current.2 + 1)
      (if longest.2 < current.2 then current else longest, current)
    else (longest, (0, 0))
  (groups.zipIdx.foldl step ((0, 0), (0, 0))).1

end IpText

namespace Ipv6Addr

/-- The eight groups, first first. -/
def segments (ip : Ipv6Addr) : List Nat :=
  (List.range 8).map fun i => ip.toNat / 65536 ^ (7 - i) % 65536

/-- Canonical text: an IPv4-mapped address in mixed form, otherwise the groups
    in hexadecimal with the longest run of two or more zeros elided. -/
def display (ip : Ipv6Addr) : String :=
  let segments := ip.segments
  let join := fun (gs : List Nat) => ":".intercalate (gs.map IpText.hex)
  if segments.take 6 = [0, 0, 0, 0, 0, 65535] then
    "::ffff:" ++ Ipv4Addr.display (BitVec.ofNat 32 ip.toNat)
  else
    let (start, len) := IpText.longestZeroRun segments
    if 1 < len then join (segments.take start) ++ "::" ++ join (segments.drop (start + len))
    else join segments

end Ipv6Addr

namespace IpAddr

/-- Read an address that makes up the whole text. -/
def parse (text : String) : Option IpAddr :=
  match IpText.readIpv4Addr text.toList with
  | some (ip, rest) => if rest = [] then some (.v4 ip) else none
  | none =>
      match IpText.readIpv6Addr text.toList with
      | some (ip, rest) => if rest = [] then some (.v6 ip) else none
      | none => none

/-- Write an address. -/
def display : IpAddr → String
  | .v4 ip => ip.display
  | .v6 ip => ip.display

/-- Whether the address is an IPv4 address. -/
def isIpv4 : IpAddr → Bool
  | .v4 _ => true
  | .v6 _ => false

end IpAddr

/-- Split at the first occurrence of a character, dropping it. -/
def splitOnce (text : String) (sep : Char) : Option (String × String) :=
  match text.toList.span (· ≠ sep) with
  | (_, []) => none
  | (before, _ :: after) => some (String.ofList before, String.ofList after)

/-- Read a `u8` in decimal, with an optional plus sign. -/
def parseU8 (text : String) : Option UInt8 :=
  let digits := match text.toList with
    | '+' :: cs => cs
    | cs => cs
  match IpText.readDigits 10 0 0 digits with
  | (value, count, rest) =>
      if count = 0 ∨ rest ≠ [] ∨ 256 ≤ value then none else some (UInt8.ofNat value)

/-- Read `address/prefix`, keeping the address's host bits. -/
def parseIpNetwork (text : String) : Option (IpAddr × UInt8) := do
  let (addr, len) ← splitOnce text '/'
  let addr ← IpAddr.parse addr
  let len ← parseU8 len
  let maxPrefix : UInt8 := match addr with
    | .v4 _ => 32
    | .v6 _ => 128
  if len ≤ maxPrefix then some (addr, len) else none

/-- Host bits stay, and a prefix longer than the address is refused. -/
example : parseIpNetwork "10.0.1.50/24" = some (.v4 (Ipv4Addr.new 10 0 1 50), 24) ∧
    parseIpNetwork "10.0.0.1/33" = none ∧ parseIpNetwork "2001:db8::/32" =
      some (.v6 0x20010db8000000000000000000000000#128, 32) := by decide

end Netfyr
