import Authguard.Common.Condition

/-!
Textual IP addresses, as `IpAddr::from_str` of the Rust standard library reads
them. A reader takes characters from the front and leaves the rest.
-/

namespace Authguard
namespace IpAddr

def digit (radix : Nat) (c : Char) : Option Nat :=
  let value :=
    if '0' ≤ c ∧ c ≤ '9' then c.toNat - '0'.toNat
    else if 'a' ≤ c ∧ c ≤ 'z' then c.toNat - 'a'.toNat + 10
    else if 'A' ≤ c ∧ c ≤ 'Z' then c.toNat - 'A'.toNat + 10
    else radix
  if value < radix then some value else none

/-- `read_number`: all digits at hand, which must be few enough and fit the type. -/
def readNumber (radix maxDigits bound : Nat) (allowZeroPrefix : Bool) (input : List Char) :
    Option (Nat × List Char) :=
  let digits := (input.map (digit radix)).takeWhile Option.isSome |>.reduceOption
  let value := digits.foldl (fun value digit => value * radix + digit) 0
  let zeroPrefixed := decide (digits.head? = some 0 ∧ 1 < digits.length)
  if digits = [] ∨ maxDigits < digits.length ∨ bound < value then none
  else if !allowZeroPrefix && zeroPrefixed then none
  else some (value, input.drop digits.length)

def readGivenChar (c : Char) : List Char → Option (List Char)
  | first :: rest => if first = c then some rest else none
  | [] => none

def readOctet (input : List Char) : Option (Nat × List Char) := readNumber 10 3 255 false input

def readIpv4 (input : List Char) : Option (BitVec 32 × List Char) := do
  let (a, rest) ← readOctet input
  let (b, rest) ← (readGivenChar '.' rest).bind readOctet
  let (c, rest) ← (readGivenChar '.' rest).bind readOctet
  let (d, rest) ← (readGivenChar '.' rest).bind readOctet
  some (BitVec.ofNat 32 (((a * 256 + b) * 256 + c) * 256 + d), rest)

/-- `read_groups`: the groups, whether the last two are an IPv4 address, and the rest. The
first number says how many more groups there is room for. -/
def readGroups : Nat → Bool → List Char → List Nat × Bool × List Char
  | 0, _, input => ([], false, input)
  | room + 1, first, input =>
      let separated := if first then some input else readGivenChar ':' input
      match if room = 0 then none else separated.bind readIpv4 with
      | some (address, rest) =>
          ([(address.extractLsb' 16 16).toNat, (address.extractLsb' 0 16).toNat], true, rest)
      | none =>
          match separated.bind (readNumber 16 4 0xFFFF true) with
          | none => ([], false, input)
          | some (group, rest) =>
              let (groups, ipv4, rest) := readGroups room false rest
              (group :: groups, ipv4, rest)

def ofGroups (groups : List Nat) : BitVec 128 :=
  BitVec.ofNat 128 (groups.foldl (fun value group => value * 0x10000 + group) 0)

def readIpv6 (input : List Char) : Option (BitVec 128 × List Char) :=
  let (head, headIpv4, rest) := readGroups 8 true input
  if head.length = 8 then
    some (ofGroups head, rest)
  else if headIpv4 then
    none
  else do
    let rest ← (readGivenChar ':' rest).bind (readGivenChar ':')
    let (tail, _, rest) := readGroups (8 - (head.length + 1)) true rest
    some (ofGroups (head ++ List.replicate (8 - head.length - tail.length) 0 ++ tail), rest)

/-- The whole text must be one address. -/
def parse (text : String) : Option IpAddr :=
  match readIpv4 text.toList with
  | some (address, rest) => if rest = [] then some (.v4 address) else none
  | none =>
      match readIpv6 text.toList with
      | some (address, rest) => if rest = [] then some (.v6 address) else none
      | none => none

end IpAddr
end Authguard
