import Paranoid.DecimalText
import Paranoid.Utf8Text

namespace Paranoid.IpAddresses

open DecimalText
open Utf8Text (Text)

structure Ipv4Addr where
  octets : UInt8 × UInt8 × UInt8 × UInt8
  deriving DecidableEq

structure Ipv6Addr where
  segments : List UInt16
  length_eq : segments.length = 8
  deriving DecidableEq

inductive IpAddr
  | v4 (ip : Ipv4Addr)
  | v6 (ip : Ipv6Addr)
  deriving DecidableEq

section Reading

variable {α : Type}

def toDigit (radix : Nat) (c : Char) : Option Nat :=
  let value :=
    if c.isDigit then c.toNat - '0'.toNat
    else if 'a' ≤ c ∧ c ≤ 'z' then c.toNat - 'a'.toNat + 10
    else if 'A' ≤ c ∧ c ≤ 'Z' then c.toNat - 'A'.toNat + 10
    else radix
  if value < radix then some value else none

/-- All digits that follow are read, and they must not be too many. -/
def readNumber (radix maxDigits : Nat) (allowZeroPrefix : Bool) (text : Text) : Option (Nat × Text) :=
  let digits := text.takeWhile fun c => (toDigit radix c).isSome
  if digits = [] ∨ maxDigits < digits.length ∨ (allowZeroPrefix = false ∧ digits.head? = some '0' ∧ 1 < digits.length) then none
  else some (digits.foldl (fun n c => n * radix + (toDigit radix c).getD 0) 0, text.drop digits.length)

def readGivenChar (c : Char) : Text → Option Text
  | [] => none
  | first :: rest => if first = c then some rest else none

/-- The separator is in front of every part but the first. -/
def readSeparator (separator : Char) (first : Bool)
    (read : Text → Option (α × Text)) (text : Text) : Option (α × Text) :=
  if first then read text else readGivenChar separator text >>= read

def readOctet (text : Text) : Option (UInt8 × Text) := do
  let (octet, rest) ← readNumber 10 3 false text
  if octet < 256 then return (UInt8.ofNat octet, rest) else none

def readIpv4Addr (text : Text) : Option (Ipv4Addr × Text) := do
  let (first, text) ← readSeparator '.' true readOctet text
  let (second, text) ← readSeparator '.' false readOctet text
  let (third, text) ← readSeparator '.' false readOctet text
  let (fourth, text) ← readSeparator '.' false readOctet text
  return (⟨first, second, third, fourth⟩, text)

def readSegment (text : Text) : Option (UInt16 × Text) := do
  let (segment, rest) ← readNumber 16 4 true text
  return (UInt16.ofNat segment, rest)

def pairSegment (high low : UInt8) : UInt16 := UInt16.ofNat (256 * high.toNat + low.toNat)

/-- Up to so many groups, with whether they end in an embedded address, which takes the place of two of them. -/
def readGroups : Nat → Bool → Text → List UInt16 × Bool × Text
  | 0, _, text => ([], false, text)
  | limit + 1, first, text =>
      match if 0 < limit then readSeparator ':' first readIpv4Addr text else none with
      | some (ip, rest) =>
          let (one, two, three, four) := ip.octets
          ([pairSegment one two, pairSegment three four], true, rest)
      | none =>
          match readSeparator ':' first readSegment text with
          | none => ([], false, text)
          | some (group, rest) =>
              let (groups, embedded, rest) := readGroups limit false rest
              (group :: groups, embedded, rest)

/-- The address of the groups before and behind a double colon. -/
def joinGroups (head tail : List UInt16) : Option Ipv6Addr :=
  let segments := head ++ List.replicate (8 - (head.length + tail.length)) 0 ++ tail
  if h : segments.length = 8 then some ⟨segments, h⟩ else none

def readIpv6Addr (text : Text) : Option (Ipv6Addr × Text) := do
  let (head, embedded, rest) := readGroups 8 true text
  if head.length = 8 then return (← joinGroups head [], rest)
  if embedded then none
  let rest ← readGivenChar ':' rest
  let rest ← readGivenChar ':' rest
  -- the double colon stands for one group at least
  let (tail, _, rest) := readGroups (8 - (head.length + 1)) true rest
  return (← joinGroups head tail, rest)

def readIpAddr (text : Text) : Option (IpAddr × Text) :=
  match readIpv4Addr text with
  | some (ip, rest) => some (.v4 ip, rest)
  | none => (readIpv6Addr text).map fun (ip, rest) => (.v6 ip, rest)

/-- The whole text has to be the address. -/
def IpAddr.parse (text : Text) : Option IpAddr := do
  let (ip, rest) ← readIpAddr text
  if rest = [] then return ip else none

end Reading

namespace Ipv4Addr

def isLoopback (ip : Ipv4Addr) : Bool := ip.octets.1 = 127

def text (ip : Ipv4Addr) : Text :=
  let (first, second, third, fourth) := ip.octets
  ['.'].intercalate ([first, second, third, fourth].map fun octet => natText octet.toNat)

end Ipv4Addr

namespace Ipv6Addr

def isLoopback (ip : Ipv6Addr) : Bool := ip.segments = [0, 0, 0, 0, 0, 0, 0, 1]

def toIpv4Mapped (ip : Ipv6Addr) : Option Ipv4Addr :=
  match ip.segments with
  | [0, 0, 0, 0, 0, 0xffff, high, low] =>
      some ⟨UInt8.ofNat (high.toNat / 256), UInt8.ofNat (high.toNat % 256),
        UInt8.ofNat (low.toNat / 256), UInt8.ofNat (low.toNat % 256)⟩
  | _ => none

structure Span where
  start : Nat
  len : Nat

/-- The first of the longest runs of zeros. -/
def longestZeros (segments : List UInt16) : Span :=
  let step := fun (state : Span × Span) (entry : UInt16 × Nat) =>
    let (current, longest) := state
    if entry.1 = 0 then
      let current := ⟨if current.len = 0 then entry.2 else current.start, current.len + 1⟩
      (current, if longest.len < current.len then current else longest)
    else (⟨0, 0⟩, longest)
  (segments.zipIdx.foldl step (⟨0, 0⟩, ⟨0, 0⟩)).2

def segmentsText (segments : List UInt16) : Text :=
  [':'].intercalate (segments.map fun segment => Nat.toDigits 16 segment.toNat)

def text (ip : Ipv6Addr) : Text :=
  match ip.toIpv4Mapped with
  | some mapped => [':', ':', 'f', 'f', 'f', 'f', ':'] ++ mapped.text
  | none =>
      let longest := longestZeros ip.segments
      if 1 < longest.len then
        segmentsText (ip.segments.take longest.start) ++ [':',
          ':'] ++ segmentsText (ip.segments.drop (longest.start + longest.len))
      else segmentsText ip.segments

end Ipv6Addr

end Paranoid.IpAddresses
