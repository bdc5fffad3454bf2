import OrbitOpenEO.Lib.Numerals
import Mathlib.Algebra.GroupWithZero.Nat

/-!
# The host of a URL

What a parser that follows the URL Standard takes for the host of an `https` URL:
tabs and line breaks are dropped, a backslash is a slash, credentials and port are cut
off, and the host is an address in brackets, a name, or a number in any of the ways
in which an IPv4 address may be written.

Unicode is left to a parameter, which takes the percent-decoded bytes of a host to its
ASCII form.
-/

namespace OrbitOpenEO
namespace Lib

/-- A host. -/
inductive UrlHost where
  | domain (name : List Char)
  | ipv4 (address : UInt32)
  | ipv6 (pieces : List UInt16) (length_eq : pieces.length = 8)

namespace UrlHost

/-- The IPv4 number parser. -/
def parseNumber (input : List Char) : Option Nat :=
  if input.isEmpty then none
  else
    let (radix, digits) :=
      match input with
      | '0' :: 'x' :: rest => (16, rest)
      | '0' :: 'X' :: rest => (16, rest)
      | '0' :: c :: rest => (8, c :: rest)
      | input => (10, input)
    if digits.all (isRadixDigit radix) then some (numeral radix digits) else none

/-- The parts of a name between its dots, without an empty one at the end. -/
def parts (input : List Char) : List (List Char) :=
  let parts := input.splitOn '.'
  if parts.getLast? == some [] && 1 < parts.length then parts.dropLast else parts

/-- The ends-in-a-number checker. -/
def endsInNumber (input : List Char) : Bool :=
  match (parts input).getLast? with
  | some part =>
      !part.isEmpty && part.all Char.isDigit || (parseNumber part).isSome
  | none => false

/-- The IPv4 parser. -/
def parseIpv4 (input : List Char) : Option UInt32 :=
  if 4 < (parts input).length then none
  else
    match (parts input).mapM parseNumber with
    | none => none
    | some numbers =>
        let last := numbers.getLastD 0
        if numbers.dropLast.any (255 < ·) then none
        else if 256 ^ (5 - numbers.length) ≤ last then none
        else
          some (UInt32.ofNat
            ((numbers.dropLast.zipIdx.map (fun p => p.1 * 256 ^ (3 - p.2))).sum + last))

/-- A number of an IPv4 address at the end of an IPv6 address. -/
def parseOctet (input : List Char) : Option (Nat × List Char) :=
  let digits := input.takeWhile Char.isDigit
  if digits.isEmpty || digits.head? == some '0' && 1 < digits.length then none
  else if 255 < numeral 10 digits then none
  else some (numeral 10 digits, input.dropWhile Char.isDigit)

/-- Such a number, behind a dot. -/
def parseNextOctet : List Char → Option (Nat × List Char)
  | '.' :: input => parseOctet input
  | _ => none

/-- The last two pieces of an address that ends in an IPv4 address. -/
def parseIpv4Tail (input : List Char) : Option (UInt16 × UInt16) := do
  let (a, input) ← parseOctet input
  let (b, input) ← parseNextOctet input
  let (c, input) ← parseNextOctet input
  let (d, input) ← parseNextOctet input
  if input.isEmpty then some (UInt16.ofNat (256 * a + b), UInt16.ofNat (256 * c + d)) else none

/-- The loop of the IPv6 parser: how many pieces are left, the pieces so far, and where
among them a double colon was. -/
def parsePieces : (left : Nat) → List UInt16 → Option Nat → List Char →
    Option (List UInt16 × Option Nat)
  | _, pieces, compress, [] => some (pieces, compress)
  | 0, _, _, _ => none
  | left + 1, pieces, compress, c :: input =>
      if c = ':' then
        if compress.isSome then none
        else parsePieces left (pieces ++ [0]) (some (pieces.length + 1)) input
      else
        let digits := ((c :: input).takeWhile (isRadixDigit 16)).take 4
        let piece := UInt16.ofNat (numeral 16 digits)
        match (c :: input).drop digits.length with
        | [] => some (pieces ++ [piece], compress)
        | '.' :: _ =>
            if digits.isEmpty || left == 0 then none
            else (parseIpv4Tail (c :: input)).map (fun p => (pieces ++ [p.1, p.2], compress))
        | ':' :: rest =>
            if rest.isEmpty then none else parsePieces left (pieces ++ [piece]) compress rest
        | _ => none

/-- The pieces of an address, with zeros where the double colon was. -/
def expand : List UInt16 × Option Nat → List UInt16
  | (pieces, none) => pieces
  | (pieces, some at_) =>
      pieces.take at_ ++ List.replicate (8 - pieces.length) 0 ++ pieces.drop at_

/-- The IPv6 parser. -/
def parseIpv6 (input : List Char) : Option UrlHost :=
  let pieces :=
    match input with
    | ':' :: ':' :: rest => parsePieces 7 [0] (some 1) rest
    | ':' :: _ => none
    | input => parsePieces 8 [] none input
  match pieces with
  | none => none
  | some pieces =>
      if h : (expand pieces).length = 8 then some (.ipv6 (expand pieces) h) else none

/-- A forbidden domain code point. -/
def isForbidden (c : Char) : Bool :=
  c.toNat ≤ 0x20 || c.toNat == 0x7F ||
    ['#', '%', '/', ':', '<', '>', '?', '@', '[', '\\', ']', '^', '|'].contains c

/-- Percent-decode. -/
def percentDecode : List UInt8 → List UInt8
  | [] => []
  | 0x25 :: high :: low :: bytes =>
      match toDigit 16 (Char.ofNat high.toNat), toDigit 16 (Char.ofNat low.toNat) with
      | some h, some l => UInt8.ofNat (16 * h + l) :: percentDecode bytes
      | _, _ => 0x25 :: percentDecode (high :: low :: bytes)
  | byte :: bytes => byte :: percentDecode bytes

/-- The host parser. -/
def parseHost (domainToAscii : List UInt8 → Option (List Char)) (input : List Char) :
    Option UrlHost :=
  match input with
  | '[' :: rest =>
      if rest.getLast? == some ']' then parseIpv6 rest.dropLast else none
  | input =>
      match domainToAscii (percentDecode (input.flatMap String.utf8EncodeChar)) with
      | none => none
      | some name =>
          if name.isEmpty || name.any isForbidden then none
          else if endsInNumber name then (parseIpv4 name).map .ipv4
          else some (.domain name)

/-- Leading and trailing control characters and spaces, and all tabs and line breaks, are
dropped. -/
def strip (url : List Char) : List Char :=
  let control (c : Char) : Bool := c.toNat ≤ 0x20
  (((url.dropWhile control).reverse.dropWhile control).reverse).filter
    (fun c => !(['\t', '\n', '\r'].contains c))

/-- What stands behind the last sign of credentials. -/
def behindAt (authority : List Char) : List Char :=
  (authority.reverse.takeWhile (· ≠ '@')).reverse

/-- The text before and, if there is one, behind the first colon outside brackets. -/
def splitPort : (inside : Bool) → List Char → List Char × Option (List Char)
  | _, [] => ([], none)
  | inside, c :: cs =>
      if c = ':' && !inside then ([], some cs)
      else
        let p := splitPort (if c = '[' then true else if c = ']' then false else inside) cs
        (c :: p.1, p.2)

/-- A port that may be written. -/
def isPort (port : List Char) : Bool := port.all Char.isDigit && numeral 10 port ≤ 65535

/-- The host of an `https` URL. -/
def ofHttps (domainToAscii : List UInt8 → Option (List Char)) (url : List Char) :
    Option UrlHost :=
  let url := strip url
  if (url.take 6).map Char.toLower ≠ "https:".toList then none
  else
    let authority := ((url.drop 6).dropWhile (fun c => c = '/' || c = '\\')).takeWhile
      (fun c => !(['/', '\\', '?', '#'].contains c))
    let (host, port) := splitPort false (behindAt authority)
    if host.isEmpty || !(port.all isPort) then none else parseHost domainToAscii host

end UrlHost

end Lib
end OrbitOpenEO
