import OrbitOpenEO.Lib.Except
import OrbitOpenEO.Lib.Numerals

/-!
# The URL policy

`UrlPolicy::check` takes a URL apart by hand: scheme, authority, host.  A host that
parses as an address is denied if it lies in an internal range, any other host if
its name is one of a few.

`IpAddr` has the parser of the standard library, which reads numbers from the front
of the text.
-/

namespace OrbitOpenEO

open Lib

/-- `split_once` with a text. -/
def splitOnce (sep : List Char) : List Char → Option (List Char × List Char)
  | [] => if sep.isEmpty then some ([], []) else none
  | c :: cs =>
      if sep.isPrefixOf (c :: cs) then some ([], (c :: cs).drop sep.length)
      else (splitOnce sep cs).map (fun p => (c :: p.1, p.2))

theorem splitOnce_eq_none_iff {sep : List Char} (hsep : sep ≠ []) {cs : List Char} :
    splitOnce sep cs = none ↔ ¬ sep <:+: cs := by
  induction cs with
  | nil =>
      rw [splitOnce, if_neg (by simpa using hsep), List.infix_nil]
      exact iff_of_true rfl hsep
  | cons c cs ih =>
      rw [splitOnce, List.infix_cons_iff]
      by_cases hprefix : sep.isPrefixOf (c :: cs)
      case pos =>
        rw [if_pos hprefix]
        exact iff_of_false (by simp) (not_not.mpr (.inl (List.isPrefixOf_iff_prefix.mp hprefix)))
      case neg =>
        rw [if_neg hprefix, Option.map_eq_none_iff, ih, not_or]
        exact (and_iff_right fun h => hprefix (List.isPrefixOf_iff_prefix.mpr h)).symm

/-- A text is split at the first character of its kind. -/
theorem splitOnce_append {sep : Char} {cs : List Char} (h : sep ∉ cs) (rest : List Char) :
    splitOnce [sep] (cs ++ sep :: rest) = some (cs, rest) := by
  induction cs with
  | nil =>
      simp [splitOnce]
  | cons c cs ih =>
      rw [List.mem_cons, not_or] at h
      obtain ⟨hc, h⟩ := h
      rw [List.cons_append, splitOnce, ih h, if_neg]
      · rfl
      · simpa using hc

/-- `rsplit_once` with a character. -/
def rsplitOnce (sep : Char) : List Char → Option (List Char × List Char)
  | [] => none
  | c :: cs =>
      match rsplitOnce sep cs with
      | some (before, after) => some (c :: before, after)
      | none => if c = sep then some ([], cs) else none

/-- `Ipv4Addr`: `octets`. -/
structure Ipv4Addr where
  octet0 : UInt8
  octet1 : UInt8
  octet2 : UInt8
  octet3 : UInt8
deriving DecidableEq

/-- `Ipv6Addr`: `segments`. -/
structure Ipv6Addr where
  segments : List UInt16
  length_eq : segments.length = 8
deriving DecidableEq

/-- `IpAddr`. -/
inductive IpAddr where
  | v4 (ip : Ipv4Addr)
  | v6 (ip : Ipv6Addr)
deriving DecidableEq

/-- `read_number`, into a type with a largest value. -/
def readNumber (radix maxDigits : Nat) (allowZeroPrefix : Bool) (max : Nat) (cs : List Char) :
    Option (Nat × List Char) :=
  let digits := cs.takeWhile (isRadixDigit radix)
  if maxDigits < digits.length then none
  else if digits.isEmpty then none
  else if !allowZeroPrefix && digits.head? == some '0' && 1 < digits.length then none
  else if numeral radix digits ≤ max then
    some (numeral radix digits, cs.dropWhile (isRadixDigit radix))
  else none

/-- `read_given_char`. -/
def readGivenChar (c : Char) : List Char → Option (List Char)
  | [] => none
  | c' :: cs => if c' = c then some cs else none

/-- `read_separator`: a separator before every item but the first. -/
def readSeparator {α : Type} (sep : Char) (index : Nat)
    (inner : List Char → Option (α × List Char)) (cs : List Char) : Option (α × List Char) :=
  if 0 < index then (readGivenChar sep cs).bind inner else inner cs

/-- A number of `read_ipv4_addr`. -/
def readOctet (index : Nat) (cs : List Char) : Option (UInt8 × List Char) :=
  (readSeparator '.' index (readNumber 10 3 false 255) cs).map (fun p => (UInt8.ofNat p.1, p.2))

/-- `read_ipv4_addr`. -/
def readIpv4Addr (cs : List Char) : Option (Ipv4Addr × List Char) := do
  let (octet0, cs) ← readOctet 0 cs
  let (octet1, cs) ← readOctet 1 cs
  let (octet2, cs) ← readOctet 2 cs
  let (octet3, cs) ← readOctet 3 cs
  some (⟨octet0, octet1, octet2, octet3⟩, cs)

/-- `u16::from_be_bytes`. -/
def fromBeBytes (high low : UInt8) : UInt16 := UInt16.ofNat (256 * high.toNat + low.toNat)

/-- `read_groups`, with the number of groups left and that of the groups before; also
returns whether an IPv4 address was among them, and the text left. -/
def readGroups : (left index : Nat) → List Char → List UInt16 × Bool × List Char
  | 0, _, cs => ([], false, cs)
  | left + 1, index, cs =>
      match if 0 < left then readSeparator ':' index readIpv4Addr cs else none with
      | some (ip, rest) =>
          ([fromBeBytes ip.octet0 ip.octet1, fromBeBytes ip.octet2 ip.octet3], true, rest)
      | none =>
          match readSeparator ':' index (readNumber 16 4 true 65535) cs with
          | some (group, rest) =>
              let (groups, ipv4, rest) := readGroups left (index + 1) rest
              (UInt16.ofNat group :: groups, ipv4, rest)
          | none => ([], false, cs)

theorem length_readGroups_le (left index : Nat) (cs : List Char) :
    (readGroups left index cs).1.length ≤ left := by
  induction left generalizing index cs with
  | zero =>
      exact Nat.le_refl _
  | succ left ih =>
      unfold readGroups
      split
      · rename_i hif
        split_ifs at hif with hleft
        exact Nat.succ_le_succ hleft
      · split
        · exact Nat.succ_le_succ (ih _ _)
        · exact Nat.zero_le _

/-- `read_ipv6_addr`. -/
def readIpv6Addr (cs : List Char) : Option (Ipv6Addr × List Char) :=
  let head := readGroups 8 0 cs
  if hhead : head.1.length = 8 then some (⟨head.1, hhead⟩, head.2.2)
  else if head.2.1 then none
  else do
    let rest ← readGivenChar ':' head.2.2
    let rest ← readGivenChar ':' rest
    let tail := readGroups (8 - (head.1.length + 1)) 0 rest
    some
      (⟨head.1 ++ List.replicate (8 - head.1.length - tail.1.length) 0 ++ tail.1, by
          have h8 : head.1.length ≤ 8 := length_readGroups_le 8 0 cs
          have h7 : tail.1.length ≤ 8 - (head.1.length + 1) := length_readGroups_le _ 0 rest
          simp only [List.length_append, List.length_replicate]
          omega⟩, tail.2.2)

/-- `parse::<IpAddr>()`. -/
def parseIpAddr (cs : List Char) : Option IpAddr :=
  match readIpv4Addr cs with
  | some (ip, rest) => if rest.isEmpty then some (.v4 ip) else none
  | none =>
      match readIpv6Addr cs with
      | some (ip, rest) => if rest.isEmpty then some (.v6 ip) else none
      | none => none

/-- `is_internal_v4`. -/
def isInternalV4 (ip : Ipv4Addr) : Bool :=
  ip.octet0 == 127 || ip.octet0 == 169 && ip.octet1 == 254 || ip.octet0 == 10 ||
    ip.octet0 == 172 && ip.octet1 &&& 0xF0 == 16 || ip.octet0 == 192 && ip.octet1 == 168 ||
    ip.octet0 == 0 || ip.octet0 == 100 && ip.octet1 &&& 0xC0 == 64

/-- `to_ipv4_mapped`. -/
def Ipv6Addr.toIpv4Mapped (ip : Ipv6Addr) : Option Ipv4Addr :=
  match ip.segments with
  | [0, 0, 0, 0, 0, 0xFFFF, ab, cd] =>
      some ⟨(ab >>> 8).toUInt8, ab.toUInt8, (cd >>> 8).toUInt8, cd.toUInt8⟩
  | _ => none

/-- `is_internal_v6`. -/
def isInternalV6 (ip : Ipv6Addr) : Bool :=
  if ip.segments == [0, 0, 0, 0, 0, 0, 0, 1] then true
  else if ip.segments.headD 0 &&& 0xFE00 == 0xFC00 then true
  else if ip.segments.headD 0 &&& 0xFFC0 == 0xFE80 then true
  else
    match ip.toIpv4Mapped with
    | some ip => isInternalV4 ip
    | none => false

/-- `is_internal_ip`. -/
def isInternalIp : IpAddr → Bool
  | .v4 ip => isInternalV4 ip
  | .v6 ip => isInternalV6 ip

/-- `is_obvious_internal_hostname`. -/
def isObviousInternalHostname (host : List Char) : Bool :=
  let h := host.map Char.toLower
  h == "localhost".toList || ".localhost".toList.isSuffixOf h ||
    h == "metadata.google.internal".toList || ".internal".toList.isSuffixOf h ||
    ".local".toList.isSuffixOf h

/-- `UrlPolicyError`. -/
inductive UrlPolicyError where
  | schemeNotAllowed (scheme : String)
  | deniedRange (host : String)
  | malformed (url : String)
  | optionInjection (href : String)
deriving DecidableEq

/-- `Display`. -/
def UrlPolicyError.text : UrlPolicyError → String
  | .schemeNotAllowed scheme => s!"scheme not allowed: {scheme}"
  | .deniedRange host => s!"host {host} resolves into denied range"
  | .malformed url => s!"malformed url: {url}"
  | .optionInjection href => s!"href starts with '-' (option-injection): {href}"

/-- `UrlPolicy`. -/
structure UrlPolicy where
  allowedSchemes : List String
  denyInternalRanges : Bool

/-- `UrlPolicy::default`. -/
def UrlPolicy.default : UrlPolicy := ⟨["https"], true⟩

/-- The host of what stands behind the scheme, without credentials, port and brackets. -/
def hostNoPort (rest : List Char) : List Char :=
  let hostWithPort := rest.takeWhile (fun c => !(['/', '?', '#'].contains c))
  let host :=
    match rsplitOnce '@' hostWithPort with
    | some (_, h) => h
    | none => hostWithPort
  match host with
  | '[' :: stripped => stripped.takeWhile (· ≠ ']')
  | host =>
      match rsplitOnce ':' host with
      | some (h, _) => h
      | none => host

/-- The host is an internal address or has the name of an internal host. -/
def isDeniedHost (host : List Char) : Bool :=
  match parseIpAddr host with
  | some ip => isInternalIp ip
  | none => isObviousInternalHostname host

/-- `UrlPolicy::check`. -/
def UrlPolicy.check (policy : UrlPolicy) (href : String) : Except UrlPolicyError Unit :=
  if "-".toList.isPrefixOf href.toList then .error (.optionInjection href)
  else
    match splitOnce "://".toList href.toList with
    | none => .error (.malformed href)
    | some (scheme, rest) =>
        let schemeLower := String.ofList (scheme.map Char.toLower)
        if !policy.allowedSchemes.contains schemeLower then .error (.schemeNotAllowed schemeLower)
        else if policy.denyInternalRanges && isDeniedHost (hostNoPort rest) then
          .error (.deniedRange (String.ofList (hostNoPort rest)))
        else .ok ()

end OrbitOpenEO
