import QueryClient.Web.Domain
import QueryClient.Web.Percent

/-!
# Hosts

A host is the number of a machine or a domain name. Numbers of 32 bits have many spellings and one
written form; numbers of 128 bits stand in brackets, in groups of sixteen bits.

* `UrlError`: what can be wrong with an address.
* `parseIpv4?`, `parseIpv6?`: reading numbers.
* `writeIpv4`, `writeIpv6`: their written forms.
* `parseHost`: the written form of a host.
-/

namespace QueryClient.Web

/-- What can be wrong with an address. -/
inductive UrlError where
  | emptyHost
  | invalidPort
  | invalidIpv4
  | invalidIpv6
  | invalidDomain
  deriving DecidableEq, Repr

namespace UrlError

/-- The text of an error. -/
def message : UrlError → String
  | emptyHost => "empty host"
  | invalidPort => "invalid port number"
  | invalidIpv4 => "invalid IPv4 address"
  | invalidIpv6 => "invalid IPv6 address"
  | invalidDomain => "invalid international domain name"

end UrlError

/-- The value of a digit in a base up to sixteen. -/
def digitIn? (base : Nat) (c : Char) : Option Nat :=
  if c.toNat < 0x80 then (hexDigit? c.toNat.toUInt8).filter (· < base) else none

/-- The number that digits stand for, continued from `n`. -/
def numberIn? (base n : Nat) : List Char → Option Nat
  | [] => some n
  | c :: rest => (digitIn? base c).bind fun d => numberIn? base (base * n + d) rest

/-! ## Numbers of 32 bits -/

/-- A part of a number: in base sixteen after `0x`, in base eight after `0`, and else in base
ten. -/
def ipv4Part? : List Char → Option Nat
  | '0' :: 'x' :: rest => numberIn? 16 0 rest
  | '0' :: 'X' :: rest => numberIn? 16 0 rest
  | ['0'] => some 0
  | '0' :: rest => numberIn? 8 0 rest
  | [] => none
  | cs => numberIn? 10 0 cs

/-- The name without a full stop at its end. -/
def withoutLastDot (parts : List (List Char)) : List (List Char) :=
  if 1 < parts.length && parts.getLast? == some [] then parts.dropLast else parts

/-- The last part of the name is a number, so that all of it has to be one. -/
def endsInNumber (name : List Char) : Bool :=
  match (withoutLastDot (labels name)).getLast? with
  | none | some [] => false
  | some part => part.all Char.isDigit || (ipv4Part? part).isSome

/-- All parts as numbers. -/
def ipv4Parts? : List (List Char) → Option (List Nat)
  | [] => some []
  | part :: rest =>
    match ipv4Part? part, ipv4Parts? rest with
    | some n, some ns => some (n :: ns)
    | _, _ => none

/-- The number of a machine: each part but the last is a byte, the last one is the rest. -/
def combineIpv4? : Nat → List Nat → Option Nat
  | _, [] => none
  | bytes, [n] => if n < Nat.pow 256 bytes then some n else none
  | bytes, n :: rest =>
    if n < 256 then (combineIpv4? (bytes - 1) rest).map (n * Nat.pow 256 (bytes - 1) + ·) else none

/-- Reads a number of 32 bits. -/
def parseIpv4? (name : List Char) : Option Nat :=
  let parts := withoutLastDot (labels name)
  if 4 < parts.length then none else (ipv4Parts? parts).bind (combineIpv4? 4)

/-- A number in base ten. -/
def decimal (n : Nat) : List Char := Nat.toDigits 10 n

/-- The written form of a number of 32 bits: its four bytes. -/
def writeIpv4 (n : Nat) : List Char :=
  joinLabels ([16777216, 65536, 256, 1].map fun unit => decimal (n / unit % 256))

/-! ## Numbers of 128 bits -/

/-- Four bytes in base ten, without leading zeros, as two groups. -/
def embeddedIpv4? (cs : List Char) : Option (List Nat) :=
  let byte? (part : List Char) : Option Nat :=
    match part with
    | '0' :: _ :: _ => none
    | [] => none
    | _ => (numberIn? 10 0 part).filter (· < 256)
  match (labels cs).map byte? with
  | [some a, some b, some c, some d] => some [256 * a + b, 256 * c + d]
  | _ => none

/-- The groups of a text without two colons in a row; the last two may be four bytes. -/
def ipv6Groups? : Nat → List Char → Option (List Nat)
  | 0, _ => none
  | fuel + 1, cs =>
    let group := cs.takeWhile (· ≠ ':')
    let rest := cs.drop group.length
    match rest with
    | [] =>
      if group.contains '.' then embeddedIpv4? group
      else if group.isEmpty || 4 < group.length then none
      else (numberIn? 16 0 group).map ([·])
    | _ :: rest =>
      if group.isEmpty || 4 < group.length then none
      else
        match numberIn? 16 0 group, ipv6Groups? fuel rest with
        | some n, some ns => some (n :: ns)
        | _, _ => none

/-- The groups of a part before or after two colons; there may be none. -/
def ipv6Side? (cs : List Char) : Option (List Nat) :=
  if cs.isEmpty then some [] else ipv6Groups? (cs.length + 1) cs

/-- Reads a number of 128 bits as eight groups. Two colons stand for one or more groups of zero. -/
def parseIpv6? (cs : List Char) : Option (List Nat) :=
  match Text.splitOnce? [':', ':'] cs with
  | none => (ipv6Groups? (cs.length + 1) cs).filter (·.length = 8)
  | some (before, after) =>
    if before.contains '.' then none
    else
      match ipv6Side? before, ipv6Side? after with
      | some left, some right =>
        if left.length + right.length < 8 then
          some (left ++ List.replicate (8 - left.length - right.length) 0 ++ right)
        else none
      | _, _ => none

/-- How many groups of zero the list starts with. -/
def zeroRun (groups : List Nat) : Nat := (groups.takeWhile (· = 0)).length

/-- The place and the length of the longest run of zeros, the first of several. -/
def longestRun : Nat → List Nat → Nat × Nat
  | _, [] => (0, 0)
  | place, g :: rest =>
    let here := zeroRun (g :: rest)
    let later := longestRun (place + 1) rest
    if later.2 ≤ here then (place, here) else later

/-- A group in base sixteen. -/
def hexGroup (n : Nat) : List Char := Nat.toDigits 16 n

/-- Groups with colons between them. -/
def joinGroups : List Nat → List Char
  | [] => []
  | [g] => hexGroup g
  | g :: rest => hexGroup g ++ ':' :: joinGroups rest

/-- The written form of eight groups: the longest run of at least two zeros is left out. -/
def writeIpv6 (groups : List Nat) : List Char :=
  let (place, length) := longestRun 0 groups
  if length < 2 then joinGroups groups
  else joinGroups (groups.take place) ++ [':', ':'] ++ joinGroups (groups.drop (place + length))

/-! ## Hosts -/

/-- **The written form of a host.** -/
def parseHost (cs : List Char) : Except UrlError (List Char) :=
  match cs with
  | '[' :: inner =>
    if inner.getLast? = some ']' then
      match parseIpv6? inner.dropLast with
      | some groups => .ok ('[' :: (writeIpv6 groups ++ [']']))
      | none => .error .invalidIpv6
    else .error .invalidIpv6
  | _ =>
    match domainToAscii? (percentDecode (Utf8.encode cs)) with
    | none => .error .invalidDomain
    | some name =>
      if name.isEmpty then .error .emptyHost
      else if endsInNumber name then
        match parseIpv4? name with
        | some n => .ok (writeIpv4 n)
        | none => .error .invalidIpv4
      else .ok name

end QueryClient.Web
