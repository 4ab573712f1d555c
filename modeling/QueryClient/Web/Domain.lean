import QueryClient.Text.Shape
import QueryClient.Text.Split
import QueryClient.Text.Utf8
import QueryClient.Web.Punycode

/-!
# Domain names

A domain name is compared in ASCII: letters in lower case, dots of other scripts as full stops,
labels with characters above ASCII in their encoded form. This is the part of the mapping of UTS 46 that
names in the common alphabets need, not all of it. It leaves out:

* normal form C: a letter and its combining mark stay two characters;
* compatibility mappings, but for full-width ASCII and the full stops of other scripts;
* capitals beyond Latin, Greek, Cyrillic and Armenian;
* the rule for names that run from right to left, and the rules for joiners.

Nothing that is proved of addresses depends on what a name above ASCII becomes.

* `fold`: what a character of a name stands for.
* `labels`, `asciiLabel?`: the labels of a name, and their forms in ASCII.
* `domainToAscii?`: the form of a name in ASCII, if it has one.
-/

namespace QueryClient.Web

/-- Ranges of capitals with the distance to their small letters. -/
def capitals : List (Nat × Nat × Nat) :=
  [(0x41, 0x5a, 32), (0xc0, 0xd6, 32), (0xd8, 0xde, 32), (0x391, 0x3a1, 32), (0x3a3, 0x3ab, 32),
   (0x410, 0x42f, 32), (0x400, 0x40f, 80), (0x531, 0x556, 48)]

/-- Ranges in which every other character is a capital, the first one in them included. -/
def alternating : List (Nat × Nat) :=
  [(0x100, 0x12f), (0x132, 0x137), (0x14a, 0x177), (0x370, 0x373), (0x3d8, 0x3ef), (0x460, 0x481),
   (0x48a, 0x4bf), (0x4d0, 0x52f), (0x1e00, 0x1e95), (0x1ea0, 0x1eff)]

/-- Ranges in which every other character is a capital, the first one in them a small letter. -/
def alternatingLate : List (Nat × Nat) := [(0x138, 0x148), (0x178, 0x17e)]

/-- Characters that leave no trace in a name. -/
def ignored (n : Nat) : Bool :=
  n == 0xad || n == 0x34f || n == 0x200b || n == 0x2060 || n == 0xfeff
    || (0xfe00 ≤ n && n ≤ 0xfe0f) || (0x180b ≤ n && n ≤ 0x180d)

/-- The small letter of a capital. -/
def smallLetter (n : Nat) : Nat :=
  match capitals.find? fun r => r.1 ≤ n && n ≤ r.2.1 with
  | some (_, _, distance) => n + distance
  | none =>
    if Text.inRanges alternating n && n % 2 == 0 then n + 1
    else if Text.inRanges alternatingLate n && n % 2 == 1 && n != 0x149 && n != 0x17f then n + 1
    else n

/-- What a character of a name stands for, so far as the mapping is modelled. -/
def fold (c : Char) : List Char :=
  let n := c.toNat
  if ignored n then []
  else if n == 0x3002 || n == 0xff0e || n == 0xff61 then ['.']
  else if 0xff01 ≤ n && n ≤ 0xff5e then [Char.ofNat (smallLetter (n - 0xfee0))]
  else if n == 0x178 then ['ÿ']
  else if n == 0x1e9e then ['ß']
  else [Char.ofNat (smallLetter n)]

/-- The parts of a text between full stops. -/
def labels : List Char → List (List Char)
  | [] => [[]]
  | '.' :: rest => [] :: labels rest
  | c :: rest =>
    match labels rest with
    | [] => [[c]]
    | label :: others => (c :: label) :: others

/-- The parts with full stops between them. -/
def joinLabels : List (List Char) → List Char
  | [] => []
  | [label] => label
  | label :: rest => label ++ '.' :: joinLabels rest

/-- The mark of an encoded label. -/
def encodedMark : List Char := ['x', 'n', '-', '-']

/-- Characters that no name may contain. -/
def isForbidden (c : Char) : Bool :=
  c.toNat ≤ 0x20 || c.toNat == 0x7f || "#/:<>?@[\\]^|%".toList.contains c

/-- The label consists of characters that a name may contain, and has one above ASCII. -/
def isInternational (label : List Char) : Bool :=
  label.any (0x80 ≤ ·.toNat)
    && label.all (fun c => fold c == [c] && (c.toNat < 0x80 || !Text.isHidden c))
    && !(label.head?.any Text.isCombining)

/-- The form of a label in ASCII. -/
def asciiLabel? (label : List Char) : Option (List Char) :=
  match Text.after? encodedMark label with
  | some code =>
    (Punycode.decode? code).bind fun decoded => if isInternational decoded then some label else none
  | none =>
    if label.all (·.toNat < 0x80) then some label
    else if isInternational label then some (encodedMark ++ Punycode.encode label)
    else none

/-- The forms of all labels, if each has one. -/
def asciiLabels? : List (List Char) → Option (List (List Char))
  | [] => some []
  | label :: rest =>
    match asciiLabel? label, asciiLabels? rest with
    | some l, some ls => some (l :: ls)
    | _, _ => none

/-- **The form of a name in ASCII,** if it is in a normal form already. -/
def domainToAscii? (bytes : List UInt8) : Option (List Char) := do
  let cs ← Utf8.decode? bytes
  let ls ← asciiLabels? (labels (cs.flatMap fold))
  let name := joinLabels ls
  if name.any isForbidden then none else some name

end QueryClient.Web
