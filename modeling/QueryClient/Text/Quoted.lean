import QueryClient.Text.Shape

/-!
# Text between quotes, for human readers

Quotes and backslashes are escaped, the usual controls by a letter, and characters without a shape
of their own by number in base sixteen between braces.

* `quoteChar`: the written form of one character.
* `quoted`: a string between quotes.
-/

namespace QueryClient.Text

/-- The written form of one character. -/
def quoteChar (c : Char) : List Char :=
  match c with
  | '\x00' => ['\\', '0']
  | '\t' => ['\\', 't']
  | '\r' => ['\\', 'r']
  | '\n' => ['\\', 'n']
  | '"' => ['\\', '"']
  | '\\' => ['\\', '\\']
  | c =>
    if 0x20 ≤ c.toNat ∧ c.toNat < 0x7F then [c]
    else if isCombining c || isHidden c then
      ['\\', 'u', '\x7b'] ++ Nat.toDigits 16 c.toNat ++ ['\x7d']
    else [c]

/-- A string between quotes. -/
def quoted (s : String) : String := String.ofList ('"' :: (s.toList.flatMap quoteChar ++ ['"']))

/-- An optional string: `None`, or the quoted string in `Some(…)`. -/
def quotedOption : Option String → String
  | none => "None"
  | some s => "Some(" ++ quoted s ++ ")"

end QueryClient.Text
