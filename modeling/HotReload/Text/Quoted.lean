import HotReload.Text.Extending
import HotReload.Text.Unprintable

/-!
# Quoted text

The written form of a string inside a description: double quotes around it, a backslash before a
quote and a backslash, letters for the common controls, and the code in hexadecimal for a character
that cannot be seen or that would attach to the one before it.
-/

namespace HotReload.Text

/-- True if one of the ranges, both ends included, holds `n`. -/
def inRanges (ranges : List (Nat × Nat)) (n : Nat) : Bool :=
  ranges.any fun r => r.1 ≤ n && n ≤ r.2

/-- True if the character is written by its code. -/
def needsCode (c : Char) : Bool :=
  if 0x20 ≤ c.toNat && c.toNat < 0x7f then false
  else inRanges extending c.toNat || inRanges unprintable c.toNat

/-- The code of a character in lower case hexadecimal, in braces. -/
def codeEscape (c : Char) : List Char :=
  ['\\', 'u', '{'] ++ Nat.toDigits 16 c.toNat ++ ['}']

/-- The written form of one character. -/
def escape (c : Char) : List Char :=
  match c with
  | '\x00' => ['\\', '0']
  | '\t' => ['\\', 't']
  | '\r' => ['\\', 'r']
  | '\n' => ['\\', 'n']
  | '"' => ['\\', '"']
  | '\\' => ['\\', '\\']
  | c => if needsCode c then codeEscape c else [c]

/-- The written form of a string, quotes included. -/
def quoted (s : String) : String :=
  String.ofList (['"'] ++ s.toList.flatMap escape ++ ['"'])

/-- Quoted items between brackets, with a comma and a space between two. -/
def quotedList (items : List String) : String :=
  "[" ++ ", ".intercalate (items.map quoted) ++ "]"

end HotReload.Text
