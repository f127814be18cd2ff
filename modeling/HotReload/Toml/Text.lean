import HotReload.Toml.Reader

/-!
# Strings and keys

Basic strings have escapes, literal strings have none. Either can run over several lines between
triple quotes. A key is a dotted sequence of bare words and strings on one line.
-/

namespace HotReload.Toml

open Reader

/-- The value of a hexadecimal digit. -/
def hexValue? (c : Char) : Option Nat :=
  if '0' ≤ c ∧ c ≤ '9' then some (c.toNat - '0'.toNat)
  else if 'a' ≤ c ∧ c ≤ 'f' then some (c.toNat - 'a'.toNat + 10)
  else if 'A' ≤ c ∧ c ≤ 'F' then some (c.toNat - 'A'.toNat + 10)
  else none

/-- The number that digits denote in a base. -/
def digitsValue (base : Nat) (digits : List Char) : Nat :=
  digits.foldl (fun n c => n * base + (hexValue? c).getD 0) 0

/-- The character of a code, which has to be a scalar value. -/
def ofCode? (n : Nat) : Option Char := if n.isValidChar then some (Char.ofNat n) else none

/-- A character written by its code in `n` hexadecimal digits. -/
def codePoint (n : Nat) : Reader Char := do
  let digits ← (List.replicate n ()).mapM fun _ => satisfy fun c => (hexValue? c).isSome
  ofOption (ofCode? (digitsValue 16 digits))

/-- An escape sequence. -/
def escapeSequence : Reader Char := do
  char '\\'
  match ← satisfy fun _ => true with
  | '"' => return '"'
  | '\\' => return '\\'
  | 'b' => return '\x08'
  | 'f' => return '\x0c'
  | 'n' => return '\n'
  | 'r' => return '\r'
  | 't' => return '\t'
  | 'u' => codePoint 4
  | 'U' => codePoint 8
  | _ => failure

/-- A basic string on one line. -/
def basicString : Reader String := do
  char '"'
  let cs ← many ((satisfy fun c => isVisible c && c != '"' && c != '\\') <|> escapeSequence)
  char '"'
  return String.ofList cs

/-- A literal string on one line. -/
def literalString : Reader String := do
  char '\''
  let cs ← run fun c => isVisible c && c != '\''
  char '\''
  return String.ofList cs

/-- Up to two quotes that do not end a string over several lines. -/
def innerQuotes (quote : Char) : Reader (List Char) := do
  let quotes ← run1 (· == quote)
  guard (quotes.length < 3)
  return quotes

/-- The quotes that end a string over several lines. Up to two more in front belong to the
string. -/
def closingQuotes (quote : Char) : Reader (List Char) := do
  let quotes ← run1 (· == quote)
  -- with six quotes the string would have ended before the last three
  guard (3 ≤ quotes.length && quotes.length ≤ 5)
  return quotes.drop 3

/-- A line end inside a string. -/
def innerNewline : Reader (List Char) := do
  newline
  return ['\n']

/-- A backslash at the end of a line, with the blanks and line ends after it: nothing of it is
kept. -/
def foldedNewline : Reader (List Char) := do
  char '\\'
  blanks
  newline
  discard (many (discard (run1 fun c => c == ' ' || c == '\t') <|> newline))
  return []

/-- A string over several lines, given its quote and what else it is made of. -/
def longString (quote : Char) (content : Reader (List Char)) : Reader String := do
  (List.replicate 3 quote).forM char
  -- a line end right after the opening quotes is no part of the string
  discard (optional newline)
  let parts ← many (content <|> innerNewline <|> innerQuotes quote)
  let last ← closingQuotes quote
  return String.ofList (parts.flatten ++ last)

/-- A basic string over several lines. -/
def longBasicString : Reader String :=
  longString '"'
    (run1 (fun c => isVisible c && c != '"' && c != '\\') <|> foldedNewline <|>
      do return [← escapeSequence])

/-- A literal string over several lines. -/
def longLiteralString : Reader String :=
  longString '\'' (run1 fun c => isVisible c && c != '\'')

/-- A string. -/
def string : Reader String :=
  longBasicString <|> basicString <|> longLiteralString <|> literalString

/-- One segment of a key. -/
def simpleKey : Reader String :=
  basicString <|> literalString <|>
    do return String.ofList (← run1 fun c => c.isAlphanum || c == '-' || c == '_')

/-- The deepest nesting of keys and values. -/
def nestingLimit : Nat := 79

/-- A key: its segments. -/
def key : Reader (List String) := do
  let segments ← separated (char '.') do
    blanks
    let segment ← simpleKey
    blanks
    return segment
  guard (segments.length ≤ nestingLimit)
  return segments

end HotReload.Toml
