/-!
# Reading characters

A *reader* takes characters off the front of a list and fails if they are not what it expects. A
choice between readers starts the second one where the first one started.
-/

namespace HotReload.Toml

/-- **Readers.** -/
abbrev Reader (α : Type) := StateT (List Char) Option α

namespace Reader

variable {α : Type}

/-- The next character, which is not taken. -/
def peek? : Reader (Option Char) := do return (← get).head?

/-- The next character, which has to pass a test. -/
def satisfy (test : Char → Bool) : Reader Char := fun cs =>
  match cs with
  | [] => none
  | c :: cs => if test c then some (c, cs) else none

/-- One particular character. -/
def char (c : Char) : Reader Unit := discard (satisfy (· == c))

/-- A particular sequence of characters. -/
def word (s : String) : Reader Unit := s.toList.forM char

/-- The longest run of characters that pass a test. -/
def run (test : Char → Bool) : Reader (List Char) := fun cs =>
  some (cs.takeWhile test, cs.dropWhile test)

/-- The longest run of characters that pass a test, which must not be empty. -/
def run1 (test : Char → Bool) : Reader (List Char) := do
  let cs ← run test
  if cs.isEmpty then failure else return cs

/-- Applies a reader until it fails, at most `bound` times. -/
def manyWithin (p : Reader α) : Nat → Reader (List α)
  | 0 => pure []
  | bound + 1 =>
    (do
      let a ← p
      return a :: (← manyWithin p bound)) <|> pure []

/-- Applies a reader that takes at least one character until it fails. -/
def many (p : Reader α) : Reader (List α) := do
  -- each application takes a character, so there are no more than characters left
  manyWithin p (← get).length

/-- Applies a reader one or more times, with a separator between two. -/
def separated (separator : Reader Unit) (p : Reader α) : Reader (List α) := do
  let a ← p
  return a :: (← many (do separator; p))

/-- What a partial function makes of what a reader finds. -/
def ofOption (a : Option α) : Reader α := fun cs => a.map (·, cs)

/-- Succeeds at the end of the input. -/
def atEnd : Reader Unit := do guard (← get).isEmpty

/-! ### Blanks and line ends -/

/-- Spaces and tabs. -/
def blanks : Reader Unit := discard (run fun c => c == ' ' || c == '\t')

/-- A line end. -/
def newline : Reader Unit := char '\n' <|> word "\r\n"

/-- True for the characters of a comment: no control but the tab. -/
def isVisible (c : Char) : Bool := c == '\t' || (' ' ≤ c && c ≤ '~') || '\x80' ≤ c

/-- A comment, up to the end of its line. -/
def comment : Reader Unit := do
  char '#'
  discard (run isVisible)

/-- What may stand between the end of a statement and the next line. -/
def lineEnd : Reader Unit := do
  blanks
  discard (optional comment)
  newline <|> atEnd

/-- Blanks, line ends and comments, which may stand anywhere between the items of an array. -/
def filler : Reader Unit :=
  discard (many (discard (run1 fun c => c == ' ' || c == '\t') <|> newline <|> do comment; newline))

end Reader

end HotReload.Toml
