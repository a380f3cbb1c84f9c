import FieldTelemetry.Text.Digits

/-!
# Readers

A reader takes characters from the front of a text, or fails. Readers are put together in sequence,
and a reader that is repeated has to take at least one character every time.

## Main definitions

* `Reader`: a reader
* `Reader.repeated`: the items that a reader finds one after the other
* `Reader.gap`: blanks, line breaks and comments
-/

namespace FieldTelemetry.Toml

/-- A reader. -/
abbrev Reader := StateT (List Char) Option

/-! ## Characters -/

/-- The blanks within a line. -/
def isBlank (c : Char) : Bool := c == ' ' || c == '\t'

/-- The characters of a line: all but the controls, of which only the tabulator is one. -/
def isLineChar (c : Char) : Bool := c == '\t' || (' ' ≤ c && c ≠ '\x7f')

namespace Reader

/-- The character in front, which stays there. -/
def next? : Reader (Option Char) := fun cs => some (cs.head?, cs)

/-- Whether `start` stands in front. It is taken if it does. -/
def taken (start : String) : Reader Bool := fun cs =>
  if start.toList.isPrefixOf cs then some (true, cs.drop start.toList.length)
  else some (false, cs)

/-- Takes `start`, which has to stand in front. -/
def take (start : String) : Reader Unit := do
  guard (← taken start)

/-- The longest run of characters of a class in front. -/
def takeWhile (p : Char → Bool) : Reader (List Char) := fun cs =>
  some (cs.takeWhile p, cs.dropWhile p)

/-- A character of a class in front. -/
def takeOne (p : Char → Bool) : Reader Char
  | c :: cs => if p c then some (c, cs) else none
  | [] => none

/-- A number of characters of a class in front. -/
def takeSome (p : Char → Bool) : (count : Nat) → Reader (List Char)
  | 0 => return []
  | count + 1 => return (← takeOne p) :: (← takeSome p count)

/-- The digit in front. -/
def digit : Reader Text.Digit := do Text.digitOf? (← takeOne fun c => (Text.digitOf? c).isSome)

/-- The number of `count` digits in front. -/
def digits (count : Nat) : Reader Nat := do
  return Text.value ((← takeSome (fun c => (Text.digitOf? c).isSome) count).filterMap Text.digitOf?)

/-- The items that `step` reads, until it finds the end. Every item takes a character at least. -/
def repeated {α : Type} (step : Reader (Option α)) : Reader (List α) := fun cs =>
  match step cs with
  | none => none
  | some (none, rest) => some ([], rest)
  | some (some item, rest) =>
    if rest.length < cs.length then
      (repeated step rest).map fun (items, tail) => (item :: items, tail)
    else none
termination_by cs => cs.length

/-! ## Space -/

/-- Takes the blanks in front. -/
def blanks : Reader Unit := discard (takeWhile isBlank)

/-- Whether a line break stands in front. It is taken if it does. -/
def lineBreak : Reader Bool := do
  if ← taken "\n" then return true else taken "\r\n"

/-- Takes the comment in front, if there is one. -/
def comment : Reader Unit := do
  if ← taken "#" then discard (takeWhile isLineChar)

/-- Takes what may follow on a line: blanks, a comment, and the line break or the end of the
text. -/
def lineEnd : Reader Unit := do
  blanks
  comment
  unless ← lineBreak do guard ((← next?) = none)

/-- Takes blanks, line breaks and comments. -/
def gap : Reader Unit := discard <| repeated do
  blanks
  match ← next? with
  | some '#' => comment; guard (← lineBreak); return some ()
  | some '\n' | some '\r' => guard (← lineBreak); return some ()
  | _ => return none

end Reader

end FieldTelemetry.Toml
