import FieldTelemetry.Toml.Reader

/-!
# Quoted texts and keys

A text stands between double quotes, in which a backslash begins an escape, or between single
quotes, in which every character stands for itself. Three quotes open a text that goes over several
lines. A line break right after them is passed over, and up to two quotes may stand right before
those that close the text.

## Main definitions

* `Reader.basic`, `Reader.literal`: texts on one line
* `Reader.longBasic`, `Reader.longLiteral`: texts over several lines
* `Reader.keys`: keys with full stops between them
-/

namespace FieldTelemetry.Toml.Reader

/-! ## Escapes -/

/-- The character of a code point in a number of hexadecimal digits. -/
def codePoint (count : Nat) : Reader Char := do
  let figures ← takeSome (fun c => (Text.hexOf? c).isSome) count
  let n := (figures.filterMap Text.hexOf?).foldl (fun n d => 16 * n + d.val) 0
  guard n.isValidChar
  return Char.ofNat n

/-- The character of an escape, behind its backslash. -/
def escape : Reader Char := do
  match ← takeOne fun _ => true with
  | 'b' => return '\x08'
  | 't' => return '\t'
  | 'n' => return '\n'
  | 'f' => return '\x0c'
  | 'r' => return '\r'
  | '"' => return '"'
  | '\\' => return '\\'
  | 'u' => codePoint 4
  | 'U' => codePoint 8
  | _ => failure

/-! ## Texts on one line -/

/-- The text of the pieces that a reader finds. -/
def pieces (piece : Reader (Option (List Char))) : Reader String := do
  return String.ofList (← repeated piece).flatten

/-- A text between double quotes. -/
def basic : Reader String := do
  take "\""
  pieces do
    if ← taken "\"" then return none
    if ← taken "\\" then return some [← escape]
    return some [← takeOne isLineChar]

/-- A text between single quotes. -/
def literal : Reader String := do
  take "'"
  let text ← takeWhile fun c => isLineChar c && c ≠ '\''
  take "'"
  return String.ofList text

/-! ## Texts over several lines -/

/-- The quotes in front as a piece of a text over several lines, or the end of the text. -/
def quotes (quote : Char) : Reader (Option (List Char)) := do
  let run ← takeWhile (· == quote)
  if run.length < 3 then return some run
  guard (run.length ≤ 5)
  if run.length = 3 then return none
  modify (List.replicate 3 quote ++ ·)
  return some (run.drop 3)

/-- Takes blanks and line breaks. -/
def blankLines : Reader Unit := discard <| repeated do
  blanks
  return if ← lineBreak then some () else none

/-- A text between three double quotes. A backslash at the end of a line joins the line with the
next one that has more than blanks. -/
def longBasic : Reader String := do
  take "\"\"\""
  discard lineBreak
  pieces do
    match ← next? with
    | some '"' => quotes '"'
    | some '\\' =>
      take "\\"
      match ← next? with
      | some ' ' | some '\t' | some '\n' | some '\r' =>
        blanks
        guard (← lineBreak)
        blankLines
        return some []
      | _ => return some [← escape]
    | _ => if ← lineBreak then return some ['\n'] else return some [← takeOne isLineChar]

/-- A text between three single quotes. -/
def longLiteral : Reader String := do
  take "'''"
  discard lineBreak
  pieces do
    match ← next? with
    | some '\'' => quotes '\''
    | _ => if ← lineBreak then return some ['\n'] else return some [← takeOne isLineChar]

/-! ## Keys -/

/-- The characters of keys without quotes. -/
def isKeyChar (c : Char) : Bool := c.isAlphanum || c == '-' || c == '_'

/-- A key and the blanks around it. -/
def key : Reader String := do
  blanks
  let key ← match ← next? with
    | some '"' => basic
    | some '\'' => literal
    | _ => do
      let cs ← takeWhile isKeyChar
      guard !cs.isEmpty
      pure (String.ofList cs)
  blanks
  return key

/-- Keys, tables and arrays have less than this number of parts or levels. -/
def levelLimit : Nat := 80

/-- Keys with full stops between them: those on the way and the last one. -/
def keys : Reader (List String × String) := do
  let first ← key
  let rest ← repeated do if ← taken "." then return some (← key) else return none
  let all := first :: rest
  guard (all.length < levelLimit)
  return (all.dropLast, all.getLastD first)

end FieldTelemetry.Toml.Reader
