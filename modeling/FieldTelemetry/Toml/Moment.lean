import FieldTelemetry.Time.Instant
import FieldTelemetry.Toml.Reader

/-!
# Dates and times

A moment is a date, a time of day, or both, and with both it may have an offset from Universal Time.

## Main definitions

* `Moment`: a moment
* `Reader.moment`: a moment as it is written
-/

namespace FieldTelemetry.Toml

open Time (Date TimeOfDay)

/-- A moment. -/
structure Moment where
  /-- The date. -/
  date : Option Date := none
  /-- The time of day. -/
  time : Option TimeOfDay := none
  /-- Minutes that the time is ahead of Universal Time. -/
  offset : Option Int := none
deriving DecidableEq, Repr

namespace Reader

/-- A number of two digits below a bound. -/
def below (bound : Nat) : Reader Nat := do
  let n ← digits 2
  guard (n < bound)
  return n

/-- Figures behind the point in nanoseconds. Those beyond the ninth are passed over. -/
def nanos : Reader Nat := do
  let figures ← takeWhile fun c => (Text.digitOf? c).isSome
  guard !figures.isEmpty
  let nine := (figures.filterMap Text.digitOf?).take 9
  return Text.value nine * Nat.pow 10 (9 - nine.length)

/-- A date. -/
def date : Reader Date := do
  let year ← digits 4
  take "-"
  let month ← digits 2
  take "-"
  let date : Date := ⟨year, month, ← digits 2⟩
  guard (1 ≤ month ∧ month ≤ 12 ∧ date.Valid)
  return date

/-- A time of day, to the second at least. -/
def timeOfDay : Reader TimeOfDay := do
  let hour ← below 24
  take ":"
  let minute ← below 60
  take ":"
  let second ← below 61
  let nano ← if ← taken "." then nanos else pure 0
  return ⟨hour, minute, second, nano⟩

/-- An offset in minutes, if there is one. -/
def offset : Reader (Option Int) := do
  match ← next? with
  | some 'Z' | some 'z' => discard (takeOne fun _ => true); return some 0
  | some '+' | some '-' =>
    let ahead := (← takeOne fun _ => true) = '+'
    let hours ← below 24
    take ":"
    let minutes : Int := 60 * hours + (← below 60)
    return some (if ahead then minutes else -minutes)
  | _ => return none

/-- Whether digits in a number, and then a certain character, stand in front. -/
def digitsThen (count : Nat) (c : Char) : Reader Bool := fun cs =>
  some ((cs.takeWhile fun c => (Text.digitOf? c).isSome).length = count
    && (cs.drop count).head? = some c, cs)

/-- Whether a time of day follows a date, behind one character. -/
def timeFollows : Reader Bool := fun cs =>
  match cs with
  | c :: rest => some (((c == 'T' || c == 't' || c == ' ')
      && ((digitsThen 2 ':').run rest).any fun (found, _) => found), cs)
  | [] => some (false, cs)

/-- A moment, or nothing where the characters in front do not begin one. -/
def moment : Reader (Option Moment) := do
  if ← digitsThen 4 '-' then
    let date ← date
    if !(← timeFollows) then return some { date := some date }
    discard (takeOne fun _ => true)
    return some { date := some date, time := some (← timeOfDay), offset := ← offset }
  else if ← digitsThen 2 ':' then return some { time := some (← timeOfDay) }
  else return none

end Reader

end FieldTelemetry.Toml
