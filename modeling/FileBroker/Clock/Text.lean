import FileBroker.Clock
import FileBroker.Text
import FileBroker.Word

/-!
Spans of time as people write them: amounts with units, such as `2m 30s`. An amount may have a
fraction, and blanks may stand anywhere but inside a unit. Amounts are counted in whole seconds, or
below a second in nanoseconds, and each count has to fit a 64-bit word.
-/
namespace FileBroker.Span

/-- A span counted in whole seconds and nanoseconds. -/
structure Amount where
  seconds : Nat
  nanoseconds : Nat
  deriving DecidableEq, Repr

/-- Units with their spellings. A month is 30.44 days, and a year 365.25 days. -/
def units : List (List String × Amount) :=
  [(["nanos", "nsec", "ns"], ⟨0, 1⟩),
   (["usec", "us", "µs"], ⟨0, 1000⟩),
   (["millis", "msec", "ms"], ⟨0, 1000000⟩),
   (["seconds", "second", "secs", "sec", "s"], ⟨1, 0⟩),
   (["minutes", "minute", "min", "mins", "m"], ⟨60, 0⟩),
   (["hours", "hour", "hr", "hrs", "h"], ⟨3600, 0⟩),
   (["days", "day", "d"], ⟨86400, 0⟩),
   (["weeks", "week", "wk", "wks", "w"], ⟨604800, 0⟩),
   (["months", "month", "M"], ⟨2630016, 0⟩),
   (["years", "year", "yr", "yrs", "y"], ⟨31557600, 0⟩)]

def unit? (name : String) : Option Amount :=
  (units.find? fun entry => entry.1.contains name).map Prod.snd

/-! ### Reading -/

namespace Amount

def times? (unit : Amount) (count : Nat) : Option Amount := do
  return ⟨← Word.check? (count * unit.seconds), ← Word.check? (count * unit.nanoseconds)⟩

/-- Fractions of minutes and of what is shorter are counted in nanoseconds. -/
def refined (unit : Amount) : Amount :=
  if unit.seconds ≤ 60 then ⟨0, unit.seconds * 1000000000 + unit.nanoseconds⟩ else unit

/-- A fraction of a unit, which has to come out even. A nanosecond has no fractions. -/
def part? (unit : Amount) (numerator denominator : Nat) : Option Amount := do
  let unit := unit.refined
  let seconds ← Word.check? (numerator * unit.seconds)
  let nanoseconds ← Word.check? (numerator * unit.nanoseconds)
  if unit.nanoseconds = 1 ∨ seconds % denominator ≠ 0 ∨ nanoseconds % denominator ≠ 0 then none
  else return ⟨seconds / denominator, nanoseconds / denominator⟩

/-- The span after `total` and this amount. -/
def addTo? (amount : Amount) (total : Span) : Option Span := do
  let nanoseconds ← Word.check? (total % 1000000000 + amount.nanoseconds)
  let whole ← Word.check? (total / 1000000000 + amount.seconds + nanoseconds / 1000000000)
  return Span.seconds whole + nanoseconds % 1000000000

end Amount

def isUnitLetter (c : Char) : Bool := c.isAlpha || c == 'µ'

def isNumeral (c : Char) : Bool := c.isDigit || Text.isBlank c

/-- The digits at the front, whatever blanks there are between them, and what follows. -/
def numeral (input : List Char) : List Char × List Char :=
  ((input.takeWhile isNumeral).filter Char.isDigit, input.dropWhile isNumeral)

def numeralValue (digits : List Char) : Nat :=
  digits.foldl (fun n c => 10 * n + (c.toNat - '0'.toNat)) 0

/-- Numerator and denominator of a fraction, and what follows; there need not be one. -/
def fraction? : List Char → Option ((Nat × Nat) × List Char)
  | '.' :: rest => do
    let (digits, rest) := numeral rest
    if digits.isEmpty then none
    else return ((numeralValue digits, ← Word.check? (Nat.pow 10 digits.length)), rest)
  | rest => some ((0, 1), rest)

/-- Adds the amounts that `input` lists to `total`; `fuel` bounds their number. -/
def addAmounts? : (fuel : Nat) → (total : Span) → (input : List Char) → Option Span
  | 0, _, _ => none
  | fuel + 1, total, input => do
    let (digits, rest) := numeral input
    if digits.isEmpty then none
    else
      let count ← Word.check? (numeralValue digits)
      let ((numerator, denominator), rest) ← fraction? rest
      let unit ← unit? (String.ofList (rest.takeWhile isUnitLetter))
      let total ← (← unit.times? count).addTo? total
      let total ← if denominator = 1 then some total
        else (← unit.part? numerator denominator).addTo? total
      let rest := rest.dropWhile isUnitLetter
      if (rest.dropWhile Text.isBlank).isEmpty then return total
      else addAmounts? fuel total rest

/-- Reads at least one amount; a zero needs no unit. -/
def ofText? (text : String) : Option Span :=
  if text == "0" then some 0 else addAmounts? (text.length + 1) 0 text.toList

/-! ### Writing -/

/-- The amounts that a span is written as, each below the next larger unit. -/
def parts (span : Span) : List (Nat × String) :=
  let whole := span / 1000000000
  let rest := span % 1000000000
  let days := whole % 31557600 % 2630016
  let plural := fun (n : Nat) (unit : String) => (n, if n = 1 then unit else unit ++ "s")
  [plural (whole / 31557600) "year", plural (whole % 31557600 / 2630016) "month",
   plural (days / 86400) "day", (days % 86400 / 3600, "h"), (days % 3600 / 60, "m"),
   (days % 60, "s"), (rest / 1000000, "ms"), (rest / 1000 % 1000, "us"), (rest % 1000, "ns")]

/-- Amounts of zero are left out, except that there is always one amount. -/
def text (span : Span) : String :=
  if span = 0 then "0s"
  else " ".intercalate ((span.parts.filter fun part => part.1 != 0).map fun part =>
    s!"{part.1}{part.2}")

end FileBroker.Span
