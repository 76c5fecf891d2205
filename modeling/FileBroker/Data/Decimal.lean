/-!
Decimal text of binary floating-point numbers: reading rounds to nearest, and writing gives the
fewest digits that read back, always positionally.
-/
namespace FileBroker.Data.Decimal

def digitValue (c : Char) : Nat := c.toNat - '0'.toNat

def digitsValue (digits : List Char) : Nat := digits.foldl (fun n c => 10 * n + digitValue c) 0

/-- The nearest number to `digits × 10^exponent`. The exponent is cut off where the answer is
already zero or infinite. -/
def ofDigits (negative : Bool) (digits : Nat) (exponent : Int) : Float :=
  let magnitude :=
    if digits = 0 then 0.0
    else
      let size : Int := (Nat.toDigits 10 digits).length
      if exponent + size > 400 then 1.0 / 0.0
      else if exponent + size < -400 then 0.0
      else if exponent < 0 then Float.ofScientific digits true exponent.natAbs
      else Float.ofScientific digits false exponent.natAbs
  if negative then -magnitude else magnitude

/-- A number times a power of ten, by one rounded multiplication or division for every 308 places,
unless it is too large. Four steps are enough for any number of 64 bits. -/
def scaled? : (steps : Nat) → Float → (power : Int) → Option Float
  | 0, _, _ => none
  | steps + 1, x, power =>
    if power.natAbs ≤ 308 then
      let factor := Float.ofScientific 1 false power.natAbs
      let scaled := if power < 0 then x / factor else x * factor
      if scaled.isInf then none else some scaled
    else if x == 0.0 then some x
    else if 0 ≤ power then none
    else scaled? steps (x / Float.ofScientific 1 false 308) (power + 308)

/-- A positive number as `mantissa × 2^exponent`, with whether the gap below it is half the one
above. -/
structure Binary where
  mantissa : Nat
  exponent : Int
  narrowBelow : Bool

def Binary.ofFloat (x : Float) : Binary :=
  let bits : Nat := x.toBits.toNat
  let fraction : Nat := bits % Nat.pow 2 52
  let power : Nat := bits / Nat.pow 2 52 % Nat.pow 2 11
  if power = 0 then ⟨fraction, -1074, false⟩
  else ⟨Nat.pow 2 52 + fraction, (power : Int) - 1075, fraction = 0 && power > 1⟩

/-- The interval of reals that round to a number, over the common denominator `scale`. -/
structure Interval where
  low : Nat
  value : Nat
  high : Nat
  scale : Nat
  closed : Bool

def Binary.interval (b : Binary) : Interval :=
  let below := if b.narrowBelow then 1 else 2
  let shift := b.exponent - 2
  let up := if shift < 0 then 1 else Nat.pow 2 shift.natAbs
  let down := if shift < 0 then Nat.pow 2 shift.natAbs else 1
  ⟨(4 * b.mantissa - below) * up, 4 * b.mantissa * up, (4 * b.mantissa + 2) * up, down,
    b.mantissa % 2 = 0⟩

def Interval.holds (i : Interval) (numerator denominator : Nat) : Bool :=
  let point := numerator * i.scale
  if i.closed then i.low * denominator ≤ point && point ≤ i.high * denominator
  else i.low * denominator < point && point < i.high * denominator

/-- The point of the grid of step `10^power` nearest to the value, if it lies in the interval. -/
def Interval.onGrid? (i : Interval) (power : Int) : Option Nat :=
  let up := if power < 0 then 1 else Nat.pow 10 power.natAbs
  let down := if power < 0 then Nat.pow 10 power.natAbs else 1
  let lower := i.value * down / (i.scale * up)
  let candidates := [lower, lower + 1].filter fun n => i.holds (n * up) down
  let distance := fun (n : Nat) =>
    ((n * up * i.scale : Int) - (i.value * down : Int)).natAbs
  match candidates with
  | [a, b] => some (if distance b < distance a then b else a)
  | [a] => some a
  | _ => none

/-- Tries ever finer grids until one has a point in the interval. -/
def Interval.shortest (i : Interval) : Nat → Int → Nat × Int
  | 0, power => ((i.onGrid? power).getD 0, power)
  | steps + 1, power =>
    match i.onGrid? power with
    | some n => if n = 0 then i.shortest steps (power - 1) else (n, power)
    | none => i.shortest steps (power - 1)

def trimZeros : Nat → Nat → Int → Nat × Int
  | 0, n, power => (n, power)
  | steps + 1, n, power =>
    if n ≠ 0 && n % 10 = 0 then trimZeros steps (n / 10) (power + 1) else (n, power)

/-- Positional text of `n × 10^power`. -/
def positional (n : Nat) (power : Int) : List Char :=
  let digits := Nat.toDigits 10 n
  if 0 ≤ power then digits ++ List.replicate power.natAbs '0'
  else
    let places := power.natAbs
    let filled := List.replicate (places + 1 - digits.length) '0' ++ digits
    filled.take (filled.length - places) ++ '.' :: filled.drop (filled.length - places)

/-- The fewest digits that read back, without an exponent. -/
def text (x : Float) : String :=
  if x.isNaN then "NaN"
  else
    let negative := x.toBits.toNat / Nat.pow 2 63 = 1
    let size := x.abs
    let body :=
      if size.isInf then "inf".toList
      else if size == 0.0 then ['0']
      else
        let binary := Binary.ofFloat size
        let magnitude := (Nat.toDigits 10 (binary.interval.value / binary.interval.scale)).length
        let (n, power) := binary.interval.shortest 400 magnitude
        let (n, power) := trimZeros 400 n power
        positional n power
    String.ofList (if negative then '-' :: body else body)

/-! ### Text that is a number as a whole -/

/-- A sign, if there is one, and what follows: whether it is a minus. -/
def splitSign : List Char → Bool × List Char
  | '-' :: rest => (true, rest)
  | '+' :: rest => (false, rest)
  | input => (false, input)

def natural? (input : List Char) : Option Nat :=
  if input.isEmpty || input.any fun c => !c.isDigit then none else some (digitsValue input)

/-- Digits after at most one sign. -/
def integer? (input : List Char) : Option Int := do
  let (negative, digits) := splitSign input
  let size : Int := ← natural? digits
  return if negative then -size else size

/-- The power of ten that an exponent adds. -/
def power? : List Char → Option Int
  | [] => some 0
  | 'e' :: rest | 'E' :: rest => integer? rest
  | _ => none

/-- A number with or without a fraction and an exponent; one of whole part and fraction may be
empty. In any case, `inf`, `infinity` and `nan` are numbers too. -/
def real? (input : List Char) : Option Float :=
  let (negative, input) := splitSign input
  let signed := fun (x : Float) => if negative then -x else x
  match String.ofList (input.map Char.toLower) with
  | "inf" | "infinity" => some (signed (1.0 / 0.0))
  | "nan" => some (0.0 / 0.0)
  | _ => do
    let whole := input.takeWhile Char.isDigit
    let rest := input.dropWhile Char.isDigit
    let (places, rest) := match rest with
      | '.' :: tail => (tail.takeWhile Char.isDigit, tail.dropWhile Char.isDigit)
      | _ => ([], rest)
    if whole.isEmpty && places.isEmpty then none
    else
      let power ← power? rest
      return ofDigits negative (digitsValue (whole ++ places)) (power - places.length)

end FileBroker.Data.Decimal
