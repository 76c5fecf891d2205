/-! Hexadecimal text for numbers and bytes, lower case, and which characters are blank. -/
namespace FileBroker.Text

/-- Lower-case hexadecimal digits without leading zeros; zero has one digit. -/
def hexDigits (n : Nat) : List Char := Nat.toDigits 16 n

/-- At least `width` digits, filled with zeros on the left. -/
def hexPadded (width n : Nat) : List Char :=
  let digits := hexDigits n
  List.replicate (width - digits.length) '0' ++ digits

def hex (n : Nat) : String := String.ofList ('0' :: 'x' :: hexDigits n)

def hexWord (n : Nat) : String := String.ofList ('0' :: 'x' :: hexPadded 8 n)

/-- The value of a hexadecimal digit, in either case. -/
def hexDigit? (c : Char) : Option Nat :=
  if c.isDigit then some (c.toNat - '0'.toNat)
  else if 'a' ≤ c ∧ c ≤ 'f' then some (c.toNat - 'a'.toNat + 10)
  else if 'A' ≤ c ∧ c ≤ 'F' then some (c.toNat - 'A'.toNat + 10)
  else none

/-- The number that hexadecimal digits write. -/
def hexNumber? (digits : List Char) : Option Nat :=
  if digits.isEmpty then none
  else digits.foldlM (fun number c => (hexDigit? c).map (16 * number + ·)) 0

/-- The character with a number, if there is one. -/
def numbered? (number : Nat) : Option Char :=
  if number.isValidChar then some (Char.ofNat number) else none

/-- Text in which only the case of Latin letters is given up. -/
def lower (text : String) : String := text.map Char.toLower

/-- White space of every script. -/
def isBlank (c : Char) : Bool :=
  (0x09 ≤ c.toNat && c.toNat ≤ 0x0D) || (0x2000 ≤ c.toNat && c.toNat ≤ 0x200A)
    || [0x20, 0x85, 0xA0, 0x1680, 0x2028, 0x2029, 0x202F, 0x205F, 0x3000].contains c.toNat

/-- Without the white space at both ends. -/
def trim (text : List Char) : List Char :=
  ((text.dropWhile isBlank).reverse.dropWhile isBlank).reverse

end FileBroker.Text
