import GormForge.Text.Percent
import GormForge.Text.Digit
import GormForge.Text.Search
import GormForge.Toml.Value

/-!
# TOML scalars without quotes

Booleans, numbers and moments of time.

**Algorithm.**  A scalar is cut off where a character comes that no scalar holds, and then
recognised as a whole.  Digits may be divided by single underscores.
-/

namespace GormForge
namespace Toml

/-! ## Numbers -/

/-- Whether a text is digits of a class, in nonempty groups divided by underscores. -/
def isGrouped (digit : Char → Bool) (cs : List Char) : Bool :=
  (cs.splitOn '_').all fun group => !group.isEmpty && group.all digit

/-- A text without a sign at its front. -/
def withoutSign : List Char → List Char
  | '+' :: rest => rest
  | '-' :: rest => rest
  | cs => cs

/-- Whether a text is a decimal number without a sign and without needless zeros. -/
def isDecimal (cs : List Char) : Bool :=
  isGrouped Char.isDigit cs && (cs == ['0'] || cs.head? != some '0')

/-- The value of a number in a base, its underscores left out. -/
def valueInBase (base : Nat) (cs : List Char) : Nat :=
  cs.foldl (fun acc c =>
    match Text.hexValue? c with
    | some d => acc * base + d
    | none => acc) 0

/-- Whether a character is a digit in a base. -/
def isDigitOf (base : Nat) (c : Char) : Bool :=
  (Text.hexValue? c).any (· < base)

/-- The base that the front of a number names, and the digits after it. -/
def basedDigits? : List Char → Option (Nat × List Char)
  | '0' :: 'x' :: rest => some (16, rest)
  | '0' :: 'o' :: rest => some (8, rest)
  | '0' :: 'b' :: rest => some (2, rest)
  | _ => none

/-- An integer. -/
def integer? (cs : List Char) : Option Int :=
  match basedDigits? cs with
  | some (base, digits) =>
      if isGrouped (isDigitOf base) digits then some (valueInBase base digits) else none
  | none =>
      if isDecimal (withoutSign cs) then
        let size : Int := valueInBase 10 (withoutSign cs)
        some (if cs.head? = some '-' then -size else size)
      else
        none

/-- Whether a text is an exponent without its letter. -/
def isExponent (cs : List Char) : Bool :=
  isGrouped Char.isDigit (withoutSign cs)

/-- Whether a text is a whole number and an optional fraction. -/
def isMantissa (cs : List Char) : Bool × Bool :=
  match Text.splitFirst? ['.'] cs with
  | some (whole, fraction) => (isDecimal whole && isGrouped Char.isDigit fraction, true)
  | none => (isDecimal cs, false)

/-- Whether a text is a number with a fraction or an exponent. -/
def isFloat (cs : List Char) : Bool :=
  let body := withoutSign cs
  if body = "inf".toList || body = "nan".toList then
    true
  else
    let mantissa := body.takeWhile fun c => c != 'e' && c != 'E'
    match body.drop mantissa.length with
    | [] => isMantissa mantissa == (true, true)
    | _ :: exponent => (isMantissa mantissa).1 && isExponent exponent

/-! ## Moments of time -/

/-- The number written by exactly `n` digits at the front. -/
def fixedDigits? (n : Nat) (cs : List Char) : Option (Nat × List Char) :=
  if (cs.take n).length = n then
    (Text.natOfAscii? (cs.take n)).map fun value => (value, cs.drop n)
  else
    none

/-- The number of days of a month. -/
def daysInMonth (year month : Nat) : Nat :=
  if month = 2 then
    if year % 4 = 0 ∧ (year % 100 ≠ 0 ∨ year % 400 = 0) then 29 else 28
  else if [4, 6, 9, 11].contains month then 30
  else 31

/-- What follows a date at the front. -/
def afterDate? (cs : List Char) : Option (List Char) := do
  let (year, cs) ← fixedDigits? 4 cs
  let (month, cs) ← fixedDigits? 2 (← Text.afterPrefix? ['-'] cs)
  let (day, cs) ← fixedDigits? 2 (← Text.afterPrefix? ['-'] cs)
  if 1 ≤ month ∧ month ≤ 12 ∧ 1 ≤ day ∧ day ≤ daysInMonth year month then some cs else none

/-- What follows hours and minutes at the front. -/
def afterClock? (cs : List Char) : Option (List Char) := do
  let (hour, cs) ← fixedDigits? 2 cs
  let (minute, cs) ← fixedDigits? 2 (← Text.afterPrefix? [':'] cs)
  if hour < 24 ∧ minute < 60 then some cs else none

/-- What follows the fraction of a second at the front, if there is one. -/
def afterFraction? (cs : List Char) : Option (List Char) :=
  match cs with
  | '.' :: rest =>
      if rest.head?.any Char.isDigit then some (rest.dropWhile Char.isDigit) else none
  | _ => some cs

/-- What follows a time of day at the front; seconds may be left out. -/
def afterTime? (cs : List Char) : Option (List Char) := do
  let cs ← afterClock? cs
  match cs with
  | ':' :: rest =>
      let (second, cs) ← fixedDigits? 2 rest
      if second ≤ 60 then afterFraction? cs else none
  | _ => some cs

/-- Whether a text is empty or an offset from universal time. -/
def isOffset : List Char → Bool
  | [] => true
  | ['Z'] => true
  | ['z'] => true
  | '+' :: rest => afterClock? rest == some []
  | '-' :: rest => afterClock? rest == some []
  | _ => false

/-- Whether a text is a date. -/
def isDate (cs : List Char) : Bool :=
  afterDate? cs == some []

/-- Whether a text is a time of day with an optional offset. -/
def isTimeWithOffset (cs : List Char) : Bool :=
  (afterTime? cs).any isOffset

/-- Whether a text is a moment of time: a date, a time of day, or both. -/
def isMoment (cs : List Char) : Bool :=
  isDate cs || afterTime? cs == some [] ||
    match afterDate? cs with
    | some (c :: rest) => ['T', 't', ' '].contains c && isTimeWithOffset rest
    | _ => false

/-! ## Scalars -/

/-- A character of a scalar. -/
def isScalarChar (c : Char) : Bool :=
  c.isAlphanum || ['_', '+', '-', '.', ':'].contains c

/-- The scalar at the front and what follows it; a time of day after a date and one blank
belongs to the date. -/
def cutScalar (cs : List Char) : List Char × List Char :=
  let word := cs.takeWhile isScalarChar
  let rest := cs.dropWhile isScalarChar
  match rest with
  | ' ' :: next =>
      if isDate word && next.head?.any Char.isDigit then
        (word ++ ' ' :: next.takeWhile isScalarChar, next.dropWhile isScalarChar)
      else
        (word, rest)
  | _ => (word, rest)

/-- The value of a scalar. -/
def scalar? (cs : List Char) : Option Value :=
  if cs = "true".toList then some (.boolean true)
  else if cs = "false".toList then some (.boolean false)
  else if isMoment cs then some (.moment (String.ofList cs))
  else if isFloat cs then some (.float (String.ofList cs))
  else (integer? cs).map .integer

end Toml
end GormForge
