import TelemetryTriggers.Decimal.Shortest

/-!
# Reading decimal numerals

A numeral is an optional sign, digits with an optional point among or around
them, and an optional exponent; the words for infinity and not-a-number are read
in any letter case.  The value is the double nearest to the decimal.

Main definitions: `Numeral`, a sign and a decimal; `nearest`, correct rounding;
`Numeral.parse?`, the grammar; `parseFloat?`, both together.
-/

namespace TelemetryTriggers
namespace Decimal

def infinity : Float :=
  Float.ofBits 0x7ff0000000000000

def notANumber : Float :=
  Float.ofBits 0x7ff8000000000000

def digitsValue (cs : List Char) : Nat :=
  cs.foldl (fun n c => 10 * n + (c.toNat - '0'.toNat)) 0

/-- The double nearest to `m * 10 ^ e`, ties to even.  Beyond 310 digits before
the point it is infinite and beyond 330 zeros after it is zero, whatever the
digits are. -/
def nearest (m : Nat) (e : Int) : Float :=
  let size := (digitCount m : Int) + e
  if m = 0 then 0
  else if 310 < size then infinity
  else if size < -330 then 0
  else Float.ofScientific m (decide (e < 0)) e.natAbs

structure Numeral where
  negative : Bool
  digits : Nat
  exponent : Int

namespace Numeral

/-- The double nearest to a numeral; a negative zero stays negative. -/
def toFloat (n : Numeral) : Float :=
  let x := nearest n.digits n.exponent
  if n.negative then -x else x

def takeSign : List Char → Bool × List Char
  | '+' :: cs => (false, cs)
  | '-' :: cs => (true, cs)
  | cs => (false, cs)

def exponent? : List Char → Option Int
  | [] => some 0
  | c :: cs =>
      let (negative, ds) := takeSign cs
      if (c == 'e' || c == 'E') && !ds.isEmpty && ds.all Char.isDigit then
        some (if negative then -(digitsValue ds : Int) else digitsValue ds)
      else
        none

/-- Digits, at least one in all, around an optional point, then an exponent. -/
def unsigned? (negative : Bool) (cs : List Char) : Option Numeral :=
  let whole := cs.takeWhile Char.isDigit
  let rest := cs.dropWhile Char.isDigit
  let (part, tail) := match rest with
    | '.' :: more => (more.takeWhile Char.isDigit, more.dropWhile Char.isDigit)
    | _ => ([], rest)
  if whole.isEmpty && part.isEmpty then
    none
  else
    (exponent? tail).map fun e =>
      ⟨negative, digitsValue (whole ++ part), e - part.length⟩

def parse? (cs : List Char) : Option Numeral :=
  let (negative, rest) := takeSign cs
  unsigned? negative rest

end Numeral

def parseFloat? (s : String) : Option Float :=
  let (negative, rest) := Numeral.takeSign s.toList
  let signed (x : Float) : Float := if negative then -x else x
  let word := String.ofList (rest.map Char.toLower)
  if word == "inf" || word == "infinity" then some (signed infinity)
  else if word == "nan" then some notANumber
  else (Numeral.unsigned? negative rest).map Numeral.toFloat

end Decimal
end TelemetryTriggers
