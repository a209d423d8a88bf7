import TelemetryTriggers.Json.Value

/-!
# JSON number literals

A whole number that fits a 64-bit word is kept as it is.  Any other literal is
the integer of its leading digits, as many as fit an unsigned 64-bit word, taken
as a double and then multiplied or divided by a power of ten.  So a literal of
up to fifteen digits and a small exponent is read exactly, and one with more
digits may miss the nearest double by a unit in the last place.

Main definitions: `Literal`, the parts of a literal; `Literal.number`, its value.
-/

namespace TelemetryTriggers

structure Literal where
  negative : Bool
  whole : List Char
  fraction : Option (List Char)
  exponent : Option (Bool × List Char)

namespace Literal

def maxWord : Nat :=
  0xffffffffffffffff

/-- Appends digits to a number as long as it fits a word.  Returns the number and
how many digits were taken. -/
def appendDigits (n : Nat) : List Char → Nat × Nat
  | [] => (n, 0)
  | c :: cs =>
      let next := 10 * n + (c.toNat - '0'.toNat)
      if maxWord < next then
        (n, 0)
      else
        let (m, taken) := appendDigits next cs
        (m, taken + 1)

/-- The double `x * 10 ^ e`, in one multiplication or division where the power
is a double itself, in several divisions where it is too small.  There is none
if the result is infinite. -/
def scale (x : Float) (e : Int) : Option Float :=
  if e.natAbs ≤ 308 then
    let power := Decimal.nearest 1 e.natAbs
    if 0 ≤ e then
      let y := x * power
      if y.isInf then none else some y
    else
      some (x / power)
  else if x == 0 then some x
  else if 0 ≤ e then none
  else scale (x / Decimal.nearest 1 308) (e + 308)
termination_by e.natAbs
decreasing_by omega

def signed (negative : Bool) (x : Float) : Number :=
  .real (if negative then -x else x)

def scaled (negative : Bool) (n : Nat) (e : Int) : Number :=
  match scale (Float.ofNat n) e with
  | some x => signed negative x
  | none => .outOfRange

def maxExponent : Nat :=
  0x7fffffff

/-- The value of leading digits, a power of ten and a written exponent.  An
exponent too large to be read makes the number zero or puts it out of range. -/
def withExponent (negative : Bool) (n : Nat) (e : Int) :
    Option (Bool × List Char) → Number
  | none => scaled negative n e
  | some (down, ds) =>
      let power := Decimal.digitsValue ds
      if maxExponent < power then
        if n ≠ 0 ∧ down = false then .outOfRange else signed negative 0
      else
        scaled negative n (if down then e - power else e + power)

def number (l : Literal) : Number :=
  let (n, taken) := appendDigits 0 l.whole
  let dropped := l.whole.length - taken
  match l.fraction, l.exponent with
  | none, none =>
      if dropped ≠ 0 then scaled l.negative n dropped
      else if l.negative = false then .integer n
      else if n = 0 ∨ 1 <<< 63 < n then signed true (Float.ofNat n)
      else .integer (-(n : Int))
  | none, exponent => withExponent l.negative n dropped exponent
  | some part, exponent =>
      let (m, more) := appendDigits n part
      withExponent l.negative m ((dropped : Int) - more) exponent

end Literal
end TelemetryTriggers
