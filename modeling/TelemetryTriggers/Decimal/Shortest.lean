/-!
# Shortest decimal digits of a double

A finite double stands for all real numbers that round to it.  Its shortest
digits are the decimal of fewest digits among those numbers, and of several
such decimals the one nearest to the double itself.

The search is exact: a double is `m * 2 ^ q`, the numbers that round to it form
an interval around it, and a decimal of the grid `10 ^ k` lies in that interval
exactly when one of the two grid points next to the double does.  So the grids
are tried from coarse to fine and the first one with a hit wins.

Main definitions: `Binary`, the two integers of a double; `Digits`, a decimal;
`shortest`, the search.
-/

namespace TelemetryTriggers
namespace Decimal

/-- The magnitude `significand * 2 ^ exponent` of a double.  Just above a power
of two the doubles below are twice as dense as those above. -/
structure Binary where
  significand : Nat
  exponent : Int
  denseBelow : Bool
deriving DecidableEq

structure Digits where
  digits : Nat
  exponent : Int
deriving DecidableEq

inductive Tie
  | up
  | even
deriving DecidableEq

/-- The sign bit of a double, which zeros have too. -/
def isNegative (x : Float) : Bool :=
  x.toBits >>> 63 == 1

def Binary.ofFloat (x : Float) : Binary :=
  let bits : Nat := x.toBits.toNat
  let fraction : Nat := bits % (1 <<< 52)
  let field : Nat := (bits >>> 52) % (1 <<< 11)
  if field = 0 then
    ⟨fraction, -1074, false⟩
  else
    ⟨(1 <<< 52) + fraction, (field : Int) - 1075, fraction = 0 && 1 < field⟩

def digitCount (n : Nat) : Nat :=
  if n = 0 then 0 else (Nat.toDigits 10 n).length

/-!
# Points of a decimal grid

The end points of the interval are quarters of a unit in the last place, so
everything is compared in the unit `2 ^ (exponent - 2)`.  `coarse` and `fine`
are the two factors that bring a point of the grid `10 ^ k` and a multiple of
that unit to one scale.
-/

namespace Binary

def coarse (b : Binary) (k : Int) : Nat :=
  Nat.pow 10 k.toNat <<< (2 - b.exponent).toNat

def fine (b : Binary) (k : Int) : Nat :=
  Nat.pow 10 (-k).toNat <<< (b.exponent - 2).toNat

def low (b : Binary) : Nat :=
  4 * b.significand - (if b.denseBelow then 1 else 2)

def high (b : Binary) : Nat :=
  4 * b.significand + 2

/-- The decimal `d * 10 ^ k` rounds to the double.  The end points do so exactly
when the significand is even. -/
def admits (b : Binary) (k : Int) (d : Nat) : Bool :=
  let point := d * b.coarse k
  if b.significand % 2 = 0 then
    decide (b.low * b.fine k ≤ point) && decide (point ≤ b.high * b.fine k)
  else
    decide (b.low * b.fine k < point) && decide (point < b.high * b.fine k)

def below (b : Binary) (k : Int) : Nat :=
  4 * b.significand * b.fine k / b.coarse k

/-- The point of the grid `10 ^ k` that rounds to the double and is nearest to
it, if there is one. -/
def nearest? (tie : Tie) (b : Binary) (k : Int) : Option Nat :=
  let d := b.below k
  match b.admits k d, b.admits k (d + 1) with
  | false, false => none
  | true, false => some d
  | false, true => some (d + 1)
  | true, true =>
      let twice := 8 * b.significand * b.fine k
      let middle := (2 * d + 1) * b.coarse k
      if twice < middle then some d
      else if middle < twice then some (d + 1)
      else match tie with
        | .up => some (d + 1)
        | .even => if d % 2 = 0 then some d else some (d + 1)

def leading (b : Binary) : Int :=
  let num := b.significand <<< b.exponent.toNat
  let den := 1 <<< (-b.exponent).toNat
  if den ≤ num then
    (digitCount (num / den) : Int) - 1
  else
    -(digitCount ((den - 1) / num) : Int)

/-- Tries `n` grids from `10 ^ k` downwards; what is left after them is the grid
point below the double. -/
def search (tie : Tie) (b : Binary) : Nat → Int → Digits
  | 0, k => ⟨b.below k, k⟩
  | n + 1, k =>
      match b.nearest? tie k with
      | some d => ⟨d, k⟩
      | none => search tie b n (k - 1)

end Binary

def Digits.stripZeros (d : Digits) : Digits :=
  if h : d.digits ≠ 0 ∧ d.digits % 10 = 0 then
    Digits.stripZeros ⟨d.digits / 10, d.exponent + 1⟩
  else
    d
termination_by d.digits
decreasing_by omega

/-- The shortest digits of a finite double that is not zero.  Seventeen digits
always suffice. -/
def shortest (tie : Tie) (x : Float) : Digits :=
  let b := Binary.ofFloat x
  (b.search tie 17 b.leading).stripZeros

end Decimal
end TelemetryTriggers
