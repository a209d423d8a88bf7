import TelemetryTriggers.Decimal.Shortest

/-!
# Layout of decimal numbers

A layout is everything a number format decides beyond the digits: up to where
the point is written in place, whether whole numbers keep a point, how an
exponent looks, and what stands for values that are no numbers.

Main definitions: `Layout`; `Layout.write`, the text of a double; `plain`, the
layout of messages, tables and predicates.
-/

namespace TelemetryTriggers
namespace Decimal

structure Layout where
  tie : Tie
  /-- Whether a number with this power of ten of its leading digit is written
  without an exponent. -/
  positional : Int → Bool
  wholeEnd : String
  nan : String
  /-- The text for infinity, after a minus sign if it is negative. -/
  infinity : String

def zeros (n : Nat) : String :=
  String.ofList (List.replicate n '0')

namespace Layout

def positionalText (l : Layout) (d : Digits) : String :=
  let cs := Nat.toDigits 10 d.digits
  let point := d.exponent + cs.length
  if point ≤ 0 then
    "0." ++ zeros (-point).toNat ++ String.ofList cs
  else if point < cs.length then
    String.ofList (cs.take point.toNat) ++ "." ++ String.ofList (cs.drop point.toNat)
  else
    String.ofList cs ++ zeros d.exponent.toNat ++ l.wholeEnd

def exponentText (d : Digits) : String :=
  let cs := Nat.toDigits 10 d.digits
  let power := d.exponent + cs.length - 1
  let tail := if cs.length ≤ 1 then "" else "." ++ String.ofList (cs.drop 1)
  let mark := if power < 0 then "e-" else "e+"
  String.ofList (cs.take 1) ++ tail ++ mark ++ toString power.natAbs

def magnitude (l : Layout) (d : Digits) : String :=
  let power := d.exponent + (Nat.toDigits 10 d.digits).length - 1
  if d.digits = 0 then "0" ++ l.wholeEnd
  else if l.positional power then l.positionalText d
  else exponentText d

def write (l : Layout) (x : Float) : String :=
  let sign := if isNegative x then "-" else ""
  if x.isNaN then l.nan
  else if x.isInf then sign ++ l.infinity
  else if x == 0 then sign ++ l.magnitude ⟨0, 0⟩
  else sign ++ l.magnitude (shortest l.tie x)

end Layout

/-- Numbers in messages, tables and predicates never have an exponent, whole
numbers have no point, and an exact tie goes to the larger decimal. -/
def plain : Layout where
  tie := .up
  positional := fun _ => true
  wholeEnd := ""
  nan := "NaN"
  infinity := "inf"

def text (x : Float) : String :=
  plain.write x

theorem text_of_isFinite {x : Float} (h : x.isFinite = true) :
    text x = (if isNegative x then "-" else "") ++
      plain.magnitude (if x == 0 then ⟨0, 0⟩ else shortest .up x) := by
  have hkind : x.isNaN = false ∧ x.isInf = false := by
    have hfinite : x.toModel.unpack.isFinite = true := h
    show x.toModel.unpack.isNaN = false ∧ x.toModel.unpack.isInf = false
    cases hunpacked : x.toModel.unpack with
    | notANumber | infinity =>
        rw [hunpacked] at hfinite
        cases hfinite
    | zero | finite => exact ⟨rfl, rfl⟩
  rw [text, Layout.write, hkind.1, hkind.2]
  cases x == 0 with
  | true | false => rfl

end Decimal
end TelemetryTriggers
