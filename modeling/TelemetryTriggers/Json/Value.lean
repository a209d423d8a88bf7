import TelemetryTriggers.Decimal.Numeral

/-!
# JSON values

A JSON text is first read for its form alone.  The value keeps the members of an
object in the order of the text, repeated names included, and keeps apart what a
later reader has to tell apart: integers that fit a 64-bit word, other numbers,
numbers beyond the range of doubles, and strings that name half of a surrogate
pair and so are no text.

Main definitions: `Json`; `Json.sound`, the values that are meaningful throughout
and not nested too deeply; `Json.members?`, an object as a map in which the last
of several equal names counts.
-/

namespace TelemetryTriggers

inductive Number
  /-- A whole number without fraction or exponent, from `-2 ^ 63` to `2 ^ 64 - 1`. -/
  | integer (value : Int)
  /-- Any other number in the range of doubles; also negative zero. -/
  | real (value : Float)
  | outOfRange
deriving DecidableEq

/-- A JSON value.  A string is `none` when an escape in it names half of a
surrogate pair. -/
inductive Json
  | null
  | bool (value : Bool)
  | number (value : Number)
  | string (value : Option String)
  | array (items : List Json)
  | object (members : List (Option String × Json))

def Number.toFloat? : Number → Option Float
  | .integer n => some (Float.ofInt n)
  | .real x => some x
  | .outOfRange => none

namespace Json

def text (s : String) : Json :=
  .string (some s)

def nat (n : Nat) : Json :=
  .number (.integer n)

def float (x : Float) : Json :=
  .number (.real x)

def record (members : List (String × Json)) : Json :=
  .object (members.map fun (name, value) => (some name, value))

/-!
# Soundness

Values that are kept, and not just skipped over, have to be sound: no number is
out of range, every string and name is a text, and at most `levels` arrays and
objects stand one inside the other.
-/

mutual

def sound (levels : Nat) : Json → Bool
  | .null => true
  | .bool _ => true
  | .number n => n.toFloat?.isSome
  | .string s => s.isSome
  | .array items => decide (0 < levels) && soundItems (levels - 1) items
  | .object members => decide (0 < levels) && soundMembers (levels - 1) members

def soundItems (levels : Nat) : List Json → Bool
  | [] => true
  | item :: items => sound levels item && soundItems levels items

def soundMembers (levels : Nat) : List (Option String × Json) → Bool
  | [] => true
  | (name, value) :: members =>
      name.isSome && sound levels value && soundMembers levels members

end

def maxLevels : Nat :=
  127

/-!
# Members
-/

def putMember (map : List (String × Json)) (name : String) (value : Json) :
    List (String × Json) :=
  map.filter (fun member => member.1 != name) ++ [(name, value)]

/-- The members of an object as a map: the last of several equal names counts.
Members whose name is no text are left out. -/
def members? : Json → Option (List (String × Json))
  | .object members =>
      some (members.foldl (fun map member =>
        match member.1 with
        | some name => putMember map name member.2
        | none => map) [])
  | _ => none

def member? (name : String) (value : Json) : Option Json :=
  value.members?.bind fun members =>
    (members.find? fun member => member.1 == name).map (·.2)

def toFloat? : Json → Option Float
  | .number n => n.toFloat?
  | _ => none

end Json
end TelemetryTriggers
