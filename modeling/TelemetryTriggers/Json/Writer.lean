import TelemetryTriggers.Text.Hex
import TelemetryTriggers.Decimal.Layout
import TelemetryTriggers.Json.Value

/-!
# Writing JSON

Values are written compactly on one line, or with two blanks of indentation per
level.  Characters beyond ASCII are written as they are.

Main definitions: `Json.compact` and `Json.pretty`.
-/

namespace TelemetryTriggers
namespace Json

/-- Numbers keep a point unless they have an exponent, which they have below
`10 ^ -5` and from `10 ^ 16` on; an exact tie goes to the even digit.  A value
that is no number is written as null. -/
def layout : Decimal.Layout where
  tie := .even
  positional := fun power => decide (-5 ≤ power ∧ power < 16)
  wholeEnd := ".0"
  nan := "null"
  infinity := "null"

def numberText : Number → String
  | .integer n => toString n
  | .real x => if x.isFinite then layout.write x else "null"
  | .outOfRange => "null"

def escape (c : Char) : List Char :=
  if c == '"' then ['\\', '"']
  else if c == '\\' then ['\\', '\\']
  else if c == '\n' then ['\\', 'n']
  else if c == '\t' then ['\\', 't']
  else if c == '\r' then ['\\', 'r']
  else if c.toNat == 8 then ['\\', 'b']
  else if c.toNat == 12 then ['\\', 'f']
  else if c.toNat < 0x20 then
    '\\' :: 'u' :: Text.hexText 4 c.toNat
  else [c]

def quoted (s : String) : String :=
  "\"" ++ String.ofList (s.toList.flatMap escape) ++ "\""

/-- The text of a string value; a string that is no text is written as null. -/
def stringText : Option String → String
  | some s => quoted s
  | none => "null"

mutual

def compact : Json → String
  | .null => "null"
  | .bool b => if b then "true" else "false"
  | .number n => numberText n
  | .string s => stringText s
  | .array items => "[" ++ compactItems true items ++ "]"
  | .object members => "\x7b" ++ compactMembers true members ++ "\x7d"

def compactItems (first : Bool) : List Json → String
  | [] => ""
  | item :: items =>
      (if first then "" else ",") ++ compact item ++ compactItems false items

def compactMembers (first : Bool) : List (Option String × Json) → String
  | [] => ""
  | (name, value) :: members =>
      (if first then "" else ",") ++ stringText name ++ ":" ++ compact value ++
        compactMembers false members

end

def newLine (level : Nat) : String :=
  "\n" ++ String.ofList (List.replicate (2 * level) ' ')

mutual

def indented (level : Nat) : Json → String
  | .null => "null"
  | .bool b => if b then "true" else "false"
  | .number n => numberText n
  | .string s => stringText s
  | .array [] => "[]"
  | .array (item :: items) =>
      "[" ++ newLine (level + 1) ++ indented (level + 1) item ++
        indentedItems (level + 1) items ++ newLine level ++ "]"
  | .object [] => "\x7b\x7d"
  | .object ((name, value) :: members) =>
      "\x7b" ++ newLine (level + 1) ++ stringText name ++ ": " ++
        indented (level + 1) value ++ indentedMembers (level + 1) members ++
        newLine level ++ "\x7d"

def indentedItems (level : Nat) : List Json → String
  | [] => ""
  | item :: items =>
      "," ++ newLine level ++ indented level item ++ indentedItems level items

def indentedMembers (level : Nat) : List (Option String × Json) → String
  | [] => ""
  | (name, value) :: members =>
      "," ++ newLine level ++ stringText name ++ ": " ++ indented level value ++
        indentedMembers level members

end

def pretty (value : Json) : String :=
  indented 0 value ++ "\n"

end Json
end TelemetryTriggers
