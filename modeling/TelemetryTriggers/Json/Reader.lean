import TelemetryTriggers.Json.Token

/-!
# Reading JSON

The tokens of a text are read from left to right against a stack of the arrays
and objects that are still open.  The reader accepts any depth of nesting; how
deep a value may be is a question for who keeps it.

Main definitions: `Json.read?`, the value of a text of any depth;
`Json.readSound?`, the value of a text that is kept as a whole.
-/

namespace TelemetryTriggers
namespace Json

/-- An array or object that is still open, with what it holds so far, last first.
An object waits for the value of the name it carries. -/
inductive Frame
  | array (items : List Json)
  | object (members : List (Option String × Json)) (name : Option String)

inductive Expect
  | value (stack : List Frame)
  | firstItem (stack : List Frame)
  | firstName (stack : List Frame)
  | nextName (members : List (Option String × Json)) (stack : List Frame)
  | colon (members : List (Option String × Json)) (name : Option String)
      (stack : List Frame)
  | nextItem (items : List Json) (stack : List Frame)
  | nextMember (members : List (Option String × Json)) (stack : List Frame)
  | nothing (result : Json)

def complete (result : Json) : List Frame → Expect
  | [] => .nothing result
  | .array items :: stack => .nextItem (result :: items) stack
  | .object members name :: stack => .nextMember ((name, result) :: members) stack

def startValue (stack : List Frame) : Token → Option Expect
  | .openArray => some (.firstItem stack)
  | .openObject => some (.firstName stack)
  | .string s => some (complete (.string s) stack)
  | .scalar value => some (complete value stack)
  | _ => none

def Expect.step : Expect → Token → Option Expect
  | .value stack, token => startValue stack token
  | .firstItem stack, .closeArray => some (complete (.array []) stack)
  | .firstItem stack, token => startValue (.array [] :: stack) token
  | .firstName stack, .closeObject => some (complete (.object []) stack)
  | .firstName stack, .string name => some (.colon [] name stack)
  | .nextName members stack, .string name => some (.colon members name stack)
  | .colon members name stack, .colon => some (.value (.object members name :: stack))
  | .nextItem items stack, .comma => some (.value (.array items :: stack))
  | .nextItem items stack, .closeArray => some (complete (.array items.reverse) stack)
  | .nextMember members stack, .comma => some (.nextName members stack)
  | .nextMember members stack, .closeObject =>
      some (complete (.object members.reverse) stack)
  | _, _ => none

def ofTokens? (tokens : List Token) : Option Json :=
  match tokens.foldlM Expect.step (.value []) with
  | some (.nothing result) => some result
  | _ => none

/-- The value of a text, of any depth and with numbers and strings of any kind. -/
def read? (s : String) : Option Json :=
  (Token.scan s.toList).bind ofTokens?

def readSound? (s : String) : Option Json :=
  (read? s).filter (sound maxLevels)

end Json
end TelemetryTriggers
