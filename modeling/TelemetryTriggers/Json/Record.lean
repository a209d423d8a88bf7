import TelemetryTriggers.Json.Value

/-!
# Records in JSON

A record is written as an object with a member per field, or as an array of its
fields in order.  In an object unknown members are passed over, whatever they
hold, and a field must not be named twice; in an array the last fields may be
missing where they have a default, and nothing may follow the last field.

Main definitions: `Record`, the fields found in a value; `Record.of?`; the
readers `word?`, `string?`, `list?`, `map?` and `choice?` of single fields.
-/

namespace TelemetryTriggers

/-- The fields that were found in a value, and whether they were found by name. -/
structure Record where
  byName : Bool
  fields : List (String × Json)

namespace Record

/-- The known fields of an object, in the order of the text.  There are none if a
name is no text or a field is named twice. -/
def ofMembers? (names : List String) :
    List (Option String × Json) → Option (List (String × Json))
  | [] => some []
  | (none, _) :: _ => none
  | (some name, value) :: members => do
      let fields ← ofMembers? names members
      if names.contains name then
        if fields.any fun field => field.1 == name then none
        else some ((name, value) :: fields)
      else
        some fields

def of? (names : List String) : Json → Option Record
  | .object members => (ofMembers? names members).map (⟨true, ·⟩)
  | .array items =>
      if items.length ≤ names.length then some ⟨false, names.zip items⟩ else none
  | _ => none

def find? (r : Record) (name : String) : Option Json :=
  (r.fields.find? fun field => field.1 == name).map (·.2)

def required {α : Type} (r : Record) (name : String) (read : Json → Option α) :
    Option α :=
  (r.find? name).bind read

def withDefault {α : Type} (r : Record) (name : String) (default : α)
    (read : Json → Option α) : Option α :=
  match r.find? name with
  | none => some default
  | some value => read value

def nullable {α : Type} (read : Json → Option α) : Json → Option (Option α)
  | .null => some none
  | value => (read value).map some

/-- A field that may be null; in an object it may also be missing. -/
def optional {α : Type} (r : Record) (name : String) (read : Json → Option α) :
    Option (Option α) :=
  match r.find? name with
  | none => if r.byName then some none else none
  | some value => nullable read value

end Record

namespace Json

def string? : Json → Option String
  | .string s => s
  | _ => none

def word? : Json → Option Nat
  | .number (.integer n) => if 0 ≤ n then some n.toNat else none
  | _ => none

def list? {α : Type} (read : Json → Option α) : Json → Option (List α)
  | .array items => items.mapM read
  | _ => none

/-- An object whose names are free; the last of several equal names counts. -/
def map? {α : Type} (read : Json → Option α) : Json → Option (List (String × α))
  | .object members =>
      members.foldlM (fun map (name, value) => do
        let name ← name
        let value ← read value
        some (map.filter (fun member => member.1 != name) ++ [(name, value)])) []
  | _ => none

/-- One of several words: the word itself, or an object with the word as its only
name and null as its value.  In a value that was kept before it is read, an empty
object may stand for the null. -/
def choice? {α : Type} (kept : Bool) (words : List (String × α)) : Json → Option α
  | .string (some s) => words.lookup s
  | .object [(some s, .null)] => words.lookup s
  | .object [(some s, .object [])] => if kept then words.lookup s else none
  | _ => none

end Json
end TelemetryTriggers
