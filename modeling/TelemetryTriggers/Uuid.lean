import TelemetryTriggers.Text.Hex
import TelemetryTriggers.Text.Pattern

/-!
# Universally unique identifiers

An identifier is a number of 128 bits.  It is written as 32 small hexadecimal
digits, with hyphens or without, and read in four spellings: both of these, with
digits of either case, and the hyphenated one in braces or after `urn:uuid:`.

Main definitions: `Uuid`; `Uuid.simple` and `Uuid.hyphenated`, the written forms;
`Uuid.parse?`, the reader; `IdSource`, where fresh identifiers come from.
-/

namespace TelemetryTriggers

structure Uuid where
  value : Fin 0x100000000000000000000000000000000
deriving DecidableEq

namespace Uuid

/-- The identifier of a number, of which the low 128 bits count. -/
def ofNat (n : Nat) : Uuid :=
  ⟨Fin.ofNat _ n⟩

def digits (u : Uuid) : List Char :=
  Text.hexText 32 u.value.val

def groups : List Nat :=
  [8, 4, 4, 4, 12]

/-- Cuts a text into groups of the given sizes and puts a hyphen between them.
The last group takes the rest. -/
def hyphenate : List Nat → List Char → List Char
  | n :: m :: ns, cs => cs.take n ++ '-' :: hyphenate (m :: ns) (cs.drop n)
  | _, cs => cs

def unhyphenate? : List Nat → List Char → Option (List Char)
  | n :: m :: ns, cs =>
      match cs.drop n with
      | '-' :: rest => (unhyphenate? (m :: ns) rest).map (cs.take n ++ ·)
      | _ => none
  | [n], cs => if cs.length = n then some cs else none
  | [], _ => none

def simple (u : Uuid) : String :=
  String.ofList u.digits

def hyphenated (u : Uuid) : String :=
  String.ofList (hyphenate groups u.digits)

def simple? (cs : List Char) : Option Uuid :=
  if cs.length = 32 then (Text.hexRead? cs).map ofNat else none

def hyphenated? (cs : List Char) : Option Uuid :=
  (unhyphenate? groups cs).bind simple?

def braced? : List Char → Option Uuid
  | '{' :: cs =>
      match cs.drop 36 with
      | ['}'] => hyphenated? (cs.take 36)
      | _ => none
  | _ => none

def urnStart : List Char :=
  ['u', 'r', 'n', ':', 'u', 'u', 'i', 'd', ':']

/-- Reads the uniform resource name, whose first nine characters may be of either
case. -/
def urn? (cs : List Char) : Option Uuid :=
  if (cs.take 9).map Char.toLower = urnStart then hyphenated? (cs.drop 9) else none

def parseChars? (cs : List Char) : Option Uuid :=
  (simple? cs).orElse fun _ =>
    (hyphenated? cs).orElse fun _ =>
      (braced? cs).orElse fun _ => urn? cs

def parse? (s : String) : Option Uuid :=
  parseChars? s.toList

theorem length_digits (u : Uuid) : u.digits.length = 32 :=
  Text.length_hexText 32 _

theorem simple?_digits (u : Uuid) : simple? u.digits = some u := by
  have hlt : u.value.val < Nat.pow 16 32 := u.value.isLt
  rw [simple?, if_pos u.length_digits, digits, Text.hexRead?_hexText]
  simp only [Option.map_some, ofNat, Nat.mod_eq_of_lt hlt]
  congr 2
  exact Fin.ext (Nat.mod_eq_of_lt u.value.isLt)

end Uuid

/-!
# Fresh identifiers
-/

structure IdSource where
  sequence : Nat → Uuid
  drawn : Nat

namespace IdSource

def next (source : IdSource) : Uuid × IdSource :=
  (source.sequence source.drawn, { source with drawn := source.drawn + 1 })

/-- The number with the marks of a random identifier: version four and the
variant of the standard. -/
def marked (n : Nat) : Nat :=
  let low := n % (1 <<< 62)
  let middle := (n >>> 62) % (1 <<< 12)
  let high := (n >>> 74) % (1 <<< 48)
  (high <<< 80) + (4 <<< 76) + (middle <<< 64) + (2 <<< 62) + low

/-- A source that starts from a random number and goes on in odd steps, so that it
does not repeat itself. -/
def ofSeed (seed step : Nat) : IdSource :=
  ⟨fun k => Uuid.ofNat (marked (seed + k * (2 * step + 1))), 0⟩

end IdSource
end TelemetryTriggers
