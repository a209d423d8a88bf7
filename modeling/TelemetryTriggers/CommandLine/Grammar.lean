import TelemetryTriggers.Text.Pattern

/-!
# The grammar of command lines

A command has options that take a value, switches that take none, and values that
go by their place.  An option is written `--name value`, `--name=value`, or with a
letter `-n value`, `-nvalue` and `-n=value`.  Everything after `--` goes by its
place.  Options end at the name of a subcommand, unless an option waits for its
value.

A value is checked when the next option, switch or place is met, or at the end.
So a request for help is only granted when all values before it are good.

Main definitions: `Grammar`; `Grammar.scan`, which reads the words of a command up
to its subcommand; `Halt`, why a command line leads to no command.
-/

namespace TelemetryTriggers
namespace CommandLine

inductive Halt
  | help
  | usage
deriving DecidableEq

structure Slot where
  name : String
  letter : Option Char
  negative : Bool
  accepts : String → Bool

structure Grammar where
  options : List Slot
  switches : List String
  places : List Slot
  subcommands : List String
  hasVersion : Bool

structure Reading where
  values : List (String × String)
  switches : List String
  /-- The value that is not yet checked, or the option that waits for one. -/
  pending : Option (Slot × Option String)
  places : List Slot

namespace Reading

def value? (r : Reading) (name : String) : Option String :=
  r.values.lookup name

def put (r : Reading) (slot : Slot) (value : String) : Except Halt Reading :=
  if slot.accepts value && (r.value? slot.name).isNone then
    .ok { r with values := (slot.name, value) :: r.values }
  else
    .error .usage

def settle (r : Reading) : Except Halt Reading :=
  match r.pending with
  | none => .ok r
  | some (_, none) => .error .usage
  | some (slot, some value) => { r with pending := none }.put slot value

def waiting? (r : Reading) : Option Slot :=
  match r.pending with
  | some (slot, none) => some slot
  | _ => none

def supply (r : Reading) (slot : Slot) (value : String) : Reading :=
  { r with pending := some (slot, some value) }

def meetOption (r : Reading) (slot : Slot) (attached : Option String) :
    Except Halt Reading := do
  let r ← r.settle
  match attached with
  | some value => r.put slot value
  | none => .ok { r with pending := some (slot, none) }

def meetSwitch (r : Reading) (name : String) : Except Halt Reading := do
  let r ← r.settle
  if r.switches.contains name then .error .usage
  else .ok { r with switches := name :: r.switches }

def meetHelp (r : Reading) : Except Halt Reading := do
  let _ ← r.settle
  .error .help

def meetPlace (r : Reading) (value : String) : Except Halt Reading := do
  match r.places with
  | [] => .error .usage
  | slot :: places =>
      let r ← r.settle
      .ok { r with pending := some (slot, some value), places }

end Reading

/-!
# Words
-/

inductive Word
  | rest
  | long (name : String) (attached : Option String)
  | short (letter : Char) (tail : List Char)
  | plain
deriving DecidableEq

def splitLong (cs : List Char) : Word :=
  let name := String.ofList (cs.takeWhile (· != '='))
  match cs.dropWhile (· != '=') with
  | [] => .long name none
  | _ :: value => .long name (some (String.ofList value))

def Word.ofChars : List Char → Word
  | ['-', '-'] => .rest
  | '-' :: '-' :: cs => splitLong cs
  | '-' :: c :: cs => .short c cs
  | _ => .plain

def attachedValue : List Char → Option String
  | [] => none
  | '=' :: cs => some (String.ofList cs)
  | cs => some (String.ofList cs)

/-- Digits with at most one point, which is not the first character, and then at
most one exponent mark, which is neither the first character nor the last. -/
def isUnsignedNumber (cs : List Char) : Bool :=
  let mantissa := cs.takeWhile fun c => c.isDigit || c == '.'
  (mantissa.all Char.isDigit || mantissa.count '.' == 1) && mantissa.head? != some '.' &&
    match cs.dropWhile fun c => c.isDigit || c == '.' with
    | [] => true
    | e :: digits =>
        (e == 'e' || e == 'E') && !mantissa.isEmpty && !digits.isEmpty &&
          digits.all Char.isDigit

/-!
# Reading words
-/

namespace Grammar

def start (g : Grammar) : Reading :=
  ⟨[], [], none, g.places⟩

def meetLong (g : Grammar) (r : Reading) (name : String) (attached : Option String) :
    Except Halt Reading :=
  match g.options.find? (·.name == name) with
  | some slot => r.meetOption slot attached
  | none =>
      if attached.isSome then .error .usage
      else if g.switches.contains name then r.meetSwitch name
      else if name = "help" ∨ (g.hasVersion ∧ name = "version") then r.meetHelp
      else .error .usage

def meetShort (g : Grammar) (r : Reading) (letter : Char) (tail : List Char) :
    Except Halt Reading :=
  match g.options.find? (·.letter == some letter) with
  | some slot => r.meetOption slot (attachedValue tail)
  | none =>
      if letter = 'h' ∨ (g.hasVersion ∧ letter = 'V') then r.meetHelp
      else .error .usage

def meetPlain (r : Reading) (word : String) : Except Halt Reading :=
  match r.waiting? with
  | some slot => .ok (r.supply slot word)
  | none => r.meetPlace word

def meet (g : Grammar) (r : Reading) (word : String) : Except Halt Reading :=
  match Word.ofChars word.toList with
  | .rest => .error .usage
  | .long name attached => g.meetLong r name attached
  | .short letter tail =>
      match r.waiting? with
      | some slot =>
          if slot.negative && isUnsignedNumber (letter :: tail) then
            .ok (r.supply slot word)
          else
            g.meetShort r letter tail
      | none => g.meetShort r letter tail
  | .plain => meetPlain r word

def scanPlaces (r : Reading) : List String → Except Halt Reading
  | [] => .ok r
  | word :: words => do
      let r ← r.meetPlace word
      scanPlaces r words

/-- Reads words up to a subcommand.  Returns the subcommand with the words after
it. -/
def scan (g : Grammar) (r : Reading) :
    List String → Except Halt (Reading × Option (String × List String))
  | [] => .ok (r, none)
  | word :: words =>
      if r.waiting?.isNone && g.subcommands.contains word then
        .ok (r, some (word, words))
      else if word = "--" then do
        let r ← scanPlaces r words
        .ok (r, none)
      else do
        let r ← g.meet r word
        g.scan r words

def readAll (g : Grammar) (words : List String) : Except Halt Reading := do
  let (r, _) ← g.scan g.start words
  r.settle

end Grammar
end CommandLine
end TelemetryTriggers
