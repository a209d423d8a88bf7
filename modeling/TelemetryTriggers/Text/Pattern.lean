import TelemetryTriggers.Text.Blank

/-!
# Patterns of names

The small patterns that names, property keys and numbers are held to, stated on
the characters of a text.

Main definitions: `isWordChar` and `isWordStart`, the character classes;
`consistsOf` and `startsThen`, the patterns; `stripStart`, what is left of a text
after a given beginning.
-/

namespace TelemetryTriggers
namespace Text

def isWordChar (c : Char) : Bool :=
  c.isAlphanum || c == '_'

def isWordStart (c : Char) : Bool :=
  c.isAlpha || c == '_'

/-- All characters of the text are in the class and there are between `least`
and `most` of them. -/
def consistsOf (cls : Char → Bool) (least most : Nat) (cs : List Char) : Bool :=
  cs.all cls && decide (least ≤ cs.length) && decide (cs.length ≤ most)

def startsThen (first rest : Char → Bool) : List Char → Bool
  | [] => false
  | c :: cs => first c && cs.all rest

def stripStart : List Char → List Char → Option (List Char)
  | [], cs => some cs
  | _ :: _, [] => none
  | p :: ps, c :: cs => if p = c then stripStart ps cs else none

theorem stripStart_append (start rest : List Char) :
    stripStart start (start ++ rest) = some rest := by
  induction start with
  | nil => rfl
  | cons p ps ih => simp [stripStart, ih]

theorem eq_append_of_stripStart {start cs rest : List Char}
    (h : stripStart start cs = some rest) : cs = start ++ rest := by
  induction start generalizing cs with
  | nil => simpa [stripStart] using h
  | cons p ps ih =>
      cases cs with
      | nil => simp [stripStart] at h
      | cons c cs =>
          by_cases hpc : p = c
          · subst hpc
            simp [stripStart] at h
            simp [ih h]
          · simp [stripStart, hpc] at h

def lowerAscii (s : String) : String :=
  String.ofList (s.toList.map Char.toLower)

end Text
end TelemetryTriggers
