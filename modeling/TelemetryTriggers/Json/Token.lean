import TelemetryTriggers.Text.Hex
import TelemetryTriggers.Json.Literal

/-!
# JSON tokens

A JSON text is a row of tokens with blanks between them.  Each reader below takes
one lexeme from the front of the text; the text that follows it is shorter, so
the scan ends.

Main definitions: `Token`; `Token.scan`, the tokens of a text.
-/

namespace TelemetryTriggers

inductive Token
  | openArray
  | closeArray
  | openObject
  | closeObject
  | comma
  | colon
  | string (value : Option String)
  | scalar (value : Json)

namespace Token

/-!
# Strings

A string is read in two passes: into pieces, which are characters or the 16-bit
units that escapes name, and from these into characters.
-/

inductive Piece
  | char (c : Char)
  | unit (u : Nat)

def escaped? : Char → Option Char
  | '"' => some '"'
  | '\\' => some '\\'
  | '/' => some '/'
  | 'b' => some '\x08'
  | 'f' => some '\x0c'
  | 'n' => some '\n'
  | 'r' => some '\r'
  | 't' => some '\t'
  | _ => none

/-- Reads the pieces of a string from behind its opening quote.  Returns them with
what follows the closing quote. -/
def pieces? : List Char → Option (List Piece × List Char)
  | [] => none
  | '"' :: rest => some ([], rest)
  | '\\' :: 'u' :: a :: b :: c :: d :: rest => do
      let u ← Text.hexRead? [a, b, c, d]
      let (ps, out) ← pieces? rest
      some (.unit u :: ps, out)
  | '\\' :: c :: rest => do
      let x ← escaped? c
      let (ps, out) ← pieces? rest
      some (.char x :: ps, out)
  | c :: rest =>
      if c.toNat < 0x20 || c == '\\' then none
      else do
        let (ps, out) ← pieces? rest
        some (.char c :: ps, out)

def isLeading (u : Nat) : Bool :=
  decide (0xd800 ≤ u ∧ u < 0xdc00)

def isTrailing (u : Nat) : Bool :=
  decide (0xdc00 ≤ u ∧ u < 0xe000)

def joinPair (lead trail : Nat) : Char :=
  Char.ofNat (0x10000 + (lead - 0xd800) * 0x400 + (trail - 0xdc00))

/-- The characters of a string, unless half of a surrogate pair stands alone. -/
def characters? : List Piece → Option (List Char)
  | [] => some []
  | .char c :: ps => (characters? ps).map (c :: ·)
  | .unit u :: .unit v :: ps =>
      if isLeading u then
        if isTrailing v then (characters? ps).map (joinPair u v :: ·) else none
      else if isTrailing u then none
      else (characters? (.unit v :: ps)).map (Char.ofNat u :: ·)
  | .unit u :: ps =>
      if isLeading u || isTrailing u then none
      else (characters? ps).map (Char.ofNat u :: ·)

theorem length_of_pieces? {cs : List Char} {ps : List Piece} {rest : List Char}
    (h : pieces? cs = some (ps, rest)) : rest.length < cs.length := by
  fun_induction pieces? cs generalizing ps rest with
  | case1 => simp at h
  | case2 => simp at h; simp [h.2]
  | case3 a b c d tail ih =>
      simp only [Option.bind_eq_bind, Option.bind_eq_some_iff] at h
      obtain ⟨_, _, ⟨qs, out⟩, hq, h⟩ := h
      simp at h
      have hlt := ih hq
      simp [← h.2]
      omega
  | case4 c tail _ ih =>
      simp only [Option.bind_eq_bind, Option.bind_eq_some_iff] at h
      obtain ⟨_, _, ⟨qs, out⟩, hq, h⟩ := h
      simp at h
      have hlt := ih hq
      simp [← h.2]
      omega
  | case5 => simp at h
  | case6 c tail _ _ _ _ ih =>
      simp only [Option.bind_eq_bind, Option.bind_eq_some_iff] at h
      obtain ⟨⟨qs, out⟩, hq, h⟩ := h
      simp at h
      have hlt := ih hq
      simp [← h.2]
      omega

/-!
# Numbers
-/

def digits (cs : List Char) : List Char × List Char :=
  (cs.takeWhile Char.isDigit, cs.dropWhile Char.isDigit)

/-- The digits before the point: a single zero, or digits that start with
another one. -/
def whole? (cs : List Char) : Option (List Char × List Char) :=
  match digits cs with
  | ([], _) => none
  | ('0' :: _ :: _, _) => none
  | (ds, rest) => some (ds, rest)

def fraction? : List Char → Option (Option (List Char) × List Char)
  | '.' :: cs =>
      match digits cs with
      | ([], _) => none
      | (ds, rest) => some (some ds, rest)
  | cs => some (none, cs)

def exponent? : List Char → Option (Option (Bool × List Char) × List Char)
  | [] => some (none, [])
  | c :: cs =>
      if c == 'e' || c == 'E' then
        let (negative, tail) := Decimal.Numeral.takeSign cs
        match digits tail with
        | ([], _) => none
        | (ds, rest) => some (some (negative, ds), rest)
      else
        some (none, c :: cs)

def literal? (negative : Bool) (cs : List Char) : Option (Literal × List Char) := do
  let (whole, cs) ← whole? cs
  let (fraction, cs) ← fraction? cs
  let (exponent, cs) ← exponent? cs
  some (⟨negative, whole, fraction, exponent⟩, cs)

theorem length_digits_snd (cs : List Char) :
    (digits cs).2.length ≤ cs.length :=
  (List.dropWhile_suffix _).length_le

theorem length_of_whole? {cs ds rest : List Char}
    (h : whole? cs = some (ds, rest)) : rest.length < cs.length := by
  have hsplit : (digits cs).1 ++ (digits cs).2 = cs := List.takeWhile_append_dropWhile
  have hsum := congrArg List.length hsplit
  rw [List.length_append] at hsum
  unfold whole? at h
  split at h <;> rename_i hd
  · simp at h
  · simp at h
  · rename_i front _ hne _
    simp at h
    rw [hd] at hsum
    cases front with
    | nil => exact absurd rfl hne
    | cons d front => grind

theorem length_of_fraction? {cs rest : List Char} {ds : Option (List Char)}
    (h : fraction? cs = some (ds, rest)) : rest.length ≤ cs.length := by
  unfold fraction? at h
  split at h
  · rename_i tail
    have hle := length_digits_snd tail
    grind
  · grind

theorem length_of_exponent? {cs rest : List Char} {e : Option (Bool × List Char)}
    (h : exponent? cs = some (e, rest)) : rest.length ≤ cs.length := by
  unfold exponent? at h
  split at h
  · grind
  · rename_i c tail
    have hsign : (Decimal.Numeral.takeSign tail).2.length ≤ tail.length := by
      unfold Decimal.Numeral.takeSign
      split <;> simp
    have hle := length_digits_snd (Decimal.Numeral.takeSign tail).2
    grind

theorem length_of_literal? {negative : Bool} {cs rest : List Char} {l : Literal}
    (h : literal? negative cs = some (l, rest)) : rest.length < cs.length := by
  simp only [literal?, Option.bind_eq_bind, Option.bind_eq_some_iff] at h
  obtain ⟨⟨w, r⟩, hw, ⟨f, r'⟩, hf, ⟨e, r''⟩, he, h⟩ := h
  have h1 := length_of_whole? hw
  have h2 := length_of_fraction? hf
  have h3 := length_of_exponent? he
  simp at h
  grind

/-!
# Scanning
-/

def isGap (c : Char) : Bool :=
  c == ' ' || c == '\n' || c == '\t' || c == '\r'

def lexeme? : List Char → Option (Token × List Char)
  | [] => none
  | '[' :: cs => some (.openArray, cs)
  | ']' :: cs => some (.closeArray, cs)
  | '{' :: cs => some (.openObject, cs)
  | '}' :: cs => some (.closeObject, cs)
  | ',' :: cs => some (.comma, cs)
  | ':' :: cs => some (.colon, cs)
  | '"' :: cs => do
      let (ps, rest) ← pieces? cs
      some (.string ((characters? ps).map String.ofList), rest)
  | 'n' :: 'u' :: 'l' :: 'l' :: cs => some (.scalar .null, cs)
  | 't' :: 'r' :: 'u' :: 'e' :: cs => some (.scalar (.bool true), cs)
  | 'f' :: 'a' :: 'l' :: 's' :: 'e' :: cs => some (.scalar (.bool false), cs)
  | '-' :: cs => do
      let (l, rest) ← literal? true cs
      some (.scalar (.number l.number), rest)
  | c :: cs => do
      let (l, rest) ← literal? false (c :: cs)
      some (.scalar (.number l.number), rest)

theorem length_of_lexeme? {cs rest : List Char} {token : Token}
    (h : lexeme? cs = some (token, rest)) : rest.length < cs.length := by
  unfold lexeme? at h
  split at h
  case h_8 tail =>
    simp only [Option.bind_eq_bind, Option.bind_eq_some_iff] at h
    obtain ⟨⟨ps, r⟩, hp, h⟩ := h
    have hlt := length_of_pieces? hp
    simp at h
    grind
  case h_12 tail =>
    simp only [Option.bind_eq_bind, Option.bind_eq_some_iff] at h
    obtain ⟨⟨l, r⟩, hl, h⟩ := h
    have hlt := length_of_literal? hl
    simp at h
    grind
  case h_13 =>
    simp only [Option.bind_eq_bind, Option.bind_eq_some_iff] at h
    obtain ⟨⟨l, r⟩, hl, h⟩ := h
    have hlt := length_of_literal? hl
    simp at h
    grind
  all_goals grind

def scan (cs : List Char) : Option (List Token) :=
  match cs with
  | [] => some []
  | c :: tail =>
      if isGap c then scan tail
      else
        match h : lexeme? (c :: tail) with
        | none => none
        | some (token, rest) =>
            have : rest.length < (c :: tail).length := length_of_lexeme? h
            (scan rest).map (token :: ·)
termination_by cs.length
decreasing_by
  · exact Nat.lt_succ_self _
  · exact length_of_lexeme? h

end Token
end TelemetryTriggers
