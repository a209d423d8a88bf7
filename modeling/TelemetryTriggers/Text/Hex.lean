/-!
# Hexadecimal digits

Numbers of a fixed width are written with small hexadecimal digits and read with
digits of either case.

Main definitions: `hexDigit` and `hexValue?`, one digit; `hexText` and `hexRead?`,
a row of them.  The main statement is `hexRead?_hexText`: what is written is read
back.
-/

namespace TelemetryTriggers
namespace Text

def hexDigit (n : Nat) : Char :=
  if n < 10 then Char.ofNat ('0'.toNat + n) else Char.ofNat ('a'.toNat + (n - 10))

def hexValue? (c : Char) : Option Nat :=
  if c.isDigit then some (c.toNat - '0'.toNat)
  else if 'a' ≤ c ∧ c ≤ 'f' then some (c.toNat - 'a'.toNat + 10)
  else if 'A' ≤ c ∧ c ≤ 'F' then some (c.toNat - 'A'.toNat + 10)
  else none

/-- The last `width` hexadecimal digits of a number. -/
def hexText : Nat → Nat → List Char
  | 0, _ => []
  | width + 1, n => hexText width (n / 16) ++ [hexDigit (n % 16)]

def hexReadFrom? (n : Nat) : List Char → Option Nat
  | [] => some n
  | c :: cs => (hexValue? c).bind fun d => hexReadFrom? (16 * n + d) cs

def hexRead? (cs : List Char) : Option Nat :=
  hexReadFrom? 0 cs

theorem hexValue?_hexDigit {n : Nat} (h : n < 16) :
    hexValue? (hexDigit n) = some n := by
  have hall : ∀ m : Fin 16, hexValue? (hexDigit m) = some m.val := by decide
  exact hall ⟨n, h⟩

theorem length_hexText (width n : Nat) :
    (hexText width n).length = width := by
  induction width generalizing n with
  | zero => rfl
  | succ width ih => simp [hexText, ih]

theorem hexReadFrom?_append (n : Nat) (cs ds : List Char) :
    hexReadFrom? n (cs ++ ds) = (hexReadFrom? n cs).bind (hexReadFrom? · ds) := by
  induction cs generalizing n with
  | nil => rfl
  | cons c cs ih =>
      simp only [List.cons_append, hexReadFrom?]
      cases hexValue? c with
      | none => rfl
      | some d => simp [ih]

theorem hexReadFrom?_hexText (width n m : Nat) :
    hexReadFrom? m (hexText width n) = some (Nat.pow 16 width * m + n % Nat.pow 16 width) := by
  induction width generalizing n with
  | zero => simp [hexText, hexReadFrom?, Nat.mod_one]
  | succ width ih =>
      have hdigit : n % 16 < 16 := Nat.mod_lt _ (by decide)
      simp only [hexText, hexReadFrom?_append, ih, hexReadFrom?, Option.bind_some,
        hexValue?_hexDigit hdigit]
      congr 1
      have hpow : Nat.pow 16 (width + 1) = 16 * Nat.pow 16 width := Nat.mul_comm _ _
      have hsplit : n % Nat.pow 16 (width + 1)
          = 16 * (n / 16 % Nat.pow 16 width) + n % 16 := by
        rw [hpow, Nat.mod_mul]
        omega
      rw [hsplit, hpow, Nat.mul_add, Nat.mul_assoc, Nat.add_assoc]

theorem hexRead?_hexText (width n : Nat) :
    hexRead? (hexText width n) = some (n % Nat.pow 16 width) := by
  simp [hexRead?, hexReadFrom?_hexText]

end Text
end TelemetryTriggers
