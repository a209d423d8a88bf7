import Mathlib.Data.List.TakeWhile
import TelemetryTriggers.Decimal.Layout
import TelemetryTriggers.Decimal.Numeral
import TelemetryTriggers.Proofs.Decimal.Rounding

/-!
# Written numbers

The text of a finite double is a numeral with the double's sign, and the decimal that it
stands for rounds to the double.  A double is given by its sign and its two integers, and a
decimal rounds to one double only, so different doubles have different texts.

The main statements are `Decimal.parse?_text` and `Decimal.text_injective`.
-/

namespace TelemetryTriggers
namespace Decimal

/-!
# The bits of a double
-/

theorem isNegative_iff {x : Float} : isNegative x = true ↔ 2 ^ 63 ≤ x.toBits.toNat := by
  have hbits := x.toBits.toNat_lt
  rw [isNegative, beq_iff_eq, ← UInt64.toNat_inj, UInt64.toNat_shiftRight]
  show x.toBits.toNat >>> 63 = 1 ↔ _
  rw [Nat.shiftRight_eq_div_pow]
  omega

theorem eq_of_ofFloat {x y : Float} (hsign : isNegative x = isNegative y)
    (h : Binary.ofFloat x = Binary.ofFloat y) : x = y := by
  have hsign : 2 ^ 63 ≤ x.toBits.toNat ↔ 2 ^ 63 ≤ y.toBits.toNat := by
    rw [← isNegative_iff, hsign, isNegative_iff]
  have hx := x.toBits.toNat_lt
  have hy := y.toBits.toNat_lt
  simp only [Binary.ofFloat, Nat.shiftRight_eq_div_pow, Nat.shiftLeft_eq] at h
  have hbits : x.toBits.toNat = y.toBits.toNat := by
    split at h
    · split at h
      · injection h
        omega
      · injection h
        omega
    · split at h
      · injection h
        omega
      · injection h
        omega
  cases x with
  | ofModel x =>
      cases y with
      | ofModel y =>
          cases x
          cases y
          cases UInt64.toNat_inj.mp hbits
          rfl

theorem Binary.canonical_ofFloat (x : Float) : (Binary.ofFloat x).Canonical := by
  have hfraction : x.toBits.toNat % (1 <<< 52) < 2 ^ 52 := Nat.mod_lt _ (by decide)
  rw [ofFloat]
  generalize x.toBits.toNat % (1 <<< 52) = fraction at *
  generalize (x.toBits.toNat >>> 52) % (1 <<< 11) = field
  split
  · refine ⟨?_, ?_, ?_, ?_⟩
    · show fraction < 2 ^ 53
      omega
    · exact le_rfl
    · intro h
      exact (lt_irrefl _ h).elim
    · simp
  · refine ⟨?_, ?_, ?_, ?_⟩
    · show 2 ^ 52 + fraction < 2 ^ 53
      omega
    · show -1074 ≤ (field : Int) - 1075
      omega
    · intro _
      exact Nat.le_add_right _ _
    · simp
      omega

open Float.Model in
theorem unpack_eq_zero_iff {bits : BitVec Format.binary64.numBits} :
    (exists s, UnpackedFloat.unpack Format.binary64 bits = .zero s) ↔
      UnpackedFloat.unpackExponent bits = 0#_ ∧ UnpackedFloat.unpackMantissa bits = 0#_ := by
  delta UnpackedFloat.unpack
  constructor
  · rintro ⟨s, h⟩
    dsimp only at h
    by_cases hlast : UnpackedFloat.unpackExponent bits = -1#_
    · rw [if_pos hlast] at h
      by_cases hmantissa : UnpackedFloat.unpackMantissa bits = 0#_
      · rw [if_pos hmantissa] at h
        cases h
      · rw [if_neg hmantissa] at h
        cases h
    rw [if_neg hlast] at h
    by_cases hexponent : UnpackedFloat.unpackExponent bits = 0#_
    · rw [if_pos hexponent] at h
      by_cases hmantissa : UnpackedFloat.unpackMantissa bits = 0#_
      · exact ⟨hexponent, hmantissa⟩
      · rw [dif_neg hmantissa] at h
        cases h
    · rw [if_neg hexponent] at h
      cases h
  · rintro ⟨hexponent, hmantissa⟩
    refine ⟨.ofBitVec (UnpackedFloat.unpackSign bits), ?_⟩
    dsimp only
    rw [if_neg (by rw [hexponent]; decide), if_pos hexponent, dif_pos hmantissa]

open Float.Model in
theorem beq_zero_iff {x : Float} : (x == 0) = true ↔ (Binary.ofFloat x).significand = 0 := by
  have hcompare : (x == 0) = true ↔ exists s, x.toModel.unpack = .zero s := by
    show x.toModel.unpack.beq (.zero .positive) = true ↔ _
    cases x.toModel.unpack with
    | notANumber => exact ⟨nofun, nofun⟩
    | zero s => exact ⟨fun _ => ⟨s, rfl⟩, fun _ => rfl⟩
    | infinity s | finite s =>
        cases s with
        | negative | positive => exact ⟨nofun, nofun⟩
  let bits : BitVec Format.binary64.numBits := x.toBits.toBitVec
  have hmantissa : UnpackedFloat.unpackMantissa bits = 0#_ ↔
      x.toBits.toNat % (1 <<< 52) = 0 := by
    rw [← BitVec.toNat_inj]
    simp [UnpackedFloat.unpackMantissa, bits]
  have hexponent : UnpackedFloat.unpackExponent bits = 0#_ ↔
      (x.toBits.toNat >>> 52) % (1 <<< 11) = 0 := by
    rw [← BitVec.toNat_inj]
    simp [UnpackedFloat.unpackExponent, bits]
  rw [hcompare]
  refine (@unpack_eq_zero_iff bits).trans ?_
  rw [hmantissa, hexponent, Binary.ofFloat]
  split
  · rename_i hfield
    exact and_iff_right hfield
  · rename_i hfield
    constructor
    · intro h
      exact (hfield h.1).elim
    · intro h
      exact absurd (Nat.eq_zero_of_add_eq_zero_right h) (by decide)

/-!
# The digits of a double
-/

def Digits.value (d : Digits) : Rat :=
  d.digits * 10 ^ d.exponent

theorem Digits.value_stripZeros (d : Digits) : d.stripZeros.value = d.value := by
  induction d using stripZeros.induct with
  | case1 d h ih =>
      rw [stripZeros, dif_pos h, ih, value, value, zpow_add_one₀ (by norm_num)]
      have hdigits : d.digits / 10 * 10 = d.digits := by omega
      have hcast : ((d.digits / 10 : Nat) : Rat) * 10 = d.digits := by exact_mod_cast hdigits
      rw [mul_comm ((10 : Rat) ^ _), ← mul_assoc, hcast]
  | case2 d h => rw [stripZeros, dif_neg h]

def writtenDigits (x : Float) : Digits :=
  if x == 0 then ⟨0, 0⟩ else shortest .up x

theorem near_writtenDigits (x : Float) : (Binary.ofFloat x).Near (writtenDigits x).value := by
  rw [writtenDigits]
  split
  · rename_i hzero
    have hsignificand := beq_zero_iff.mp hzero
    have hpos := (Binary.ofFloat x).unit_pos
    rw [Digits.value, Nat.cast_zero, zero_mul]
    refine ⟨?_, ?_, fun hodd => by omega⟩
    · rw [Binary.low, hsignificand, Nat.mul_zero, Nat.zero_sub, Nat.cast_zero, zero_mul]
    · positivity
  · rename_i hne
    have hsignificand : 0 < (Binary.ofFloat x).significand :=
      Nat.pos_of_ne_zero fun hzero => hne (beq_zero_iff.mpr hzero)
    rw [shortest, Digits.value_stripZeros]
    exact (Binary.canonical_ofFloat x).near_search hsignificand .up

/-!
# Numerals
-/

def signChars (negative : Bool) : List Char :=
  if negative then ['-'] else []

variable {negative : Bool} {whole part : List Char}

theorem takeSign_append {rest : List Char} (hne : whole ≠ [])
    (hdigits : whole.all Char.isDigit = true) :
    Numeral.takeSign (signChars negative ++ (whole ++ rest)) = (negative, whole ++ rest) := by
  cases negative with
  | true => rfl
  | false =>
      cases whole with
      | nil => exact (hne rfl).elim
      | cons c cs =>
          rw [List.all_cons, Bool.and_eq_true] at hdigits
          show Numeral.takeSign (c :: (cs ++ rest)) = _
          unfold Numeral.takeSign
          split
          · rename_i heq
            cases heq
            exact absurd hdigits.1 (by decide)
          · rename_i heq
            cases heq
            exact absurd hdigits.1 (by decide)
          · rfl

theorem parse?_whole (hne : whole ≠ []) (hdigits : whole.all Char.isDigit = true) :
    Numeral.parse? (signChars negative ++ whole) =
      some ⟨negative, Nat.ofDigitChars 10 whole 0, 0⟩ := by
  have hall := List.all_eq_true.mp hdigits
  have hsign : Numeral.takeSign (signChars negative ++ (whole ++ [])) = _ :=
    takeSign_append hne hdigits
  rw [List.append_nil] at hsign
  rw [Numeral.parse?, hsign]
  show Numeral.unsigned? negative whole = _
  rw [Numeral.unsigned?, List.takeWhile_eq_self_iff.mpr hall, List.dropWhile_eq_nil_iff.mpr hall]
  dsimp only
  rw [List.append_nil, List.isEmpty_eq_false_iff.mpr hne, Nat.ofDigitChars_eq_foldl]
  rfl

theorem parse?_point (hne : whole ≠ []) (hdigits : (whole ++ part).all Char.isDigit = true) :
    Numeral.parse? (signChars negative ++ (whole ++ '.' :: part)) =
      some ⟨negative, Nat.ofDigitChars 10 (whole ++ part) 0, -part.length⟩ := by
  rw [List.all_append, Bool.and_eq_true] at hdigits
  have hwhole := List.all_eq_true.mp hdigits.1
  have hpart := List.all_eq_true.mp hdigits.2
  rw [Numeral.parse?, takeSign_append hne hdigits.1]
  show Numeral.unsigned? negative (whole ++ '.' :: part) = _
  rw [Numeral.unsigned?, List.takeWhile_append_of_pos hwhole, List.dropWhile_append_of_pos hwhole,
    List.takeWhile_cons_of_neg (by decide), List.dropWhile_cons_of_neg (by decide)]
  simp only [List.takeWhile_eq_self_iff.mpr hpart, List.dropWhile_eq_nil_iff.mpr hpart,
    List.append_nil, List.isEmpty_eq_false_iff.mpr hne, Bool.false_and, Bool.false_eq_true,
    if_false, Numeral.exponent?, Option.map_some, digitsValue, Nat.ofDigitChars_eq_foldl, zero_sub]

/-!
# The text of a double
-/

theorem toList_zeros (n : Nat) : (zeros n).toList = List.replicate n '0' :=
  String.toList_ofList

theorem all_replicate_zero (n : Nat) : (List.replicate n '0').all Char.isDigit = true := by
  rw [List.all_eq_true]
  intro c hc
  rw [List.eq_of_mem_replicate hc]
  rfl

theorem parse?_fraction {cs : List Char} (n : Nat) (hdigits : cs.all Char.isDigit = true) :
    Numeral.parse? (signChars negative ++ ("0." ++ zeros n ++ String.ofList cs).toList) =
      some ⟨negative, Nat.ofDigitChars 10 cs 0, -(n + cs.length : Nat)⟩ := by
  have htext : ("0." ++ zeros n ++ String.ofList cs).toList =
      ['0'] ++ '.' :: (List.replicate n '0' ++ cs) := by
    rw [String.toList_append, String.toList_append, toList_zeros, String.toList_ofList,
      String.toList_ofList, List.append_assoc]
    rfl
  have hall : (['0'] ++ (List.replicate n '0' ++ cs)).all Char.isDigit = true := by
    rw [List.all_append, List.all_append, all_replicate_zero, hdigits]
    rfl
  have hzeros : 10 ^ n * Nat.ofDigitChars 10 ['0'] 0 = 0 := rfl
  rw [htext, parse?_point (List.cons_ne_nil _ _) hall, List.length_append, List.length_replicate,
    ← List.append_assoc, Nat.ofDigitChars_append, Nat.ofDigitChars_append,
    Nat.ofDigitChars_replicate_zero, hzeros]

theorem parse?_split {cs : List Char} {n : Nat} (hn : 0 < n) (hcs : 0 < cs.length)
    (hdigits : cs.all Char.isDigit = true) :
    Numeral.parse? (signChars negative ++
        (String.ofList (cs.take n) ++ "." ++ String.ofList (cs.drop n)).toList) =
      some ⟨negative, Nat.ofDigitChars 10 cs 0, -(cs.length - n : Nat)⟩ := by
  have htext : (String.ofList (cs.take n) ++ "." ++ String.ofList (cs.drop n)).toList =
      cs.take n ++ '.' :: cs.drop n := by
    rw [String.toList_append, String.toList_append, String.toList_ofList, String.toList_ofList,
      String.toList_ofList, List.append_assoc]
    rfl
  have hne : cs.take n ≠ [] := by
    apply List.ne_nil_of_length_pos
    rw [List.length_take]
    omega
  rw [htext, parse?_point hne (by rwa [List.take_append_drop]), List.take_append_drop,
    List.length_drop]

theorem parse?_padded {cs : List Char} (n : Nat) (hcs : 0 < cs.length)
    (hdigits : cs.all Char.isDigit = true) :
    Numeral.parse? (signChars negative ++ (String.ofList cs ++ zeros n ++ plain.wholeEnd).toList) =
      some ⟨negative, 10 ^ n * Nat.ofDigitChars 10 cs 0, 0⟩ := by
  have htext : (String.ofList cs ++ zeros n ++ plain.wholeEnd).toList =
      cs ++ List.replicate n '0' := by
    rw [String.toList_append, String.toList_append, String.toList_ofList, toList_zeros]
    exact List.append_nil _
  have hall : (cs ++ List.replicate n '0').all Char.isDigit = true := by
    rw [List.all_append, hdigits, all_replicate_zero]
    rfl
  have hne := List.append_ne_nil_of_left_ne_nil (List.ne_nil_of_length_pos hcs)
    (List.replicate n '0')
  rw [htext, parse?_whole hne hall, Nat.ofDigitChars_append, Nat.ofDigitChars_replicate_zero]

theorem parse?_positionalText (negative : Bool) (d : Digits) :
    exists m e, Numeral.parse? (signChars negative ++ (plain.positionalText d).toList) =
      some ⟨negative, m, e⟩ ∧ m * 10 ^ e = d.value := by
  have hdigits : (Nat.toDigits 10 d.digits).all Char.isDigit = true := by
    rw [List.all_eq_true]
    exact fun c hc => Nat.isDigit_of_mem_toDigits (by decide) (by decide) hc
  have hlength : 0 < (Nat.toDigits 10 d.digits).length := Nat.length_toDigits_pos
  have hread : Nat.ofDigitChars 10 (Nat.toDigits 10 d.digits) 0 = d.digits :=
    Nat.ofDigitChars_ten_toDigits
  rw [Layout.positionalText, Digits.value]
  split
  · rename_i hpoint
    refine ⟨_, _, parse?_fraction _ hdigits, ?_⟩
    rw [hread]
    congr 2
    omega
  · split
    · rename_i hpoint hinside
      refine ⟨_, _, parse?_split (by omega) hlength hdigits, ?_⟩
      rw [hread]
      congr 2
      omega
    · rename_i hpoint hinside
      refine ⟨_, _, parse?_padded _ hlength hdigits, ?_⟩
      have hpower := Binary.zpow_mul_pow_toNat (a := 10) (by norm_num) d.exponent
      have hzero : (-d.exponent).toNat = 0 := by omega
      rw [hzero, pow_zero, mul_one] at hpower
      rw [hread, hpower, zpow_zero]
      push_cast
      ring

/-- The text of a finite double is read back as a numeral with its sign that rounds to it. -/
theorem parse?_text {x : Float} (h : x.isFinite = true) :
    exists m e, Numeral.parse? (text x).toList = some ⟨isNegative x, m, e⟩ ∧
      (Binary.ofFloat x).Near (m * 10 ^ e) := by
  have hmagnitude : forall d : Digits, exists m e,
      Numeral.parse? (signChars (isNegative x) ++ (plain.magnitude d).toList) =
        some ⟨isNegative x, m, e⟩ ∧ m * 10 ^ e = d.value := by
    intro d
    rw [Layout.magnitude]
    split
    · rename_i hzero
      refine ⟨0, 0, parse?_whole (by decide) (by decide), ?_⟩
      rw [Digits.value, hzero, Nat.cast_zero, zero_mul, zero_mul]
    · exact parse?_positionalText _ _
  have htext : (text x).toList =
      signChars (isNegative x) ++ (plain.magnitude (writtenDigits x)).toList := by
    have hsign : (if isNegative x then "-" else "").toList = signChars (isNegative x) := by
      cases isNegative x with
      | true | false => rfl
    rw [text_of_isFinite h, String.toList_append, hsign]
    rfl
  rcases hmagnitude (writtenDigits x) with ⟨m, e, hparse, hvalue⟩
  rw [htext]
  refine ⟨m, e, hparse, ?_⟩
  rw [hvalue]
  exact near_writtenDigits x

theorem text_injective {x y : Float} (hx : x.isFinite = true) (hy : y.isFinite = true)
    (h : text x = text y) : x = y := by
  rcases parse?_text hx with ⟨m, e, hread, hnear⟩
  rcases parse?_text hy with ⟨m', e', hread', hnear'⟩
  rw [h, hread'] at hread
  injection hread with hnumeral
  injection hnumeral with hsign hdigits hexponent
  subst hdigits hexponent
  exact eq_of_ofFloat hsign.symm
    ((Binary.canonical_ofFloat x).eq_of_near (Binary.canonical_ofFloat y) hnear hnear')

end Decimal
end TelemetryTriggers
