import Mathlib.Algebra.Order.Field.Power
import Mathlib.Algebra.Order.Field.Rat
import Mathlib.Tactic.Linarith
import Mathlib.Tactic.Positivity
import Mathlib.Tactic.Ring
import TelemetryTriggers.Decimal.Shortest

/-!
# Rounding intervals

The numbers that round to a double form an interval around it.  The intervals of two doubles
have no point in common, because an end point belongs to the one with the even significand.
A decimal grid whose spacing is small against the double has a point in the interval, and the
seventeenth grid that is searched is small enough, so what the search finds rounds to the
double.

Main definitions: `Binary.Canonical`, the integers that doubles have; `Binary.Near`, the
rational numbers that round to a double.  The main statements are
`Binary.Canonical.eq_of_near` and `Binary.Canonical.near_search`.
-/

namespace TelemetryTriggers
namespace Decimal
namespace Binary

structure Canonical (b : Binary) : Prop where
  small : b.significand < 2 ^ 53
  lowest : -1074 ≤ b.exponent
  large : -1074 < b.exponent -> 2 ^ 52 ≤ b.significand
  dense : b.denseBelow = true ↔ b.significand = 2 ^ 52 ∧ -1074 < b.exponent

/-- A quarter of a unit in the last place. -/
def unit (b : Binary) : Rat :=
  2 ^ (b.exponent - 2)

/-- The number rounds to the double. -/
structure Near (b : Binary) (v : Rat) : Prop where
  low : b.low * b.unit ≤ v
  high : v ≤ b.high * b.unit
  odd : b.significand % 2 = 1 -> b.low * b.unit < v ∧ v < b.high * b.unit

variable {b c : Binary}

theorem unit_pos (b : Binary) : 0 < b.unit :=
  zpow_pos (by norm_num) _

/-!
# Two doubles
-/

/-- Two intervals, one not above the other, can meet in an end point only, which belongs to
both of them if both significands are even. -/
theorem Near.even_of_le {v : Rat} (hb : b.Near v) (hc : c.Near v)
    (h : b.high * b.unit ≤ c.low * c.unit) :
    b.high * b.unit = c.low * c.unit ∧ b.significand % 2 = 0 ∧ c.significand % 2 = 0 := by
  refine ⟨le_antisymm h (hc.low.trans hb.high), ?_, ?_⟩
  · by_contra hodd
    have habove := (hb.odd (by omega)).2
    linarith [hc.low]
  · by_contra hodd
    have hbelow := (hc.odd (by omega)).1
    linarith [hb.high]

theorem Near.not_of_significand_lt {v : Rat} (hb : b.Near v) (hc : c.Near v)
    (hexponent : b.exponent = c.exponent) (hsignificand : b.significand < c.significand) :
    False := by
  have hunit : c.unit = b.unit := by rw [unit, unit, hexponent]
  have hle : b.high ≤ c.low := by
    simp only [Binary.high, Binary.low]
    split
    · omega
    · omega
  have hscaled : (b.high : Rat) * b.unit ≤ c.low * c.unit := by
    rw [hunit]
    exact mul_le_mul_of_nonneg_right (by exact_mod_cast hle) b.unit_pos.le
  rcases hb.even_of_le hc hscaled with ⟨hmeet, hbeven, hceven⟩
  rw [hunit] at hmeet
  have hends : b.high = c.low := by exact_mod_cast mul_right_cancel₀ b.unit_pos.ne' hmeet
  simp only [Binary.high, Binary.low] at hends
  split at hends
  · omega
  · omega

theorem Near.not_of_exponent_lt {v : Rat} (hb : b.Near v) (hc : c.Near v) (hsmall : b.Canonical)
    (hlarge : c.Canonical) (hexponent : b.exponent < c.exponent) : False := by
  have habove : -1074 < c.exponent := lt_of_le_of_lt hsmall.lowest hexponent
  have hunit : 2 * b.unit ≤ c.unit := by
    have hnext : b.unit * 2 = 2 ^ (b.exponent - 2 + 1) := (zpow_add_one₀ (by norm_num) _).symm
    rw [mul_comm, hnext]
    exact zpow_le_zpow_right₀ (by norm_num) (by omega)
  have hlow : 2 ^ 54 - 1 ≤ c.low := by
    have hsignificand := hlarge.large habove
    have hdense := hlarge.dense
    simp only [Binary.low]
    split
    · omega
    · rename_i hnot
      have hne : c.significand ≠ 2 ^ 52 := fun heq => hnot (hdense.mpr ⟨heq, habove⟩)
      omega
  have hhigh : b.high ≤ 2 * c.low := by
    have hsignificand := hsmall.small
    simp only [Binary.high]
    omega
  have hdouble : (c.low : Rat) * (2 * b.unit) ≤ c.low * c.unit :=
    mul_le_mul_of_nonneg_left hunit (Nat.cast_nonneg _)
  have hscaled : (b.high : Rat) * b.unit ≤ (2 * c.low : Nat) * b.unit :=
    mul_le_mul_of_nonneg_right (by exact_mod_cast hhigh) b.unit_pos.le
  push_cast at hscaled
  rcases hb.even_of_le hc (by linarith) with ⟨hmeet, heven, _⟩
  have hends : 2 * c.low ≤ b.high := by
    have hle : (2 * c.low : Nat) * b.unit ≤ b.high * b.unit := by
      push_cast
      linarith
    exact_mod_cast le_of_mul_le_mul_right hle b.unit_pos
  have hsignificand := hsmall.small
  simp only [Binary.high] at hends
  omega

theorem Canonical.eq_of_near {v : Rat} (hb : b.Canonical) (hc : c.Canonical) (hbv : b.Near v)
    (hcv : c.Near v) : b = c := by
  have hexponent : b.exponent = c.exponent := by
    rcases lt_trichotomy b.exponent c.exponent with hlt | heq | hgt
    · exact (hbv.not_of_exponent_lt hcv hb hc hlt).elim
    · exact heq
    · exact (hcv.not_of_exponent_lt hbv hc hb hgt).elim
  have hsignificand : b.significand = c.significand := by
    rcases lt_trichotomy b.significand c.significand with hlt | heq | hgt
    · exact (hbv.not_of_significand_lt hcv hexponent hlt).elim
    · exact heq
    · exact (hcv.not_of_significand_lt hbv hexponent.symm hgt).elim
  have hdense : b.denseBelow = c.denseBelow := by
    rw [Bool.eq_iff_iff, hb.dense, hc.dense, hexponent, hsignificand]
  cases b
  cases c
  simp_all

/-!
# Points of a grid
-/

theorem zpow_mul_pow_toNat {a : Rat} (ha : a ≠ 0) (n : Int) :
    a ^ n * a ^ (-n).toNat = a ^ n.toNat := by
  rw [← zpow_natCast, ← zpow_natCast, ← zpow_add₀ ha]
  congr 1
  omega

theorem fine_pos (b : Binary) (k : Int) : 0 < b.fine k := by
  rw [fine, Nat.shiftLeft_eq]
  exact Nat.mul_pos (Nat.pow_pos (by decide)) (Nat.pow_pos (by decide))

theorem coarse_pos (b : Binary) (k : Int) : 0 < b.coarse k := by
  rw [coarse, Nat.shiftLeft_eq]
  exact Nat.mul_pos (Nat.pow_pos (by decide)) (Nat.pow_pos (by decide))

theorem coarse_mul_unit (b : Binary) (k : Int) : b.coarse k * b.unit = 10 ^ k * b.fine k := by
  have hten := zpow_mul_pow_toNat (a := 10) (by norm_num) k
  have htwo := zpow_mul_pow_toNat (a := 2) (by norm_num) (b.exponent - 2)
  rw [neg_sub] at htwo
  rw [coarse, fine, unit, Nat.shiftLeft_eq, Nat.shiftLeft_eq, Nat.pow_eq, Nat.pow_eq]
  push_cast
  rw [← hten, ← htwo]
  ring

theorem le_iff_of_scaled {k : Int} {m n : Nat} {x y : Rat} (hm : m * b.unit = x * b.fine k)
    (hn : n * b.unit = y * b.fine k) : m ≤ n ↔ x ≤ y := by
  have hfine : (0 : Rat) < b.fine k := by exact_mod_cast b.fine_pos k
  rw [← mul_le_mul_iff_left₀ hfine, ← hm, ← hn, mul_le_mul_iff_left₀ b.unit_pos, Nat.cast_le]

theorem mul_fine_scaled (b : Binary) (k : Int) (n : Nat) :
    (n * b.fine k : Nat) * b.unit = n * b.unit * b.fine k := by
  push_cast
  ring

theorem mul_coarse_scaled (b : Binary) (k : Int) (d : Nat) :
    (d * b.coarse k : Nat) * b.unit = d * 10 ^ k * b.fine k := by
  rw [Nat.cast_mul, mul_assoc, coarse_mul_unit, mul_assoc]

theorem mul_fine_le_iff {k : Int} {n d : Nat} :
    n * b.fine k ≤ d * b.coarse k ↔ n * b.unit ≤ d * 10 ^ k :=
  le_iff_of_scaled (b.mul_fine_scaled k n) (b.mul_coarse_scaled k d)

theorem mul_coarse_le_iff {k : Int} {n d : Nat} :
    d * b.coarse k ≤ n * b.fine k ↔ d * 10 ^ k ≤ n * b.unit :=
  le_iff_of_scaled (b.mul_coarse_scaled k d) (b.mul_fine_scaled k n)

/-- A point of a grid is admitted exactly when it rounds to the double. -/
theorem admits_iff_near {k : Int} {d : Nat} : b.admits k d = true ↔ b.Near (d * 10 ^ k) := by
  have hlow : b.low * b.fine k < d * b.coarse k ↔ b.low * b.unit < d * 10 ^ k := by
    rw [← not_le, mul_coarse_le_iff, not_le]
  have hhigh : d * b.coarse k < b.high * b.fine k ↔ d * 10 ^ k < b.high * b.unit := by
    rw [← not_le, mul_fine_le_iff, not_le]
  rw [admits]
  split
  · rename_i heven
    rw [Bool.and_eq_true, decide_eq_true_iff, decide_eq_true_iff, mul_fine_le_iff,
      mul_coarse_le_iff]
    constructor
    · rintro ⟨h1, h2⟩
      exact ⟨h1, h2, fun hodd => by omega⟩
    · intro h
      exact ⟨h.low, h.high⟩
  · rename_i hodd
    rw [Bool.and_eq_true, decide_eq_true_iff, decide_eq_true_iff, hlow, hhigh]
    constructor
    · rintro ⟨h1, h2⟩
      exact ⟨h1.le, h2.le, fun _ => ⟨h1, h2⟩⟩
    · intro h
      exact h.odd (by omega)

/-!
# The search
-/

theorem near_of_nearest? {tie : Tie} {k : Int} {d : Nat} (h : b.nearest? tie k = some d) :
    b.Near (d * 10 ^ k) := by
  rw [← admits_iff_near]
  simp only [nearest?] at h
  split at h
  · cases h
  · cases h
    assumption
  · cases h
    assumption
  · rename_i hbelow habove
    have hcase : d = b.below k ∨ d = b.below k + 1 := by
      split at h
      · exact .inl (Option.some.inj h).symm
      split at h
      · exact .inr (Option.some.inj h).symm
      cases tie with
      | up => exact .inr (Option.some.inj h).symm
      | even =>
          dsimp only at h
          split at h
          · exact .inl (Option.some.inj h).symm
          · exact .inr (Option.some.inj h).symm
    rcases hcase with rfl | rfl
    · exact hbelow
    · exact habove

theorem not_near_of_nearest? {tie : Tie} {k : Int} (h : b.nearest? tie k = none) :
    ¬ b.Near (b.below k * 10 ^ k) ∧ ¬ b.Near ((b.below k + 1 : Nat) * 10 ^ k) := by
  rw [← admits_iff_near, ← admits_iff_near]
  simp only [nearest?] at h
  split at h
  · rename_i hbelow habove
    rw [hbelow, habove]
    exact ⟨Bool.false_ne_true, Bool.false_ne_true⟩
  · cases h
  · cases h
  · split at h
    · cases h
    split at h
    · cases h
    cases tie with
    | up => cases h
    | even =>
        dsimp only at h
        split at h
        · cases h
        · cases h

theorem near_search {tie : Tie} {n : Nat} {k : Int} (h : b.nearest? tie (k - n) ≠ none) :
    b.Near ((b.search tie (n + 1) k).digits * 10 ^ (b.search tie (n + 1) k).exponent) := by
  induction n generalizing k with
  | zero =>
      rw [search]
      split
      · exact near_of_nearest? ‹_›
      · rename_i hnone
        rw [Nat.cast_zero, sub_zero] at h
        exact (h hnone).elim
  | succ n ih =>
      rw [search]
      split
      · exact near_of_nearest? ‹_›
      · apply ih
        rwa [sub_sub, add_comm 1, ← Nat.cast_add_one]

theorem below_le (b : Binary) (k : Int) :
    b.below k * 10 ^ k ≤ (4 * b.significand : Nat) * b.unit ∧
      (4 * b.significand : Nat) * b.unit < (b.below k + 1 : Nat) * 10 ^ k := by
  constructor
  · rw [← mul_coarse_le_iff]
    exact Nat.div_mul_le_self _ _
  · rw [← not_le, ← mul_coarse_le_iff, not_le, Nat.mul_comm (b.below k + 1)]
    exact Nat.lt_mul_div_succ _ (b.coarse_pos k)

theorem nearest?_ne_none {tie : Tie} {k : Int} (h : b.low * b.unit + 10 ^ k < b.high * b.unit) :
    b.nearest? tie k ≠ none := by
  intro hnone
  rcases not_near_of_nearest? hnone with ⟨hleft, hright⟩
  rcases b.below_le k with ⟨hle, hlt⟩
  have hpos := b.unit_pos
  have hlow : b.low * b.unit ≤ (4 * b.significand : Nat) * b.unit :=
    mul_le_mul_of_nonneg_right (by exact_mod_cast Nat.sub_le _ _) hpos.le
  have hhigh : (4 * b.significand : Nat) * b.unit < b.high * b.unit := by
    apply mul_lt_mul_of_pos_right _ hpos
    exact_mod_cast Nat.lt_add_of_pos_right (by decide)
  have hbelow : b.below k * 10 ^ k ≤ b.low * b.unit := by
    by_contra hinside
    have hinside := not_le.mp hinside
    have hend := hle.trans_lt hhigh
    exact hleft ⟨hinside.le, hend.le, fun _ => ⟨hinside, hend⟩⟩
  have habove : b.high * b.unit ≤ (b.below k + 1 : Nat) * 10 ^ k := by
    by_contra hinside
    have hinside := not_le.mp hinside
    have hend := hlow.trans_lt hlt
    exact hright ⟨hend.le, hinside.le, fun _ => ⟨hend, hinside⟩⟩
  push_cast at habove
  linarith

/-!
# The grid that is fine enough
-/

theorem lt_pow_digitCount (n : Nat) : n < 10 ^ digitCount n := by
  rw [digitCount]
  split
  · omega
  · exact (Nat.length_toDigits_le_iff (by decide) Nat.length_toDigits_pos).mp le_rfl

theorem pow_digitCount_le {n : Nat} (h : 0 < n) :
    exists c, digitCount n = c + 1 ∧ 10 ^ c ≤ n := by
  have hlength : 0 < (Nat.toDigits 10 n).length := Nat.length_toDigits_pos
  rw [digitCount, if_neg (by omega)]
  refine ⟨(Nat.toDigits 10 n).length - 1, by omega, ?_⟩
  cases hc : (Nat.toDigits 10 n).length - 1 with
  | zero => omega
  | succ c =>
      by_contra hlt
      have hle := (Nat.length_toDigits_le_iff (by decide) (Nat.succ_pos c)).mpr (not_le.mp hlt)
      omega

theorem mul_unit_mul_shiftLeft (b : Binary) :
    (4 * b.significand : Nat) * b.unit * (1 <<< (-b.exponent).toNat : Nat) =
      (b.significand <<< b.exponent.toNat : Nat) := by
  have hfour : (4 : Rat) * b.unit = 2 ^ b.exponent := by
    rw [unit, show (4 : Rat) = 2 ^ (2 : Int) by norm_num, ← zpow_add₀ (by norm_num)]
    congr 1
    omega
  have htwo := zpow_mul_pow_toNat (a := 2) (by norm_num) b.exponent
  rw [Nat.shiftLeft_eq, Nat.shiftLeft_eq, Nat.one_mul]
  push_cast
  rw [← htwo, ← hfour]
  ring

theorem pow_leading_le (h : 0 < b.significand) :
    10 ^ b.leading ≤ (4 * b.significand : Nat) * b.unit := by
  have hvalue := b.mul_unit_mul_shiftLeft
  have hnum : 0 < b.significand <<< b.exponent.toNat := by
    rw [Nat.shiftLeft_eq]
    exact Nat.mul_pos h (Nat.pow_pos (by decide))
  have hden : 0 < 1 <<< (-b.exponent).toNat := by
    rw [Nat.shiftLeft_eq, Nat.one_mul]
    exact Nat.pow_pos (by decide)
  rw [leading]
  generalize b.significand <<< b.exponent.toNat = num at hvalue hnum ⊢
  generalize 1 <<< (-b.exponent).toNat = den at hvalue hden ⊢
  have hdenCast : (0 : Rat) < den := by exact_mod_cast hden
  rw [← mul_le_mul_iff_left₀ hdenCast, hvalue]
  split
  · rename_i hle
    rcases pow_digitCount_le (Nat.div_pos hle hden) with ⟨c, hc, hpow⟩
    rw [hc, Nat.cast_add_one, add_sub_cancel_right, zpow_natCast]
    exact_mod_cast (Nat.mul_le_mul_right den hpow).trans (Nat.div_mul_le_self num den)
  · have hlt := lt_pow_digitCount ((den - 1) / num)
    rw [Nat.div_lt_iff_lt_mul hnum] at hlt
    rw [zpow_neg, zpow_natCast, inv_mul_le_iff₀ (by positivity)]
    exact_mod_cast (by omega : den ≤ 10 ^ digitCount ((den - 1) / num) * num)

/-- What seventeen grids from the leading digit downwards are searched for rounds to the
double. -/
theorem Canonical.near_search (hb : b.Canonical) (h : 0 < b.significand) (tie : Tie) :
    b.Near ((b.search tie 17 b.leading).digits *
      10 ^ (b.search tie 17 b.leading).exponent) := by
  apply Binary.near_search
  apply nearest?_ne_none
  have hfine : (10 : Rat) ^ (b.leading - (16 : Nat)) * 10 ^ 16 ≤
      (4 * b.significand : Nat) * b.unit := by
    rw [← zpow_natCast, ← zpow_add₀ (by norm_num), sub_add_cancel]
    exact pow_leading_le h
  have hpos := b.unit_pos
  have hsmall := hb.small
  by_cases hdense : b.denseBelow = true
  · have hlow : b.low + 3 = b.high ∧ 4 * b.significand = 2 ^ 54 := by
      have hpower := (hb.dense.mp hdense).1
      simp only [Binary.low, Binary.high, if_pos hdense]
      omega
    rw [hlow.2] at hfine
    rw [← hlow.1]
    push_cast at hfine ⊢
    linarith
  · have hlow : b.low + 4 = b.high := by
      simp only [Binary.low, Binary.high, if_neg hdense]
      omega
    have hbound : ((4 * b.significand : Nat) : Rat) * b.unit ≤ (2 ^ 55 : Nat) * b.unit :=
      mul_le_mul_of_nonneg_right (by exact_mod_cast (by omega)) hpos.le
    rw [← hlow]
    push_cast at hfine hbound ⊢
    linarith

end Binary
end Decimal
end TelemetryTriggers
