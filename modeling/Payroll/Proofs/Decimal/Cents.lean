import Mathlib.Algebra.Order.BigOperators.Group.List
import Mathlib.Algebra.Order.Round
import Mathlib.Data.Rat.Floor
import Mathlib.Tactic.Linarith
import Payroll.Proofs.Decimal.Exact

namespace Payroll

/-!
# Rounding to cents

Rounding an amount of money is said here of the numbers that decimals stand for, and then of the
decimals themselves: how an amount is written does not matter for what it is rounded to.

* `nearestCents` — the whole number of cents nearest to a number, ties away from zero.
* `nearestWhole`, `Decimal.value_roundTo` — the nearest whole number, and rounding to any number of
  places in terms of it.
* `nearestCents_spec` — no whole number of cents is nearer, and none that is as near is
  farther from zero.
* `abs_nearestCents_sub_le`, `abs_nearestCents_sub_sub_le_one` — rounding is off by half a cent at
  most, and rounding a difference is off by a cent at most from the difference of what is rounded.
* `Decimal.sumsFit_of_amounts` — amounts of money add up exactly if there is room for the cents
  of their sum.
* `value_roundMoney` — **rounding gives the nearest whole number of cents**, wherever the
  coefficient has room for the two digits and where it has not.
* `Decimal.IsPadded`, `Decimal.IsPadded.ext` — decimals with as many fractional digits as there is
  room for are told apart by sign and value.
* `roundMoney_congr` — hence rounding depends on the value only, if zeros have no sign.
-/

/-- The whole number of cents nearest to a number; of two equally near ones the one farther from
    zero. -/
def nearestCents (q : ℚ) : ℤ := if q < 0 then -round (-(q * 100)) else round (q * 100)

/-- The nearest whole number; of two equally near ones the one farther from zero. -/
def nearestWhole (q : ℚ) : ℤ := if q < 0 then -round (-q) else round q

/-! ### The nearest whole number -/

theorem abs_nearestWhole_sub_le (q : ℚ) : |(nearestWhole q : ℚ) - q| ≤ 1 / 2 := by
  unfold nearestWhole
  split
  · rw [Int.cast_neg, neg_sub_comm]
    exact abs_sub_round (-q)
  · rw [abs_sub_comm]
    exact abs_sub_round q

theorem nearestWhole_intCast (n : ℤ) : nearestWhole n = n := by
  unfold nearestWhole
  rw [← Int.cast_neg, round_intCast, round_intCast, neg_neg, ite_self]

/-- Rounding does not tell a number from its opposite. -/
theorem nearestWhole_neg (q : ℚ) : nearestWhole (-q) = -nearestWhole q := by
  unfold nearestWhole
  rcases lt_trichotomy q 0 with hneg | rfl | hpos
  · rw [if_pos hneg, if_neg (by linarith), neg_neg]
  · simp
  · rw [if_pos (by linarith), if_neg (by linarith), neg_neg]

/-- No whole number is nearer, and none that is as near is farther from zero. -/
theorem nearestWhole_spec (q : ℚ) (k : ℤ) : |(nearestWhole q : ℚ) - q| ≤ |(k : ℚ) - q| ∧
    (|(k : ℚ) - q| = |(nearestWhole q : ℚ) - q| → |k| ≤ |nearestWhole q|) := by
  -- It is enough to look at numbers that are not negative.
  wlog hq : 0 ≤ q generalizing q k
  · obtain ⟨hnearest, htie⟩ := this (-q) (-k) (by linarith)
    rw [nearestWhole_neg, abs_neg, abs_neg] at htie
    rw [nearestWhole_neg] at hnearest
    have hopposite : ∀ n : ℤ, |((-n : ℤ) : ℚ) - -q| = |(n : ℚ) - q| := by
      intro n
      rw [Int.cast_neg, neg_sub_neg, abs_sub_comm]
    rw [hopposite, hopposite] at hnearest htie
    exact ⟨hnearest, htie⟩
  have hround : nearestWhole q = round q := if_neg (not_lt.2 hq)
  rw [hround, abs_sub_comm, abs_sub_comm (k : ℚ)]
  refine ⟨round_le q k, fun htie => ?_⟩
  rcases abs_eq_abs.1 htie with hsame | hopposite
  · have heq : (k : ℚ) = round q := by linarith
    rw [Int.cast_inj.1 heq]
  · -- The number is half way between the two, of which the rounded one is no less.
    have hsum : (k + round q : ℚ) = 2 * q := by linarith
    have hlower : q - 1 / 2 < round q := by
      have hfloor := Int.lt_floor_add_one (q + 1 / 2)
      rw [← round_eq] at hfloor
      linarith
    have hle : k ≤ round q := by
      have hlt : (k : ℚ) < round q + 1 := by linarith
      exact Int.lt_add_one_iff.1 (by exact_mod_cast hlt)
    have hnonneg : 0 ≤ k + round q := by
      have hnonneg : (0 : ℚ) ≤ k + round q := by linarith
      exact_mod_cast hnonneg
    rw [abs_of_nonneg (show 0 ≤ round q by omega), abs_le]
    omega

/-- The rounded quotient of naturals is the rounded rational. -/
theorem divHalfUp_eq_nearestWhole (n : Nat) {d : Nat} (hd : 0 < d) :
    (divHalfUp n d : ℤ) = nearestWhole (n / d) := by
  have hd' : (d : ℚ) ≠ 0 := by exact_mod_cast hd.ne'
  have hsum : (n / d + 1 / 2 : ℚ) = ((2 * n + d : Nat) : ℚ) / ((2 * d : Nat) : ℚ) := by
    push_cast
    rw [div_add_div _ _ hd' two_ne_zero, mul_one, mul_comm (n : ℚ), mul_comm (d : ℚ)]
  have hnonneg : ¬ (n / d : ℚ) < 0 := not_lt.2 (div_nonneg (Nat.cast_nonneg _) (Nat.cast_nonneg _))
  rw [nearestWhole, if_neg hnonneg, round_eq, hsum, Rat.floor_natCast_div_natCast, divHalfUp,
    Int.natCast_div]

/-! ### The nearest number of cents -/

theorem nearestCents_eq (q : ℚ) : nearestCents q = nearestWhole (q * 100) := by
  have hsign : q * 100 < 0 ↔ q < 0 := by
    constructor <;> intro h <;> linarith
  simp only [nearestCents, nearestWhole, hsign]

/-- How far off a number of cents is, in cents. -/
theorem abs_cents_sub (k : ℤ) (q : ℚ) : |(k / 100 : ℚ) - q| = |k - q * 100| / 100 := by
  rw [← abs_of_pos (show (0 : ℚ) < 100 by norm_num), ← abs_div, abs_of_pos
    (show (0 : ℚ) < 100 by norm_num), sub_div, mul_div_cancel_right₀ _ (by norm_num)]

/-- Rounding is off by half a cent at most. -/
theorem abs_nearestCents_sub_le (q : ℚ) : |(nearestCents q / 100 : ℚ) - q| ≤ 1 / 200 := by
  have hhalf : |nearestCents q - q * 100| ≤ 1 / 2 := by
    rw [nearestCents_eq]
    exact abs_nearestWhole_sub_le _
  rw [abs_cents_sub]
  linarith

/-- **No number of cents** is nearer, and none that is as near is farther from zero. -/
theorem nearestCents_spec (q : ℚ) (k : ℤ) :
    |(nearestCents q / 100 : ℚ) - q| ≤ |(k / 100 : ℚ) - q| ∧
      (|(k / 100 : ℚ) - q| = |(nearestCents q / 100 : ℚ) - q| → |k| ≤ |nearestCents q|) := by
  obtain ⟨hnearest, htie⟩ := nearestWhole_spec (q * 100) k
  rw [← nearestCents_eq] at hnearest htie
  rw [abs_cents_sub, abs_cents_sub, div_le_div_iff_of_pos_right (by norm_num),
    div_left_inj' (by norm_num)]
  exact ⟨hnearest, htie⟩

/-- Whole cents are rounded to themselves. -/
theorem nearestCents_of_cents (n : ℤ) : nearestCents (n / 100) = n := by
  rw [nearestCents_eq, div_mul_cancel₀ _ (by norm_num), nearestWhole_intCast]

/-- Rounding a difference, or its two parts: at most one cent lies between the results. -/
theorem abs_nearestCents_sub_sub_le_one (p q : ℚ) :
    |nearestCents (p - q) - (nearestCents p - nearestCents q)| ≤ 1 := by
  have hdifference := abs_nearestCents_sub_le (p - q)
  have hp := abs_nearestCents_sub_le p
  have hq := abs_nearestCents_sub_le q
  rw [abs_le] at hdifference hp hq
  -- Three times half a cent are less than two cents.
  have hupper : (nearestCents (p - q) - (nearestCents p - nearestCents q) : ℚ) < 2 := by
    linarith only [hdifference.2, hp.1, hq.2]
  have hlower : (-2 : ℚ) < nearestCents (p - q) - (nearestCents p - nearestCents q) := by
    linarith only [hdifference.1, hp.2, hq.1]
  have hupper' : nearestCents (p - q) - (nearestCents p - nearestCents q) < 2 := by
    exact_mod_cast hupper
  have hlower' : -2 < nearestCents (p - q) - (nearestCents p - nearestCents q) := by
    exact_mod_cast hlower
  rw [abs_le]
  omega

namespace Decimal

/-! ### Whole cents -/

/-- A number of cents, whether or not both digits are written. -/
def WholeCents (d : Decimal) : Prop := ∃ n : ℤ, d.value = n / 100

/-- What has at most two fractional digits is a number of cents. -/
theorem wholeCents_of_scale_le {d : Decimal} (h : d.scale ≤ 2) : d.WholeCents := by
  refine ⟨d.signed * pow10 (2 - d.scale), ?_⟩
  have htwo : pow10 d.scale * pow10 (2 - d.scale) = 100 := by
    rw [← pow10_add, Nat.add_sub_cancel' h]
    rfl
  have htwo' : (pow10 d.scale * pow10 (2 - d.scale) : ℚ) = 100 := by exact_mod_cast htwo
  rw [value_eq_div, ← htwo']
  push_cast
  rw [mul_div_mul_right _ _ (cast_pow10_pos _).ne']

/-- Whole cents add up to whole cents. -/
theorem exists_cents_of_sum {amounts : List Decimal} (h : ∀ a ∈ amounts, a.WholeCents) :
    ∃ n : ℤ, (amounts.map value).sum = n / 100 := by
  induction amounts with
  | nil => exact ⟨0, by simp⟩
  | cons a rest ih =>
    rw [List.forall_mem_cons] at h
    obtain ⟨m, hm⟩ := h.1
    obtain ⟨n, hn⟩ := ih h.2
    refine ⟨m + n, ?_⟩
    rw [List.map_cons, List.sum_cons, hm, hn, Int.cast_add, add_div]

/-- As many cents as a coefficient has room for. -/
theorem fits_of_cents {n : ℤ} (h : |(n / 100 : ℚ)| ≤ maxCoefficient / 100) : Fits (n / 100) := by
  have hle : n.natAbs ≤ maxCoefficient := by
    rw [abs_div, abs_of_pos (show (0 : ℚ) < 100 by norm_num),
      div_le_div_iff_of_pos_right (by norm_num), ← Int.cast_abs, Int.abs_eq_natAbs] at h
    exact_mod_cast h
  exact fits_iff.2 ⟨n, 2, hle, by decide, rfl⟩

/-- Whole cents add up exactly as long as the sum stays that small. -/
theorem sumsFit_of_cents {amounts : List Decimal} (h : ∀ a ∈ amounts, a.WholeCents)
    (hbound : ∀ part, part <+: amounts → |(part.map value).sum| ≤ maxCoefficient / 100) :
    SumsFit amounts := by
  intro part hpart
  obtain ⟨n, hn⟩ := exists_cents_of_sum fun a ha => h a (hpart.subset ha)
  have hle := hbound part hpart
  rw [hn] at hle ⊢
  exact fits_of_cents hle

theorem IsAmount.wholeCents {d : Decimal} (h : d.IsAmount) : d.WholeCents :=
  wholeCents_of_scale_le h.scale_le

/-- Some of some amounts are no more than all of them, and no less than nothing. -/
theorem sum_part_le {amounts part : List Decimal} (h : ∀ a ∈ amounts, a.negative = false)
    (hpart : part.Sublist amounts) :
    0 ≤ (part.map value).sum ∧ (part.map value).sum ≤ (amounts.map value).sum := by
  have hnonneg : ∀ q ∈ amounts.map value, 0 ≤ q :=
    List.forall_mem_map.2 fun a ha => value_nonneg (h a ha)
  have hvalues : (part.map value).Sublist (amounts.map value) := hpart.map value
  exact ⟨List.sum_nonneg fun q hq => hnonneg q (hvalues.subset hq), hvalues.sum_le_sum hnonneg⟩

/-- **Amounts of money add up exactly** as long as there is room for the cents of their sum. -/
theorem sumsFit_of_amounts {amounts : List Decimal} (h : ∀ a ∈ amounts, a.IsAmount)
    (hbound : (amounts.map value).sum ≤ maxCoefficient / 100) : SumsFit amounts := by
  refine sumsFit_of_cents (fun a ha => (h a ha).wholeCents) fun part hpart => ?_
  obtain ⟨hnonneg, hle⟩ := sum_part_le (fun a ha => (h a ha).nonneg) hpart.sublist
  rw [abs_of_nonneg hnonneg]
  exact le_trans hle hbound

/-! ### Rounding of decimals -/

/-- Padding does not change the value. -/
theorem value_padTo (places : Nat) (d : Decimal) : (d.padTo places).value = d.value := by
  obtain ⟨k, _, hn, hc, hs⟩ := padTo_spec places d
  exact (sameValue_iff_value_eq.1 (sameValue_of_zeros k hn hc hs)).symm

theorem signed_roundTo {places : Nat} {d : Decimal} (h : ¬ d.scale ≤ places) :
    (d.roundTo places).signed = if d.negative
      then -(divHalfUp d.coefficient (pow10 (d.scale - places)) : ℤ)
      else divHalfUp d.coefficient (pow10 (d.scale - places)) := by
  rw [roundTo, dif_neg h]
  by_cases hzero : divHalfUp d.coefficient (pow10 (d.scale - places)) = 0
  · -- What becomes zero has the same value with and without a sign.
    simp [signed, hzero]
  · cases d.negative <;> simp [signed, hzero]

/-- Rounding to some places gives the nearest number of units of the last one. -/
theorem value_roundTo (places : Nat) (d : Decimal) :
    (d.roundTo places).value = nearestWhole (d.value * pow10 places) / pow10 places := by
  by_cases h : d.scale ≤ places
  · -- There is nothing to round.
    have hwhole : d.value * pow10 places = (d.signed * pow10 (places - d.scale) : ℤ) := by
      rw [value_eq_div, ← Nat.add_sub_cancel' h, pow10_add, Nat.add_sub_cancel_left]
      push_cast
      rw [div_mul_eq_mul_div, ← mul_assoc, mul_div_right_comm, mul_div_cancel_right₀ _
        (cast_pow10_pos _).ne']
    rw [roundTo_of_scale_le h, hwhole, nearestWhole_intCast, ← hwhole,
      mul_div_cancel_right₀ _ (cast_pow10_pos _).ne']
  · have hscale : (d.roundTo places).scale = places := by rw [roundTo, dif_neg h]
    -- Without its sign, the number of units is the quotient that is rounded.
    have hunits : (divHalfUp d.coefficient (pow10 (d.scale - places)) : ℤ)
        = nearestWhole (d.coefficient / pow10 d.scale * pow10 places) := by
      have hsplit : (pow10 d.scale : ℚ) = pow10 (d.scale - places) * pow10 places := by
        rw [← Nat.cast_mul, ← pow10_add, Nat.sub_add_cancel (Nat.le_of_not_le h)]
      rw [divHalfUp_eq_nearestWhole _ (pow10_pos _), hsplit, ← div_div,
        div_mul_cancel₀ _ (cast_pow10_pos _).ne']
    rw [value_eq_div, value_eq_div, hscale, signed_roundTo h, hunits, signed]
    split
    · rw [Int.cast_neg, Int.cast_neg, Int.cast_natCast, neg_div, neg_div, neg_mul, nearestWhole_neg,
        Int.cast_neg, neg_div]
    · rfl

end Decimal

open Decimal

/-- **Rounding gives the nearest whole number of cents.** -/
theorem value_roundMoney (d : Decimal) : (roundMoney d).value = nearestCents d.value / 100 := by
  rw [roundMoney, value_padTo, value_roundTo, nearestCents_eq]
  rfl

/-- Whole cents are not changed. -/
theorem Decimal.WholeCents.value_roundMoney_eq {d : Decimal} (h : d.WholeCents) :
    (roundMoney d).value = d.value := by
  obtain ⟨n, hn⟩ := h
  rw [value_roundMoney, hn, nearestCents_of_cents]

/-! ### One way of writing -/

namespace Decimal

/-- As many fractional digits as there is room for, up to `places`. -/
structure IsPadded (places : Nat) (d : Decimal) : Prop where
  scale_le : d.scale ≤ places
  full : d.scale < places → maxCoefficient < d.coefficient * 10

/-- Padding leaves no room. -/
theorem isPadded_padTo {places : Nat} (hplaces : places ≤ maxScale) {d : Decimal}
    (hd : d.scale ≤ places) : (d.padTo places).IsPadded places := by
  obtain ⟨padded, hpadded⟩ :
      ∃ padded, (List.range (places - d.scale + 1)).reverse.findSome? (fun k =>
      ofParts? d.negative (d.coefficient * pow10 k) (d.scale + k)) = some padded := by
    rw [← Option.isSome_iff_exists, List.findSome?_isSome_iff]
    -- At the latest it comes out well without any zero.
    refine ⟨0, by simp, Option.isSome_iff_exists.2 (ofParts?_exists ?_ d.scale_le)⟩
    rw [pow10_zero, Nat.mul_one]
    exact d.coefficient_le
  obtain ⟨k, hk, hparts, hfailed⟩ := findSome?_reverse_range hpadded
  obtain ⟨_, hcoefficient, hscale⟩ := ofParts?_spec hparts
  have heq : d.padTo places = padded := by rw [padTo, hpadded, Option.getD_some]
  rw [heq]
  refine ⟨by omega, fun hlt => ?_⟩
  -- One zero more has been tried before, and there was no room for it.
  by_contra hroom
  have hfits : d.coefficient * pow10 (k + 1) ≤ maxCoefficient := by
    rw [pow10_succ, ← Nat.mul_assoc, ← hcoefficient]
    exact Nat.le_of_not_lt hroom
  obtain ⟨longer, hlonger⟩ : ∃ longer, ofParts? d.negative (d.coefficient * pow10 (k + 1))
      (d.scale + (k + 1)) = some longer := ofParts?_exists hfits (by omega)
  rw [hfailed (k + 1) (Nat.lt_succ_self k) (by omega)] at hlonger
  cases hlonger

/-- What has no room for another digit has no more digits than another number of the same value. -/
theorem IsPadded.scale_le_scale {places : Nat} {a b : Decimal} (ha : a.IsPadded places)
    (hb : b.IsPadded places) (h : a.value = b.value) : b.scale ≤ a.scale := by
  by_contra hlt
  have hle : a.scale ≤ b.scale := Nat.le_of_lt (Nat.lt_of_not_le hlt)
  have hcross : a.coefficient * pow10 (b.scale - a.scale) = b.coefficient := by
    have hsame := congrArg Int.natAbs (sameValue_iff_value_eq.2 h)
    simp only [Int.natAbs_mul, natAbs_signed, Int.natAbs_natCast] at hsame
    rw [← Nat.add_sub_cancel' hle, pow10_add, Nat.mul_comm (pow10 a.scale),
      ← Nat.mul_assoc] at hsame
    exact Nat.eq_of_mul_eq_mul_right (pow10_pos _) hsame
  have hten : 10 ≤ pow10 (b.scale - a.scale) := pow10_le (j := 1) (by omega)
  have hroom : a.coefficient * 10 ≤ maxCoefficient :=
    Nat.le_trans (Nat.mul_le_mul_left _ hten) (hcross ▸ b.coefficient_le)
  exact absurd (ha.full (by have := hb.scale_le; omega)) (Nat.not_lt.2 hroom)

/-- **Sign and value** tell apart what has no room for another digit. -/
theorem IsPadded.ext {places : Nat} {a b : Decimal} (ha : a.IsPadded places)
    (hb : b.IsPadded places) (hn : a.negative = b.negative) (h : a.value = b.value) : a = b := by
  have hscale : a.scale = b.scale :=
    Nat.le_antisymm (hb.scale_le_scale ha h.symm) (ha.scale_le_scale hb h)
  have hcoefficient : a.coefficient = b.coefficient := by
    have hsame := congrArg Int.natAbs (sameValue_iff_value_eq.2 h)
    simp only [Int.natAbs_mul, natAbs_signed, Int.natAbs_natCast] at hsame
    rw [hscale] at hsame
    exact Nat.eq_of_mul_eq_mul_right (pow10_pos _) hsame
  cases a
  cases b
  simp_all

theorem HasPlainZero.roundTo {d : Decimal} (h : d.HasPlainZero) (places : Nat) :
    (d.roundTo places).HasPlainZero := by
  unfold Decimal.roundTo
  split
  · exact h
  · -- A sign is left only on what was zero before or is not zero now.
    intro hzero
    have hnone : divHalfUp d.coefficient (pow10 (d.scale - places)) = 0 := beq_iff_eq.1 hzero
    cases hd : d.isZero with
    | true => simp [h hd]
    | false => simp [hnone]

theorem HasPlainZero.padTo {d : Decimal} (h : d.HasPlainZero) (places : Nat) :
    (d.padTo places).HasPlainZero := by
  intro hzero
  obtain ⟨k, _, hn, hc, _⟩ := padTo_spec places d
  rw [isZero, beq_iff_eq, hc, Nat.mul_eq_zero] at hzero
  rw [hn]
  exact h (beq_iff_eq.2 (hzero.resolve_right (pow10_pos k).ne'))

end Decimal

theorem Decimal.HasPlainZero.roundMoney {d : Decimal} (h : d.HasPlainZero) :
    (roundMoney d).HasPlainZero :=
  (h.roundTo 2).padTo 2

/-- A rounded amount has as many of its two fractional digits as there is room for. -/
theorem isPadded_roundMoney (d : Decimal) : (roundMoney d).IsPadded 2 :=
  isPadded_padTo (by decide) (scale_roundTo_le 2 d)

/-- **How an amount is written** does not matter for what it is rounded to, if zeros
    have no sign. -/
theorem roundMoney_congr {a b : Decimal} (ha : a.HasPlainZero) (hb : b.HasPlainZero)
    (h : a.value = b.value) : roundMoney a = roundMoney b := by
  have hvalue : (roundMoney a).value = (roundMoney b).value := by
    rw [value_roundMoney, value_roundMoney, h]
  refine (isPadded_roundMoney a).ext (isPadded_roundMoney b) ?_ hvalue
  rw [ha.roundMoney.negative_eq, hb.roundMoney.negative_eq, hvalue]

end Payroll
