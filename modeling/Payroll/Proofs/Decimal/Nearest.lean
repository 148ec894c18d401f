import Mathlib.Algebra.Order.Field.Basic
import Mathlib.Algebra.Order.Ring.Abs
import Mathlib.Algebra.Order.Ring.Int
import Mathlib.Data.Nat.Find
import Payroll.Proofs.Decimal.Exact

namespace Payroll

/-!
# Sums, differences and products are rounded once

The exact result of an operation is a rational number, and what the operation answers depends on
this number alone: it is rounded at the last place that there is room for.  Scales and coefficients
of the operands have no part in it.

* `Decimal.unitsAt` — the size of a number in units of a decimal place, ties to even.
* `Decimal.lastPlace`, `Decimal.nearest?` — the last place with room, and the number rounded there.
* `Decimal.nearest?_eq_some` — a place is the last one if the next one has no room, or if there is
  nothing behind it.
* `Decimal.fits_iff_nearest?` — what a decimal stands for is not changed, and all else is.
* `Decimal.map_value_fit?` — bringing a coefficient within bounds rounds at the last place.
* `Decimal.map_value_add`, `Decimal.map_value_sub`, `Decimal.map_value_mul` — **the operations**.
-/

/-! ### Rounded quotients of naturals -/

/-- A quotient is rounded in the same way however it is written. -/
theorem divHalfEven_mul_right (n d : Nat) {k : Nat} (hk : 0 < k) :
    divHalfEven (n * k) (d * k) = divHalfEven n d := by
  have hgt : 2 * (n % d * k) > d * k ↔ 2 * (n % d) > d := by
    rw [← Nat.mul_assoc]
    exact Nat.mul_lt_mul_right hk
  have heq : 2 * (n % d * k) = d * k ↔ 2 * (n % d) = d := by
    rw [← Nat.mul_assoc]
    exact Nat.mul_left_inj hk.ne'
  unfold divHalfEven
  rw [Nat.mul_div_mul_right _ _ hk, Nat.mul_mod_mul_right]
  simp only [hgt, heq]

/-- Rounding does not go below the whole part of a quotient. -/
theorem div_le_divHalfEven (n d : Nat) : n / d ≤ divHalfEven n d := by
  unfold divHalfEven
  split <;> omega

theorem divHalfEven_one (n : Nat) : divHalfEven n 1 = n := by
  rw [Decimal.divHalfEven_of_dvd Nat.one_pos (Nat.one_dvd n), Nat.div_one]

/-- Less than a half is rounded to zero. -/
theorem divHalfEven_eq_zero {n d : Nat} (h : 2 * n < d) : divHalfEven n d = 0 := by
  have hlt : n < d := by omega
  rw [divHalfEven, Nat.div_eq_of_lt hlt, Nat.mod_eq_of_lt hlt, if_neg]
  omega

/-- Rounding keeps the order of quotients. -/
theorem divHalfEven_mono {n m d : Nat} (hd : 0 < d) (h : n ≤ m) :
    divHalfEven n d ≤ divHalfEven m d := by
  have hn := Nat.div_add_mod n d
  have hm := Nat.div_add_mod m d
  have hr : n % d < d := Nat.mod_lt n hd
  rcases Nat.lt_or_eq_of_le (Nat.div_le_div_right (c := d) h) with hlt | heq
  · -- Rounding goes no further up than to the next whole number.
    have hle : divHalfEven n d ≤ n / d + 1 := by
      unfold divHalfEven
      split <;> omega
    exact Nat.le_trans (Nat.le_trans hle hlt) (div_le_divHalfEven m d)
  · -- With the same whole part, the remainder decides.
    rw [heq] at hn
    have hrem : n % d ≤ m % d := by omega
    unfold divHalfEven
    rw [heq]
    split <;> split <;> omega

namespace Decimal

/-! ### Places -/

/-- The size of a number in units of a decimal place, rounded, ties to even. -/
def unitsAt (q : ℚ) (place : Nat) : Nat := divHalfEven (q.num.natAbs * pow10 place) q.den

theorem abs_eq_natAbs_div (q : ℚ) : |q| = q.num.natAbs / q.den := by
  conv_lhs => rw [← Rat.num_div_den q]
  rw [abs_div, ← Int.cast_abs, Int.abs_eq_natAbs, Nat.abs_cast, Int.cast_natCast]

/-- The units are the rounded quotient, in whichever way it is written. -/
theorem unitsAt_eq {q : ℚ} {t n d : Nat} (hd : 0 < d) (h : |q| * pow10 t = n / d) :
    unitsAt q t = divHalfEven n d := by
  have hcross : q.num.natAbs * pow10 t * d = n * q.den := by
    have hd' : (d : ℚ) ≠ 0 := by exact_mod_cast hd.ne'
    have hden : (q.den : ℚ) ≠ 0 := by exact_mod_cast q.den_nz
    rw [abs_eq_natAbs_div, div_mul_eq_mul_div, div_eq_div_iff hden hd'] at h
    exact_mod_cast h
  rw [unitsAt, ← divHalfEven_mul_right _ _ hd, hcross, Nat.mul_comm q.den,
    divHalfEven_mul_right _ _ q.den_pos]

theorem unitsAt_of_nat {q : ℚ} {t n : Nat} (h : |q| * pow10 t = n) : unitsAt q t = n := by
  have hquotient : |q| * pow10 t = n / (1 : Nat) := by rw [h, Nat.cast_one, div_one]
  rw [unitsAt_eq Nat.one_pos hquotient, divHalfEven_one]

/-- Later places have smaller units, and no fewer of them. -/
theorem unitsAt_mono (q : ℚ) {t u : Nat} (h : t ≤ u) : unitsAt q t ≤ unitsAt q u :=
  divHalfEven_mono q.den_pos (Nat.mul_le_mul_left _ (pow10_le h))

theorem le_unitsAt {q : ℚ} {t m : Nat} (h : m ≤ |q| * pow10 t) : m ≤ unitsAt q t := by
  refine Nat.le_trans ?_ (div_le_divHalfEven _ _)
  rw [Nat.le_div_iff_mul_le q.den_pos]
  have hden : (0 : ℚ) < q.den := by exact_mod_cast q.den_pos
  rw [abs_eq_natAbs_div, div_mul_eq_mul_div, le_div_iff₀ hden] at h
  exact_mod_cast h

/-- The number rounded at a decimal place. -/
def roundAt (q : ℚ) (place : Nat) : ℚ :=
  if q < 0 then -(unitsAt q place / pow10 place) else unitsAt q place / pow10 place

theorem roundAt_of_nonneg {q : ℚ} (h : 0 ≤ q) (place : Nat) :
    roundAt q place = unitsAt q place / pow10 place :=
  if_neg (not_lt.2 h)

/-- If nothing is left behind a place, there is nothing behind a later one. -/
theorem roundAt_of_exact {q : ℚ} {t u : Nat} (h : |q| * pow10 t = unitsAt q t) (htu : t ≤ u) :
    roundAt q u = roundAt q t := by
  have hsplit : (pow10 u : ℚ) = pow10 t * pow10 (u - t) := by
    rw [← Nat.cast_mul, ← pow10_add, Nat.add_sub_cancel' htu]
  have hunits : unitsAt q u = unitsAt q t * pow10 (u - t) := by
    refine unitsAt_of_nat ?_
    rw [hsplit, ← mul_assoc, h, Nat.cast_mul]
  have hsame : (unitsAt q u / pow10 u : ℚ) = unitsAt q t / pow10 t := by
    rw [hunits, Nat.cast_mul, hsplit, mul_div_mul_right _ _ (cast_pow10_pos _).ne']
  rw [roundAt, roundAt, hsame]

/-- The last place at which the coefficient has room for the units. -/
def lastPlace (q : ℚ) : Nat := Nat.findGreatest (fun t => unitsAt q t ≤ maxCoefficient) maxScale

/-- The number rounded at the last place that there is room for, if there is room for its whole
    part. -/
def nearest? (q : ℚ) : Option ℚ :=
  if unitsAt q 0 ≤ maxCoefficient then some (roundAt q (lastPlace q)) else none

theorem nearest?_eq_none {q : ℚ} (h : maxCoefficient < unitsAt q 0) : nearest? q = none :=
  if_neg (Nat.not_le.2 h)

/-- **Where a number is rounded**: at a place with room, if the next one has none, or if nothing is
    left behind it. -/
theorem nearest?_eq_some {q : ℚ} {t : Nat} (ht : t ≤ maxScale)
    (hunits : unitsAt q t ≤ maxCoefficient)
    (hlast : t = maxScale ∨ maxCoefficient < unitsAt q (t + 1) ∨ |q| * pow10 t = unitsAt q t) :
    nearest? q = some (roundAt q t) := by
  have hzero : unitsAt q 0 ≤ maxCoefficient := Nat.le_trans (unitsAt_mono q (Nat.zero_le t)) hunits
  have hle : t ≤ lastPlace q := Nat.le_findGreatest ht hunits
  rw [nearest?, if_pos hzero]
  rcases hlast with rfl | hfull | hexact
  · rw [Nat.le_antisymm (show lastPlace q ≤ maxScale from Nat.findGreatest_le _) hle]
  · have hroom : unitsAt q (lastPlace q) ≤ maxCoefficient :=
      Nat.findGreatest_spec (P := fun t => unitsAt q t ≤ maxCoefficient) ht hunits
    have hge : lastPlace q ≤ t := by
      by_contra hlt
      have hmore := Nat.lt_of_lt_of_le hfull (unitsAt_mono q (Nat.lt_of_not_le hlt))
      exact absurd hmore (Nat.not_lt.2 hroom)
    rw [Nat.le_antisymm hge hle]
  · rw [roundAt_of_exact hexact hle]

/-- Less than half a unit of the greatest scale is rounded to zero. -/
theorem nearest?_of_tiny {q : ℚ} (h : unitsAt q maxScale = 0) : nearest? q = some 0 := by
  rw [nearest?_eq_some (Nat.le_refl _) (h.trans_le (Nat.zero_le _)) (.inl rfl), roundAt, h]
  simp

/-! ### Values of decimals -/

theorem value_eq_ite (d : Decimal) :
    d.value = if d.negative then -(d.coefficient / pow10 d.scale : ℚ)
      else d.coefficient / pow10 d.scale := by
  rw [value_eq_div, signed]
  split
  · rw [Int.cast_neg, neg_div, Int.cast_natCast]
  · rw [Int.cast_natCast]

theorem abs_value (d : Decimal) : |d.value| = d.coefficient / pow10 d.scale := by
  rw [value_eq_div, abs_div, ← Int.cast_abs, Int.abs_eq_natAbs, natAbs_signed, Int.cast_natCast,
    abs_of_pos (cast_pow10_pos _)]

/-- Without its sign, a decimal stands for the absolute value. -/
theorem value_abs (d : Decimal) : d.abs.value = |d.value| := by
  have hsigned : d.abs.signed = d.coefficient := signed_of_nonneg rfl
  rw [abs_value, value_eq_div, hsigned]
  rfl

/-- What a decimal stands for is rounded to itself. -/
theorem nearest?_value (d : Decimal) : nearest? d.value = some d.value := by
  have hexact : |d.value| * pow10 d.scale = d.coefficient := by
    rw [abs_value, div_mul_cancel₀ _ (cast_pow10_pos _).ne']
  have hunits := unitsAt_of_nat hexact
  have hlast : |d.value| * pow10 d.scale = unitsAt d.value d.scale := by rw [hunits, hexact]
  rw [nearest?_eq_some d.scale_le (hunits.trans_le d.coefficient_le) (.inr (.inr hlast)), roundAt,
    hunits, ← abs_value]
  split
  · rename_i h
    rw [abs_of_neg h, neg_neg]
  · rename_i h
    rw [abs_of_nonneg (not_lt.1 h)]

/-- **A number that fits** is not changed. -/
theorem nearest?_of_fits {q : ℚ} (h : Fits q) : nearest? q = some q := by
  obtain ⟨d, rfl⟩ := h
  exact nearest?_value d

/-- **What fits** is what is not changed. -/
theorem fits_iff_nearest? {q : ℚ} : Fits q ↔ nearest? q = some q := by
  refine ⟨nearest?_of_fits, fun h => ?_⟩
  unfold nearest? at h
  split at h
  · rename_i hzero
    have hround := Option.some.inj h
    have hunits : unitsAt q (lastPlace q) ≤ maxCoefficient :=
      Nat.findGreatest_spec (P := fun t => unitsAt q t ≤ maxCoefficient) (Nat.zero_le _) hzero
    have hplace : lastPlace q ≤ maxScale := Nat.findGreatest_le _
    rw [← hround, roundAt]
    split
    · refine fits_iff.2 ⟨-unitsAt q (lastPlace q), _, ?_, hplace, ?_⟩
      · rwa [Int.natAbs_neg, Int.natAbs_natCast]
      · rw [Int.cast_neg, Int.cast_natCast, neg_div]
    · refine fits_iff.2 ⟨unitsAt q (lastPlace q), _, ?_, hplace, ?_⟩
      · rwa [Int.natAbs_natCast]
      · rw [Int.cast_natCast]
  · cases h

instance (q : ℚ) : Decidable (Fits q) := decidable_of_iff _ fits_iff_nearest?.symm

@[simp] theorem nearest?_zero : nearest? 0 = some 0 := nearest?_of_fits ⟨zero, value_zero⟩

theorem value_dropZeroSign (d : Decimal) : d.dropZeroSign.value = d.value := by
  unfold dropZeroSign
  split
  · rename_i h
    have habs : d.abs.isZero = true := h
    rw [isZero_iff_value_eq.1 h, isZero_iff_value_eq.1 habs]
  · rfl

/-- Of numbers other than zero the signs differ exactly if the product is negative. -/
theorem bne_negative {a b : Decimal} (ha : a.isZero = false) (hb : b.isZero = false) :
    (a.negative != b.negative) = decide (a.value * b.value < 0) := by
  have hna : a.negative = decide (a.value < 0) :=
    HasPlainZero.negative_eq fun hzero => absurd hzero (Bool.eq_false_iff.1 ha)
  have hnb : b.negative = decide (b.value < 0) :=
    HasPlainZero.negative_eq fun hzero => absurd hzero (Bool.eq_false_iff.1 hb)
  have ha0 : a.value ≠ 0 :=
    fun hzero => absurd (isZero_iff_value_eq.2 hzero) (Bool.eq_false_iff.1 ha)
  have hb0 : b.value ≠ 0 :=
    fun hzero => absurd (isZero_iff_value_eq.2 hzero) (Bool.eq_false_iff.1 hb)
  rw [hna, hnb, Bool.eq_iff_iff, bne_iff_ne, decide_eq_true_eq, mul_neg_iff, ne_eq,
    decide_eq_decide]
  rcases lt_or_gt_of_ne ha0 with ha | ha <;> rcases lt_or_gt_of_ne hb0 with hb | hb <;>
    simp [ha, hb, ha.not_gt, hb.not_gt]

theorem div_pow10_neg_iff {n : ℤ} {s : Nat} : (n / pow10 s : ℚ) < 0 ↔ n < 0 := by
  rw [div_lt_iff₀ (cast_pow10_pos s), zero_mul, Int.cast_lt_zero]

/-! ### Bringing within bounds -/

theorem ofParts?_eq_none {negative : Bool} {c s : Nat} (h : ofParts? negative c s = none)
    (hs : s ≤ maxScale) : maxCoefficient < c := by
  unfold ofParts? at h
  split at h
  · cases h
  · rename_i hout
    exact Nat.lt_of_not_le fun hc => hout ⟨hc, hs⟩

/-- **Bringing a coefficient within bounds** rounds the number at the last place with room. -/
theorem map_value_fit? (n : ℤ) (s : Nat) :
    (fit? (decide (n < 0)) n.natAbs s).map value = nearest? (n / pow10 s) := by
  have hpos := cast_pow10_pos s
  have habs : |(n / pow10 s : ℚ)| = n.natAbs / pow10 s := by
    rw [abs_div, ← Int.cast_abs, Int.abs_eq_natAbs, Int.cast_natCast, abs_of_pos hpos]
  -- Dropping `k` digits leaves the units of the place that is then the last one.
  have hunits : ∀ k ≤ s, unitsAt (n / pow10 s) (s - k) = divHalfEven n.natAbs (pow10 k) := by
    intro k hk
    refine unitsAt_eq (pow10_pos k) ?_
    have hsplit : (pow10 s : ℚ) = pow10 (s - k) * pow10 k := by
      rw [← Nat.cast_mul, ← pow10_add, Nat.sub_add_cancel hk]
    rw [habs, hsplit, div_mul_eq_div_div_swap, div_mul_cancel₀ _ (cast_pow10_pos _).ne']
  cases h : fit? (decide (n < 0)) n.natAbs s with
  | none =>
    rw [fit?, List.findSome?_eq_none_iff] at h
    have hall := h s (List.mem_range.2 (Nat.lt_succ_self s))
    have hout : maxCoefficient < divHalfEven n.natAbs (pow10 s) :=
      ofParts?_eq_none hall (by rw [Nat.sub_self]; exact Nat.zero_le _)
    rw [← hunits s (Nat.le_refl s), Nat.sub_self] at hout
    rw [Option.map_none, nearest?_eq_none hout]
  | some d =>
    obtain ⟨k, hk, hparts, hfailed⟩ := findSome?_range h
    obtain ⟨hn, hc, hs⟩ := ofParts?_spec hparts
    rw [← hunits k (Nat.lt_succ_iff.1 hk)] at hc
    have hlast : s - k = maxScale ∨ maxCoefficient < unitsAt (n / pow10 s) (s - k + 1) ∨
        |(n / pow10 s : ℚ)| * pow10 (s - k) = unitsAt (n / pow10 s) (s - k) := by
      rcases Nat.eq_zero_or_pos k with rfl | hdropped
      · -- No digit is dropped.
        refine .inr (.inr ?_)
        rw [hunits 0 (Nat.zero_le s), pow10_zero, divHalfEven_one, Nat.sub_zero, habs,
          div_mul_cancel₀ _ hpos.ne']
      · -- With one digit less dropped, the scale is out of bounds or the coefficient is.
        have hprevious := hfailed (k - 1) (by omega)
        by_cases hscale : s - (k - 1) ≤ maxScale
        · have hfull := ofParts?_eq_none hprevious hscale
          rw [← hunits (k - 1) (by omega), show s - (k - 1) = s - k + 1 by omega] at hfull
          exact .inr (.inl hfull)
        · have hle := hs ▸ d.scale_le
          exact .inl (by omega)
    rw [Option.map_some, nearest?_eq_some (hs ▸ d.scale_le) (hc ▸ d.coefficient_le) hlast, roundAt,
      value_eq_ite, hn, hc, hs]
    simp only [div_pow10_neg_iff, decide_eq_true_eq]

/-! ### Operations -/

theorem map_value_sumOf (x : ℤ) (i : Nat) (y : ℤ) (j : Nat) :
    (sumOf x i y j).map value = nearest? (x / pow10 i + y / pow10 j) := by
  rw [div_pow10_add_div_pow10]
  exact map_value_fit? _ _

/-- **A sum** is the exact one, rounded once. -/
theorem map_value_add (a b : Decimal) : (a.add b).map value = nearest? (a.value + b.value) := by
  unfold add
  split
  · rename_i ha
    rw [isZero_iff_value_eq.1 ha, zero_add, nearest?_value, Option.map_some]
  split
  · rename_i hb
    rw [isZero_iff_value_eq.1 hb, add_zero, nearest?_value, Option.map_some]
  · rw [map_value_sumOf, value_eq_div a, value_eq_div b]

/-- **A difference** is the exact one, rounded once. -/
theorem map_value_sub (a b : Decimal) : (a.sub b).map value = nearest? (a.value - b.value) := by
  unfold sub
  split
  · rename_i ha
    rw [isZero_iff_value_eq.1 ha, zero_sub, ← value_neg, nearest?_value, Option.map_some]
    split
    · rename_i hb
      rw [value_neg, isZero_iff_value_eq.1 hb, neg_zero]
    · rfl
  split
  · rename_i hb
    rw [isZero_iff_value_eq.1 hb, sub_zero, nearest?_value, Option.map_some]
  · rw [map_value_sumOf, value_eq_div a, value_eq_div b, Int.cast_neg, neg_div, sub_eq_add_neg]

/-- The product of two coefficients of thirty-two bits at most is out of sight behind forty-seven
    places. -/
theorem nearest?_mul_of_short {a b : Decimal} (ha : a.isShort = true) (hb : b.isShort = true)
    (hscale : a.scale + b.scale > 47) : nearest? (a.value * b.value) = some 0 := by
  have hten : pow10 20 ≤ pow10 (a.scale + b.scale - maxScale) :=
    pow10_le (by unfold maxScale; omega)
  have hunits : |a.value * b.value| * pow10 maxScale
      = (a.coefficient * b.coefficient : Nat) / pow10 (a.scale + b.scale - maxScale) := by
    have hsplit : (pow10 (a.scale + b.scale) : ℚ)
        = pow10 maxScale * pow10 (a.scale + b.scale - maxScale) := by
      rw [← Nat.cast_mul, ← pow10_add, Nat.add_sub_cancel' (by unfold maxScale; omega)]
    rw [abs_mul, abs_value, abs_value, div_mul_div_comm, ← Nat.cast_mul, ← Nat.cast_mul,
      ← pow10_add, hsplit, mul_comm (pow10 maxScale : ℚ), ← div_div,
      div_mul_cancel₀ _ (cast_pow10_pos _).ne']
  rw [isShort, decide_eq_true_eq] at ha hb
  have hcoefficient : a.coefficient * b.coefficient ≤ (pow2 32 - 1) * (pow2 32 - 1) :=
    Nat.mul_le_mul (Nat.le_pred_of_lt ha) (Nat.le_pred_of_lt hb)
  have hsmall : 2 * ((pow2 32 - 1) * (pow2 32 - 1)) < pow10 20 := by decide +kernel
  refine nearest?_of_tiny ((unitsAt_eq (pow10_pos _) hunits).trans (divHalfEven_eq_zero ?_))
  omega

/-- **A product** is the exact one, rounded once. -/
theorem map_value_mul (a b : Decimal) : (a.mul b).map value = nearest? (a.value * b.value) := by
  unfold mul
  simp only
  split
  · rename_i hzero
    rw [Bool.or_eq_true, isZero_iff_value_eq, isZero_iff_value_eq] at hzero
    rw [mul_eq_zero.2 hzero, nearest?_zero, Option.map_some, value_zero]
  rename_i hzero
  rw [Bool.or_eq_true, not_or, Bool.not_eq_true, Bool.not_eq_true] at hzero
  have hfit : (fit? (a.negative != b.negative) (a.coefficient * b.coefficient)
      (a.scale + b.scale)).map value = nearest? (a.value * b.value) := by
    have hquotient : a.value * b.value = (a.signed * b.signed : ℤ) / pow10 (a.scale + b.scale) := by
      rw [value_eq_div a, value_eq_div b, pow10_add, Int.cast_mul, Nat.cast_mul, div_mul_div_comm]
    rw [bne_negative hzero.1 hzero.2, hquotient, decide_eq_decide.2 div_pow10_neg_iff,
      ← map_value_fit?, Int.natAbs_mul, natAbs_signed, natAbs_signed]
  split
  · rename_i hshort
    rw [Bool.and_eq_true] at hshort
    split
    · rename_i hscale
      rw [nearest?_mul_of_short hshort.1 hshort.2 hscale, Option.map_some, value_zero]
    · rw [Option.map_map, ← hfit]
      exact congrArg (Option.map · _) (funext value_dropZeroSign)
  · exact hfit

end Decimal

end Payroll
