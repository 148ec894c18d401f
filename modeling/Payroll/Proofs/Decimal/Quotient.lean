import Mathlib.Algebra.Order.Field.Power
import Mathlib.Tactic.FieldSimp
import Mathlib.Tactic.Linarith
import Mathlib.Tactic.Positivity
import Payroll.Proofs.Decimal.Nearest

namespace Payroll

/-!
# Quotients are rounded once

Long division finds the digits of a quotient in groups.  What it comes to is the exact quotient,
rounded at the last place that there is room for, with one exception: where the digits overrun the
room, and what overruns it is a five with nothing behind it, a divisor of more than sixty-four bits
makes it round up even if that is odd.

* `Decimal.OverrunsByFive`, `Decimal.TiesUp` — that exception, said of the exact quotient and of the
  operands.
* `Decimal.Remains` — what is known while digits are being found.
* `Decimal.Answers`, `Decimal.answers_longDivision` — long division rounds the quotient once.
* `Decimal.map_value_div` — **so does division**, unless it ties up.
* `Decimal.Fits.not_tiesUp` — no division does whose quotient fits.
-/

namespace Decimal

/-! ### Quotients that overrun -/

/-- At some place the number is whole, and it has one digit more there than there is room for:
    this digit is a five behind an even one, and far enough in front of it the digits are those of
    the greatest coefficient. -/
def OverrunsByFive (q : ℚ) : Prop :=
  ∃ place ≤ maxScale, |q| * pow10 place = unitsAt q place ∧ maxCoefficient < unitsAt q place ∧
    unitsAt q place / pow10 9 = maxCoefficient / pow10 9 ∧ unitsAt q place % 10 = 5 ∧
    unitsAt q place / 10 % 2 = 0

instance (q : ℚ) : Decidable (OverrunsByFive q) :=
  inferInstanceAs (Decidable (∃ place ≤ maxScale, _))

/-- Division of such numbers can round a tie up: the divisor takes more than sixty-four bits. -/
def TiesUp (a b : Decimal) : Prop := pow2 64 ≤ b.coefficient ∧ OverrunsByFive (a.value / b.value)

instance (a b : Decimal) : Decidable (a.TiesUp b) := inferInstanceAs (Decidable (_ ∧ _))

/-! ### Room for digits -/

/-- There is room for nine digits, or for no more than so many. -/
theorem room_spec {q : Nat} {s : Int} (hq : q ≤ maxCoefficient) (hs : s ≤ maxScale) :
    room q s ≤ 9 ∧ s + room q s ≤ maxScale ∧ q * pow10 (room q s) ≤ maxCoefficient ∧
      (room q s < 9 → s + room q s = maxScale ∨ maxCoefficient < q * pow10 (room q s + 1)) := by
  obtain ⟨p, hp⟩ : ∃ p, (List.range 10).reverse.find? (fun p : Nat =>
      decide (s + p ≤ maxScale ∧ q * pow10 p ≤ maxCoefficient)) = some p := by
    rw [← Option.isSome_iff_exists, List.find?_isSome]
    exact ⟨0, by simp, by simpa using ⟨hs, hq⟩⟩
  have hroom : room q s = p := by rw [room, hp, Option.getD_some]
  rw [List.find?_eq_findSome?_guard] at hp
  obtain ⟨k, hk, hfound, hfailed⟩ := findSome?_reverse_range hp
  rw [Option.guard_eq_some_iff] at hfound
  obtain ⟨rfl, hfits⟩ := hfound
  rw [decide_eq_true_eq] at hfits
  rw [hroom]
  refine ⟨by omega, hfits.1, hfits.2, fun hlt => ?_⟩
  have hnext := hfailed (k + 1) (Nat.lt_succ_self k) (by omega)
  rw [Option.guard_eq_none_iff, decide_eq_false_iff_not, not_and_or] at hnext
  rcases hnext with hscale | hfull
  · exact .inl (by omega)
  · exact .inr (Nat.lt_of_not_le hfull)

/-! ### Digits found so far -/

/-- `q` are the digits found at the scale `s`, and `r` is what is left to divide: the quotient `x`
    is `(q + r / v) / 10 ^ s`. -/
structure Remains (v q r : Nat) (s : Int) (x : ℚ) : Prop where
  rest_lt : r < v
  le : q ≤ maxCoefficient
  scale_le : s ≤ maxScale
  eq : x * (10 : ℚ) ^ s = q + r / v

section

variable {v q r : Nat} {s : Int} {x : ℚ}

theorem cast_pow10 (k : Nat) : (pow10 k : ℚ) = (10 : ℚ) ^ (k : ℤ) := by
  rw [zpow_natCast, pow10, Nat.pow_eq, Nat.cast_pow]
  rfl

theorem Remains.pos (h : Remains v q r s x) : 0 < v := Nat.zero_lt_of_lt h.rest_lt

theorem Remains.nonneg (h : Remains v q r s x) : 0 ≤ x := by
  have hq : (0 : ℚ) ≤ q + r / v := by positivity
  have hten : (0 : ℚ) < (10 : ℚ) ^ s := by positivity
  rw [← h.eq] at hq
  exact nonneg_of_mul_nonneg_left hq hten

/-- The quotient in units of a place, if the place is `k` behind the last one so far. -/
theorem Remains.abs_mul_pow10 (h : Remains v q r s x) {t k : Nat} (hk : (t : ℤ) = s + k) :
    |x| * pow10 t = (q + r / v) * pow10 k := by
  rw [abs_of_nonneg h.nonneg, cast_pow10, cast_pow10, hk, zpow_add₀ (by norm_num), ← mul_assoc,
    h.eq]

/-- The digits found are no more than the quotient. -/
theorem Remains.le_unitsAt (h : Remains v q r s x) {t k : Nat} (hk : (t : ℤ) = s + k) :
    q * pow10 k ≤ unitsAt x t := by
  refine Decimal.le_unitsAt ?_
  rw [h.abs_mul_pow10 hk, Nat.cast_mul]
  have hrest : (0 : ℚ) ≤ r / v := by positivity
  exact mul_le_mul_of_nonneg_right (by linarith) (cast_pow10_pos k).le

/-- At the last place so far, the quotient is rounded by comparing the rest with the divisor. -/
theorem Remains.unitsAt_eq (h : Remains v q r s x) {t : Nat} (ht : (t : ℤ) = s) :
    unitsAt x t = if 2 * r > v ∨ 2 * r = v ∧ q % 2 = 1 then q + 1 else q := by
  have hv : (v : ℚ) ≠ 0 := by exact_mod_cast h.pos.ne'
  have hquotient : |x| * pow10 t = (v * q + r : Nat) / v := by
    rw [h.abs_mul_pow10 (k := 0) (by simpa using ht), pow10_zero]
    push_cast
    field_simp
  rw [Decimal.unitsAt_eq h.pos hquotient, divHalfEven, Nat.mul_add_div h.pos, Nat.mul_add_mod,
    Nat.div_eq_of_lt h.rest_lt, Nat.mod_eq_of_lt h.rest_lt, Nat.add_zero]

/-- With `p` more digits found, the rest is that of the last of them. -/
theorem Remains.eq_longer (h : Remains v q r s x) (p : Nat) :
    x * (10 : ℚ) ^ (s + p)
      = (q * pow10 p + r * pow10 p / v : Nat) + (r * pow10 p % v : Nat) / (v : ℚ) := by
  have hv : (v : ℚ) ≠ 0 := by exact_mod_cast h.pos.ne'
  have hrest : (r * pow10 p : ℚ) = v * (r * pow10 p / v : Nat) + (r * pow10 p % v : Nat) := by
    exact_mod_cast (Nat.div_add_mod (r * pow10 p) v).symm
  rw [zpow_add₀ (by norm_num), ← mul_assoc, h.eq, ← cast_pow10, Nat.cast_add, Nat.cast_mul, add_mul,
    div_mul_eq_mul_div, hrest]
  field_simp
  ring

/-- The digits found are no more than there would be if the rest were all of the divisor. -/
theorem Remains.longer_lt (h : Remains v q r s x) (p : Nat) :
    q * pow10 p + r * pow10 p / v < (q + 1) * pow10 p := by
  have hrest : r * pow10 p / v < pow10 p :=
    (Nat.div_lt_iff_lt_mul h.pos).2 (by
      rw [Nat.mul_comm]
      exact Nat.mul_lt_mul_of_pos_left h.rest_lt (pow10_pos p))
  rw [Nat.succ_mul]
  omega

/-! ### What long division answers -/

/-- An answer stands for the number, rounded once, or the number is out of bounds. -/
def Answers (x : ℚ) : Option (Nat × Nat) → Prop
  | none => maxCoefficient < unitsAt x 0
  | some (c, t) =>
    c ≤ maxCoefficient ∧ t ≤ maxScale ∧ nearest? x = some ((c : ℚ) / pow10 t) ∨
      maxCoefficient < c ∧ t = 0 ∧ maxCoefficient < unitsAt x 0

/-- The units of the last place are an answer. -/
theorem answers_of_units {t c : Nat} (hx : 0 ≤ x) (hunits : unitsAt x t = c)
    (hc : c ≤ maxCoefficient) (ht : t ≤ maxScale)
    (hlast : t = maxScale ∨ maxCoefficient < unitsAt x (t + 1) ∨ |x| * pow10 t = unitsAt x t) :
    Answers x (some (c, t)) := by
  refine .inl ⟨hc, ht, ?_⟩
  rw [nearest?_eq_some ht (hunits.trans_le hc) hlast, roundAt_of_nonneg hx, hunits]

/-- A division that has come out even. -/
theorem Remains.answers_even (h : Remains v q 0 s x) :
    Answers x (if 0 ≤ s then some (q, s.toNat) else some (q * pow10 (-s).toNat, 0)) := by
  have hscale := h.scale_le
  split
  · rename_i hs
    have hexact : |x| * pow10 s.toNat = q := by
      rw [h.abs_mul_pow10 (k := 0) (by omega)]
      simp
    have hunits := unitsAt_of_nat hexact
    exact answers_of_units h.nonneg hunits h.le (by omega) (.inr (.inr (by rw [hunits, hexact])))
  · rename_i hs
    have hexact : |x| * pow10 0 = (q * pow10 (-s).toNat : Nat) := by
      rw [h.abs_mul_pow10 (k := (-s).toNat) (by omega), Nat.cast_mul]
      simp
    have hunits := unitsAt_of_nat hexact
    by_cases hc : q * pow10 (-s).toNat ≤ maxCoefficient
    · exact answers_of_units h.nonneg hunits hc (Nat.zero_le _)
        (.inr (.inr (by rw [hunits, hexact])))
    · exact .inr ⟨Nat.lt_of_not_le hc, rfl, hunits ▸ Nat.lt_of_not_le hc⟩

/-- There is no room for all of the digits in front of the point. -/
theorem Remains.answers_none (h : Remains v q r s x) (hp : room q s < 9) (hs : s + room q s < 0) :
    maxCoefficient < unitsAt x 0 := by
  obtain ⟨_, _, _, hfull⟩ := room_spec h.le h.scale_le
  have hmore : maxCoefficient < q * pow10 (room q s + 1) := (hfull hp).resolve_left (by
    unfold maxScale
    omega)
  have hle : q * pow10 (room q s + 1) ≤ q * pow10 (-s).toNat :=
    Nat.mul_le_mul_left _ (pow10_le (by omega))
  exact Nat.lt_of_lt_of_le hmore (Nat.le_trans hle (h.le_unitsAt (by omega)))

/-- The units of a place from those of the next one, `c` and a rest of `l / v`: the last digit of
    `c` is dropped. -/
theorem unitsAt_of_next {t c l : Nat} (hl : l < v) (h : |x| * pow10 (t + 1) = c + l / (v : ℚ)) :
    unitsAt x t = if 2 * (l + v * (c % 10)) > v * 10 ∨ 2 * (l + v * (c % 10)) = v * 10 ∧
      c / 10 % 2 = 1
      then c / 10 + 1 else c / 10 := by
  have hv : 0 < v := Nat.zero_lt_of_lt hl
  have hv' : (v : ℚ) ≠ 0 := by exact_mod_cast hv.ne'
  have hquotient : |x| * pow10 t = (v * c + l : Nat) / (v * 10 : Nat) := by
    rw [pow10_succ, Nat.cast_mul, ← mul_assoc, Nat.cast_ofNat] at h
    rw [← mul_div_cancel_right₀ (|x| * pow10 t) (show (10 : ℚ) ≠ 0 by norm_num), h]
    push_cast
    field_simp
  have hwhole : (v * c + l) / (v * 10) = c / 10 := by
    rw [← Nat.div_div_eq_div_mul, Nat.mul_add_div hv, Nat.div_eq_of_lt hl, Nat.add_zero]
  have hrest : (v * c + l) % (v * 10) = l + v * (c % 10) := by
    rw [Nat.mod_mul, Nat.mul_add_mod, Nat.mod_eq_of_lt hl, Nat.mul_add_div hv, Nat.div_eq_of_lt hl,
      Nat.add_zero]
  rw [Decimal.unitsAt_eq (by omega) hquotient, divHalfEven, hwhole, hrest]

/-- There is no room for another digit. -/
theorem Remains.answers_full (h : Remains v q r s x) (hs : 0 ≤ s) (hp : room q s = 0) {c : Nat}
    (hc : c = if 2 * r > v ∨ 2 * r = v ∧ q % 2 = 1 then q + 1 else q) :
    Answers x (if c ≤ maxCoefficient then some (c, s.toNat)
      else if s = 0 then none else some ((c + 5) / 10, s.toNat - 1)) := by
  have hscale := h.scale_le
  have hunits : unitsAt x s.toNat = c := (h.unitsAt_eq (by omega)).trans hc.symm
  obtain ⟨_, _, _, hfull⟩ := room_spec h.le h.scale_le
  rw [hp] at hfull
  have hlast : s.toNat = maxScale ∨ maxCoefficient < unitsAt x (s.toNat + 1) := by
    rcases hfull (by omega) with hend | hmore
    · exact .inl (by omega)
    · exact .inr (Nat.lt_of_lt_of_le hmore (h.le_unitsAt (by omega)))
  split
  · rename_i hle
    exact answers_of_units h.nonneg hunits hle (by omega) (hlast.imp_right .inl)
  rename_i hover
  rw [← hunits] at hover
  split
  · rename_i hzero
    subst hzero
    exact Nat.lt_of_not_le hover
  · rename_i hne
    -- Only rounding up can lead out of bounds, and only from the greatest coefficient.
    rw [hunits] at hover
    have hle := h.le
    have hrest := h.rest_lt
    obtain ⟨hq, hr⟩ : q = maxCoefficient ∧ 0 < r := by
      split at hc <;> omega
    have hnext : |x| * pow10 (s.toNat - 1 + 1) = q + r / (v : ℚ) := by
      rw [h.abs_mul_pow10 (k := 0) (by omega)]
      simp
    have hup : 2 * (r + v * (q % 10)) > v * 10 := by
      rw [hq, show maxCoefficient % 10 = 5 from rfl]
      omega
    have hbefore : unitsAt x (s.toNat - 1) = (c + 5) / 10 := by
      rw [unitsAt_of_next h.rest_lt hnext, if_pos (.inl hup)]
      unfold maxCoefficient at hq hover
      split at hc <;> omega
    refine answers_of_units h.nonneg hbefore ?_ (by omega) (.inr (.inl ?_))
    · unfold maxCoefficient at hq ⊢
      split at hc <;> omega
    · rw [show s.toNat - 1 + 1 = s.toNat by omega, hunits]
      exact Nat.lt_of_not_le hover

/-- The digits found overrun the room. -/
theorem Remains.answers_overrun (h : Remains v q r s x) (htie : pow2 64 ≤ v → ¬ OverrunsByFive x)
    {longer left : Nat}
    (hlonger : longer = q * pow10 (room q s) + r * pow10 (room q s) / v)
    (hleft : left = r * pow10 (room q s) % v) (hover : maxCoefficient < longer) :
    Answers x (if s + room q s ≤ 0 then none
      else some (if longer % 10 > 5 ∨
          longer % 10 = 5 ∧ (left ≠ 0 ∨ longer / 10 % 2 = 1 ∨ pow2 64 ≤ v)
        then longer / 10 + 1 else longer / 10, (s + room q s).toNat - 1)) := by
  obtain ⟨hnine, hscale, hroom, _⟩ := room_spec h.le h.scale_le
  have hvalue := h.eq_longer (room q s)
  have hlt := h.longer_lt (room q s)
  rw [← hlonger, ← hleft] at hvalue
  rw [← hlonger] at hlt
  have hrest : left < v := hleft ▸ Nat.mod_lt _ h.pos
  split
  · -- Without any fractional digit there are too many.
    rename_i hs
    refine Nat.lt_of_lt_of_le hover (Decimal.le_unitsAt ?_)
    have hsmall : x * (10 : ℚ) ^ (s + room q s) ≤ x :=
      mul_le_of_le_one_right h.nonneg (zpow_le_one_of_nonpos₀ (by norm_num) hs)
    have hpart : (0 : ℚ) ≤ left / v := by positivity
    rw [abs_of_nonneg h.nonneg, pow10_zero, Nat.cast_one, mul_one]
    linarith
  · rename_i hs
    have hnext : |x| * pow10 ((s + room q s).toNat - 1 + 1) = longer + left / (v : ℚ) := by
      rw [abs_of_nonneg h.nonneg, cast_pow10, show (((s + room q s).toNat - 1 + 1 : Nat) : ℤ)
        = s + room q s by omega, hvalue]
    -- The digits in front of the last nine are those that there is room for.
    have hprefix : longer / pow10 (room q s) = maxCoefficient / pow10 (room q s) := by
      rw [Nat.div_eq_of_lt_le (hroom.trans hover.le) hlt,
        Nat.div_eq_of_lt_le hroom (Nat.lt_of_lt_of_le hover hlt.le)]
    have hten : pow10 9 = pow10 (room q s) * pow10 (9 - room q s) := by
      rw [← pow10_add, Nat.add_sub_cancel' hnine]
    -- A five that ends the quotient behind an even digit is what long division must not meet.
    have hfive : pow2 64 ≤ v → longer % 10 = 5 → longer / 10 % 2 = 0 → left ≠ 0 := by
      intro hwide hdropped heven hzero
      rw [hzero, Nat.cast_zero, zero_div, add_zero] at hnext
      have hunits := unitsAt_of_nat hnext
      refine htie hwide
        ⟨(s + room q s).toNat - 1 + 1, by omega, by rw [hunits, hnext], by rwa [hunits], ?_,
        by rwa [hunits], by rwa [hunits]⟩
      rw [hunits, hten, ← Nat.div_div_eq_div_mul, ← Nat.div_div_eq_div_mul, hprefix]
    have hup : (2 * (left + v * (longer % 10)) > v * 10 ∨
          2 * (left + v * (longer % 10)) = v * 10 ∧ longer / 10 % 2 = 1) ↔
        (longer % 10 > 5 ∨ longer % 10 = 5 ∧ (left ≠ 0 ∨ longer / 10 % 2 = 1 ∨ pow2 64 ≤ v)) := by
      rcases Nat.lt_trichotomy (longer % 10) 5 with hless | hfive' | hmore
      · have hle : v * (longer % 10) ≤ v * 4 := Nat.mul_le_mul_left v (by omega)
        omega
      · rw [hfive'] at hfive ⊢
        omega
      · have hge : v * 6 ≤ v * (longer % 10) := Nat.mul_le_mul_left v (by omega)
        omega
    have hunits := unitsAt_of_next hrest hnext
    simp only [hup] at hunits
    refine answers_of_units h.nonneg hunits ?_ (by omega) (.inr (.inl ?_))
    · have hsmall : pow10 (room q s) ≤ 1000000000 := pow10_le (k := 9) hnine
      rw [Nat.succ_mul] at hlt
      unfold maxCoefficient at hroom ⊢
      split <;> omega
    · refine Nat.lt_of_lt_of_le hover (Decimal.le_unitsAt ?_)
      rw [hnext]
      exact le_add_of_nonneg_right (by positivity)

/-- **Long division** rounds the quotient once, unless it ties up. -/
theorem answers_longDivision (h : Remains v q r s x) (htie : pow2 64 ≤ v → ¬ OverrunsByFive x) :
    Answers x (longDivision v q r s) := by
  fun_induction longDivision v q r s with
  | case1 q s hs =>
    have heven := h.answers_even
    rwa [if_pos hs] at heven
  | case2 q s hs =>
    have heven := h.answers_even
    rwa [if_neg hs] at heven
  | case3 q r s hr p hnone => exact h.answers_none hnone.1 hnone.2
  | case4 q r s hr p hnone hp rounded hle =>
    have hfull := h.answers_full (c := rounded) (by omega) hp rfl
    rwa [if_pos hle] at hfull
  | case5 q r hr rounded hover p hnone hp =>
    have hfull := h.answers_full (c := rounded) (by omega) hp rfl
    rwa [if_neg hover, if_pos rfl] at hfull
  | case6 q r s hr p hnone hp rounded hover hs =>
    have hfull := h.answers_full (c := rounded) (by omega) hp rfl
    rwa [if_neg hover, if_neg hs] at hfull
  | case7 q r s hr p hnone hp longer left hle ih =>
    refine ih ⟨Nat.mod_lt _ h.pos, hle, room_le hp, h.eq_longer p⟩
  | case8 q r s hr p hnone hp longer hover hs =>
    have hoverrun := h.answers_overrun htie rfl rfl (Nat.lt_of_not_le hover)
    rwa [if_pos hs] at hoverrun
  | case9 q r s hr p hnone hp longer left hover hs kept dropped up =>
    have hoverrun := h.answers_overrun htie rfl rfl (Nat.lt_of_not_le hover)
    rwa [if_neg hs] at hoverrun

/-! ### Zeros at the end -/

/-- Removing zeros at the end does not change what an answer stands for. -/
theorem answers_stripZeros {k b : Nat} (hk : 0 < k) {y : Nat × Nat} (h : Answers x (some y)) :
    Answers x (some (stripZeros k b y)) := by
  obtain ⟨c, t⟩ := y
  unfold stripZeros
  split
  · rename_i hzeros
    obtain ⟨_, hkt, hmod⟩ := hzeros
    rcases h with ⟨hc, ht, hnearest⟩ | ⟨_, hzero, _⟩
    · refine .inl ⟨Nat.le_trans (Nat.div_le_self ..) hc, Nat.le_trans (Nat.sub_le ..) ht, ?_⟩
      have hsplit : (c : ℚ) / pow10 t = (c / pow10 k : Nat) / pow10 (t - k) := by
        have hcoefficient : c = c / pow10 k * pow10 k :=
          (Nat.div_mul_cancel (Nat.dvd_of_mod_eq_zero hmod)).symm
        have hscale : pow10 t = pow10 (t - k) * pow10 k := by
          rw [← pow10_add, Nat.sub_add_cancel hkt]
        rw [hscale]
        conv_lhs => rw [hcoefficient]
        rw [Nat.cast_mul, Nat.cast_mul, mul_div_mul_right _ _ (cast_pow10_pos k).ne']
      rw [hnearest, hsplit]
    · simp only at hkt
      omega
  · exact h

theorem answers_tidy {y : Nat × Nat} (h : Answers x (some y)) : Answers x (some (tidy y)) :=
  answers_stripZeros (by decide) (answers_stripZeros (by decide) (answers_stripZeros (by decide)
    (answers_stripZeros (by decide) (answers_stripZeros (by decide)
      (answers_stripZeros (by decide) h)))))

end

/-! ### Division -/

theorem unitsAt_abs (q : ℚ) (t : Nat) : unitsAt |q| t = unitsAt q t := by
  rw [unitsAt, unitsAt, Rat.num_abs_eq_abs_num, Rat.den_abs_eq_den, Int.natAbs_abs]

theorem overrunsByFive_abs {q : ℚ} : OverrunsByFive |q| ↔ OverrunsByFive q := by
  simp only [OverrunsByFive, unitsAt_abs, abs_abs]

/-- Rounding looks at the sign only to put it back. -/
theorem nearest?_abs (q : ℚ) :
    nearest? q = (nearest? |q|).map fun m => if q < 0 then -m else m := by
  have hround : ∀ t, roundAt |q| t = unitsAt q t / pow10 t := by
    intro t
    rw [roundAt_of_nonneg (abs_nonneg q), unitsAt_abs]
  have hplace : lastPlace |q| = lastPlace q := by
    simp only [lastPlace, unitsAt_abs]
  rw [nearest?, nearest?, unitsAt_abs, hplace, hround]
  split
  · rfl
  · rfl

/-- An answer, with the sign put back, stands for the number, rounded once. -/
theorem Answers.map_value_ofParts? {q : ℚ} {y : Nat × Nat} (h : Answers |q| (some y)) :
    (ofParts? (decide (q < 0)) y.1 y.2).map value = nearest? q := by
  rw [nearest?_abs]
  rcases h with ⟨hc, ht, hnearest⟩ | ⟨hc, _, hunits⟩
  · have hexists : ∃ d, ofParts? (decide (q < 0)) y.1 y.2 = some d := ofParts?_exists hc ht
    obtain ⟨d, hd⟩ := hexists
    obtain ⟨hn, hcoefficient, hscale⟩ := ofParts?_spec hd
    rw [hd, hnearest, Option.map_some, Option.map_some, value_eq_ite, hn, hcoefficient, hscale]
    simp only [decide_eq_true_eq]
  · rw [nearest?_eq_none hunits, ofParts?,
      dif_neg fun hbounds => absurd hbounds.1 (Nat.not_le.2 hc)]
    rfl

/-- The first digits of a quotient. -/
theorem remains_start (a : Decimal) {b : Decimal} (hb : b.isZero = false) :
    Remains b.coefficient (a.coefficient / b.coefficient) (a.coefficient % b.coefficient)
      (a.scale - b.scale) |a.value / b.value| where
  rest_lt := Nat.mod_lt _ (by
    rw [isZero, beq_eq_false_iff_ne] at hb
    omega)
  le := Nat.le_trans (Nat.div_le_self ..) a.coefficient_le
  scale_le := by
    have := a.scale_le
    omega
  eq := by
    have hne : (b.coefficient : ℚ) ≠ 0 := by
      rw [isZero, beq_eq_false_iff_ne] at hb
      exact_mod_cast hb
    have hdigits : (a.coefficient : ℚ) = b.coefficient * (a.coefficient / b.coefficient : Nat)
        + (a.coefficient % b.coefficient : Nat) := by
      exact_mod_cast (Nat.div_add_mod a.coefficient b.coefficient).symm
    rw [abs_div, abs_value, abs_value, zpow_sub₀ (by norm_num), ← cast_pow10, ← cast_pow10, hdigits]
    have ha := (cast_pow10_pos a.scale).ne'
    have hb := (cast_pow10_pos b.scale).ne'
    field_simp

/-- **A quotient** is the exact one, rounded once, unless it ties up. -/
theorem map_value_div {a b : Decimal} (hb : b.isZero = false) (htie : ¬ a.TiesUp b) :
    (a.div b).map value = nearest? (a.value / b.value) := by
  unfold div
  split
  · rename_i ha
    rw [isZero_iff_value_eq.1 ha, zero_div, nearest?_zero, Option.map_some, value_zero]
  rename_i ha
  -- The digits are found without the signs.
  have hlong := answers_longDivision (remains_start a hb)
    fun hwide hfive => htie ⟨hwide, overrunsByFive_abs.1 hfive⟩
  have hsign : (a.negative != b.negative) = decide (a.value / b.value < 0) := by
    rw [bne_negative (Bool.eq_false_iff.2 ha) hb, decide_eq_decide, mul_neg_iff, div_neg_iff]
  cases hy : longDivision b.coefficient (a.coefficient / b.coefficient)
    (a.coefficient % b.coefficient)
      (a.scale - b.scale) with
  | none =>
    rw [hy] at hlong
    rw [nearest?_abs, nearest?_eq_none hlong]
    simp only [hy]
    rfl
  | some y =>
    rw [hy] at hlong
    have hanswer : Answers |a.value / b.value|
        (some (if a.coefficient % b.coefficient = 0 then y else tidy y)) := by
      split
      · exact hlong
      · exact answers_tidy hlong
    have hresult := hanswer.map_value_ofParts?
    simp only [hy, Option.bind_eq_bind, Option.bind_some, Option.map_map, hsign]
    rw [← hresult]
    exact congrArg (Option.map · _) (funext value_dropZeroSign)

/-- What fits has no digits that overrun the room. -/
theorem Fits.not_overrunsByFive {q : ℚ} (h : Fits q) : ¬ OverrunsByFive q := by
  rintro ⟨place, _, hwhole, hover, _, hfive, _⟩
  obtain ⟨d, rfl⟩ := h
  have hcross : d.coefficient * pow10 place = unitsAt d.value place * pow10 d.scale := by
    rw [abs_value, div_mul_eq_mul_div, div_eq_iff (cast_pow10_pos _).ne'] at hwhole
    exact_mod_cast hwhole
  rcases Nat.lt_or_ge d.scale place with hlt | hge
  · -- The decimal has fewer places, and the units of a later place end in a zero.
    have hunits : d.coefficient * pow10 (place - d.scale - 1) * 10 = unitsAt d.value place := by
      refine Nat.eq_of_mul_eq_mul_right (pow10_pos d.scale) ?_
      rw [Nat.mul_assoc _ _ 10, ← pow10_succ, Nat.mul_assoc, ← pow10_add,
        show place - d.scale - 1 + 1 + d.scale = place by omega, hcross]
    omega
  · -- It has more of them, so that its coefficient is no less than the units.
    have hunits : d.coefficient = unitsAt d.value place * pow10 (d.scale - place) := by
      refine Nat.eq_of_mul_eq_mul_right (pow10_pos place) ?_
      rw [Nat.mul_assoc, ← pow10_add, Nat.sub_add_cancel hge, hcross]
    have hle : unitsAt d.value place ≤ d.coefficient := by
      rw [hunits]
      exact Nat.le_mul_of_pos_right _ (pow10_pos _)
    exact absurd (Nat.lt_of_lt_of_le hover hle) (Nat.not_lt.2 d.coefficient_le)

/-- A quotient that fits does not tie up. -/
theorem Fits.not_tiesUp {a b : Decimal} (h : Fits (a.value / b.value)) : ¬ a.TiesUp b :=
  fun htie => h.not_overrunsByFive htie.2

end Decimal

end Payroll
