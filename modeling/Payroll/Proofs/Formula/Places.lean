import Payroll.Proofs.Decimal.Places
import Payroll.Proofs.Formula.Nesting

namespace Payroll.Formula

/-!
# Rounding to a number of places that is computed

The number of places is an argument of `ROUND` like the other one, so that it can come out
as any decimal.

* `places?_eq_ok_iff`, `places?_cases` — it counts by its value, but for the sign of a zero.
* `Phrase.means_round_iff`, `Expr.eval_roundTo_eq_ok_iff` — what a call of `ROUND` means, and its
  value once both arguments have one.
* `eval_round_places` — **rounding succeeds exactly for whole numbers of places from zero to ten**,
  a zero with a sign not being one, and gives the nearest multiple of the last place.
* `evaluate?_round_signed_zero` — a zero with a sign is refused, although it is as good as any
  other one elsewhere.
-/

open Decimal

/-! ### Numbers of places -/

/-- **A number of places** is a whole number up to ten, and not a zero with a sign. -/
theorem places?_eq_ok_iff {d : Decimal} {n : Nat} :
    places? d = .ok n ↔ d.HasPlainZero ∧ d.value = n ∧ n ≤ maxPlaces := by
  rw [← and_assoc, ← toNat?_eq_some_iff, places?]
  cases d.toNat? with
  | none => simp
  | some m =>
    by_cases hm : m ≤ maxPlaces
    · simp only [if_pos hm, Except.ok.injEq, Option.some.injEq]
      exact ⟨fun h => ⟨h, h ▸ hm⟩, And.left⟩
    · simp only [if_neg hm, Option.some.injEq, reduceCtorEq, false_iff, not_and]
      exact fun h => h ▸ hm

/-- Anything else is refused, and always for the same reason. -/
theorem places?_cases (d : Decimal) :
    (∃ n, places? d = .ok n) ∨ places? d = .error .invalidPlaces := by
  unfold places?
  split
  · split
    · exact .inl ⟨_, rfl⟩
    · exact .inr rfl
  · exact .inr rfl

/-! ### Calls -/

section

variable {vars : Variables} {name : String} {p q : Phrase} {e f x : Expr} {v places r : Decimal}

/-- A call of `ROUND` with two arguments means that, and nothing else. -/
theorem Phrase.means_round_iff (hname : SameName name "ROUND") (hp : p.Means vars [e])
    (hq : q.Means vars [f]) :
    (Phrase.call name (.arguments p q)).Means vars [x] ↔ x = .roundTo e f := by
  have hmeans : (Phrase.call name (.arguments p q)).Means vars [.roundTo e f] :=
    .call (.arguments hp hq) (.roundTo hname)
  constructor
  · intro hx
    exact (List.cons.inj (hx.unique hmeans)).1
  · rintro rfl
    exact hmeans

/-- Once both arguments have a value, it is the number of places that decides. -/
theorem Expr.eval_roundTo (hv : e.eval = .ok v) (hplaces : f.eval = .ok places) :
    (Expr.roundTo e f).eval = (places? places).map v.roundTo := by
  rw [eval, hv, hplaces]
  rfl

theorem Expr.eval_roundTo_eq_ok_iff (hv : e.eval = .ok v) (hplaces : f.eval = .ok places) :
    (Expr.roundTo e f).eval = .ok r ↔ ∃ n, places? places = .ok n ∧ r = v.roundTo n := by
  rw [eval_roundTo hv hplaces]
  rcases places?_cases places with ⟨n, hn⟩ | herror
  · simp [hn, Except.map, eq_comm]
  · simp [herror, Except.map]

/-- **Rounding to places.**  In some context let the arguments of a call of `ROUND`, its name being
    in letters of either case, have the values `v` and `places`, however they are computed.  The
    call means one expression, which is evaluated where the call is all of a formula.

    * There is a value exactly if `places` is a whole number from zero to ten, whatever the
      fractional digits it is written with, and not a zero with a sign.
    * The value is then the multiple of the last place that is nearest to `v`, ties away from zero,
      and it is `v` itself if that has no more fractional digits.
    * Otherwise the number of places is invalid. -/
theorem eval_round_places (hname : SameName name "ROUND") (hp : p.Means vars [e])
    (hq : q.Means vars [f]) (hv : e.eval = .ok v) (hplaces : f.eval = .ok places) :
    ∃ x, (∀ y, (Phrase.call name (.arguments p q)).Means vars [y] ↔ y = x) ∧
      (∀ text ts, text.length ≤ 1024 → tokens text = .ok ts →
        Derives .comparison ts (.call name (.arguments p q)) [] →
        (Phrase.call name (.arguments p q)).Within 64 0 → evaluate? text vars = x.eval) ∧
      ((∃ r, x.eval = .ok r) ↔ (∃ n : Nat, n ≤ 10 ∧ places.value = n) ∧ places.HasPlainZero) ∧
      (∀ r, x.eval = .ok r → ∃ n : Nat, places.value = n ∧
        (∀ s, IsNearestMultiple (1 / pow10 n) v.value s ↔ s = r.value) ∧ (v.scale ≤ n → r = v)) ∧
      ((¬ ∃ r, x.eval = .ok r) → x.eval = .error .invalidPlaces) := by
  have hsuccess := fun r => Expr.eval_roundTo_eq_ok_iff (r := r) hv hplaces
  refine ⟨.roundTo e f, fun y => Phrase.means_round_iff hname hp hq,
    fun text ts hlength htokens hderives hwithin => ?_, ?_, fun r hr => ?_, fun hnone => ?_⟩
  · have hmeans := (Phrase.means_round_iff hname hp hq).2 rfl
    rw [evaluate?_of_derives hlength htokens hderives hmeans]
    exact if_pos hwithin
  · simp only [hsuccess, places?_eq_ok_iff]
    constructor
    · rintro ⟨_, n, ⟨hplain, hn, hle⟩, _⟩
      exact ⟨⟨n, hle, hn⟩, hplain⟩
    · rintro ⟨⟨n, hle, hn⟩, hplain⟩
      exact ⟨_, n, ⟨hplain, hn, hle⟩, rfl⟩
  · obtain ⟨n, hn, rfl⟩ := (hsuccess r).1 hr
    have hnearest := isNearestMultiple_roundTo n v
    refine ⟨n, (places?_eq_ok_iff.1 hn).2.1, fun s => ⟨fun hs => hs.unique hnearest, ?_⟩,
      roundTo_of_scale_le⟩
    rintro rfl
    exact hnearest
  · rw [Expr.eval_roundTo hv hplaces]
    rcases places?_cases places with ⟨n, hn⟩ | herror
    · exact absurd ⟨_, (hsuccess _).2 ⟨n, hn, rfl⟩⟩ hnone
    · rw [herror]
      rfl

end

/-- A number half way between two multiples of a hundredth. -/
def halfway : Decimal := ⟨true, 1005, 3, by decide, by decide⟩

/-- So many hundredths. -/
def hundredths (n : Nat) : Decimal := (ofParts? false n 2).getD .zero

/-- A number of places that is a difference. -/
def difference (n : Nat) : Phrase := .arith .sub (.number (hundredths n)) (.number (hundredths 150))

/-- The tokens of a call that rounds to so many places. -/
def roundTokens (n : Nat) : List Token :=
  [.name "Round", .leftParen, .name "X", .comma, .number (hundredths n), .arith .sub,
    .number (hundredths 150), .rightParen]

theorem derives_roundTokens (n : Nat) :
    Derives .comparison (roundTokens n)
      (.call "Round" (.arguments (.name "X") (difference n))) [] := by
  have hplaces : Derives .arguments
      [.number (hundredths n), .arith .sub, .number (hundredths 150), .rightParen]
      (difference n) [.rightParen] :=
    .argument (.sum (.add (.inr rfl) (.product (.operand (.primary .number)))
      (.operand (.primary .number))))
  exact .sum (.product (.operand (.primary (.call
    (.arguments (.sum (.product (.operand (.primary .name)))) hplaces)))))

/-- The places to round `-1.005` to are a difference, which is a whole number in one formula and a
    negative one in the other. -/
theorem eval_round_places_computed :
    let vars : Variables := .ofList [("X", halfway)]
    (∃ r, evaluate? "Round(X, 3.50 - 1.50)" vars = .ok r ∧ r.value = -101 / 100) ∧
      evaluate? "Round(X, 0.50 - 1.50)" vars = .error .invalidPlaces := by
  intro vars
  have hname : SameName "Round" "ROUND" := by unfold SameName; decide
  have hX : (Phrase.name "X").Means vars [.number halfway] := .name (by decide)
  have hmeans : ∀ n,
      (difference n).Means vars [.arith .sub (.number (hundredths n)) (.number (hundredths 150))] :=
    fun n => .arith .number .number
  constructor
  · have heval : (Expr.arith .sub (.number (hundredths 350)) (.number (hundredths 150))).eval
        = .ok (hundredths 200) := by decide +kernel
    obtain ⟨x, -, hformula, hsuccess, hnearest, -⟩ :=
      eval_round_places hname hX (hmeans 350) rfl heval
    have htwo : (hundredths 200).value = (2 : Nat) := by decide +kernel
    obtain ⟨r, hr⟩ := hsuccess.2 ⟨⟨2, by decide, htwo⟩, hasPlainZero_of_nonneg (by decide)⟩
    refine ⟨r,
      (hformula _ _ (by decide) (by decide +kernel) (derives_roundTokens 350) (by decide)).trans hr,
      ?_⟩
    obtain ⟨n, hn, hmultiple, -⟩ := hnearest r hr
    obtain rfl : n = 2 := by exact_mod_cast hn.symm.trans htwo
    have hunits := isNearestMultiple_nearestWhole halfway.value (one_div_pos.2 (cast_pow10_pos 2))
    exact ((hmultiple _).1 hunits).symm.trans (by decide +kernel)
  · have heval : (Expr.arith .sub (.number (hundredths 50)) (.number (hundredths 150))).eval
        = .ok (hundredths 100).neg := by decide +kernel
    obtain ⟨x, -, hformula, hsuccess, -, hinvalid⟩ :=
      eval_round_places hname hX (hmeans 50) rfl heval
    refine (hformula _ _ (by decide) (by decide +kernel) (derives_roundTokens 50) (by decide)).trans
      (hinvalid ?_)
    rw [hsuccess]
    rintro ⟨⟨n, -, hn⟩, -⟩
    have hnegative : (hundredths 100).neg.value < 0 := by decide +kernel
    exact absurd (Nat.cast_nonneg n) (not_le.2 (hn ▸ hnegative))

/-- **A zero with a sign** is refused as a number of places, although it has the value of one and
    equals it in a comparison. -/
theorem evaluate?_round_signed_zero :
    let value : Decimal := ⟨false, 15, 1, by decide, by decide⟩
    let call := Phrase.call "ROUND" (.arguments (.number value) (.minus (.number .zero)))
    (∃ ts, tokens "ROUND(1.5, -0)" = .ok ts ∧ Derives .comparison ts call []) ∧ call.Within 64 0 ∧
      (∃ e f places, (Phrase.number value).Means .empty [e] ∧ e.eval = .ok value ∧
        (Phrase.minus (.number .zero)).Means .empty [f] ∧ f.eval = .ok places ∧
          places.value = (0 : Nat)) ∧
      evaluate? "0 == -0" .empty = .ok .one ∧
        evaluate? "ROUND(1.5, -0)" .empty = .error .invalidPlaces := by
  intro value call
  have hderives : Derives .comparison
      [.name "ROUND", .leftParen, .number value, .comma, .arith .sub, .number .zero, .rightParen]
      call [] :=
    .sum (.product (.operand (.primary (.call
      (.arguments (.sum (.product (.operand (.primary .number))))
        (.argument (.sum (.product (.operand (.minus (.primary .number)))))))))))
  refine ⟨⟨_, by decide +kernel, hderives⟩, by decide,
    ⟨_, _, _, .number, rfl, .minus .number, rfl, ?_⟩, ?_, ?_⟩
  · decide +kernel
  · decide +kernel
  · decide +kernel

end Payroll.Formula
