import Payroll.Proofs.Formula.Names
import Payroll.Proofs.Formula.Values

namespace Payroll

/-!
# Formulas over numbers written in another way

Variables can stand for the same numbers and be written differently, with more zeros at the end or
fewer.  The same text is then read as the same formula, but for how the values of its names are
written, and steady formulas have values of the same size.

* `Table.Restates` — the same keys, with decimals of the same value.
* `Formula.Phrase.Means.restate`, `Formula.parse_restate` — tokens are read as formulas of the same
  value.
* `Formula.Steady` — whatever formula the text is read as, it is steady.
* `Formula.evaluate?_restate` — **a steady text has the same value over restated variables**.
-/

open Decimal

/-! ### Restated tables -/

/-- Where a value is missing, one of the same size stands in for it. -/
theorem value_getD_congr {x x' : Option Decimal} (h : x.map value = x'.map value) {d d' : Decimal}
    (hd : d.value = d'.value) : (x.getD d).value = (x'.getD d').value := by
  rw [← Option.getD_map value, ← Option.getD_map value, h, hd]

/-- The same keys, with decimals of the same value. -/
def Table.Restates {κ : Type} [DecidableEq κ] (t t' : Table κ Decimal) : Prop :=
  ∀ k, (t.get? k).map value = (t'.get? k).map value

namespace Table.Restates

variable {κ : Type} [DecidableEq κ] {t t' : Table κ Decimal}

theorem refl (t : Table κ Decimal) : t.Restates t := fun _ => rfl

theorem symm (h : t.Restates t') : t'.Restates t := fun k => (h k).symm

/-- A key that has a value has one in the other table, too. -/
theorem exists_value (h : t.Restates t') {k : κ} {d : Decimal} (hd : t.get? k = some d) :
    ∃ d', t'.get? k = some d' ∧ d.value = d'.value := by
  have hk := h k
  rw [hd, Option.map_some] at hk
  obtain ⟨d', hd', hvalue⟩ := Option.map_eq_some_iff.1 hk.symm
  exact ⟨d', hd', hvalue.symm⟩

theorem set (h : t.Restates t') (k : κ) {d d' : Decimal} (hd : d.value = d'.value) :
    (t.set k d).Restates (t'.set k d') := by
  intro k'
  rw [get?_set, get?_set]
  split
  · rw [Option.map_some, Option.map_some, hd]
  · exact h k'

theorem erase (h : t.Restates t') (k : κ) : (t.erase k).Restates (t'.erase k) := by
  intro k'
  rw [get?_erase, get?_erase]
  split
  · rfl
  · exact h k'

/-- Entries of the same keys and values, set one after the other. -/
theorem foldl_set (h : t.Restates t') {es es' : List (κ × Decimal)}
    (hes : List.Forall₂ (fun e e' => e.1 = e'.1 ∧ e.2.value = e'.2.value) es es') :
    (es.foldl (fun t e => t.set e.1 e.2) t).Restates (es'.foldl (fun t e => t.set e.1 e.2) t') := by
  induction hes generalizing t t' with
  | nil => exact h
  | cons hentry _ ih =>
    obtain ⟨hkey, hvalue⟩ := hentry
    rw [List.foldl_cons, List.foldl_cons, hkey]
    exact ih (h.set _ hvalue)

end Table.Restates

namespace Formula

/-! ### Formulas of the same value -/

/-- The same value over numbers, or none for the same reason. -/
abbrev Expr.Agrees (e e' : Expr) : Prop := e.evalValue = e'.evalValue

/-- The greatest or least of many depends on their values only. -/
theorem Expr.Agrees.foldl {f : Expr → Expr → Expr}
    (hf : ∀ {a a' b b' : Expr}, a.Agrees a' → b.Agrees b' → (f a b).Agrees (f a' b'))
    {rest rest' : List Expr} (hrest : List.Forall₂ Expr.Agrees rest rest') {a a' : Expr}
    (ha : a.Agrees a') : (rest.foldl f a).Agrees (rest'.foldl f a') := by
  induction hrest generalizing a a' with
  | nil => exact ha
  | cons hb _ ih => exact ih (hf ha hb)

/-- Calls of one function on arguments of the same values have the same value. -/
theorem Calls.restate {name : String} {es es' : List Expr} {e : Expr} (h : Calls name es e)
    (hes : List.Forall₂ Expr.Agrees es es') : ∃ e', Calls name es' e' ∧ e.Agrees e' := by
  -- These two take any number of arguments, one after the other.
  have hmax : ∀ {a a' b b' : Expr}, a.Agrees a' → b.Agrees b' →
      (Expr.max a b).Agrees (.max a' b') := by
    intro a a' b b' ha hb
    simp only [Expr.Agrees, Expr.evalValue, ha, hb]
  have hmin : ∀ {a a' b b' : Expr}, a.Agrees a' → b.Agrees b' →
      (Expr.min a b).Agrees (.min a' b') := by
    intro a a' b b' ha hb
    simp only [Expr.Agrees, Expr.evalValue, ha, hb]
  cases h with
  | cond hname =>
    obtain _ | ⟨ht, _ | ⟨hy, _ | ⟨hn, _ | _⟩⟩⟩ := hes
    refine ⟨_, .cond hname, ?_⟩
    simp only [Expr.Agrees, Expr.evalValue, ht, hy, hn]
  | max hname =>
    obtain _ | ⟨ha, _ | ⟨hb, hrest⟩⟩ := hes
    exact ⟨_, .max hname, Expr.Agrees.foldl hmax hrest (hmax ha hb)⟩
  | min hname =>
    obtain _ | ⟨ha, _ | ⟨hb, hrest⟩⟩ := hes
    exact ⟨_, .min hname, Expr.Agrees.foldl hmin hrest (hmin ha hb)⟩
  | abs hname =>
    obtain _ | ⟨he, _ | _⟩ := hes
    refine ⟨_, .abs hname, ?_⟩
    simp only [Expr.Agrees, Expr.evalValue, he]
  | round hname =>
    obtain _ | ⟨he, _ | _⟩ := hes
    refine ⟨_, .round hname, ?_⟩
    simp only [Expr.Agrees, Expr.evalValue, he]
  | roundTo hname =>
    obtain _ | ⟨he, _ | ⟨hp, _ | _⟩⟩ := hes
    refine ⟨_, .roundTo hname, ?_⟩
    simp only [Expr.Agrees, Expr.evalValue, he, hp]

variable {vars vars' : Variables}

/-- **A phrase** has a meaning of the same value under restated variables. -/
theorem Phrase.Means.restate {p : Phrase} {es : List Expr} (h : p.Means vars es)
    (hvars : vars.Restates vars') :
    ∃ es', p.Means vars' es' ∧ List.Forall₂ Expr.Agrees es es' := by
  induction h with
  | number => exact ⟨_, .number, .cons rfl .nil⟩
  | name hv =>
    obtain ⟨v', hv', hvalue⟩ := hvars.exists_value hv
    exact ⟨_, .name hv', .cons (congrArg Except.ok hvalue) .nil⟩
  | call _ hcalls ih =>
    obtain ⟨es', hes', hagrees⟩ := ih
    obtain ⟨e', he', hvalue⟩ := hcalls.restate hagrees
    exact ⟨_, .call hes' he', .cons hvalue .nil⟩
  | parens _ ih =>
    obtain ⟨_, hmeans, _ | ⟨he, _ | _⟩⟩ := ih
    exact ⟨_, .parens hmeans, .cons he .nil⟩
  | minus _ ih =>
    obtain ⟨_, hmeans, _ | ⟨he, _ | _⟩⟩ := ih
    refine ⟨_, .minus hmeans, .cons ?_ .nil⟩
    simp only [Expr.Agrees, Expr.evalValue, he]
  | plus _ ih =>
    obtain ⟨_, hmeans, _ | ⟨he, _ | _⟩⟩ := ih
    exact ⟨_, .plus hmeans, .cons he .nil⟩
  | arith _ _ ihl ihr =>
    obtain ⟨_, hleft, _ | ⟨ha, _ | _⟩⟩ := ihl
    obtain ⟨_, hright, _ | ⟨hb, _ | _⟩⟩ := ihr
    refine ⟨_, .arith hleft hright, .cons ?_ .nil⟩
    simp only [Expr.Agrees, Expr.evalValue, ha, hb]
  | compare _ _ ihl ihr =>
    obtain ⟨_, hleft, _ | ⟨ha, _ | _⟩⟩ := ihl
    obtain ⟨_, hright, _ | ⟨hb, _ | _⟩⟩ := ihr
    refine ⟨_, .compare hleft hright, .cons ?_ .nil⟩
    simp only [Expr.Agrees, Expr.evalValue, ha, hb]
  | arguments _ _ ihfirst ihothers =>
    obtain ⟨_, hfirst, _ | ⟨he, _ | _⟩⟩ := ihfirst
    obtain ⟨_, hothers, hes⟩ := ihothers
    exact ⟨_, .arguments hfirst hothers, .cons he hes⟩

/-- Under restated variables, tokens are read as formulas of the same value. -/
theorem parse_restate (hvars : vars.Restates vars') {ts : List Token} {e : Expr}
    (h : parse vars ts = .ok e) : ∃ e', parse vars' ts = .ok e' ∧ e.Agrees e' := by
  obtain ⟨p, hp, hw, hm⟩ := (sound_operand vars maxNesting).comparison (parse_iff.1 h)
  obtain ⟨_, hm', _ | ⟨he, _ | _⟩⟩ := hm.restate hvars
  exact ⟨_,
    parse_iff.2 ((complete_operand vars' maxNesting).comparison hp hw hm' (Category.ends_nil _)),
    he⟩

/-! ### Steady texts -/

/-- Whatever the text is read as, it is steady. -/
def Steady (text : String) (vars : Variables) : Prop :=
  ∀ ts, tokens text = .ok ts → ∀ e, parse vars ts = .ok e → e.Steady

instance (text : String) (vars : Variables) : Decidable (Steady text vars) :=
  inferInstanceAs (Decidable (∀ ts, tokens text = .ok ts → ∀ e, parse vars ts = .ok e → e.Steady))

/-- A steady text that has a value has the same one over restated variables. -/
theorem evaluate?_of_restates {text : String} (hvars : vars.Restates vars')
    (hsteady : Steady text vars) (hsteady' : Steady text vars') {d : Decimal}
    (h : evaluate? text vars = .ok d) :
    ∃ d', evaluate? text vars' = .ok d' ∧ d.value = d'.value := by
  obtain ⟨hlength, ts, e, hts, hne, he, hd⟩ := evaluate?_eq_ok_iff.1 h
  obtain ⟨e', he', hagrees⟩ := parse_restate hvars he
  have hvalue : e'.eval.map value = .ok d.value := by
    rw [Expr.map_value_eval (hsteady' ts hts e' he'), ← hagrees,
      ← Expr.map_value_eval (hsteady ts hts e he), hd]
    rfl
  cases hd' : e'.eval with
  | error _ =>
    rw [hd'] at hvalue
    cases hvalue
  | ok d' =>
    rw [hd'] at hvalue
    exact ⟨d', evaluate?_eq_ok_iff.2 ⟨hlength, ts, e', hts, hne, he', hd'⟩,
      (Except.ok.inj hvalue).symm⟩

/-- **A steady text** has the same value over restated variables, if it has any. -/
theorem evaluate?_restate {text : String} (hvars : vars.Restates vars') (hsteady : Steady text vars)
    (hsteady' : Steady text vars') :
    (evaluate? text vars).toOption.map value = (evaluate? text vars').toOption.map value := by
  cases h : evaluate? text vars with
  | ok d =>
    obtain ⟨d', hd', hvalue⟩ := evaluate?_of_restates hvars hsteady hsteady' h
    rw [hd']
    exact congrArg some hvalue
  | error _ =>
    cases h' : evaluate? text vars' with
    | error _ => rfl
    | ok d' =>
      obtain ⟨d, hd, _⟩ := evaluate?_of_restates hvars.symm hsteady' hsteady h'
      rw [hd] at h
      cases h

end Formula

end Payroll
