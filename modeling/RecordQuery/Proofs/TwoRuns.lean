import RecordQuery.Proofs.Planning

/-!
# Two runs

Two runs are alike when both succeed with related results, or both fail with related errors. Steps
that are alike one by one are alike in a row, so two compilations are compared step by step.

1. `Alike`: two runs with related outcomes.
2. `Alike.bind`, `Alike.map`: what comes after two runs that are alike.
3. `Alike.collect`: a step on every member of two lists.
-/
namespace RecordQuery

variable {α α' β β' ε : Type}

/-- Two runs with related outcomes: both have results, or both have errors. -/
inductive Alike (sameError : ε → ε → Prop) (same : α → β → Prop) : Except ε α → Except ε β → Prop
  | ok {a : α} {b : β} : same a b → Alike sameError same (.ok a) (.ok b)
  | error {e f : ε} : sameError e f → Alike sameError same (.error e) (.error f)

namespace Alike

variable {sameError : ε → ε → Prop} {same : α → β → Prop} {x : Except ε α} {y : Except ε β}

/-- A run is alike itself. -/
theorem self (x : Except ε α) : Alike Eq Eq x x := by
  cases x with
  | ok _ => exact .ok rfl
  | error _ => exact .error rfl

/-- Two runs that are alike in all that can be told of them are the same. -/
theorem eq {x y : Except ε α} (h : Alike Eq Eq x y) : x = y := by
  cases h with
  | ok hab => rw [hab]
  | error hef => rw [hef]

theorem mono {other : ε → ε → Prop} {weaker : α → β → Prop} (h : Alike sameError same x y)
    (he : ∀ e f, sameError e f → other e f) (hr : ∀ a b, same a b → weaker a b) :
    Alike other weaker x y := by
  cases h with
  | ok hab => exact .ok (hr _ _ hab)
  | error hef => exact .error (he _ _ hef)

/-- The errors of two runs may be told apart by less. -/
theorem mono_error {other : ε → ε → Prop} (h : Alike sameError same x y)
    (he : ∀ e f, sameError e f → other e f) : Alike other same x y :=
  h.mono he fun _ _ => id

/-- Of two runs that are alike, one has a result when the other has. -/
theorem exists_ok {a : α} (h : Alike sameError same (.ok a) y) : ∃ b, y = .ok b ∧ same a b := by
  cases h with
  | ok hab => exact ⟨_, rfl, hab⟩

theorem exists_error {e : ε} (h : Alike sameError same (.error e) y) :
    ∃ f, y = .error f ∧ sameError e f := by
  cases h with
  | error hef => exact ⟨_, rfl, hef⟩

/-- Two runs go on alike when they do from related results. -/
theorem bind {next : α' → β' → Prop} {f : α → Except ε α'} {g : β → Except ε β'}
    (h : Alike sameError same x y) (hfg : ∀ a b, same a b → Alike sameError next (f a) (g b)) :
    Alike sameError next (x.bind f) (y.bind g) := by
  cases h with
  | ok hab => exact hfg _ _ hab
  | error hef => exact .error hef

theorem map {next : α' → β' → Prop} {f : α → α'} {g : β → β'} (h : Alike sameError same x y)
    (hfg : ∀ a b, same a b → next (f a) (g b)) : Alike sameError next (x.map f) (y.map g) := by
  cases h with
  | ok hab => exact .ok (hfg _ _ hab)
  | error hef => exact .error hef

/-- A step that is alike on related members is alike on two lists of them. -/
theorem collect {related : α' → β' → Prop} {step : α' → Except ε α} {other : β' → Except ε β}
    {as : List α'} {bs : List β'} (h : List.Forall₂ related as bs)
    (hstep : ∀ a b, related a b → Alike sameError same (step a) (other b)) :
    Alike sameError (List.Forall₂ same) (RecordQuery.collect step as)
      (RecordQuery.collect other bs) := by
  induction h with
  | nil => exact .ok .nil
  | @cons a b _ _ hab _ ih =>
    have hfirst := hstep a b hab
    unfold RecordQuery.collect
    generalize step a = x, other b = y at hfirst
    cases hfirst with
    | error hef => exact .error hef
    | ok hr => exact ih.map fun _ _ hrest => .cons hr hrest

/-- Steps with the same results on related members have the same on two lists of them. -/
theorem collect_eq {step : α' → Except ε α} {other : β' → Except ε α} {related : α' → β' → Prop}
    {as : List α'} {bs : List β'} (h : List.Forall₂ related as bs)
    (hstep : ∀ a b, related a b → Alike sameError Eq (step a) (other b)) :
    Alike sameError Eq (RecordQuery.collect step as) (RecordQuery.collect other bs) := by
  have hresults := collect h hstep
  rwa [List.forall₂_eq_eq_eq] at hresults

end Alike

end RecordQuery
