/-!
# Collecting results

Results of a list of steps, one after the other, up to the first fault.

1. `collect_eq_ok_iff`: all results are there exactly when every step succeeds.
2. `collect_eq_error_iff`: the fault is that of the first step that fails.
3. `collect_append`: a list can be collected in two parts.
4. `collectState_of_forall`: a state that changes no result can be left out.
-/
namespace RecordQuery

variable {α β ε : Type}

/-- The results of a step on every member, or the fault of the first that fails. -/
def collect (step : α → Except ε β) : List α → Except ε (List β)
  | [] => .ok []
  | a :: rest =>
    match step a with
    | .error e => .error e
    | .ok b => (collect step rest).map (b :: ·)

theorem collect_cons_ok {step : α → Except ε β} {a : α} {b : β} (h : step a = .ok b)
    (rest : List α) : collect step (a :: rest) = (collect step rest).map (b :: ·) := by
  simp [collect, h]

theorem collect_cons_error {step : α → Except ε β} {a : α} {e : ε} (h : step a = .error e)
    (rest : List α) : collect step (a :: rest) = .error e := by
  simp [collect, h]

/-- All results are there exactly when every step succeeds. -/
theorem collect_eq_ok_iff {step : α → Except ε β} {as : List α} {bs : List β} :
    collect step as = .ok bs ↔ as.map step = bs.map .ok := by
  induction as generalizing bs with
  | nil => cases bs <;> simp [collect]
  | cons a rest ih =>
    cases h : step a with
    | error e => cases bs <;> simp [collect, h]
    | ok b =>
      rw [collect_cons_ok h]
      cases bs with
      | nil => cases hr : collect step rest <;> simp [Except.map]
      | cons c cs =>
        cases hr : collect step rest with
        | error e =>
          have := @ih cs
          simp_all [Except.map]
        | ok ds =>
          have := @ih cs
          simp_all [Except.map]

theorem length_of_collect {step : α → Except ε β} {as : List α} {bs : List β}
    (h : collect step as = .ok bs) : bs.length = as.length := by
  have := congrArg List.length (collect_eq_ok_iff.1 h)
  simpa using this.symm

theorem collect_map {γ : Type} (step : α → Except ε β) (entry : γ → α) (members : List γ) :
    collect step (members.map entry) = collect (fun c => step (entry c)) members := by
  induction members with
  | nil => rfl
  | cons c rest ih => simp only [List.map_cons, collect, ih]

theorem collect_append (step : α → Except ε β) (as cs : List α) :
    collect step (as ++ cs) =
      (collect step as).bind fun bs => (collect step cs).map (bs ++ ·) := by
  induction as with
  | nil =>
    simp only [List.nil_append, collect, Except.bind]
    cases collect step cs <;> rfl
  | cons a rest ih =>
    cases h : step a with
    | error e => rw [List.cons_append, collect_cons_error h, collect_cons_error h]; rfl
    | ok b =>
      rw [List.cons_append, collect_cons_ok h, collect_cons_ok h, ih]
      cases collect step rest with
      | error e => rfl
      | ok bs =>
        simp only [Except.bind, Except.map]
        cases collect step cs <;> rfl

/-- The fault is that of the first step that fails. -/
theorem collect_eq_error_iff {step : α → Except ε β} {as : List α} {e : ε} :
    collect step as = .error e ↔
      ∃ (front : List α) (a : α) (back : List α) (bs : List β),
        as = front ++ a :: back ∧ front.map step = bs.map .ok ∧ step a = .error e := by
  constructor
  · intro h
    induction as with
    | nil => cases h
    | cons a rest ih =>
      cases hs : step a with
      | error e' =>
        rw [collect_cons_error hs] at h
        cases h
        exact ⟨[], a, rest, [], rfl, rfl, hs⟩
      | ok b =>
        rw [collect_cons_ok hs] at h
        cases hr : collect step rest with
        | ok bs =>
          rw [hr] at h
          cases h
        | error e' =>
          rw [hr] at h
          cases h
          obtain ⟨front, c, back, bs, rfl, hf, hc⟩ := ih hr
          exact ⟨a :: front, c, back, b :: bs, rfl, by simp [hs, hf], hc⟩
  · rintro ⟨front, a, back, bs, rfl, hf, ha⟩
    rw [collect_append, collect_eq_ok_iff.2 hf]
    simp only [Except.bind]
    rw [collect_cons_error ha]
    rfl

/-! ## With a state -/

variable {σ : Type}

/-- The results of steps that pass a state on, up to the first fault. The last state is kept in
either case. -/
def collectState (step : σ → α → Except ε β × σ) : σ → List α → Except ε (List β) × σ
  | state, [] => (.ok [], state)
  | state, a :: rest =>
    match step state a with
    | (.error e, next) => (.error e, next)
    | (.ok b, next) =>
      ((collectState step next rest).1.map (b :: ·), (collectState step next rest).2)

/-- As long as the state keeps to an invariant under which it changes no result, it can be left
out. -/
theorem collectState_of_forall {step : σ → α → Except ε β × σ} (pure : α → Except ε β)
    (inv : σ → Prop) {as : List α} {state : σ} (hs : inv state)
    (h : ∀ s, inv s → ∀ a ∈ as, (step s a).1 = pure a ∧ inv (step s a).2) :
    (collectState step state as).1 = collect pure as ∧ inv (collectState step state as).2 := by
  induction as generalizing state with
  | nil => exact ⟨rfl, hs⟩
  | cons a rest ih =>
    -- The first step keeps the invariant, so the induction starts again from its state.
    obtain ⟨hr, hi⟩ := h state hs a List.mem_cons_self
    have hrest := fun s hs b hb => h s hs b (List.mem_cons_of_mem a hb)
    unfold collectState
    split
    · rename_i e next heq
      rw [heq] at hr hi
      exact ⟨(collect_cons_error hr.symm rest).symm, hi⟩
    · rename_i b next heq
      rw [heq] at hr hi
      rw [collect_cons_ok hr.symm, ← (ih hi hrest).1]
      exact ⟨rfl, (ih hi hrest).2⟩

end RecordQuery
