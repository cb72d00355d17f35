import RecordQuery.Event
import RecordQuery.Proofs.EitherSpelling
import RecordQuery.Proofs.Noninterference
import RecordQuery.Proofs.Precedence
import RecordQuery.Proofs.Tree

/-!
# What the log shows of values

Compilations log names and numbers, which do not depend on values. But an error about a token is
logged with its message when it is answered, and the message shows the token as it was written, its
value included. So two requests that differ in values only have the same log, unless they are
refused for a token.

1. `Compiler.textLog`, `Compiler.conditionLog`: the events from a compilation to its answer.
2. `QueryError.SameVariant`: errors of one kind about one position.
3. `Compiler.Refuses.eq_of_sameVariant`: an error about no token depends on no value.
4. `Compiler.logs_agree`: two runs have one log unless their messages differ.
-/
namespace RecordQuery

/-! ## From a compilation to its answer -/

/-- What is logged of a result when it is answered: its error, if it is one. -/
def Event.ofAnswer {α : Type} : Except QueryError α → List Event
  | .ok _ => []
  | .error e => e.responseEvents

namespace Compiler

/-- What is logged when conditions are written as text, and then of the error in them. -/
def textLog (c : Compiler) (spec : FilterSpec) (qualifier : String) : List Event :=
  c.textEvents spec qualifier ++ Event.ofAnswer (c.compileText spec qualifier)

/-- What is logged when conditions are put into a tree, and then of the error in them. -/
def conditionLog (c : Compiler) (spec : FilterSpec) (source : Source) : List Event :=
  c.conditionEvents spec source ++ Event.ofAnswer (c.compileCondition spec source)

end Compiler

/-- An error of the request is logged with its message. -/
theorem QueryError.responseEvents_of_not_isConfigurationError {e : QueryError}
    (h : ¬∃ d, e = .unsupportedDialect d) : e.responseEvents = [.rejected e.message] := by
  rw [← isConfigurationError_iff] at h
  rw [responseEvents, if_neg h]

/-! ## Errors of compilations -/

/-- Errors of one kind. Where they are about a token, it stands at one position of both specs. -/
inductive QueryError.SameVariant (pairs : List (FilterToken × FilterToken)) :
    QueryError → QueryError → Prop
  | tooManyParams (kind other : ParamKind) (count limit count' limit' : Nat) :
      SameVariant pairs (.tooManyParams kind count limit) (.tooManyParams other count' limit')
  | disallowedFields (kind other : ParamKind) (fields fields' : NameSet) :
      SameVariant pairs (.disallowedFields kind fields) (.disallowedFields other fields')
  | valueTooLong {t u : FilterToken} (limit limit' : Nat) : (t, u) ∈ pairs →
      SameVariant pairs (.valueTooLong t.path.display limit) (.valueTooLong u.path.display limit')
  | invalidIsLiteral {t u : FilterToken} (literal literal' : String) : (t, u) ∈ pairs →
      SameVariant pairs (.invalidIsLiteral t.raw literal) (.invalidIsLiteral u.raw literal')
  | coercion {t u : FilterToken} (source source' : CoercionError) : (t, u) ∈ pairs →
      SameVariant pairs (.coercion t.raw source) (.coercion u.raw source')
  | unsupportedFunction {t u : FilterToken}
      (function field type function' field' type' : String) : (t, u) ∈ pairs →
      SameVariant pairs (.unsupportedFunction t.raw function field type)
        (.unsupportedFunction u.raw function' field' type')
  | resolution {t u : FilterToken} (field type cause field' type' cause' : String) :
      (t, u) ∈ pairs →
      SameVariant pairs (.resolution t.raw field type cause)
        (.resolution u.raw field' type' cause')

/-- A planned field has no target where its relation is not joined. -/
inductive PlannedField.TargetFault (f : PlannedField) (source : Source) : QueryError → Prop
  | mk {fault : NavigateFault} : source.navigate f.columns = .error fault →
      TargetFault f source (.resolution f.token f.path.display f.typeName fault.message)

theorem PlannedField.reports_target (f : PlannedField) (source : Source) :
    Reports (f.target source) (f.TargetFault source) := by
  unfold target
  cases hn : source.navigate f.columns with
  | ok column =>
    refine .ok _ fun e he => ?_
    cases he with
    | mk hfault => cases hn.symm.trans hfault
  | error fault =>
    refine .error fun e => ⟨fun he => ?_, ?_⟩
    · cases he with
      | mk hfault =>
        cases hn.symm.trans hfault
        rfl
    · rintro rfl
      exact .mk hn

theorem PlannedFilter.reports_conjunct (p : PlannedFilter) (source : Source) :
    Reports ((p.conjunct source).map fun conjunct => (p.field.dotted, conjunct))
      (p.field.TargetFault source) :=
  ((p.field.reports_target source).map _).map _

theorem PlannedField.TargetFault.token? {f : PlannedField} {source : Source} {e : QueryError}
    (h : f.TargetFault source e) : e.token? = some f.token := by
  cases h
  rfl

namespace Compiler

/-- An error that is about the whole spec, or about a value but not about its text. -/
inductive WholeFault (c : Compiler) (spec : FilterSpec) : QueryError → Prop
  | tooMany {limit : Nat} : c.config.maxFilterParams = some limit →
      WholeFault c spec (.tooManyParams .filter spec.size limit)
  | tooLong {t : FilterToken} {field : String} : t ∈ spec.tokens → field = t.path.display →
      WholeFault c spec (.valueTooLong field c.config.maxValueLength)
  | disallowed {names : NameSet} :
      (∀ name, name ∈ names ↔ (∃ path ∈ spec.tokens.map (·.path), path.root = name) ∧
        (∀ f ∈ c.shape.fields, ¬f.Answers name) ∧ ¬name ∈ spec.allowed) →
      WholeFault c spec (.disallowedFields .filter names)

/-- What a compilation may fail with: what is wrong with the whole spec, or something about one of
its tokens. -/
def Refuses (c : Compiler) (spec : FilterSpec) (e : QueryError) : Prop :=
  c.WholeFault spec e ∨ ∃ t ∈ spec.tokens, e.token? = some t.raw

variable {c : Compiler} {spec : FilterSpec} {e : QueryError}

theorem WholeFault.token? (h : c.WholeFault spec e) : e.token? = none := by
  cases h <;> rfl

theorem wholeFault_of_filterChecks (h : InTurn (c.filterChecks spec.allowed spec.tokens) e) :
    c.WholeFault spec e := by
  obtain ⟨kind, hkind, he⟩ := h.exists_mem
  simp only [filterChecks, List.mem_cons, List.not_mem_nil, or_false] at hkind
  rcases hkind with rfl | rfl | rfl
  · obtain ⟨_, hl, _, rfl⟩ := he
    exact .tooMany hl
  · obtain ⟨_, ht, _, rfl⟩ := he.exists_mem
    exact .tooLong ht rfl
  · obtain ⟨_, _, hnames, rfl⟩ := he
    exact .disallowed hnames

theorem PlansFilter.token_eq {allowed : NameSet} {t : FilterToken} {p : PlannedFilter}
    (h : c.PlansFilter allowed t p) : p.field.token = t.raw :=
  (PlannedField.parts_of_ofPath (planFilter_eq_ok_iff.1 h.planned).1).1

theorem refuses_of_planFilters (h : c.planFilters spec = .error e) : c.Refuses spec e := by
  rcases ((reports_planFilters e).1 h).or_of_append_singleton with hchecks | htokens
  · exact .inl (wholeFault_of_filterChecks hchecks)
  · obtain ⟨t, ht, hfault⟩ := FirstFault.exists_mem htokens
    exact .inr ⟨t, ht, hfault.token?⟩

theorem refuses_of_compileText {qualifier : String}
    (h : c.compileText spec qualifier = .error e) : c.Refuses spec e := by
  have hplan : Reports (c.compileText spec qualifier) fun e => c.planFilters spec = .error e :=
    (Reports.self (c.planFilters spec)).map _
  exact refuses_of_planFilters ((hplan e).1 h)

/-- A tree may also fail for a relation that is not joined, which is about the token that uses
it. -/
theorem refuses_of_compileCondition {source : Source}
    (h : c.compileCondition spec source = .error e) : c.Refuses spec e := by
  unfold compileCondition Condition.ofFilters Condition.entries at h
  cases hp : c.planFilters spec with
  | error e' =>
    rw [hp] at h
    cases h
    exact refuses_of_planFilters hp
  | ok plan =>
    rw [hp] at h
    obtain ⟨p, hmem, htoken⟩ := FirstFault.exists_mem
      (((Reports.collect fun p _ => p.reports_conjunct source).map Condition.ofEntries e).1 h)
    have htokens : ∀ p ∈ plan, ∃ t ∈ spec.tokens, t.raw = p.field.token :=
      forall_mem_of_forall₂
        ((List.forall₂_and_left _ _).2 ⟨fun _ => id, (planFilters_eq_ok_iff.1 hp).2⟩)
        fun t p ⟨ht, hplans⟩ => ⟨t, ht, hplans.token_eq.symm⟩
    obtain ⟨t, ht, hraw⟩ := htokens p hmem
    exact .inr ⟨t, ht, by rw [hraw, htoken.token?]⟩

end Compiler

/-! ## Errors about no token -/

namespace Compiler

variable {c : Compiler} {s t : FilterSpec} {e f : QueryError}

theorem Refuses.wholeFault (h : c.Refuses s e) (hn : e.token? = none) : c.WholeFault s e := by
  obtain hwhole | ⟨t, _, ht⟩ := h
  · exact hwhole
  · rw [hn] at ht
    cases ht

theorem Refuses.exists_token (h : c.Refuses s e) {token : String} (ht : e.token? = some token) :
    ∃ u ∈ s.tokens, u.raw = token := by
  obtain hwhole | ⟨u, hu, hraw⟩ := h
  · rw [hwhole.token?] at ht
    cases ht
  · exact ⟨u, hu, Option.some.inj (hraw.symm.trans ht)⟩

/-- An error of one kind about one position, but about no token, is the same for two specs that
differ in values only: the number of tokens, their paths and the limits determine it. -/
theorem Refuses.eq_of_sameVariant (he : c.Refuses s e) (hf : c.Refuses t f)
    (h : s.TokenByToken FilterToken.SameForm t)
    (hv : QueryError.SameVariant (s.tokens.zip t.tokens) e f) (hn : e.token? = none) : e = f := by
  have hsize : s.size = t.size := h.tokens.length_eq
  have hpaths : s.tokens.map (·.path) = t.tokens.map (·.path) :=
    map_eq_map_of_forall₂ h.tokens fun _ _ => FilterToken.SameForm.path
  cases hv with
  | tooManyParams =>
    cases he.wholeFault rfl with
    | tooMany hlimit =>
      cases hf.wholeFault rfl with
      | tooMany hlimit' =>
        cases hlimit.symm.trans hlimit'
        rw [hsize]
  | disallowedFields =>
    cases he.wholeFault rfl with
    | disallowed hnames =>
      cases hf.wholeFault rfl with
      | disallowed hnames' =>
        rw [← h.allowed, ← hpaths] at hnames'
        rw [NameSet.ext fun name => (hnames name).trans (hnames' name).symm]
  | valueTooLong _ _ hmem =>
    have hpath := (List.forall₂_zip h.tokens hmem).path
    rw [hpath] at he ⊢
    cases he.wholeFault rfl with
    | tooLong =>
      cases hf.wholeFault rfl with
      | tooLong => rfl
  | invalidIsLiteral | coercion | unsupportedFunction | resolution => cases hn

/-- The answer to a refused request has one event, with the message. -/
theorem Refuses.ofAnswer_eq {α : Type} (h : c.Refuses s e) :
    Event.ofAnswer (.error e : Except QueryError α) = [.rejected e.message] := by
  refine QueryError.responseEvents_of_not_isConfigurationError ?_
  rintro ⟨d, rfl⟩
  cases h.wholeFault rfl

end Compiler

/-! ## Results -/

/-- Tokens of one form bind as many values. -/
theorem FilterToken.SameForm.arity_eq {t u : FilterToken} (h : t.SameForm u) :
    t.arity = u.arity := by
  unfold arity
  rw [← h.operator]
  cases ho : t.operator with
  | isIn => exact h.members ho
  | compare | like | is => rfl

namespace Compiler

variable {c : Compiler}

theorem length_values_of_compileText {spec : FilterSpec} {qualifier : String} {clause : Clause}
    (h : c.compileText spec qualifier = .ok clause) :
    clause.values.length = (spec.tokens.map FilterToken.arity).sum := by
  obtain ⟨plan, hp, rfl⟩ := compileText_eq_ok_iff.1 h
  have harity : spec.tokens.map FilterToken.arity =
      plan.map fun p => (p.clause qualifier).values.length :=
    map_eq_map_of_forall₂ (planFilters_eq_ok_iff.1 hp).2 fun t p htp => htp.reads.arity.symm
  rw [Clause.ofFilters_eq, List.length_flatMap, List.map_map, harity]
  rfl

theorem size_of_compileCondition {spec : FilterSpec} {source : Source} {condition : Condition}
    (h : c.compileCondition spec source = .ok condition) : condition.size = spec.size := by
  obtain ⟨plan, entries, hp, he, rfl⟩ := compileCondition_eq_ok_iff.1 h
  rw [Condition.size_ofEntries, length_of_collect he, length_planFilters hp]

variable {s t : FilterSpec}

/-- Two texts that differ in values only are logged alike. -/
theorem textEvents_eq {qualifier : String} {a b : Clause}
    (h : s.TokenByToken FilterToken.SameForm t) (ha : c.compileText s qualifier = .ok a)
    (hb : c.compileText t qualifier = .ok b) :
    c.textEvents s qualifier = c.textEvents t qualifier := by
  have hsize : s.size = t.size := h.tokens.length_eq
  have hempty : s.isEmpty = t.isEmpty := by
    rw [Bool.eq_iff_iff, Spec.isEmpty, Spec.isEmpty, List.isEmpty_iff_length_eq_zero,
      List.isEmpty_iff_length_eq_zero, h.tokens.length_eq]
  have hvalues : a.values.length = b.values.length := by
    rw [length_values_of_compileText ha, length_values_of_compileText hb,
      map_eq_map_of_forall₂ h.tokens fun _ _ => FilterToken.SameForm.arity_eq]
  unfold textEvents
  rw [ha, hb]
  simp only [Event.ofClause, hempty, hsize, hvalues]

theorem conditionEvents_eq {source : Source} {a b : Condition}
    (h : s.TokenByToken FilterToken.SameForm t) (ha : c.compileCondition s source = .ok a)
    (hb : c.compileCondition t source = .ok b) :
    c.conditionEvents s source = c.conditionEvents t source := by
  have hsize : s.size = t.size := h.tokens.length_eq
  unfold conditionEvents
  rw [ha, hb]
  simp only [Event.ofCondition, size_of_compileCondition ha, size_of_compileCondition hb, hsize]

end Compiler

/-! ## Logs -/

/-- What two runs log of a compilation and its answer. -/
structure LogsAgree {α : Type} (s t : FilterSpec) (x y : Except QueryError α)
    (log log' : List Event) : Prop where
  /-- Two runs that end alike have one log, unless they end in errors about a token with different
  messages. -/
  eq_iff : Alike (QueryError.SameVariant (s.tokens.zip t.tokens)) (fun _ _ => True) x y →
    (log = log' ↔
      ∀ e f, x = .error e → y = .error f → e.token? ≠ none → e.message = f.message)
  /-- An error about a token is logged with the token as it was written. -/
  shown : ∀ e token, x = .error e → e.token? = some token →
    (∃ u ∈ s.tokens, u.raw = token) ∧
      ∃ before after, log = [.rejected (before ++ token ++ after)]

namespace Compiler

/-- A compilation that logs nothing of its own for an error, and the same for two results, has logs
that agree. -/
theorem logsAgree_of_refuses (c : Compiler) {s t : FilterSpec} {α : Type}
    {x y : Except QueryError α} {events events' : List Event}
    (h : s.TokenByToken FilterToken.SameForm t)
    (hx : ∀ e, x = .error e → c.Refuses s e ∧ events = [])
    (hy : ∀ f, y = .error f → c.Refuses t f ∧ events' = [])
    (hok : ∀ a b, x = .ok a → y = .ok b → events = events') :
    LogsAgree s t x y (events ++ Event.ofAnswer x) (events' ++ Event.ofAnswer y) where
  eq_iff halike := by
    cases halike with
    | ok _ =>
      refine iff_of_true ?_ fun e f he => nomatch he
      rw [hok _ _ rfl rfl]
      rfl
    | @error e f hv =>
      obtain ⟨he, hevents⟩ := hx e rfl
      obtain ⟨hf, hevents'⟩ := hy f rfl
      rw [hevents, hevents', he.ofAnswer_eq, hf.ofAnswer_eq]
      simp only [List.nil_append, List.cons.injEq, and_true, Event.rejected.injEq]
      constructor
      · intro hmessage e' f' he' hf' _
        cases he'
        cases hf'
        exact hmessage
      · intro hmessage
        by_cases hn : e.token? = none
        · rw [he.eq_of_sameVariant hf h hv hn]
        · exact hmessage e f rfl rfl hn
  shown e token hxe htoken := by
    obtain ⟨he, hevents⟩ := hx e hxe
    obtain ⟨before, after, hmessage⟩ := QueryError.message_of_token? htoken
    refine ⟨he.exists_token htoken, before, after, ?_⟩
    rw [hevents, hxe, he.ofAnswer_eq, hmessage, List.nil_append]

/-- Two requests that differ in values only, and that end alike, have one log, unless they are
refused for a token with different messages; and such a message shows the token as it was written,
with its value. -/
theorem logs_agree (c : Compiler) {s t : FilterSpec} (h : s.TokenByToken FilterToken.SameForm t) :
    (∀ qualifier, LogsAgree s t (c.compileText s qualifier) (c.compileText t qualifier)
      (c.textLog s qualifier) (c.textLog t qualifier)) ∧
    ∀ source, LogsAgree s t (c.compileCondition s source) (c.compileCondition t source)
      (c.conditionLog s source) (c.conditionLog t source) := by
  constructor
  · intro qualifier
    refine logsAgree_of_refuses c h ?_ ?_ fun _ _ => textEvents_eq h
    · exact fun e he => ⟨refuses_of_compileText he, by rw [textEvents, he, Event.ofClause_error]⟩
    · exact fun f hf => ⟨refuses_of_compileText hf, by rw [textEvents, hf, Event.ofClause_error]⟩
  · intro source
    refine logsAgree_of_refuses c h ?_ ?_ fun _ _ => conditionEvents_eq h
    · exact fun e he =>
        ⟨refuses_of_compileCondition he, by rw [conditionEvents, he, Event.ofCondition_error]⟩
    · exact fun f hf =>
        ⟨refuses_of_compileCondition hf, by rw [conditionEvents, hf, Event.ofCondition_error]⟩

end Compiler

namespace Sample

/-- A number that is not one, as a whole request. -/
def numbered (value : String) : FilterSpec :=
  ⟨[{ wrongNumber with value := value, raw := "id:=:" ++ value }], ∅⟩

theorem sameForm_numbered (value other : String) :
    (numbered value).TokenByToken FilterToken.SameForm (numbered other) where
  allowed := rfl
  tokens := .cons ⟨rfl, rfl, nofun, nofun⟩ .nil

end Sample

namespace Compiler

/-- The hostile request and the sample request have one log. Two numbers that are not numbers do
not: each log shows the value that was sent. -/
theorem logs_agree_hostile :
    Sample.compiler.textLog Sample.hostile "p." = Sample.compiler.textLog Sample.conditions "p." ∧
    ∃ before after, Sample.compiler.textLog (Sample.numbered "secret") "p." =
      [.rejected (before ++ "id:=:secret" ++ after)] := by
  have hhostile := (logs_agree Sample.compiler
    (s := Sample.hostile) (t := Sample.conditions) ⟨rfl, by decide⟩).1 "p."
  have hnumber := (logs_agree Sample.compiler (Sample.sameForm_numbered "secret" "other")).1 "p."
  constructor
  · obtain ⟨a, ha⟩ : ∃ a, Sample.compiler.compileText Sample.hostile "p." = .ok a := ⟨_, rfl⟩
    obtain ⟨b, hb⟩ : ∃ b, Sample.compiler.compileText Sample.conditions "p." = .ok b := ⟨_, rfl⟩
    rw [ha, hb] at hhostile
    exact (hhostile.eq_iff (.ok trivial)).2 fun _ _ he => by cases he
  · exact (hnumber.shown _ "id:=:secret" rfl rfl).2

/-- The log is not the same for all values: two requests are refused for the value of one token,
and their logs differ in it. -/
theorem log_shows_value :
    ∃ s t : FilterSpec, s.TokenByToken FilterToken.SameForm t ∧
      (Alike (QueryError.SameVariant (s.tokens.zip t.tokens)) (fun _ _ => True)
          (Sample.compiler.compileText s "") (Sample.compiler.compileText t "") ∧
        Sample.compiler.textLog s "" ≠ Sample.compiler.textLog t "") ∧
      Alike (QueryError.SameVariant (s.tokens.zip t.tokens)) (fun _ _ => True)
          (Sample.compiler.compileCondition s ⟨"people", []⟩)
          (Sample.compiler.compileCondition t ⟨"people", []⟩) ∧
        Sample.compiler.conditionLog s ⟨"people", []⟩ ≠
          Sample.compiler.conditionLog t ⟨"people", []⟩ := by
  refine ⟨Sample.numbered "secret", Sample.numbered "other",
    Sample.sameForm_numbered "secret" "other", ⟨.error ?_, ?_⟩, .error ?_, ?_⟩
  · exact .coercion _ _ List.mem_cons_self
  · decide
  · exact .coercion _ _ List.mem_cons_self
  · decide

end Compiler

end RecordQuery
