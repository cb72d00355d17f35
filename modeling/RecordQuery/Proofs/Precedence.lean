import RecordQuery.Proofs.Faults
import RecordQuery.Proofs.Placeholders

/-!
# Which error is reported

A spec may be wrong in several ways at once, of which exactly one is reported. The checks of the
whole spec come first, in a fixed order; after them comes the first token that is at fault by
itself. There are no other errors, and no fault is passed over.

1. `TooMany`, `TooLong`, `Disallowed`: what can be wrong with a whole spec.
2. `Precedence`: the law of a compilation that goes through its tokens in order.
3. `Compiler.reports_planFilters`, `Compiler.reports_planSorts`: planning keeps to the order.
4. `Compiler.compilation_precedence`: so do the conditions and the order in a text.
-/
namespace RecordQuery

/-! ## Faults of a whole spec -/

/-- There are more tokens than a limit that is set. -/
def TooMany (kind : ParamKind) (limit : Option Nat) (count : Nat) (e : QueryError) : Prop :=
  ∃ l, limit = some l ∧ l < count ∧ e = .tooManyParams kind count l

/-- Some value has more characters than the limit; the error is about the first such token. -/
def TooLong (limit : Nat) : List FilterToken → QueryError → Prop :=
  FirstFault fun t e => limit < t.value.length ∧ e = .valueTooLong t.path.display limit

/-- Some roots answer to no field and are not allowed by name; the error has them all, and no
others. -/
def Disallowed (kind : ParamKind) (fields : List Field) (allowed : NameSet)
    (paths : List FieldPath) (e : QueryError) : Prop :=
  ∃ names : NameSet, (∃ name, name ∈ names) ∧
    (∀ name, name ∈ names ↔ (∃ path ∈ paths, path.root = name) ∧
      (∀ f ∈ fields, ¬f.Answers name) ∧ ¬name ∈ allowed) ∧
    e = .disallowedFields kind names

namespace Compiler

theorem reports_checkCount {kind : ParamKind} {limit : Option Nat} {count : Nat} :
    Reports (checkCount kind count limit) (TooMany kind limit count) := by
  unfold checkCount
  cases limit with
  | none => exact .ok () fun e ⟨_, hl, _⟩ => nomatch hl
  | some l =>
    dsimp only
    split
    · rename_i hlt
      refine .error fun e => ⟨?_, fun he => ⟨l, rfl, hlt, he⟩⟩
      rintro ⟨_, hl, _, rfl⟩
      cases hl
      rfl
    · rename_i hlt
      refine .ok () ?_
      rintro e ⟨_, hl, hlt', _⟩
      cases hl
      exact hlt hlt'

theorem reports_checkLengths {limit : Nat} {tokens : List FilterToken} :
    Reports (checkLengths limit tokens) (TooLong limit tokens) := by
  unfold checkLengths TooLong
  induction tokens with
  | nil => exact .ok () (firstFault_nil _)
  | cons t rest ih =>
    intro e
    rw [firstFault_cons, ← ih e]
    by_cases hl : limit < t.value.length
    · simp [hl, eq_comm]
    · simp [hl]

theorem reports_resolve {kind : ParamKind} {fields : List Field} {allowed : NameSet}
    {paths : List FieldPath} :
    Reports (Access.resolve kind fields allowed paths) (Disallowed kind fields allowed paths) := by
  have hroot : ∀ name, name ∈ Access.offenders fields allowed paths ↔
      (∃ path ∈ paths, path.root = name) ∧ (∀ f ∈ fields, ¬f.Answers name) ∧ ¬name ∈ allowed := by
    intro name
    rw [Access.mem_offenders, ← Field.lookup_eq_none_iff]
    simp [Access.permits]
  rw [Access.resolve_eq]
  refine Reports.map (fun e => ?_) _
  rw [Access.check_error_iff]
  constructor
  · rintro ⟨hne, rfl⟩
    obtain ⟨name, hname⟩ := List.exists_mem_of_ne_nil _ hne
    refine ⟨_, ⟨name, NameSet.mem_ofList.2 hname⟩, fun other => ?_, rfl⟩
    rw [NameSet.mem_ofList, hroot]
  · rintro ⟨names, ⟨name, hname⟩, hall, rfl⟩
    refine ⟨List.ne_nil_of_mem ((hroot name).2 ((hall name).1 hname)), ?_⟩
    refine congrArg _ (NameSet.ext fun other => ?_)
    rw [hall, NameSet.mem_ofList, hroot]

/-- What can be wrong with a filter spec as a whole, in the order of the checks. -/
def filterChecks (c : Compiler) (allowed : NameSet) (tokens : List FilterToken) :
    List (QueryError → Prop) :=
  [TooMany .filter c.config.maxFilterParams tokens.length,
    TooLong c.config.maxValueLength tokens,
    Disallowed .filter c.shape.fields allowed (tokens.map (·.path))]

/-- What can be wrong with a sort spec as a whole, in the order of the checks. -/
def sortChecks (c : Compiler) (allowed : NameSet) (tokens : List SortToken) :
    List (QueryError → Prop) :=
  [TooMany .sort c.config.maxSortParams tokens.length,
    Disallowed .sort c.shape.fields allowed (tokens.map (·.path))]

variable {c : Compiler} {allowed : NameSet}

theorem reports_admitFilters {tokens : List FilterToken} :
    Reports (c.admitFilters ⟨tokens, allowed⟩) (InTurn (c.filterChecks allowed tokens)) := by
  have hdone : ∀ places : List ResolvedPath,
      Reports (.ok (tokens.zip places) : Except QueryError _) (InTurn []) :=
    fun places => .ok _ (firstFault_nil _)
  exact reports_checkCount.inTurn.bind fun () _ => reports_checkLengths.inTurn.bind fun () _ =>
    reports_resolve.inTurn.bind fun places _ => hdone places

theorem reports_admitSorts {tokens : List SortToken} :
    Reports (c.admitSorts ⟨tokens, allowed⟩) (InTurn (c.sortChecks allowed tokens)) := by
  have hdone : ∀ places : List ResolvedPath,
      Reports (.ok (tokens.zip places) : Except QueryError _) (InTurn []) :=
    fun places => .ok _ (firstFault_nil _)
  exact reports_checkCount.inTurn.bind fun () _ =>
    reports_resolve.inTurn.bind fun places _ => hdone places

/-- Planning reports the faults of the whole spec, and then the first token at fault. -/
theorem reports_planFilters {tokens : List FilterToken} :
    Reports (c.planFilters ⟨tokens, allowed⟩)
      (InTurn (c.filterChecks allowed tokens ++ [FirstFault (·.Fault c.shape.fields) tokens])) := by
  refine reports_admitFilters.bind fun pairs hp => ?_
  obtain ⟨_, _, _, rfl⟩ := admitFilters_ok_iff.1 hp
  exact (Reports.collect_map fun t _ => reports_planFilter c.shape.fields t).inTurn

theorem reports_planSorts {tokens : List SortToken} :
    Reports (c.planSorts ⟨tokens, allowed⟩)
      (InTurn (c.sortChecks allowed tokens ++ [FirstFault (·.Fault c.shape.fields) tokens])) := by
  refine reports_admitSorts.bind fun pairs hp => ?_
  obtain ⟨_, _, rfl⟩ := admitSorts_ok_iff.1 hp
  exact (Reports.collect_map fun t _ => reports_planSort c.shape.fields t).inTurn

/-- What the checks of a whole spec let through, they let through token by token. -/
theorem filterChecks_single {tokens : List FilterToken}
    (h : ∀ e, ¬InTurn (c.filterChecks allowed tokens) e) {t : FilterToken} (ht : t ∈ tokens) :
    ∀ e, ¬InTurn (c.filterChecks allowed [t]) e := by
  rw [← reports_admitFilters.exists_ok_iff] at h ⊢
  obtain ⟨pairs, hp⟩ := h
  obtain ⟨hcount, hlengths, hcheck, _⟩ := admitFilters_ok_iff.1 hp
  rw [checkCount_eq_ok_iff] at hcount
  rw [checkLengths_eq_ok_iff] at hlengths
  rw [Access.check_ok_iff] at hcheck
  refine ⟨_, admitFilters_ok_iff.2 ⟨checkCount_eq_ok_iff.2 fun l hl => ?_,
    checkLengths_eq_ok_iff.2 (List.forall_mem_singleton.2 (hlengths t ht)),
    Access.check_ok_iff.2 (List.forall_mem_singleton.2 (hcheck _ (List.mem_map_of_mem ht))), rfl⟩⟩
  exact Nat.le_trans (List.length_pos_of_mem ht) (hcount l hl)

theorem sortChecks_single {tokens : List SortToken}
    (h : ∀ e, ¬InTurn (c.sortChecks allowed tokens) e) {t : SortToken} (ht : t ∈ tokens) :
    ∀ e, ¬InTurn (c.sortChecks allowed [t]) e := by
  rw [← reports_admitSorts.exists_ok_iff] at h ⊢
  obtain ⟨pairs, hp⟩ := h
  obtain ⟨hcount, hcheck, _⟩ := admitSorts_ok_iff.1 hp
  rw [checkCount_eq_ok_iff] at hcount
  rw [Access.check_ok_iff] at hcheck
  refine ⟨_, admitSorts_ok_iff.2 ⟨checkCount_eq_ok_iff.2 fun l hl => ?_,
    Access.check_ok_iff.2 (List.forall_mem_singleton.2 (hcheck _ (List.mem_map_of_mem ht))), rfl⟩⟩
  exact Nat.le_trans (List.length_pos_of_mem ht) (hcount l hl)

/-- Each sort token has the same entry in a spec of its own with the same allowed names. -/
theorem planSorts_single {spec : SortSpec} {plan : List PlannedSort}
    (h : c.planSorts spec = .ok plan) :
    List.Forall₂ (fun t p => c.planSorts ⟨[t], spec.allowed⟩ = .ok [p]) spec.tokens plan := by
  obtain ⟨hcount, hp⟩ := planSorts_eq_ok_iff.1 h
  have hone : ∀ t ∈ spec.tokens, ∀ l, c.config.maxSortParams = some l → 1 ≤ l :=
    fun t ht l hl => Nat.le_trans (List.length_pos_of_mem ht) (hcount l hl)
  exact forall₂_imp_of_mem hp fun t ht p htp =>
    planSorts_eq_ok_iff.2 ⟨hone t ht, .cons htp .nil⟩

end Compiler

/-! ## The law -/

/-- The law of a compilation that checks a whole spec and then goes through its tokens in order. -/
structure Precedence {τ ω π : Type} (compile : List τ → Except QueryError ω)
    (checks : List τ → List (QueryError → Prop)) (fault : τ → QueryError → Prop)
    (raw : τ → String) (write : List π → ω) : Prop where
  /-- The faults of the whole spec come first, in turn, and then the first token at fault. -/
  error_iff : ∀ tokens e,
    compile tokens = .error e ↔ InTurn (checks tokens ++ [FirstFault fault tokens]) e
  /-- Without a fault there is one part for each token, and the token alone has the same part. -/
  parts : ∀ tokens, (∀ e, ¬InTurn (checks tokens ++ [FirstFault fault tokens]) e) →
    ∃ ps : List π, compile tokens = .ok (write ps) ∧
      List.Forall₂ (fun t p => compile [t] = .ok (write [p])) tokens ps
  /-- When the whole spec passes its checks, the fault of a token is the error that it gives
  alone. -/
  alone : ∀ tokens, (∀ e, ¬InTurn (checks tokens) e) →
    ∀ t ∈ tokens, ∀ e, compile [t] = .error e ↔ fault t e
  /-- The error of a token names the token as it was written, and its message shows it. -/
  names : ∀ t e, fault t e →
    e.token? = some (raw t) ∧ ∃ before after, e.message = before ++ raw t ++ after
  /-- A token that fails alone fails every spec that it is in. -/
  fails : ∀ tokens, ∀ t ∈ tokens, ∀ e, compile [t] = .error e → ∃ e', compile tokens = .error e'

/-- The law holds as soon as errors are reported in this order, the checks let through single tokens
of what they let through, and results are made of the results of single tokens. -/
theorem Precedence.of_reports {τ ω π : Type} {compile : List τ → Except QueryError ω}
    {checks : List τ → List (QueryError → Prop)} {fault : τ → QueryError → Prop}
    {raw : τ → String} {write : List π → ω}
    (hreports : ∀ tokens,
      Reports (compile tokens) (InTurn (checks tokens ++ [FirstFault fault tokens])))
    (hsingle : ∀ {tokens}, (∀ e, ¬InTurn (checks tokens) e) → ∀ {t}, t ∈ tokens →
      ∀ e, ¬InTurn (checks [t]) e)
    (hparts : ∀ {tokens out}, compile tokens = .ok out → ∃ ps : List π, out = write ps ∧
      List.Forall₂ (fun t p => compile [t] = .ok (write [p])) tokens ps)
    (hnames : ∀ {t e}, fault t e → e.token? = some (raw t)) :
    Precedence compile checks fault raw write := by
  have halone : ∀ tokens, (∀ e, ¬InTurn (checks tokens) e) →
      ∀ t ∈ tokens, ∀ e, compile [t] = .error e ↔ fault t e := by
    intro tokens hchecks t ht e
    have hn := hsingle hchecks ht
    rw [hreports [t] e, InTurn, firstFault_append, firstFault_cons, firstFault_cons]
    simp only [firstFault_nil, and_false, or_false]
    exact ⟨fun h => h.elim (fun hc => absurd hc (hn e)) And.right, fun h => .inr ⟨hn, h⟩⟩
  refine ⟨hreports, ?_, halone, fun t e he => ⟨hnames he, ?_⟩, ?_⟩
  · intro tokens hn
    obtain ⟨out, hout⟩ := (hreports tokens).exists_ok_iff.2 hn
    obtain ⟨ps, rfl, hps⟩ := hparts hout
    exact ⟨ps, hout, hps⟩
  · exact QueryError.message_of_token? (hnames he)
  · intro tokens t ht e he
    cases hc : compile tokens with
    | error e' => exact ⟨e', rfl⟩
    | ok out =>
      -- A spec without errors has no fault in it, neither of the whole nor of the token.
      have hn := (hreports tokens).exists_ok_iff.1 ⟨out, hc⟩
      obtain ⟨hchecks, htokens⟩ := List.forall_mem_append.1 (forall_not_firstFault.1 hn)
      have hfault := forall_not_firstFault.1 (List.forall_mem_singleton.1 htokens) t ht e
      exact absurd ((halone tokens (forall_not_firstFault.2 hchecks) t ht e).1 he) hfault

/-- The clause of conditions, all of which have to hold. -/
def Clause.ofConditions (conditions : List Clause) : Clause :=
  ⟨whereText (conditions.map (·.text)), conditions.flatMap (·.values)⟩

namespace Sample

/-- A number that is not one. -/
def wrongNumber : FilterToken := ⟨⟨"id", [], none, by decide⟩, .compare .eq, "x", "id:=:x"⟩

/-- A field that addresses do not have. -/
def wrongField : FilterToken :=
  ⟨⟨"address", ["street"], none, by decide⟩, .like, "Main", "address.street:like:Main"⟩

/-- A field that the request is not allowed. -/
def ghost : FilterToken := ⟨⟨"ghost", [], none, by decide⟩, .is, "null", "ghost:is:null"⟩

end Sample

namespace Compiler

/-- Conditions and orders keep to the law: their errors are those of the checks of the whole spec,
in turn, and then that of the first token at fault, which is the error that the token gives alone
and names the token; without a fault there is one condition, or one term, for each token. -/
theorem compilation_precedence (c : Compiler) (allowed : NameSet) (qualifier : String) :
    Precedence (fun tokens => c.compileText ⟨tokens, allowed⟩ qualifier)
      (c.filterChecks allowed) (·.Fault c.shape.fields) FilterToken.raw Clause.ofConditions ∧
    Precedence (fun tokens => c.compileSortText ⟨tokens, allowed⟩ qualifier)
      (c.sortChecks allowed) (·.Fault c.shape.fields) SortToken.raw orderText := by
  refine ⟨.of_reports (fun _ => reports_planFilters.map _) filterChecks_single ?_
    FilterToken.Fault.token?, .of_reports (fun _ => reports_planSorts.map _) sortChecks_single ?_
    SortToken.Fault.token?⟩
  · intro tokens out h
    obtain ⟨plan, hp, rfl⟩ := compileText_eq_ok_iff.1 h
    refine ⟨plan.map (PlannedFilter.clause qualifier), Clause.ofFilters_eq qualifier plan, ?_⟩
    refine List.forall₂_map_right_iff.2 ((planFilters_single hp).imp fun t p ht => ?_)
    exact compileText_eq_ok_iff.2 ⟨[p], ht.2, Clause.ofFilters_eq qualifier [p]⟩
  · intro tokens out h
    obtain ⟨plan, hp, rfl⟩ := compileSortText_eq_ok_iff.1 h
    refine ⟨plan.map (PlannedSort.sql qualifier), rfl, ?_⟩
    refine List.forall₂_map_right_iff.2 ((planSorts_single hp).imp fun t p ht => ?_)
    exact compileSortText_eq_ok_iff.2 ⟨[p], ht, rfl⟩

/-- Three tokens are wrong. The root that is not allowed is reported, although it comes last; without
it, the first token is, with the error that it gives alone; and no spec with the second one passes,
whatever else it has. -/
theorem compilation_precedence_people :
    Sample.compiler.compileText ⟨[Sample.wrongNumber, Sample.wrongField, Sample.ghost], ∅⟩ "p." =
      .error (.disallowedFields .filter (NameSet.ofList ["ghost"])) ∧
    (∃ e, Sample.compiler.compileText ⟨[Sample.wrongNumber, Sample.wrongField], ∅⟩ "p." = .error e ∧
      Sample.compiler.compileText ⟨[Sample.wrongNumber], ∅⟩ "p." = .error e ∧
      e.token? = some "id:=:x") ∧
    ∀ tokens, Sample.wrongField ∈ tokens →
      ∃ e, Sample.compiler.compileText ⟨tokens, ∅⟩ "p." = .error e := by
  obtain ⟨hfilter, _⟩ := compilation_precedence Sample.compiler ∅ "p."
  exact ⟨rfl, ⟨_, rfl, rfl, rfl⟩, fun tokens ht => hfilter.fails tokens Sample.wrongField ht _ rfl⟩

end Compiler

end RecordQuery
