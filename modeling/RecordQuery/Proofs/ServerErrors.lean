import RecordQuery.Proofs.Logging
import RecordQuery.Proofs.PageRequests
import RecordQuery.Proofs.QueryString

/-!
# Server errors

A list request that fails is at fault itself, with one exception: a page is wanted as text and the
configuration names no dialect that can write it. The two forms of the exception rank differently. A
missing dialect is reported before the page is looked at, a dialect without windows only for a page
that has a window.

What has to be excluded are server errors from everywhere else. Errors of tokens name their token,
the others are about the whole spec or about the page, and none of these is a server error.

1. `Compiler.Refuses.status_eq`, `Compiler.status_of_compileOrder` and the like: what compilations
   fail with.
2. `ListParams.status_of_toQuery`: what parameters fail with.
3. `ListQuery.LacksDialect`, `ListQuery.windowSql_eq_error_iff`: the dialect against the page.
4. `ListQuery.server_error_iff_lacks_dialect`: which failures are server errors.
-/
namespace RecordQuery

/-! ## Statuses -/

namespace QueryError

variable {e : QueryError}

/-- An error about a token is one of the request. -/
theorem status_of_token? {token : String} (h : e.token? = some token) : e.status = 400 := by
  cases e with
  | unsupportedDialect _ => cases h
  | _ => rfl

end QueryError

/-! ## Compilations -/

namespace Compiler

variable {c : Compiler} {e : QueryError}

theorem Refuses.status_eq {spec : FilterSpec} (h : c.Refuses spec e) : e.status = 400 := by
  rcases h with hwhole | ⟨t, _, htoken⟩
  · cases hwhole <;> rfl
  · exact QueryError.status_of_token? htoken

variable {spec : SortSpec}

theorem status_of_planSorts (h : c.planSorts spec = .error e) : e.status = 400 := by
  rcases ((reports_planSorts e).1 h).or_of_append_singleton with hchecks | htokens
  · obtain ⟨kind, hkind, he⟩ := hchecks.exists_mem
    simp only [sortChecks, List.mem_cons, List.not_mem_nil, or_false] at hkind
    rcases hkind with rfl | rfl
    · obtain ⟨_, _, _, rfl⟩ := he
      rfl
    · obtain ⟨_, _, _, rfl⟩ := he
      rfl
  · obtain ⟨t, _, hfault⟩ := FirstFault.exists_mem htokens
    exact QueryError.status_of_token? hfault.token?

theorem status_of_compileSortText {qualifier : String}
    (h : c.compileSortText spec qualifier = .error e) : e.status = 400 := by
  have hplan : Reports (c.compileSortText spec qualifier) fun e => c.planSorts spec = .error e :=
    (Reports.self (c.planSorts spec)).map _
  exact status_of_planSorts ((hplan e).1 h)

/-- Terms may also fail for a relation that is not joined, which is about the token. -/
theorem status_of_compileOrder {source : Source} (h : c.compileOrder spec source = .error e) :
    e.status = 400 := by
  unfold compileOrder OrderTerm.ofSorts at h
  cases hp : c.planSorts spec with
  | error e' =>
    rw [hp] at h
    cases h
    exact status_of_planSorts hp
  | ok plan =>
    rw [hp] at h
    have hterms : ∀ p ∈ plan, Reports
        ((p.field.target source).map fun target => (⟨target, p.direction⟩ : OrderTerm))
        (p.field.TargetFault source) :=
      fun p _ => (p.field.reports_target source).map _
    obtain ⟨p, _, hfault⟩ := ((Reports.collect hterms e).1 h).exists_mem
    exact QueryError.status_of_token? hfault.token?

end Compiler

/-! ## Parameters -/

section Parameters

variable {raw : String} {e : QueryError}

theorem FilterToken.token?_of_parsePath {kind : ParamKind} {field : String}
    (h : parsePath kind raw field = .error e) : e.token? = some raw := by
  unfold parsePath at h
  split at h
  · cases h
  · cases h
    rfl

/-- What is wrong with a text that is no filter token is said of the whole text. -/
theorem FilterToken.token?_of_parse (h : parse raw = .error e) : e.token? = some raw := by
  unfold parse at h
  split at h
  · cases h
    rfl
  · split at h
    · rename_i hpath
      cases h
      exact token?_of_parsePath hpath
    · split at h
      · cases h
        rfl
      · split at h
        · cases h
          rfl
        · cases h

theorem SortToken.token?_of_parse (h : parse raw = .error e) : e.token? = some raw := by
  unfold parse at h
  split at h
  · split at h
    · rename_i hpath
      cases h
      exact FilterToken.token?_of_parsePath hpath
    · split at h
      · cases h
        rfl
      · cases h
  · cases h
    rfl

/-- Reading a list of tokens fails for one of them. -/
theorem Spec.exists_of_parse {τ : Type} {read : String → Except QueryError τ} {texts : List String}
    (h : Spec.parse read texts = .error e) : ∃ raw ∈ texts, read raw = .error e := by
  have hreports : Reports (Spec.parse read texts)
      (FirstFault (fun raw e => read raw = .error e) (texts.filter (· ≠ ""))) :=
    (Reports.collect fun raw _ => Reports.self (read raw)).map _
  obtain ⟨raw, hraw, he⟩ := ((hreports e).1 h).exists_mem
  exact ⟨raw, List.mem_of_mem_filter hraw, he⟩

/-- Parameters fail for a token or for the size, which are parts of the request. -/
theorem ListParams.status_of_toQuery {p : ListParams} {config : Config}
    (h : p.toQuery config = .error e) : e.status = 400 := by
  obtain ⟨kind, hkind, he⟩ := ((p.reports_toQuery config e).1 h).exists_mem
  simp only [List.mem_cons, List.not_mem_nil, or_false] at hkind
  rcases hkind with rfl | rfl | rfl
  · obtain ⟨raw, _, hraw⟩ := Spec.exists_of_parse he
    exact QueryError.status_of_token? (FilterToken.token?_of_parse hraw)
  · obtain ⟨raw, _, hraw⟩ := Spec.exists_of_parse he
    exact QueryError.status_of_token? (SortToken.token?_of_parse hraw)
  · obtain ⟨_, rfl⟩ := Pagination.ofRequest_eq_error_iff.1 he
    rfl

end Parameters

/-! ## Windows -/

theorem Dialect.window_eq_error_iff {d : Dialect} {offset limit : UInt64} {e : QueryError} :
    d.window offset limit = .error e ↔ d = .other ∧ e = .unsupportedDialect "other" := by
  cases d with
  | other => exact ⟨fun h => ⟨rfl, (Except.error.inj h).symm⟩, fun ⟨_, he⟩ => he ▸ rfl⟩
  | postgres | mySql | mariaDb | sqlite | h2 | oracle | sqlServer | db2 =>
    exact iff_of_false nofun fun h => nomatch h.1

namespace Pagination

variable {p : Pagination} {rows : UInt64} {d : Dialect} {e : QueryError}

/-- The text of a page fails for the page, or else for a dialect without windows. -/
theorem sql_eq_error_iff (h : p.size = some rows) : p.sql d = .error e ↔
    ¬Fits p.page rows ∧ e = .invalidPage p.page rows ∨
      Fits p.page rows ∧ d = .other ∧ e = .unsupportedDialect "other" := by
  by_cases hfits : Fits p.page rows
  · obtain ⟨w, hw⟩ : ∃ w, p.window? = .ok (some w) := by
      have hbound : p.page.toNat * rows.toNat < UInt64.size :=
        Nat.lt_of_le_of_lt hfits.1 (by decide)
      exact ⟨_, (window?_eq_ok_iff h).2 ⟨hfits, ⟨UInt64.ofNatLT _ hbound, rows⟩, rfl, rfl, rfl⟩⟩
    have hsql : p.sql d = d.window w.offset w.limit := by
      unfold sql
      rw [hw]
    rw [hsql, Dialect.window_eq_error_iff]
    exact ⟨fun hd => .inr ⟨hfits, hd⟩, fun hd => (hd.resolve_left fun hn => hn.1 hfits).2⟩
  · have hw := (window?_eq_error_iff h).2 ⟨hfits, rfl⟩
    have hsql : p.sql d = .error (.invalidPage p.page rows) := by
      unfold sql
      rw [hw]
    rw [hsql, Except.error.injEq]
    constructor
    · rintro rfl
      exact .inl ⟨hfits, rfl⟩
    · rintro (⟨_, rfl⟩ | ⟨hyes, _⟩)
      · rfl
      · exact absurd hyes hfits

end Pagination

namespace ListQuery

variable {q : ListQuery} {c : Compiler} {e : QueryError}

/-- A page is wanted, and there is no dialect to write it: none is set, or it has a window but the
dialect has none. -/
inductive LacksDialect (q : ListQuery) (c : Compiler) : QueryError → Prop
  | unset {rows : UInt64} : q.pagination.size = some rows → c.config.dialect = none →
      LacksDialect q c (.unsupportedDialect "none configured")
  | windowless {rows : UInt64} : q.pagination.size = some rows →
      c.config.dialect = some .other → Pagination.Fits q.pagination.page rows →
      LacksDialect q c (.unsupportedDialect "other")

/-- A page is beyond the range of databases, which only a dialect finds out. -/
inductive BeyondRange (q : ListQuery) (c : Compiler) : QueryError → Prop
  | mk {rows : UInt64} {d : Dialect} : q.pagination.size = some rows →
      c.config.dialect = some d → ¬Pagination.Fits q.pagination.page rows →
      BeyondRange q c (.invalidPage q.pagination.page rows)

/-- The text of a window fails for the lack of a dialect, or for the page. -/
theorem windowSql_eq_error_iff :
    q.windowSql c = .error e ↔ q.LacksDialect c e ∨ q.BeyondRange c e := by
  unfold windowSql
  split
  · rename_i hu
    have hnone : q.pagination.size = none := Option.isNone_iff_eq_none.1 hu
    refine iff_of_false nofun ?_
    rintro ((⟨h, _⟩ | ⟨h, _⟩) | ⟨h, _⟩) <;> cases hnone.symm.trans h
  · rename_i hu
    obtain ⟨rows, hrows⟩ : ∃ rows, q.pagination.size = some rows :=
      Option.ne_none_iff_exists'.1 fun h => hu (Option.isNone_iff_eq_none.2 h)
    split
    · rename_i hd
      rw [Except.error.injEq]
      constructor
      · rintro rfl
        exact .inl (.unset hrows hd)
      · rintro ((_ | ⟨_, h, _⟩) | ⟨_, h, _⟩)
        · rfl
        · cases hd.symm.trans h
        · cases hd.symm.trans h
    · rename_i d hd
      rw [Pagination.sql_eq_error_iff hrows]
      constructor
      · rintro (⟨hn, rfl⟩ | ⟨hfits, rfl, rfl⟩)
        · exact .inr (.mk hrows hd hn)
        · exact .inl (.windowless hrows hd hfits)
      · rintro ((⟨_, h⟩ | ⟨h, hother, hfits⟩) | ⟨h, _, hn⟩)
        · cases hd.symm.trans h
        · cases hrows.symm.trans h
          cases hd.symm.trans hother
          exact .inr ⟨hfits, rfl, rfl⟩
        · cases hrows.symm.trans h
          exact .inl ⟨hn, rfl⟩

theorem LacksDialect.status_eq (h : q.LacksDialect c e) : e.status = 500 := by
  cases h <;> rfl

theorem BeyondRange.status_eq (h : q.BeyondRange c e) : e.status = 400 := by
  cases h
  rfl

/-! ## Lists -/

/-- Where conditions and order are compiled, the text of a list fails as its window does. -/
theorem toSql_eq_error_iff {qualifier order : String} {filter : Clause}
    (hf : c.compileText q.filter qualifier = .ok filter)
    (hs : c.compileSortText q.sort qualifier = .ok order) :
    q.toSql c qualifier = .error e ↔ q.LacksDialect c e ∨ q.BeyondRange c e := by
  rw [← windowSql_eq_error_iff]
  unfold toSql
  rw [hf, hs]
  exact (Reports.self (q.windowSql c)).map _ e

/-- The text of a list fails through a fault of the request, or when all else is well for the lack
of a dialect. -/
theorem cases_of_toSql_eq_error {qualifier : String} (h : q.toSql c qualifier = .error e) :
    e.status = 400 ∨ (∃ filter, c.compileText q.filter qualifier = .ok filter) ∧
      (∃ order, c.compileSortText q.sort qualifier = .ok order) ∧ q.LacksDialect c e := by
  cases hf : c.compileText q.filter qualifier with
  | error e' =>
    unfold toSql at h
    rw [hf] at h
    cases h
    exact .inl (Compiler.refuses_of_compileText hf).status_eq
  | ok filter =>
    cases hs : c.compileSortText q.sort qualifier with
    | error e' =>
      unfold toSql at h
      rw [hf, hs] at h
      cases h
      exact .inl (Compiler.status_of_compileSortText hs)
    | ok order =>
      rcases (toSql_eq_error_iff hf hs).1 h with hlacks | hbeyond
      · exact .inr ⟨⟨filter, rfl⟩, ⟨order, rfl⟩, hlacks⟩
      · exact .inl hbeyond.status_eq

theorem reports_apply (q : ListQuery) (c : Compiler) (source : Source) (select : Select) :
    Reports (q.apply c source select)
      (InTurn [fun e => c.compileCondition q.filter source = .error e,
        fun e => c.compileOrder q.sort source = .error e,
        fun e => q.pagination.window? = .error e]) :=
  (Reports.self (c.compileCondition q.filter source)).inTurn.bind fun _ _ =>
    (Reports.self (c.compileOrder q.sort source)).inTurn.bind fun _ _ =>
      ((Reports.self q.pagination.window?).map _).inTurn

/-- A select needs no dialect, so whatever is wrong with a list is wrong with the request. -/
theorem status_of_apply {source : Source} {select : Select}
    (h : q.apply c source select = .error e) : e.status = 400 := by
  obtain ⟨kind, hkind, he⟩ := ((q.reports_apply c source select e).1 h).exists_mem
  simp only [List.mem_cons, List.not_mem_nil, or_false] at hkind
  rcases hkind with rfl | rfl | rfl
  · exact (Compiler.refuses_of_compileCondition he).status_eq
  · exact Compiler.status_of_compileOrder he
  · cases hs : q.pagination.size with
    | none =>
      have hw : q.pagination.window? = .ok none :=
        Pagination.window?_of_isUnpaged (Option.isNone_iff_eq_none.2 hs)
      cases hw.symm.trans he
    | some rows =>
      obtain ⟨_, rfl⟩ := (Pagination.window?_eq_error_iff hs).1 he
      rfl

/-- Of all that can go wrong with a list, only the lack of a dialect is a server error: for a page
that is wanted as text, when conditions and order are compiled. Whatever else is wrong is a fault of
the request, be it read from parameters, written as text or put on a select; and every row is
written without regard to the dialect. -/
theorem server_error_iff_lacks_dialect (q : ListQuery) (c : Compiler) (qualifier : String) :
    (∀ e, (q.toSql c qualifier = .error e ∧ e.status = 500) ↔
      (∃ filter, c.compileText q.filter qualifier = .ok filter) ∧
      (∃ order, c.compileSortText q.sort qualifier = .ok order) ∧ q.LacksDialect c e) ∧
    (∀ e, q.toSql c qualifier = .error e → ¬q.LacksDialect c e → e.status = 400) ∧
    (∀ source select e, q.apply c source select = .error e → e.status = 400) ∧
    (∀ (p : ListParams) config e, p.toQuery config = .error e → e.status = 400) ∧
    (q.pagination.isUnpaged = true → ∀ dialect,
      q.toSql ⟨c.shape, { c.config with dialect := dialect }⟩ qualifier = q.toSql c qualifier) := by
  refine ⟨fun e => ⟨?_, ?_⟩, fun e h hn => ?_, fun _ _ e h => status_of_apply h,
    fun p config e h => ListParams.status_of_toQuery h, fun hu dialect => ?_⟩
  · rintro ⟨h, hstatus⟩
    refine (cases_of_toSql_eq_error h).resolve_left fun h400 => ?_
    cases hstatus.symm.trans h400
  · rintro ⟨⟨filter, hf⟩, ⟨order, hs⟩, hlacks⟩
    exact ⟨(toSql_eq_error_iff hf hs).2 (.inl hlacks), hlacks.status_eq⟩
  · exact (cases_of_toSql_eq_error h).resolve_right fun hlacks => hn hlacks.2.2
  · unfold toSql
    rw [windowSql_of_isUnpaged hu, windowSql_of_isUnpaged hu]
    rfl

/-- A page beyond the range hides that a dialect has no windows, but not that none is set. -/
example :
    (ListQuery.mk .empty .empty ⟨0x8000000000000000, some 2⟩).toSql ⟨Sample.people, {}⟩ "" =
      .error (.unsupportedDialect "none configured") ∧
    (ListQuery.mk .empty .empty ⟨0x8000000000000000, some 2⟩).toSql
      ⟨Sample.people, { dialect := some .other }⟩ "" = .error (.invalidPage 0x8000000000000000 2) ∧
    (ListQuery.mk .empty .empty ⟨1, some 2⟩).toSql
      ⟨Sample.people, { dialect := some .other }⟩ "" = .error (.unsupportedDialect "other") :=
  ⟨rfl, rfl, rfl⟩

end ListQuery

end RecordQuery
