import RecordQuery.Proofs.ClauseText
import RecordQuery.Proofs.Tree

/-!
# Two backends, one answer

A request can be written as text or put on a select. For a source that joins every relation that the
request names, and for a dialect that has windows, both fail on the same requests with the same
error, and when they succeed they sort by the same terms and take the same window.

Both work from one plan. What could still part them comes after planning: the text needs a dialect
for its window, and the tree needs a join for every relation.

1. `FailsLike`: two results that fail alike. `FailsLike.bind`: so do the steps that follow.
2. `Access.Columns.exists_placed`: with its relation joined, a path has a place in the source.
3. `ListQuery.toSql_agrees_with_apply`: the two backends agree.
-/
namespace RecordQuery

/-! ## Results that fail alike -/

/-- Two results fail alike: with the same error, or not at all. -/
def FailsLike {α β ε : Type} (x : Except ε α) (y : Except ε β) : Prop :=
  ∀ e, x = .error e ↔ y = .error e

section Results

variable {α β α' β' ε : Type} {x : Except ε α} {y : Except ε β}

theorem failsLike_ok (a : α) (b : β) : FailsLike (.ok a : Except ε α) (.ok b : Except ε β) :=
  fun _ => iff_of_false nofun nofun

theorem failsLike_error (e : ε) : FailsLike (.error e : Except ε α) (.error e : Except ε β) :=
  fun _ => ⟨fun h => congrArg _ (Except.error.inj h), fun h => congrArg _ (Except.error.inj h)⟩

/-- Steps fail alike when what they start from does and, from the results, they do. -/
theorem FailsLike.bind {f : α → Except ε α'} {g : β → Except ε β'} (h : FailsLike x y)
    (hfg : ∀ a b, x = .ok a → y = .ok b → FailsLike (f a) (g b)) :
    FailsLike (x.bind f) (y.bind g) := by
  cases x with
  | error e =>
    rw [(h e).1 rfl]
    exact failsLike_error e
  | ok a =>
    cases y with
    | error e => exact nomatch (h e).2 rfl
    | ok b => exact hfg a b rfl rfl

end Results

/-! ## Places for all columns -/

/-- A source joins the relation of a path: for columns of several names, all but the last are the
path of some join. -/
def Source.Joins (source : Source) (fields : List Field) (allowed : NameSet) (path : FieldPath) :
    Prop :=
  path.nested ≠ [] → ∀ names, Access.Columns fields allowed path names →
    ∃ joined, (".".intercalate names.dropLast, joined) ∈ source.joins

/-- Its columns tell which relation a path needs. -/
theorem Source.joins_of_columns {source : Source} {fields : List Field} {allowed : NameSet}
    {path : FieldPath} {names : List String} {joined : String}
    (h : Access.Columns fields allowed path names)
    (hmem : (".".intercalate names.dropLast, joined) ∈ source.joins) :
    source.Joins fields allowed path := by
  intro _ others ho
  cases h.unique ho
  exact ⟨joined, hmem⟩

/-- With its relation joined, a path has a place in the source. -/
theorem Access.Columns.exists_placed {fields : List Field} {allowed : NameSet} {path : FieldPath}
    {names : List String} {source : Source} (h : Access.Columns fields allowed path names)
    (hj : source.Joins fields allowed path) : ∃ column, source.Placed names column := by
  have hlen : names.length = path.nested.length + 1 := h.length_eq
  rcases List.eq_nil_or_concat names with rfl | ⟨relation, name, rfl⟩
  · cases hlen
  · rw [List.concat_eq_append] at h hlen ⊢
    cases relation with
    | nil => exact ⟨_, .root⟩
    | cons head rest =>
      have hn : path.nested ≠ [] := by
        intro hn
        rw [hn] at hlen
        simp at hlen
      obtain ⟨joined, hmem⟩ := hj hn _ h
      rw [List.dropLast_concat] at hmem
      obtain ⟨first, hfirst⟩ := Source.exists_isFirstJoin hmem
      exact ⟨_, .joined (List.cons_ne_nil head rest) hfirst⟩

namespace Compiler

variable {c : Compiler} {allowed : NameSet} {source : Source}

theorem PlansField.exists_target {path : FieldPath} {f : PlannedField}
    (h : c.PlansField allowed path f) (hj : source.Joins c.shape.fields allowed path) :
    ∃ target, f.target source = .ok target := by
  obtain ⟨column, hc⟩ := h.columns.exists_placed hj
  exact ⟨_, PlannedField.target_eq_ok_iff.2 ⟨column, hc, rfl⟩⟩

theorem failsLike_conditions {spec : FilterSpec} (qualifier : String)
    (hj : ∀ t ∈ spec.tokens, source.Joins c.shape.fields spec.allowed t.path) :
    FailsLike (c.compileText spec qualifier) (c.compileCondition spec source) := by
  unfold compileText compileCondition
  cases hp : c.planFilters spec with
  | error e => exact failsLike_error e
  | ok plan =>
    -- Every entry of the plan has a target, so the tree is there as the text is.
    have hplan := (List.forall₂_and_left _ _).2 ⟨hj, (planFilters_eq_ok_iff.1 hp).2⟩
    have htarget : ∀ p ∈ plan, ∃ target, p.field.target source = .ok target :=
      forall_mem_of_forall₂ hplan fun t p h => h.2.plansField.exists_target h.1
    obtain ⟨entries, he⟩ : ∃ entries, Condition.entries source plan = .ok entries := by
      refine exists_collect fun p hmem => ?_
      obtain ⟨target, ht⟩ := htarget p hmem
      exact ⟨_, map_eq_ok_iff.2 ⟨_, map_eq_ok_iff.2 ⟨target, ht, rfl⟩, rfl⟩⟩
    show FailsLike (.ok _) (Condition.ofFilters source plan)
    unfold Condition.ofFilters
    rw [he]
    exact failsLike_ok _ _

theorem failsLike_orders {spec : SortSpec} (qualifier : String)
    (hj : ∀ t ∈ spec.tokens, source.Joins c.shape.fields spec.allowed t.path) :
    FailsLike (c.compileSortText spec qualifier) (c.compileOrder spec source) := by
  unfold compileSortText compileOrder
  cases hp : c.planSorts spec with
  | error e => exact failsLike_error e
  | ok plan =>
    have hplan := (List.forall₂_and_left _ _).2 ⟨hj, (planSorts_eq_ok_iff.1 hp).2⟩
    have htarget : ∀ p ∈ plan, ∃ target, p.field.target source = .ok target :=
      forall_mem_of_forall₂ hplan fun t p h => h.2.plansField.exists_target h.1
    obtain ⟨terms, ht⟩ : ∃ terms, OrderTerm.ofSorts source plan = .ok terms := by
      refine exists_collect fun p hmem => ?_
      obtain ⟨target, ht⟩ := htarget p hmem
      exact ⟨_, map_eq_ok_iff.2 ⟨target, ht, rfl⟩⟩
    show FailsLike (.ok _) (OrderTerm.ofSorts source plan)
    rw [ht]
    exact failsLike_ok _ _

end Compiler

/-! ## Windows -/

/-- The ways to write a window. -/
inductive Window.Writes (w : Window) : String → Prop
  | limit : Writes w ("LIMIT " ++ toString w.limit.toNat ++ " OFFSET " ++ toString w.offset.toNat)
  | next : Writes w ("OFFSET " ++ toString w.offset.toNat ++ " ROWS FETCH NEXT " ++
      toString w.limit.toNat ++ " ROWS ONLY")
  | first : Writes w ("OFFSET " ++ toString w.offset.toNat ++ " ROWS FETCH FIRST " ++
      toString w.limit.toNat ++ " ROWS ONLY")

theorem Dialect.writes_of_window {d : Dialect} {w : Window} {text : String}
    (h : d.window w.offset w.limit = .ok text) : w.Writes text := by
  cases d with
  | postgres | mySql | mariaDb | sqlite | h2 =>
    cases h
    exact .limit
  | oracle | sqlServer =>
    cases h
    exact .next
  | db2 =>
    cases h
    exact .first
  | other => cases h

theorem Pagination.window?_of_isUnpaged {p : Pagination} (h : p.isUnpaged = true) :
    p.window? = .ok none := by
  have hn : p.size = none := Option.isNone_iff_eq_none.1 h
  unfold window?
  rw [hn]

/-- With a dialect that has windows, a page fails as text where its window fails. -/
theorem Pagination.failsLike_sql (p : Pagination) {d : Dialect} (ho : d ≠ .other) :
    FailsLike (p.sql d) p.window? := by
  unfold sql
  split
  · rename_i e hw
    rw [hw]
    exact failsLike_error e
  · rename_i hw
    rw [hw]
    exact failsLike_ok "" none
  · rename_i w hw
    obtain ⟨text, ht⟩ : ∃ text, d.window w.offset w.limit = .ok text := Dialect.window_ok_iff.2 ho
    rw [hw, ht]
    exact failsLike_ok text (some w)

namespace ListQuery

variable {q : ListQuery} {c : Compiler}

/-- With a dialect that has windows, a window fails as text where it fails for a select. -/
theorem failsLike_windows {dialect : Dialect} (hd : c.config.dialect = some dialect)
    (ho : dialect ≠ .other) : FailsLike (q.windowSql c) q.pagination.window? := by
  unfold windowSql
  split
  · rename_i hu
    rw [Pagination.window?_of_isUnpaged hu]
    exact failsLike_ok "" none
  · rw [hd]
    exact q.pagination.failsLike_sql ho

/-- A window is written with its own offset and limit, and nothing is written for none. -/
theorem writes_of_windowSql {text : String} {window : Option Window}
    (ht : q.windowSql c = .ok text) (hw : q.pagination.window? = .ok window) :
    (text = "" ∧ window = none) ∨ ∃ w, window = some w ∧ w.Writes text := by
  unfold windowSql at ht
  split at ht
  · rename_i hu
    cases ht
    rw [Pagination.window?_of_isUnpaged hu] at hw
    cases hw
    exact .inl ⟨rfl, rfl⟩
  · split at ht
    · cases ht
    · unfold Pagination.sql at ht
      rw [hw] at ht
      cases window with
      | none =>
        cases ht
        exact .inl ⟨rfl, rfl⟩
      | some w => exact .inr ⟨w, rfl, Dialect.writes_of_window ht⟩

end ListQuery

namespace Sample

/-- People, with their addresses and their tenants. -/
def source : Source := ⟨"people", [("addr", "a"), ("tenant", "t")]⟩

/-- A select without conditions, order and window. -/
def select : Select := ⟨[⟨none, "name"⟩], some "people", none, [], none⟩

theorem joins_conditions : ∀ t ∈ conditions.tokens,
    source.Joins people.fields conditions.allowed t.path := by
  refine List.forall_mem_cons.2 ⟨?_, List.forall_mem_singleton.2 ?_⟩
  · have hcity := @Access.columns_of_ofPath people.fields conditions.allowed cityLength ""
      ⟨"", cityLength, ["addr", "city_name"], some .text⟩ rfl rfl
    exact Source.joins_of_columns hcity (.head _)
  · have hkey := @Access.columns_of_ofPath people.fields conditions.allowed tenantKey ""
      ⟨"", tenantKey, ["tenant", "key"], none⟩ rfl rfl
    exact Source.joins_of_columns hkey (.tail _ (.head _))

theorem joins_order : ∀ t ∈ order.tokens,
    source.Joins people.fields order.allowed t.path := by
  refine List.forall_mem_cons.2 ⟨?_, List.forall_mem_singleton.2 ?_⟩
  · have hkey := @Access.columns_of_ofPath people.fields order.allowed tenantKey ""
      ⟨"", tenantKey, ["tenant", "key"], none⟩ rfl rfl
    exact Source.joins_of_columns hkey (.tail _ (.head _))
  · exact fun hn => absurd rfl hn

end Sample

/-! ## Whole requests -/

/-- The text of an order term whose column has these storage names. -/
def OrderTerm.text (qualifier : String) (names : List String) (term : OrderTerm) : String :=
  columnText term.target.function qualifier names ++ " " ++ term.direction.sql

/-- A term, with the storage names of its column, is what a token asks for. -/
structure SortToken.Asks (fields : List Field) (allowed : NameSet) (source : Source)
    (t : SortToken) (entry : List String × OrderTerm) : Prop where
  columns : Access.Columns fields allowed t.path entry.1
  placed : source.Placed entry.1 entry.2.target.column
  function : entry.2.target.function = t.path.function
  direction : entry.2.direction = t.direction

namespace Compiler

variable {c : Compiler} {source : Source}

/-- The text of an order and the terms for a select are the same terms. -/
theorem exists_order {spec : SortSpec} {qualifier text : String} {terms : List OrderTerm}
    (ht : c.compileSortText spec qualifier = .ok text)
    (ho : c.compileOrder spec source = .ok terms) :
    ∃ order : List (List String × OrderTerm),
      text = orderText (order.map fun entry => entry.2.text qualifier entry.1) ∧
      terms = order.map Prod.snd ∧
      List.Forall₂ (SortToken.Asks c.shape.fields spec.allowed source) spec.tokens order := by
  obtain ⟨plan, hp, rfl⟩ := compileSortText_eq_ok_iff.1 ht
  obtain ⟨_, hp', hterms⟩ := compileOrder_eq_ok_iff.1 ho
  -- Both are made from one plan, which therefore has as many entries as there are terms.
  cases Except.ok.inj (hp.symm.trans hp')
  have hlen := hterms.length_eq
  refine ⟨(plan.zip terms).map fun e => (e.1.field.columns, e.2), ?_, ?_, ?_⟩
  · have hfst : plan = (plan.zip terms).map Prod.fst := (List.map_fst_zip (Nat.le_of_eq hlen)).symm
    rw [List.map_map]
    conv_lhs => rw [hfst, List.map_map]
    refine congrArg orderText (List.map_congr_left ?_)
    rintro ⟨p, term⟩ hmem
    obtain ⟨target, htarget, rfl⟩ := List.forall₂_zip hterms hmem
    obtain ⟨column, _, rfl⟩ := PlannedField.target_eq_ok_iff.1 htarget
    show p.field.column qualifier ++ " " ++ p.direction.sql = _
    rw [PlannedField.column_eq]
    rfl
  · rw [List.map_map]
    exact (List.map_snd_zip (Nat.le_of_eq hlen.symm)).symm
  · refine List.forall₂_map_right_iff.2
      ((forall₂_zip_right (planSorts_eq_ok_iff.1 hp).2 hterms).imp ?_)
    rintro t ⟨p, term⟩ ⟨htp, target, htarget, hterm⟩
    obtain ⟨column, hplaced, rfl⟩ := PlannedField.target_eq_ok_iff.1 htarget
    dsimp only at hterm
    subst hterm
    have hfield := htp.plansField
    exact ⟨hfield.columns, hplaced, congrArg FieldPath.function hfield.path_eq, htp.direction⟩

end Compiler

namespace ListQuery

/-- The two backends agree. With a dialect that has windows, and a source that joins the relations
of all paths, a request fails as text exactly where it fails on a select, with the same error. When
it does not fail, the same terms sort the text and the select, after those that the select has, and
the same window is written and put on the select, if there is one. -/
theorem toSql_agrees_with_apply {q : ListQuery} {c : Compiler} {source : Source}
    {dialect : Dialect} (hd : c.config.dialect = some dialect) (ho : dialect ≠ .other)
    (hf : ∀ t ∈ q.filter.tokens, source.Joins c.shape.fields q.filter.allowed t.path)
    (hs : ∀ t ∈ q.sort.tokens, source.Joins c.shape.fields q.sort.allowed t.path)
    (qualifier : String) (select : Select) :
    (∀ e, q.toSql c qualifier = .error e ↔ q.apply c source select = .error e) ∧
    ∀ clause result, q.toSql c qualifier = .ok clause → q.apply c source select = .ok result →
      ∃ (conditions : String) (order : List (List String × OrderTerm)) (window : String),
        c.compileText q.filter qualifier = .ok ⟨conditions, clause.values⟩ ∧
        c.compileSortText q.sort qualifier =
          .ok (orderText (order.map fun entry => entry.2.text qualifier entry.1)) ∧
        q.windowSql c = .ok window ∧
        clause.text = joinedText [conditions,
          orderText (order.map fun entry => entry.2.text qualifier entry.1), window] ∧
        result.order = select.order ++ order.map Prod.snd ∧
        List.Forall₂ (SortToken.Asks c.shape.fields q.sort.allowed source) q.sort.tokens order ∧
        ((window = "" ∧ result.window = select.window) ∨
          ∃ w, result.window = some w ∧ w.Writes window) := by
  constructor
  · refine (Compiler.failsLike_conditions qualifier hf).bind fun filter condition _ _ => ?_
    refine (Compiler.failsLike_orders qualifier hs).bind fun order terms _ _ => ?_
    refine (failsLike_windows hd ho).bind fun text window _ _ => ?_
    exact failsLike_ok _ _
  · intro clause result ht ha
    obtain ⟨filter, text, window, hfilter, htext, hwindow, rfl⟩ := toSql_eq_ok_iff.1 ht
    obtain ⟨condition, terms, page, _, hterms, hpage, rfl⟩ := apply_eq_ok_iff.1 ha
    obtain ⟨order, rfl, rfl, hasks⟩ := Compiler.exists_order htext hterms
    refine ⟨filter.text, order, window, hfilter, htext, hwindow, rfl, rfl, hasks, ?_⟩
    rcases writes_of_windowSql hwindow hpage with ⟨hempty, rfl⟩ | ⟨w, rfl, hw⟩
    · exact .inl ⟨hempty, rfl⟩
    · exact .inr ⟨w, rfl, hw⟩

/-- The sample request, for a source that joins addresses and tenants: it does not fail, and the
select is sorted by the terms of the text and has its window. -/
theorem toSql_agrees_with_apply_people :
    (∀ e, Sample.request.toSql Sample.compiler "p." = .error e ↔
      Sample.request.apply Sample.compiler Sample.source Sample.select = .error e) ∧
    ∃ (clause : Clause) (result : Select) (order : List (List String × OrderTerm)),
      Sample.request.toSql Sample.compiler "p." = .ok clause ∧
      Sample.request.apply Sample.compiler Sample.source Sample.select = .ok result ∧
      Sample.compiler.compileSortText Sample.order "p." =
        .ok (orderText (order.map fun entry => entry.2.text "p." entry.1)) ∧
      result.order = order.map Prod.snd ∧ order.length = 2 ∧
      ∃ w, result.window = some w ∧ w.Writes "LIMIT 5 OFFSET 10" := by
  obtain ⟨clause, hc⟩ : ∃ clause, Sample.request.toSql Sample.compiler "p." = .ok clause :=
    ⟨_, rfl⟩
  obtain ⟨result, hr⟩ : ∃ result,
      Sample.request.apply Sample.compiler Sample.source Sample.select = .ok result := ⟨_, rfl⟩
  have hdialect : Dialect.postgres ≠ .other := by decide
  obtain ⟨hfail, hok⟩ := toSql_agrees_with_apply (q := Sample.request) (c := Sample.compiler)
    rfl hdialect Sample.joins_conditions Sample.joins_order "p." Sample.select
  obtain ⟨_, order, window, _, htext, hw, _, hterms, hasks, hwindow⟩ := hok clause result hc hr
  cases (Except.ok.inj (hw.symm.trans rfl) : window = "LIMIT 5 OFFSET 10")
  refine ⟨hfail, clause, result, order, hc, hr, htext, hterms, hasks.length_eq.symm, ?_⟩
  rcases hwindow with ⟨hempty, _⟩ | hwritten
  · exact absurd hempty (by decide)
  · exact hwritten

end ListQuery

end RecordQuery
