import Mathlib.Data.Set.Defs
import Mathlib.Data.String.Basic
import RecordQuery.Proofs.SingleToken

/-!
# The elements of a list

A token on a list compares the elements of the list with its value. The condition that is made of it
has the value on the left, where the token has it on the right, and asks for some element, or for
`<>` for every element. What it comes to is what the token says: some element passes the comparison,
and for `<>` no element is equal to the value.

1. `Truth.not`: what is not true. `Truth.not_any`: not some, when all are not.
2. `Comparison.Holds`: comparisons in a linear order. `Engine.Ranks`: a database that compares so.
3. `Engine.member_ne_all`: every element differs exactly when not some element is equal.
4. `Compiler.TestsElements`: the condition of a token on a list.
5. `Compiler.elements_pass_comparison`: what the condition says of a row.
-/
namespace RecordQuery

/-! ## Some and all -/

namespace Truth

/-- What is not known to be true is not known to be false either. -/
def not : Truth → Truth
  | .false => .true
  | .unknown => .unknown
  | .true => .false

theorem not_or (a b : Truth) : (a.or b).not = a.not.and b.not := by
  cases a <;> cases b <;> rfl

theorem not_any (truths : List Truth) : (any truths).not = all (truths.map not) := by
  induction truths with
  | nil => rfl
  | cons a rest ih =>
    show (a.or (any rest)).not = a.not.and (all (rest.map not))
    rw [not_or, ih]

theorem any_map_ofBool {α : Type} (p : α → Bool) (as : List α) :
    any (as.map fun a => ofBool (p a)) = ofBool (as.any p) := by
  induction as with
  | nil => rfl
  | cons a rest ih =>
    show (ofBool (p a)).or (any (rest.map fun a => ofBool (p a))) = ofBool (p a || rest.any p)
    rw [ih]
    cases p a <;> cases rest.any p <;> rfl

theorem ofBool_eq_true_iff {b : Bool} : ofBool b = .true ↔ b = Bool.true := by
  cases b <;> decide

theorem not_ofBool (b : Bool) : (ofBool b).not = ofBool !b := by
  cases b <;> rfl

theorem ofBool_ne_unknown (b : Bool) : ofBool b ≠ .unknown := by
  cases b <;> decide

end Truth

/-! ## Comparisons in a linear order -/

namespace Comparison

/-- What a comparison says of two members of a linear order. -/
def Holds {α : Type} [LinearOrder α] : Comparison → α → α → Prop
  | .eq, a, b => a = b
  | .ne, a, b => a ≠ b
  | .gt, a, b => b < a
  | .ge, a, b => b ≤ a
  | .lt, a, b => a < b
  | .le, a, b => a ≤ b

variable {α : Type} [LinearOrder α]

theorem accepts_compare_iff {op : Comparison} {a b : α} :
    op.accepts (compare a b) = true ↔ op.Holds a b := by
  cases op <;> simp only [accepts, Holds, beq_iff_eq, bne_iff_ne]
  case eq => exact compare_eq_iff_eq
  case ne => exact compare_eq_iff_eq.not
  case gt => exact compare_gt_iff_gt
  case ge => exact compare_ge_iff_ge
  case lt => exact compare_lt_iff_lt
  case le => exact compare_le_iff_le

/-- With its operands swapped, a comparison says the same. -/
theorem holds_flipped_iff {op : Comparison} {a b : α} : op.flipped.Holds a b ↔ op.Holds b a := by
  cases op
  case eq => exact eq_comm
  case ne => exact ne_comm
  all_goals exact Iff.rfl

end Comparison

namespace Engine

/-- A database compares the values of a domain as their ranks in a linear order. -/
def Ranks {α : Type} [LinearOrder α] (e : Engine) (domain : Set Value) (rank : Value → α) : Prop :=
  ∀ a ∈ domain, ∀ b ∈ domain,
    e.order (.value a) (.value b) = some (Ord.compare (rank a) (rank b))

variable {e : Engine}

/-- Between data, `<>` is what `=` is not. -/
theorem compare_ne (a b : Option Datum) : e.compare .ne a b = (e.compare .eq a b).not := by
  unfold compare
  cases a with
  | none => rfl
  | some a =>
    cases b with
    | none => rfl
    | some b =>
      dsimp only [Option.bind_some]
      cases e.order a b with
      | none => rfl
      | some o => cases o <;> rfl

/-- Every element differs exactly when not some element is equal. -/
theorem member_ne_all (v : Value) (a : Option Datum) :
    e.member v .ne .all a = (e.member v .eq .any a).not := by
  rcases a with _ | _ | elements
  · rfl
  · rfl
  · show Truth.all (elements.map fun x => e.compare .ne (some (.value v)) (x.map .value)) =
      (Truth.any (elements.map fun x => e.compare .eq (some (.value v)) (x.map .value))).not
    simp only [Truth.not_any, compare_ne, List.map_map, Function.comp_def]

variable {α : Type} [LinearOrder α] {domain : Set Value} {rank : Value → α} {v : Value}
  {xs : List Value}

/-- In a list without gaps, some element passes or none does. -/
theorem Ranks.exists_member_any (h : e.Ranks domain rank) (hv : v ∈ domain)
    (hxs : ∀ x ∈ xs, x ∈ domain) (op : Comparison) :
    ∃ b : Bool, e.member v op .any (some (.list (xs.map some))) = .ofBool b ∧
      (b = true ↔ ∃ x ∈ xs, op.Holds (rank v) (rank x)) := by
  refine ⟨xs.any fun x => op.accepts (Ord.compare (rank v) (rank x)), ?_, ?_⟩
  · show Truth.any ((xs.map some).map fun x => e.compare op (some (.value v)) (x.map .value)) = _
    rw [List.map_map, ← Truth.any_map_ofBool]
    refine congrArg Truth.any (List.map_congr_left fun x hx => ?_)
    show Truth.ofOption ((e.order (.value v) (.value x)).map op.accepts) = _
    rw [h v hv x (hxs x hx)]
    rfl
  · rw [List.any_eq_true]
    exact exists_congr fun x => and_congr_right fun _ => Comparison.accepts_compare_iff

end Engine

/-- On a list without gaps the test of its elements is decided, and it is true when some element
passes the comparison with the value, or for `<>` when no element is equal to the value. -/
theorem Predicate.holds_membership_iff {e : Engine} {α : Type} [LinearOrder α]
    {domain : Set Value} {rank : Value → α} (h : e.Ranks domain rank) {v : Value}
    (hv : v ∈ domain) {xs : List Value} (hxs : ∀ x ∈ xs, x ∈ domain) {target : Target} {row : Row}
    (htarget : target.datum e row = some (.list (xs.map some))) (op : Comparison) :
    (membership target op v).holds e row ≠ .unknown ∧
    (op ≠ .ne → ((membership target op v).holds e row = .true ↔
      ∃ x ∈ xs, op.Holds (rank x) (rank v))) ∧
    (op = .ne → ((membership target op v).holds e row = .true ↔ ∀ x ∈ xs, rank x ≠ rank v)) := by
  by_cases hop : op = .ne
  · obtain ⟨b, hmember, hb⟩ := h.exists_member_any hv hxs .eq
    have hholds : (membership target op v).holds e row = .ofBool !b := by
      rw [hop]
      show e.member v .ne .all (target.datum e row) = _
      rw [htarget, Engine.member_ne_all, hmember, Truth.not_ofBool]
    rw [hholds]
    refine ⟨Truth.ofBool_ne_unknown _, fun hn => absurd hop hn, fun _ => ?_⟩
    rw [Truth.ofBool_eq_true_iff, Bool.not_eq_true', ← Bool.not_eq_true, hb]
    exact ⟨fun hno x hx heq => hno ⟨x, hx, heq.symm⟩, fun hall ⟨x, hx, heq⟩ => hall x hx heq.symm⟩
  · -- The value stands on the left here, where the elements stand in the token.
    obtain ⟨b, hmember, hb⟩ := h.exists_member_any hv hxs op.flipped
    have hholds : (membership target op v).holds e row = .ofBool b := by
      show e.member v op.flipped (if op = .ne then .all else .any) (target.datum e row) = _
      rw [if_neg hop, htarget, hmember]
    rw [hholds]
    refine ⟨Truth.ofBool_ne_unknown _, fun _ => ?_, fun hne => absurd hne hop⟩
    rw [Truth.ofBool_eq_true_iff, hb]
    exact exists_congr fun x => and_congr_right fun _ => Comparison.holds_flipped_iff

/-! ## Tokens on a list -/

namespace Sample

/-- The token that compares the tags of a person with one text. -/
def onTags (op : Comparison) (value : String) : FilterToken :=
  ⟨tags, .compare op, value, "tags:" ++ op.sql ++ ":" ++ value⟩

theorem comparesList_onTags (op : Comparison) (value : String) :
    (onTags op value).ComparesList people.fields := by
  have hfirst : Field.IsFirst people.fields "tags" { name := "tags", type := .list .text } :=
    Field.lookup_eq_some_iff.1 rfl
  exact ⟨.compare op, rfl, .text, .last hfirst⟩

/-- A person with these tags. -/
def tagged (tags : List String) : Row where
  written _ := none
  placed
    | ⟨"people", "tags"⟩ => some (.list (tags.map fun tag => some (.text tag)))
    | _ => none

/-- The texts among the values. -/
def texts : Set Value := { v | ∃ s, v = .text s }

def textOf : Value → String
  | .text s => s
  | _ => ""

/-- The sample database compares texts as they stand in the order of texts. -/
theorem ranks_texts : engine.Ranks texts textOf := by
  rintro _ ⟨s, rfl⟩ _ ⟨t, rfl⟩
  show some (if s < t then Ordering.lt else if s = t then .eq else .gt) = some (compare s t)
  rw [LinearOrder.compare_eq_compareOfLessAndEq]
  rfl

end Sample

namespace Compiler

variable {c : Compiler} {allowed : NameSet} {source : Source} {t u : FilterToken}
  {op other : Comparison} {condition : Condition}

/-- A condition is the test of the elements in the column that a path leads to, with the value that
a token has for them. -/
structure TestsElements (c : Compiler) (allowed : NameSet) (source : Source) (t : FilterToken)
    (op : Comparison) (column : Column) (v : Value) (condition : Condition) : Prop where
  placed : ∃ names, Access.Columns c.shape.fields allowed t.path names ∧
    source.Placed names column
  coerced : ∃ element, Field.Declares c.shape.fields t.path.segments (.list element) ∧
    element.coerce t.value = .ok v
  condition_eq : condition = ⟨[.one (.membership ⟨column, none⟩ op v)]⟩

/-- A token on a list is put into a tree as the test of the elements for its value. -/
theorem compileCondition_of_comparesList (ho : t.operator = .compare op)
    (hlist : t.ComparesList c.shape.fields) :
    c.compileCondition ⟨[t], allowed⟩ source = .ok condition ↔
      ∃ f target v, c.ReachesValue allowed t f ∧ f.target source = .ok target ∧
        f.value t.value = .ok v ∧ condition = ⟨[.one (.membership target op v)]⟩ := by
  rw [compileCondition_singleton_eq_ok_iff]
  constructor
  · rintro ⟨f, o, target, h, hoperand, htarget, rfl⟩
    rw [ho] at hoperand
    obtain ⟨v, hv, rfl⟩ := map_eq_ok_iff.1 hoperand
    rw [(h.isMembership_iff hlist.readsValues).2 hlist]
    exact ⟨f, target, v, h, htarget, hv, rfl⟩
  · rintro ⟨f, target, v, h, htarget, hv, rfl⟩
    refine ⟨f, .compare op v, target, h, ?_, htarget, ?_⟩
    · rw [ho]
      exact map_eq_ok_iff.2 ⟨v, hv, rfl⟩
    · rw [(h.isMembership_iff hlist.readsValues).2 hlist]
      rfl

theorem exists_testsElements (ho : t.operator = .compare op)
    (hlist : t.ComparesList c.shape.fields)
    (h : c.compileCondition ⟨[t], allowed⟩ source = .ok condition) :
    ∃ column v, c.TestsElements allowed source t op column v condition := by
  obtain ⟨f, target, v, hreach, htarget, hv, rfl⟩ := (compileCondition_of_comparesList ho hlist).1 h
  obtain ⟨column, hplaced, rfl⟩ := PlannedField.target_eq_ok_iff.1 htarget
  obtain ⟨element, hdeclares⟩ := hlist.declares
  have hfunction : f.path.function = none := by
    rw [hreach.plansField.path_eq]
    exact hlist.function
  have htype := hreach.plansField.typed.unique (.declared hdeclares)
  have hcoerce : element.coerce t.value = .ok v := by
    rcases PlannedField.value_eq_ok_iff.1 hv with ⟨_, hreads, hcoerce⟩ | ⟨_, hnone, _⟩
    · cases hreads with
      | counted hf => cases hfunction.symm.trans hf
      | declared _ ht =>
        cases htype.symm.trans ht
        exact hcoerce
    · cases htype.symm.trans hnone
  refine ⟨column, v, ⟨f.columns, hreach.plansField.columns, hplaced⟩, ⟨element, hdeclares, hcoerce⟩,
    ?_⟩
  rw [hfunction]

/-- With another comparison, a token with the same path and the same value tests the same elements
for the same value. -/
theorem compileCondition_of_sameValue (hpath : u.path = t.path) (hvalue : u.value = t.value)
    (ho : t.operator = .compare op) (hu : u.operator = .compare other)
    (hlist : t.ComparesList c.shape.fields)
    (h : c.compileCondition ⟨[t], allowed⟩ source = .ok condition) :
    ∃ target v, condition = ⟨[.one (.membership target op v)]⟩ ∧
      c.compileCondition ⟨[u], allowed⟩ source = .ok ⟨[.one (.membership target other v)]⟩ := by
  obtain ⟨f, target, v, hreach, htarget, hv, rfl⟩ := (compileCondition_of_comparesList ho hlist).1 h
  have hreads : u.operator.ReadsValues := by
    rw [hu]
    exact .compare other
  have hulist : u.ComparesList c.shape.fields :=
    ⟨hreads, hpath ▸ hlist.function, hpath ▸ hlist.declares⟩
  refine ⟨target, v, rfl, (compileCondition_of_comparesList hu hulist).2
    ⟨_, target, v, hreach.of_path hpath hreads (hvalue ▸ hreach.short),
      (PlannedField.target_of_token u.raw).2 htarget, ?_, rfl⟩⟩
  rw [PlannedField.value_of_token, hvalue]
  exact hv

/-- A comparison of a list is accepted as a test of its elements, which on a list without gaps is
decided: it is true exactly when some element passes the comparison with the value, and for `<>`
exactly when no element is equal to the value. So `=` and `<>` with one value are accepted together,
and on every row one is what the other is not. -/
theorem elements_pass_comparison (c : Compiler) (allowed : NameSet) (source : Source) :
    (∀ t op condition, t.operator = .compare op → t.ComparesList c.shape.fields →
      c.compileCondition ⟨[t], allowed⟩ source = .ok condition →
      ∃ column v, c.TestsElements allowed source t op column v condition ∧
        ∀ (α : Type) [LinearOrder α] (e : Engine) (domain : Set Value) (rank : Value → α)
          (row : Row) (xs : List Value),
          e.Ranks domain rank → v ∈ domain → (∀ x ∈ xs, x ∈ domain) →
          row.placed column = some (.list (xs.map some)) →
          condition.holds e row ≠ .unknown ∧
          (op ≠ .ne → (condition.holds e row = .true ↔ ∃ x ∈ xs, op.Holds (rank x) (rank v))) ∧
          (op = .ne → (condition.holds e row = .true ↔ ∀ x ∈ xs, rank x ≠ rank v))) ∧
    (∀ t u : FilterToken, t.path = u.path → t.value = u.value → t.operator = .compare .eq →
      u.operator = .compare .ne → t.ComparesList c.shape.fields →
      ((∃ condition, c.compileCondition ⟨[t], allowed⟩ source = .ok condition) ↔
        ∃ condition, c.compileCondition ⟨[u], allowed⟩ source = .ok condition) ∧
      ∀ equal unequal, c.compileCondition ⟨[t], allowed⟩ source = .ok equal →
        c.compileCondition ⟨[u], allowed⟩ source = .ok unequal →
        ∀ (e : Engine) (row : Row), unequal.holds e row = (equal.holds e row).not) := by
  constructor
  · intro t op condition ho hlist h
    obtain ⟨column, v, htests⟩ := exists_testsElements ho hlist h
    refine ⟨column, v, htests, fun α _ e domain rank row xs hranks hv hxs hrow => ?_⟩
    have htarget : Target.datum e row ⟨column, none⟩ = some (.list (xs.map some)) := hrow
    rw [htests.condition_eq, Condition.holds_singleton]
    exact Predicate.holds_membership_iff hranks hv hxs htarget op
  · intro t u hpath hvalue ht hu hlist
    have hulist : u.ComparesList c.shape.fields :=
      ⟨hu ▸ .compare .ne, hpath ▸ hlist.function, hpath ▸ hlist.declares⟩
    refine ⟨⟨fun ⟨_, h⟩ => ?_, fun ⟨_, h⟩ => ?_⟩, fun equal unequal h h' e row => ?_⟩
    · obtain ⟨_, _, _, h'⟩ := compileCondition_of_sameValue hpath.symm hvalue.symm ht hu hlist h
      exact ⟨_, h'⟩
    · obtain ⟨_, _, _, h'⟩ := compileCondition_of_sameValue hpath hvalue hu ht hulist h
      exact ⟨_, h'⟩
    · obtain ⟨target, v, rfl, hne⟩ :=
        compileCondition_of_sameValue hpath.symm hvalue.symm ht hu hlist h
      cases h'.symm.trans hne
      rw [Condition.holds_singleton, Condition.holds_singleton]
      exact Engine.member_ne_all v (target.datum e row)

/-- Tags above `b`, equal to `b` and not equal to `b`: one tag above is enough, a person without
tags has none that is equal, and of two tags of which one is `b` not every one differs. -/
theorem elements_pass_comparison_tags :
    ∃ above equal unequal,
      Sample.compiler.compileCondition ⟨[Sample.onTags .gt "b"], ∅⟩ Sample.source = .ok above ∧
      Sample.compiler.compileCondition ⟨[Sample.onTags .eq "b"], ∅⟩ Sample.source = .ok equal ∧
      Sample.compiler.compileCondition ⟨[Sample.onTags .ne "b"], ∅⟩ Sample.source = .ok unequal ∧
      (∀ tags, above.holds Sample.engine (Sample.tagged tags) = .true ↔ ∃ s ∈ tags, "b" < s) ∧
      (∀ tags, unequal.holds Sample.engine (Sample.tagged tags) =
        (equal.holds Sample.engine (Sample.tagged tags)).not) ∧
      above.holds Sample.engine (Sample.tagged ["a", "c"]) = .true ∧
      above.holds Sample.engine (Sample.tagged ["a", "b"]) = .false ∧
      unequal.holds Sample.engine (Sample.tagged []) = .true ∧
      unequal.holds Sample.engine (Sample.tagged ["a", "b"]) = .false := by
  obtain ⟨hpass, hcomplement⟩ := elements_pass_comparison Sample.compiler ∅ Sample.source
  have habove : Sample.compiler.compileCondition ⟨[Sample.onTags .gt "b"], ∅⟩ Sample.source =
      .ok ⟨[.one (.membership ⟨⟨"people", "tags"⟩, none⟩ .gt (.text "b"))]⟩ := rfl
  obtain ⟨_, hunequal⟩ := hcomplement (Sample.onTags .eq "b") (Sample.onTags .ne "b")
    rfl rfl rfl rfl (Sample.comparesList_onTags .eq "b")
  obtain ⟨_, _, htests, hholds⟩ :=
    hpass _ .gt _ rfl (Sample.comparesList_onTags .gt "b") habove
  cases htests.condition_eq
  refine ⟨_, _, _, habove, rfl, rfl, fun tags => ?_, fun tags => hunequal _ _ rfl rfl _ _, ?_⟩
  · have htexts : ∀ x ∈ tags.map Value.text, x ∈ Sample.texts :=
      List.forall_mem_map.2 fun s _ => ⟨s, rfl⟩
    have hrow : (Sample.tagged tags).placed ⟨"people", "tags"⟩ =
        some (.list ((tags.map Value.text).map some)) := by
      rw [List.map_map]
      rfl
    obtain ⟨_, hiff, _⟩ := hholds String Sample.engine Sample.texts Sample.textOf _ _
      Sample.ranks_texts ⟨"b", rfl⟩ htexts hrow
    rw [hiff (by decide)]
    simp only [List.mem_map, exists_exists_and_eq_and]
    exact Iff.rfl
  · decide +kernel

end Compiler

end RecordQuery
