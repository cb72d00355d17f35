import RecordQuery.Cache.Compile
import RecordQuery.Proofs.StoragePath

/-!
# A shared cache

Compilers of many shapes may share a cache of walks, and nobody can tell that they do. Whatever has
been compiled before, with or without success, and however often the cache has been cleared, a
compiler answers as it does without a cache.

What carries this is that every entry is true of its key at all times: it says where the walk along
the key's segments arrives, below the field at the key's place. The places of fields have to differ,
which is why a cache may be shared by shapes of one name and by tables that look alike.

1. `Cache.Call`, `Cache.run`: calls on compilers that share a cache, one after the other.
2. `Cache.Call.answer_of_faithful`: with true entries, one call answers as without a cache.
3. `Cache.answers_without_cache`: so do all, and entries are true at all times.
-/
namespace RecordQuery

namespace Cache

/-! ## Calls -/

/-- A call on compilers that share a cache. -/
inductive Call where
  | text (c : CachedCompiler) (spec : FilterSpec) (qualifier : String)
  | condition (c : CachedCompiler) (spec : FilterSpec) (source : Source)
  | sortText (c : CachedCompiler) (spec : SortSpec) (qualifier : String)
  | order (c : CachedCompiler) (spec : SortSpec) (source : Source)
  /-- All entries are dropped. -/
  | clear

/-- What a call gives. -/
inductive Answer where
  | text (result : Except QueryError Clause)
  | condition (result : Except QueryError Condition)
  | sortText (result : Except QueryError String)
  | order (result : Except QueryError (List OrderTerm))
  | cleared

namespace Call

/-- The compiler that is called. -/
def compiler? : Call → Option CachedCompiler
  | .text c _ _ => some c
  | .condition c _ _ => some c
  | .sortText c _ _ => some c
  | .order c _ _ => some c
  | .clear => none

/-- What a call gives, and the cache that it leaves behind. -/
def answer (cache : Cache) : Call → Answer × Cache
  | .text c spec qualifier =>
    let compiled := c.compileText spec qualifier cache
    (.text compiled.1, compiled.2)
  | .condition c spec source =>
    let compiled := c.compileCondition spec source cache
    (.condition compiled.1, compiled.2)
  | .sortText c spec qualifier =>
    let compiled := c.compileSortText spec qualifier cache
    (.sortText compiled.1, compiled.2)
  | .order c spec source =>
    let compiled := c.compileOrder spec source cache
    (.order compiled.1, compiled.2)
  | .clear => (.cleared, ∅)

/-- What the same compiler gives without a cache. -/
def answerWithout : Call → Answer
  | .text c spec qualifier => .text (c.toCompiler.compileText spec qualifier)
  | .condition c spec source => .condition (c.toCompiler.compileCondition spec source)
  | .sortText c spec qualifier => .sortText (c.toCompiler.compileSortText spec qualifier)
  | .order c spec source => .order (c.toCompiler.compileOrder spec source)
  | .clear => .cleared

end Call

/-- Calls one after the other: what each of them gives, and the cache that is left in the end. -/
def run (cache : Cache) : List Call → List Answer × Cache
  | [] => ([], cache)
  | call :: rest =>
    let answered := call.answer cache
    let later := run answered.2 rest
    (answered.1 :: later.1, later.2)

/-! ## With true entries -/

section Faithful

variable {fieldAt : FieldPlace → Option Field} {cache : Cache}

/-- With true entries, one call answers as without a cache, and leaves true entries behind. -/
theorem Call.answer_of_faithful (hc : cache.Faithful (WalkKey.Arrives fieldAt)) {call : Call}
    (hl : ∀ c, call.compiler? = some c → c.LiesIn fieldAt) :
    (call.answer cache).1 = call.answerWithout ∧
      (call.answer cache).2.Faithful (WalkKey.Arrives fieldAt) := by
  cases call with
  | text c spec qualifier =>
    exact (compileText_of_faithful hc (hl c rfl) spec qualifier).imp_left (congrArg Answer.text)
  | condition c spec source =>
    exact (compileCondition_of_faithful hc (hl c rfl) spec source).imp_left
      (congrArg Answer.condition)
  | sortText c spec qualifier =>
    exact (compileSortText_of_faithful hc (hl c rfl) spec qualifier).imp_left
      (congrArg Answer.sortText)
  | order c spec source =>
    exact (compileOrder_of_faithful hc (hl c rfl) spec source).imp_left (congrArg Answer.order)
  | clear => exact ⟨rfl, faithful_empty _⟩

/-- With true entries, all calls answer as without a cache, and leave true entries behind. -/
theorem run_of_faithful {calls : List Call} (hc : cache.Faithful (WalkKey.Arrives fieldAt))
    (hl : ∀ call ∈ calls, ∀ c, call.compiler? = some c → c.LiesIn fieldAt) :
    (run cache calls).1 = calls.map Call.answerWithout ∧
      (run cache calls).2.Faithful (WalkKey.Arrives fieldAt) := by
  -- On the calls, from any true cache: one call leaves such a cache to the rest.
  induction calls generalizing cache with
  | nil => exact ⟨rfl, hc⟩
  | cons call rest ih =>
    obtain ⟨hcall, hrest⟩ := List.forall_mem_cons.1 hl
    obtain ⟨hanswer, htrue⟩ := Call.answer_of_faithful hc hcall
    obtain ⟨hanswers, htrue'⟩ := ih htrue hrest
    exact ⟨List.cons_eq_cons.2 ⟨hanswer, hanswers⟩, htrue'⟩

end Faithful

/-- A compiler lies in the tables that have its own fields at its place. -/
theorem liesIn_of_tables {tables : Nat → List Field} {c : CachedCompiler}
    (h : tables c.table = c.shape.fields) :
    c.LiesIn fun place => (tables place.table)[place.position]? := by
  intro i field hf
  show (tables c.table)[i]? = some field
  rw [h]
  exact hf

end Cache

/-! ## From an empty cache -/

namespace Sample

/-- Other people, with one address in a city that has a number. -/
def codedPeople : Shape :=
  ⟨"people", [{
    name := "address"
    type := .relation [{ name := "city", type := .int32, storedAs := some "city_id" }] }]⟩

def inParis : FilterToken := ⟨city, .compare .eq, "Paris", "address.city:=:Paris"⟩

def byCity : SortToken := ⟨city, .descending, "address.city:desc"⟩

/-- The tables of the two shapes. -/
def tables : Nat → List Field
  | 0 => codedPeople.fields
  | _ => people.fields

/-- Calls on compilers of both shapes, with the cache cleared in between. -/
def calls : List Cache.Call :=
  [.text ⟨⟨people, {}⟩, 1⟩ (.ofTokens [inParis]) "",
    .text ⟨⟨codedPeople, {}⟩, 0⟩ (.ofTokens [inParis]) "",
    .clear,
    .sortText ⟨⟨codedPeople, {}⟩, 0⟩ (.ofTokens [byCity]) "",
    .sortText ⟨⟨people, {}⟩, 1⟩ (.ofTokens [byCity]) ""]

end Sample

namespace Cache

/-- Compilers that share a cache answer as they do without one, as long as there is one field at a
place; and at all times the entries are true of their keys. -/
theorem answers_without_cache {fieldAt : FieldPlace → Option Field} {calls : List Call}
    (hl : ∀ call ∈ calls, ∀ c, call.compiler? = some c → c.LiesIn fieldAt) :
    (run ∅ calls).1 = calls.map Call.answerWithout ∧
    ∀ before, before <+: calls → ∀ key arrival,
      (run ∅ before).2.find? key = some arrival → key.Arrives fieldAt arrival := by
  refine ⟨(run_of_faithful (faithful_empty _) hl).1, fun before hb => ?_⟩
  exact (run_of_faithful (faithful_empty _) fun call hm => hl call (hb.subset hm)).2

/-- Two shapes of one name share a cache. What the one has walked is not taken for the other, which
reads the same value as a number and fails; both go on after a clear, each with an entry of its
own. -/
theorem answers_without_cache_people :
    (∀ call ∈ Sample.calls, ∀ c, call.compiler? = some c →
      c.LiesIn fun place => (Sample.tables place.table)[place.position]?) ∧
    (run ∅ Sample.calls).1 =
      [.text (.ok ⟨"WHERE addr.city_name = ?", [.text "Paris"]⟩),
        .text (.error (.coercion "address.city:=:Paris"
          ⟨"Paris", "i32", "invalid digit found in string"⟩)),
        .cleared,
        .sortText (.ok "ORDER BY address.city_id DESC"),
        .sortText (.ok "ORDER BY addr.city_name DESC")] ∧
    (run ∅ Sample.calls).2.size = 2 := by
  have hl : ∀ call ∈ Sample.calls, ∀ c, call.compiler? = some c →
      c.LiesIn fun place => (Sample.tables place.table)[place.position]? := by
    intro call hm c hc
    refine liesIn_of_tables ?_
    simp only [Sample.calls, List.mem_cons, List.not_mem_nil, or_false] at hm
    rcases hm with rfl | rfl | rfl | rfl | rfl <;> cases hc <;> rfl
  exact ⟨hl, (answers_without_cache hl).1.trans rfl, rfl⟩

end Cache

end RecordQuery
