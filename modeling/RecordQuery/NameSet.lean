/-!
# Name sets

A finite set of names, kept as its strictly increasing list. The order is by code point, which is
also the order of the encoded bytes, so the list is the order in which names are reported, and two
sets with the same members are equal.

1. `mem_insert`, `mem_union`: what the operations put into a set.
2. `NameSet.ext`: members decide equality.
-/
namespace RecordQuery

namespace NameSetLemmas

/-- Put a name at its place in an increasing list; a name that is there already stays once. -/
def place (name : String) : List String → List String
  | [] => [name]
  | head :: tail =>
    if name < head then name :: head :: tail
    else if name = head then head :: tail
    else head :: place name tail

theorem mem_place {a name : String} {names : List String} :
    a ∈ place name names ↔ a = name ∨ a ∈ names := by
  induction names with
  | nil => simp [place]
  | cons head tail ih =>
    simp only [place]
    split
    · simp
    · split
      · rename_i h
        subst h
        simp
      · simp only [List.mem_cons, ih]
        exact ⟨fun h => h.elim (.inr ∘ .inl) fun h => h.elim .inl (.inr ∘ .inr),
          fun h => h.elim (.inr ∘ .inl) fun h => h.elim .inl (.inr ∘ .inr)⟩

theorem pairwise_place {name : String} {names : List String} (h : names.Pairwise (· < ·)) :
    (place name names).Pairwise (· < ·) := by
  induction names with
  | nil => simp [place]
  | cons head tail ih =>
    have hh := List.pairwise_cons.1 h
    simp only [place]
    split
    · rename_i hlt
      refine List.pairwise_cons.2 ⟨fun b hb => ?_, h⟩
      rcases List.mem_cons.1 hb with rfl | hb
      · exact hlt
      · exact String.lt_trans hlt (hh.1 b hb)
    · split
      · exact h
      · rename_i hnlt hne
        refine List.pairwise_cons.2 ⟨fun b hb => ?_, ih hh.2⟩
        rcases mem_place.1 hb with rfl | hb
        · exact String.not_le.1 fun hle => hne (String.le_antisymm hle (String.not_lt.1 hnlt))
        · exact hh.1 b hb

theorem eq_of_pairwise {a b : List String} (ha : a.Pairwise (· < ·)) (hb : b.Pairwise (· < ·))
    (h : ∀ x, x ∈ a ↔ x ∈ b) : a = b := by
  induction a generalizing b with
  | nil =>
    cases b with
    | nil => rfl
    | cons y ys => exact absurd ((h y).2 List.mem_cons_self) (by simp)
  | cons x xs ih =>
    cases b with
    | nil => exact absurd ((h x).1 List.mem_cons_self) (by simp)
    | cons y ys =>
      have hx := List.pairwise_cons.1 ha
      have hy := List.pairwise_cons.1 hb
      have hxy : x = y := by
        rcases List.mem_cons.1 ((h x).1 List.mem_cons_self) with e | hm
        · exact e
        · rcases List.mem_cons.1 ((h y).2 List.mem_cons_self) with e | hm'
          · exact e.symm
          · exact absurd (hy.1 x hm) (String.lt_asymm (hx.1 y hm'))
      subst hxy
      congr 1
      refine ih hx.2 hy.2 fun z => ⟨fun hz => ?_, fun hz => ?_⟩
      · rcases List.mem_cons.1 ((h z).1 (List.mem_cons_of_mem _ hz)) with e | hm
        · exact absurd (hx.1 z hz) (e ▸ String.lt_irrefl _)
        · exact hm
      · rcases List.mem_cons.1 ((h z).2 (List.mem_cons_of_mem _ hz)) with e | hm
        · exact absurd (hy.1 z hz) (e ▸ String.lt_irrefl _)
        · exact hm

end NameSetLemmas

/-- A set of names as its strictly increasing list. -/
structure NameSet where
  names : List String
  increasing : names.Pairwise (· < ·)
  deriving DecidableEq

namespace NameSet

open NameSetLemmas

instance : Membership String NameSet where
  mem s a := a ∈ s.names

instance (a : String) (s : NameSet) : Decidable (a ∈ s) :=
  inferInstanceAs (Decidable (a ∈ s.names))

def empty : NameSet := ⟨[], .nil⟩

instance : EmptyCollection NameSet := ⟨empty⟩

instance : Inhabited NameSet := ⟨empty⟩

def insert (s : NameSet) (a : String) : NameSet :=
  ⟨place a s.names, pairwise_place s.increasing⟩

/-- The set with every name of a list as a further member. -/
def insertAll (s : NameSet) (names : List String) : NameSet :=
  names.foldl insert s

def ofList (names : List String) : NameSet := insertAll ∅ names

def union (s t : NameSet) : NameSet := s.insertAll t.names

instance : Union NameSet := ⟨union⟩

def isEmpty (s : NameSet) : Bool := s.names.isEmpty

@[simp]
theorem not_mem_empty (a : String) : ¬a ∈ (∅ : NameSet) := by
  intro h
  cases h

@[simp]
theorem mem_insert {a b : String} {s : NameSet} : a ∈ s.insert b ↔ a = b ∨ a ∈ s := mem_place

@[simp]
theorem mem_insertAll {a : String} {s : NameSet} {names : List String} :
    a ∈ s.insertAll names ↔ a ∈ s ∨ a ∈ names := by
  unfold insertAll
  induction names generalizing s with
  | nil => simp
  | cons head tail ih =>
    rw [List.foldl_cons, ih, mem_insert, List.mem_cons, or_comm (a := a = head), or_assoc]

@[simp]
theorem mem_ofList {a : String} {names : List String} : a ∈ ofList names ↔ a ∈ names := by
  simp [ofList]

@[simp]
theorem mem_union {a : String} {s t : NameSet} : a ∈ s ∪ t ↔ a ∈ s ∨ a ∈ t :=
  mem_insertAll

/-- Two sets with the same members are equal. -/
@[ext]
theorem ext {s t : NameSet} (h : ∀ a, a ∈ s ↔ a ∈ t) : s = t := by
  have hn : s.names = t.names := eq_of_pairwise s.increasing t.increasing h
  cases s
  cases t
  cases hn
  rfl

theorem isEmpty_iff {s : NameSet} : s.isEmpty = true ↔ ∀ a, ¬a ∈ s := by
  rw [isEmpty, List.isEmpty_iff, List.eq_nil_iff_forall_not_mem]
  rfl

end NameSet

end RecordQuery
