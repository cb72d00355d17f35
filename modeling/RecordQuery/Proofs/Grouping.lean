import Mathlib.Data.List.FinRange
import RecordQuery.Proofs.SingleToken

/-!
# Conjuncts by storage path

The conjuncts of a condition are those of its tokens, one for each token, put together by storage
path: the path that is seen first comes first, and the conjuncts of one path stand together in the
order of their tokens. Grouping is a loop that looks for the group of each entry among those it has
made, so what it makes is said once for a step and then for a whole run.

1. `groupsOf`: the groups of entries, without a loop. `addToGroup_groupsOf`: a step extends them.
2. `Precedes`, `IsGrouping`: the order of positions by groups, of which there is only one.
3. `flatMap_groupBy`: grouping puts entries in this order.
4. `Compiler.conjuncts_grouped_by_path`: so are the conjuncts of a condition.
-/
namespace RecordQuery

/-! ## Groups without a loop -/

section Groups

variable {α : Type}

/-- The keys in the order in which they are first seen, each with the members that have it. -/
def groupsOf (entries : List (String × α)) : List (String × List α) :=
  (entries.map Prod.fst).eraseDups.map fun key =>
    (key, (entries.filter (·.1 = key)).map Prod.snd)

/-- A key at the end is new, or it has been seen before and changes nothing. -/
theorem eraseDups_append_singleton (keys : List String) (key : String) :
    (keys ++ [key]).eraseDups = if key ∈ keys then keys.eraseDups else keys.eraseDups ++ [key] := by
  rw [List.eraseDups_append]
  by_cases hk : key ∈ keys <;> simp [List.removeAll, hk, List.eraseDups_cons]

/-- Of two different keys, the one that is first seen has been seen before the other. -/
theorem pairwise_eraseDups (keys : List String) :
    keys.eraseDups.Pairwise fun a b =>
      a ≠ b ∧ ∃ front back, keys = front ++ a :: back ∧ b ∉ front := by
  induction keys using List.reverseRecOn with
  | nil => exact .nil
  | append_singleton keys key ih =>
    have hkeys : keys.eraseDups.Pairwise fun a b =>
        a ≠ b ∧ ∃ front back, keys ++ [key] = front ++ a :: back ∧ b ∉ front := by
      refine ih.imp ?_
      rintro a b ⟨hne, front, back, rfl, hb⟩
      exact ⟨hne, front, back ++ [key], by simp, hb⟩
    rw [eraseDups_append_singleton]
    split
    · exact hkeys
    · rename_i hk
      refine List.pairwise_append.2 ⟨hkeys, List.pairwise_singleton _ _, fun a ha b hb => ?_⟩
      rw [List.mem_eraseDups] at ha
      rw [List.mem_singleton] at hb
      subst hb
      obtain ⟨front, back, rfl⟩ := List.append_of_mem ha
      exact ⟨ne_of_mem_of_not_mem ha hk, front, back ++ [b], by simp,
        fun hm => hk (List.mem_append_left _ hm)⟩

theorem nodup_eraseDups (keys : List String) : keys.eraseDups.Nodup :=
  (pairwise_eraseDups keys).imp And.left

/-- A member is put into the group of its key, or into a new group at the end. -/
theorem addToGroup_map (key : String) (a : α) (members : String → List α) {keys : List String}
    (h : keys.Nodup) :
    addToGroup key a (keys.map fun k => (k, members k)) =
      if key ∈ keys then keys.map fun k => (k, if k = key then members k ++ [a] else members k)
      else keys.map (fun k => (k, members k)) ++ [(key, [a])] := by
  induction keys with
  | nil => rfl
  | cons k keys ih =>
    obtain ⟨hk, hkeys⟩ := List.nodup_cons.1 h
    rw [List.map_cons, addToGroup]
    by_cases hkey : k = key
    · subst hkey
      have hrest : keys.map (fun l => (l, if l = k then members l ++ [a] else members l)) =
          keys.map fun l => (l, members l) :=
        List.map_congr_left fun l hl => by rw [if_neg (ne_of_mem_of_not_mem hl hk)]
      simp [hrest]
    · rw [if_neg hkey, ih hkeys]
      by_cases hm : key ∈ keys <;> simp [hm, hkey, Ne.symm hkey]

/-- A step of the loop goes from the groups of the entries so far to those with one entry more. -/
theorem addToGroup_groupsOf (entries : List (String × α)) (entry : String × α) :
    addToGroup entry.1 entry.2 (groupsOf entries) = groupsOf (entries ++ [entry]) := by
  have hnew : ∀ k, ((entries ++ [entry]).filter (·.1 = k)).map Prod.snd =
      if k = entry.1 then (entries.filter (·.1 = k)).map Prod.snd ++ [entry.2]
      else (entries.filter (·.1 = k)).map Prod.snd := by
    intro k
    by_cases hk : k = entry.1
    · simp [hk]
    · simp [hk, Ne.symm hk]
  unfold groupsOf
  rw [addToGroup_map _ _ _ (nodup_eraseDups _), List.map_append, List.map_singleton,
    eraseDups_append_singleton]
  simp only [List.mem_eraseDups, hnew]
  split
  · rfl
  · rename_i hm
    have hnone : entries.filter (·.1 = entry.1) = [] := by
      refine List.filter_eq_nil_iff.2 fun e he hkey => hm ?_
      exact List.mem_map.2 ⟨e, he, of_decide_eq_true hkey⟩
    rw [List.map_append, List.map_singleton, if_pos rfl, hnone]
    refine congrArg (· ++ _) (List.map_congr_left fun k hk => ?_)
    rw [if_neg (ne_of_mem_of_not_mem (List.mem_eraseDups.1 hk) hm)]

/-- The loop makes the groups of all entries. -/
theorem groupBy_eq_groupsOf (entries : List (String × α)) :
    groupBy entries = groupsOf entries := by
  induction entries using List.reverseRecOn with
  | nil => rfl
  | append_singleton entries entry ih =>
    rw [← addToGroup_groupsOf, ← ih]
    exact List.foldl_append ..

end Groups

/-! ## The order of positions -/

section Positions

variable {n : Nat} {key : Fin n → String}

/-- A position comes before another: its key is seen somewhere before the other's is seen at all, or
it has the same key and stands before it. -/
def Precedes (key : Fin n → String) (i j : Fin n) : Prop :=
  (∃ first, key first = key i ∧ ∀ k, key k = key j → first < k) ∨ key i = key j ∧ i < j

instance (key : Fin n → String) (i j : Fin n) : Decidable (Precedes key i j) :=
  inferInstanceAs (Decidable (_ ∨ _))

/-- All positions, each once, in the order of the keys and, for one key, in their own order. -/
structure IsGrouping (key : Fin n → String) (order : List (Fin n)) : Prop where
  perm : order.Perm (List.finRange n)
  sorted : order.Pairwise (Precedes key)

theorem Precedes.asymm {i j : Fin n} (h : Precedes key i j) : ¬Precedes key j i := by
  rintro (⟨second, hsecond, hafter⟩ | ⟨hsame, hlt⟩)
  · rcases h with ⟨first, hfirst, hbefore⟩ | ⟨hsame, _⟩
    · exact lt_asymm (hbefore second hsecond) (hafter first hfirst)
    · exact lt_irrefl second (hafter second (hsecond.trans hsame.symm))
  · rcases h with ⟨first, hfirst, hbefore⟩ | ⟨_, hgt⟩
    · exact lt_irrefl first (hbefore first (hfirst.trans hsame.symm))
    · exact lt_asymm hlt hgt

/-- There is no other order by groups. -/
theorem IsGrouping.unique {order other : List (Fin n)} (h : IsGrouping key order)
    (ho : IsGrouping key other) : order = other :=
  List.Perm.eq_of_pairwise (fun _ _ _ _ hij hji => absurd hji hij.asymm) h.sorted ho.sorted
    (h.perm.trans ho.perm.symm)

/-- The positions, group by group. -/
def positions (key : Fin n → String) : List (Fin n) :=
  ((List.finRange n).map key).eraseDups.flatMap fun k => (List.finRange n).filter (key · = k)

/-- Entries at the positions of a list are grouped as the positions are. -/
theorem flatMap_groupBy {α : Type} (key : Fin n → String) (member : Fin n → α) :
    (groupBy ((List.finRange n).map fun i => (key i, member i))).flatMap Prod.snd =
      (positions key).map member := by
  rw [groupBy_eq_groupsOf, groupsOf, positions, List.flatMap_map, List.map_flatMap, List.map_map]
  refine congrArg (List.flatMap · _) (funext fun k => ?_)
  rw [List.filter_map, List.map_map]
  rfl

/-- What is seen before a key in the keys of all positions is seen at a position before all those
that have the key. -/
theorem exists_first_lt {front back : List String} {a b : String}
    (hkeys : (List.finRange n).map key = front ++ a :: back) (hb : b ∉ front) (hne : a ≠ b) :
    ∃ first, key first = a ∧ ∀ k, key k = b → first < k := by
  obtain ⟨before, rest, hsplit, rfl, hrest⟩ := List.map_eq_append_iff.1 hkeys
  obtain ⟨first, after, rfl, rfl, _⟩ := List.map_eq_cons_iff.1 hrest
  refine ⟨first, rfl, fun k hk => ?_⟩
  have hsorted := List.pairwise_lt_finRange n
  rw [hsplit, List.pairwise_append, List.pairwise_cons] at hsorted
  have hmem : k ∈ before ++ first :: after := hsplit ▸ List.mem_finRange k
  rcases List.mem_append.1 hmem with hbefore | hrest
  · exact absurd (hk ▸ List.mem_map_of_mem hbefore) hb
  · rcases List.mem_cons.1 hrest with rfl | hafter
    · exact absurd hk hne
    · exact hsorted.2.1.1 k hafter

theorem isGrouping_positions (key : Fin n → String) : IsGrouping key (positions key) := by
  constructor
  · have hperm := perm_groupBy ((List.finRange n).map fun i => (key i, id i))
    rw [flatMap_groupBy, List.map_map] at hperm
    simpa [Function.comp_def] using hperm
  · refine List.pairwise_flatMap.2 ⟨fun k _ => ?_, ?_⟩
    · refine ((List.pairwise_lt_finRange n).filter _).imp_of_mem fun hi hj hlt => .inr ⟨?_, hlt⟩
      exact (of_decide_eq_true (List.mem_filter.1 hi).2).trans
        (of_decide_eq_true (List.mem_filter.1 hj).2).symm
    · refine (pairwise_eraseDups _).imp ?_
      rintro a b ⟨hne, front, back, hkeys, hb⟩ i hi j hj
      have hi := of_decide_eq_true (List.mem_filter.1 hi).2
      have hj := of_decide_eq_true (List.mem_filter.1 hj).2
      obtain ⟨first, hfirst, hbefore⟩ := exists_first_lt hkeys hb hne
      exact .inl ⟨first, hfirst.trans hi.symm, fun k hk => hbefore k (hk.trans hj)⟩

/-- The positions of one key stand together, in their own order. -/
theorem IsGrouping.infix {order : List (Fin n)} (h : IsGrouping key order) (k : String) :
    (List.finRange n).filter (key · = k) <:+: order := by
  rw [h.unique (isGrouping_positions key), positions]
  by_cases hk : k ∈ ((List.finRange n).map key).eraseDups
  · obtain ⟨front, back, hsplit⟩ := List.append_of_mem hk
    rw [hsplit, List.flatMap_append, List.flatMap_cons, ← List.append_assoc]
    exact List.infix_append _ _ _
  · have hnone : (List.finRange n).filter (key · = k) = [] := by
      refine List.filter_eq_nil_iff.2 fun i hi hkey => hk (List.mem_eraseDups.2 ?_)
      exact List.mem_map.2 ⟨i, hi, of_decide_eq_true hkey⟩
    rw [hnone]
    exact List.nil_infix

end Positions

/-- What is related to a list member by member is a function of the positions. -/
theorem exists_at_positions {α β : Type} {r : α → β → Prop} {as : List α} {bs : List β}
    (h : List.Forall₂ r as bs) :
    ∃ member : Fin as.length → β,
      bs = (List.finRange as.length).map member ∧ ∀ i, r as[i] (member i) := by
  obtain ⟨hlen, hall⟩ := List.forall₂_iff_get.1 h
  refine ⟨fun i => bs.get ⟨i, hlen ▸ i.isLt⟩, ?_, fun i => hall i i.isLt (hlen ▸ i.isLt)⟩
  exact List.ext_getElem (by simp [hlen]) fun i _ _ => by simp

/-! ## Conditions -/

namespace Sample

theorem segments_cityByAlias : ∀ s ∈ ["addr", "city_name"], IsSegment s := by decide

/-- Two conditions on a city and two on the tags, in turn. -/
def interleaved : FilterSpec :=
  .ofTokens
    [⟨city, .like, "Os", "address.city:like:Os"⟩, ⟨tags, .isIn, "a;b", "tags:in:a;b"⟩,
      ⟨⟨"addr", ["city_name"], some .length, segments_cityByAlias⟩, .isIn, "4;5",
        "addr.city_name.length():in:4;5"⟩,
      ⟨tagCount, .compare .gt, "1", "tags.size():>:1"⟩]

/-- The storage paths of the conditions. -/
def interleavedPath (i : Fin 4) : String :=
  ["addr.city_name", "tags", "addr.city_name", "tags"][i]

theorem columns_interleaved (i : Fin 4) :
    ∃ names, Access.Columns people.fields ∅ interleaved.tokens[i].path names ∧
      ".".intercalate names = interleavedPath i := by
  have hcolumns : ∀ {path : FieldPath} {f : PlannedField},
      Access.permits people.fields ∅ path.root = true →
      PlannedField.ofPath "" (Access.locate people.fields path) = .ok f →
      Access.Columns people.fields ∅ path f.columns := Access.columns_of_ofPath
  match i with
  | 0 => exact ⟨_, hcolumns rfl rfl, rfl⟩
  | 1 => exact ⟨_, hcolumns rfl rfl, rfl⟩
  | 2 => exact ⟨_, hcolumns rfl rfl, rfl⟩
  | 3 => exact ⟨_, hcolumns rfl rfl, rfl⟩

end Sample

namespace Compiler

variable {c : Compiler}

/-- What a token gives in a condition: its storage path, and the conjunct that the token has by
itself. -/
structure TokenConjunct (c : Compiler) (allowed : NameSet) (source : Source) (t : FilterToken)
    (entry : String × Conjunct) : Prop where
  path : ∃ names, Access.Columns c.shape.fields allowed t.path names ∧
    entry.1 = ".".intercalate names
  alone : c.compileCondition ⟨[t], allowed⟩ source = .ok ⟨[entry.2]⟩

/-- A condition is made of the conjuncts of its tokens. -/
theorem exists_tokenConjuncts {spec : FilterSpec} {source : Source} {condition : Condition}
    (h : c.compileCondition spec source = .ok condition) :
    ∃ entries, List.Forall₂ (c.TokenConjunct spec.allowed source) spec.tokens entries ∧
      condition = .ofEntries entries := by
  obtain ⟨plan, entries, hp, he, rfl⟩ := compileCondition_eq_ok_iff.1 h
  refine ⟨entries, (forall₂_comp (planFilters_single hp) (entries_eq_ok_iff.1 he)).imp ?_, rfl⟩
  rintro t entry ⟨p, ⟨htp, hone⟩, target, htarget, rfl⟩
  refine ⟨⟨p.field.columns, htp.plansField.columns, rfl⟩, ?_⟩
  exact compileCondition_eq_ok_iff.2
    ⟨[p], _, hone, entries_eq_ok_iff.2 (.cons ⟨target, htarget, rfl⟩ .nil), rfl⟩

/-- The conjuncts of a condition are those that its tokens have by themselves, one for each token.
They come in the one order in which the storage path that is seen first comes first and those of one
path keep the order of their tokens, so that those of one path stand together, whatever name or
function the tokens have. -/
theorem conjuncts_grouped_by_path {spec : FilterSpec} {source : Source} {condition : Condition}
    (h : c.compileCondition spec source = .ok condition) :
    ∃ (path : Fin spec.tokens.length → String) (conjunct : Fin spec.tokens.length → Conjunct)
      (order : List (Fin spec.tokens.length)),
      (∀ i, c.TokenConjunct spec.allowed source spec.tokens[i] (path i, conjunct i)) ∧
      condition.conjuncts.Perm ((List.finRange spec.tokens.length).map conjunct) ∧
      condition.conjuncts = order.map conjunct ∧
      IsGrouping path order ∧ (∀ other, IsGrouping path other → other = order) ∧
      ∀ p, (List.finRange spec.tokens.length).filter (path · = p) <:+: order := by
  obtain ⟨entries, hentries, rfl⟩ := exists_tokenConjuncts h
  obtain ⟨entry, rfl, hentry⟩ := exists_at_positions hentries
  have horder := isGrouping_positions fun i => (entry i).1
  have hconjuncts := flatMap_groupBy (fun i => (entry i).1) fun i => (entry i).2
  refine ⟨_, fun i => (entry i).2, positions fun i => (entry i).1, hentry, ?_, hconjuncts, horder,
    fun other ho => ho.unique horder, horder.infix⟩
  show ((groupBy _).flatMap Prod.snd).Perm _
  rw [hconjuncts]
  exact horder.perm.map _

/-- The city and the tags, in turn, each by itself and by a function of it, and the city once by its
alias: the two conjuncts of the city come first, and then those of the tags. -/
theorem conjuncts_grouped_by_path_interleaved :
    ∃ (condition : Condition) (conjunct : Fin 4 → Conjunct),
      Sample.compiler.compileCondition Sample.interleaved Sample.source = .ok condition ∧
      (∀ i, Sample.compiler.TokenConjunct ∅ Sample.source Sample.interleaved.tokens[i]
        (Sample.interleavedPath i, conjunct i)) ∧
      condition.conjuncts = [conjunct 0, conjunct 2, conjunct 1, conjunct 3] := by
  obtain ⟨condition, hc⟩ : ∃ condition,
      Sample.compiler.compileCondition Sample.interleaved Sample.source = .ok condition := ⟨_, rfl⟩
  obtain ⟨path, conjunct, order, htokens, _, hconjuncts, _, honly, _⟩ :=
    conjuncts_grouped_by_path hc
  obtain rfl : path = Sample.interleavedPath := by
    funext i
    obtain ⟨names, hnames, hpath⟩ := (htokens i).path
    obtain ⟨others, hothers, hdotted⟩ := Sample.columns_interleaved i
    rw [← hdotted, ← hnames.unique hothers]
    exact hpath
  have horder : IsGrouping Sample.interleavedPath [0, 2, 1, 3] := ⟨by decide, by decide⟩
  rw [← honly _ horder] at hconjuncts
  exact ⟨condition, conjunct, hc, htokens, hconjuncts⟩

end Compiler

end RecordQuery
