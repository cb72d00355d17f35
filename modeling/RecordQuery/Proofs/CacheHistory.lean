import Mathlib.Data.List.DropRight
import RecordQuery.Cache

/-!
# The history of a cache

Whatever a cache is used for, it is a map that is written once for each key. What is written can be
read off the history of the uses: it is where the first walk of the key to succeed since the last
clear has arrived. Walks need not be pure, so a later one might arrive elsewhere; it is not made any
more. A walk that fails leaves nothing behind, so the next look-up makes one again.

One invariant carries this. At all times the entry of a key is what the history says it is, and a
key has succeeded exactly when it has an entry.

1. `Cache.Session`, `Cache.Session.after`: uses of a cache, one after the other, with their history.
   `Cache.Session.recorded_after`: the history has one outcome for each use, which is what the
   look-up of that use gave.
2. `Cache.Session.Tracked`: the invariant. `Cache.Session.tracked_use` keeps it,
   `Cache.Session.tracked_after` holds it at all times.
3. `Cache.Session.narrows_turns`: uses that do not concern a key may be left out.
4. `Cache.written_once`: what a look-up gives, from the history alone.
-/
namespace RecordQuery

namespace Cache

variable {σ ε : Type}

/-! ## Uses and their history -/

/-- A use of a cache. What makes a walk may read a state and change it, so it need not give the same
when it is made again. The cache is no part of that state: a walk cannot look up, or clear, the
cache that it is made for, and one use is over before the next begins. -/
inductive Use (σ ε : Type) where
  | lookup (key : WalkKey) (resolve : σ → Except ε ResolvedField × σ)
  /-- All entries are dropped. -/
  | clear

/-- What came of a use. -/
inductive Outcome (ε : Type) where
  /-- A look-up: what the walk gave, if one was made, and what the look-up gave. -/
  | answered (key : WalkKey) (made : Option (Except ε ResolvedField))
      (result : Except ε ResolvedField)
  | cleared

namespace Outcome

def isAnswer : Outcome ε → Bool
  | answered _ _ _ => true
  | cleared => false

/-- Whether an outcome is that of a look-up of a key, or of a clear. -/
def concerns (key : WalkKey) : Outcome ε → Bool
  | answered other _ _ => other = key
  | cleared => true

/-- Where a walk of a key arrived. -/
def arrival? (key : WalkKey) : Outcome ε → Option ResolvedField
  | answered other (some (.ok arrival)) _ => if other = key then some arrival else none
  | _ => none

theorem arrival?_eq_some_iff {key other : WalkKey} {made : Option (Except ε ResolvedField)}
    {result : Except ε ResolvedField} {arrival : ResolvedField} :
    arrival? other (.answered key made result) = some arrival ↔
      key = other ∧ made = some (.ok arrival) := by
  rcases made with _ | _ | found
  · simp [arrival?]
  · simp [arrival?]
  · simp only [arrival?, Option.ite_none_right_eq_some, Option.some.injEq, Except.ok.injEq]

end Outcome

/-- The outcomes since the last clear. -/
def sinceClear (past : List (Outcome ε)) : List (Outcome ε) := past.rtakeWhile Outcome.isAnswer

/-- The first walk of a key that arrived. -/
def firstArrival (past : List (Outcome ε)) (key : WalkKey) : Option ResolvedField :=
  past.findSome? (Outcome.arrival? key)

/-- Whether a look-up of a key has succeeded. -/
def Succeeded (past : List (Outcome ε)) (key : WalkKey) : Prop :=
  ∃ made arrival, Outcome.answered key made (.ok arrival) ∈ past

/-- A cache in use. -/
structure Session (σ ε : Type) where
  /-- What came of the uses so far, in their order. -/
  past : List (Outcome ε)
  cache : Cache
  /-- The state that walks read and change. -/
  state : σ

namespace Session

/-- An empty cache, before any use. -/
def start (state : σ) : Session σ ε := ⟨[], ∅, state⟩

/-- The outcomes since the last clear. -/
def recent (s : Session σ ε) : List (Outcome ε) := sinceClear s.past

def lookup (s : Session σ ε) (key : WalkKey) (resolve : σ → Except ε ResolvedField × σ) :
    Lookup ε :=
  s.cache.getOrResolve key fun () => (resolve s.state).1

/-- One use. Only a walk that is made changes the state. -/
def use (s : Session σ ε) : Use σ ε → Session σ ε
  | .lookup key resolve =>
    let looked := s.lookup key resolve
    let walked := resolve s.state
    if looked.computed then
      ⟨s.past ++ [.answered key (some walked.1) looked.result], looked.cache, walked.2⟩
    else ⟨s.past ++ [.answered key none looked.result], looked.cache, s.state⟩
  | .clear => ⟨s.past ++ [.cleared], ∅, s.state⟩

/-- Uses one after the other, from an empty cache on. -/
def after (uses : List (Use σ ε)) (state : σ) : Session σ ε := uses.foldl use (start state)

/-- What a use comes to: the key of a look-up with the result that it gives, and with what its walk
gives if the look-up makes it. -/
def outcome (s : Session σ ε) : Use σ ε → Outcome ε
  | .lookup key resolve =>
    let looked := s.lookup key resolve
    .answered key (if looked.computed then some (resolve s.state).1 else none) looked.result
  | .clear => .cleared

/-- The history of uses has one outcome for each, that of the use where its turn came. -/
structure Recorded (uses : List (Use σ ε)) (state : σ) : Prop where
  length_eq : (after uses state).past.length = uses.length
  at_turn : ∀ before u rest, uses = before ++ u :: rest →
    (after uses state).past[before.length]? = some ((after before state).outcome u)

end Session

/-! ## What the history says -/

section History

variable {past : List (Outcome ε)} {key other : WalkKey} {made : Option (Except ε ResolvedField)}
  {result : Except ε ResolvedField} {arrival : ResolvedField} {fault : ε}

@[simp] theorem sinceClear_answered :
    sinceClear (past ++ [.answered key made result]) =
      sinceClear past ++ [.answered key made result] :=
  List.rtakeWhile_concat_pos Outcome.isAnswer _ _ rfl

@[simp] theorem sinceClear_cleared : sinceClear (past ++ [.cleared]) = [] :=
  List.rtakeWhile_concat_neg Outcome.isAnswer _ _ Bool.false_ne_true

theorem firstArrival_append (outcome : Outcome ε) :
    firstArrival (past ++ [outcome]) key = (firstArrival past key).or (outcome.arrival? key) := by
  unfold firstArrival
  rw [List.findSome?_append, List.findSome?_singleton]

theorem succeeded_append_iff : Succeeded (past ++ [.answered key made result]) other ↔
    Succeeded past other ∨ key = other ∧ ∃ arrival, result = .ok arrival := by
  constructor
  · rintro ⟨_, arrival, h⟩
    rcases List.mem_append.1 h with h | h
    · exact .inl ⟨_, arrival, h⟩
    · cases List.mem_singleton.1 h
      exact .inr ⟨rfl, arrival, rfl⟩
  · rintro (⟨_, arrival, h⟩ | ⟨rfl, arrival, rfl⟩)
    · exact ⟨_, arrival, List.mem_append_left _ h⟩
    · exact ⟨_, arrival, List.mem_append_right _ (List.mem_singleton_self _)⟩

end History

namespace Session

/-! ## One use -/

section Step

variable (s : Session σ ε) (key : WalkKey) (resolve : σ → Except ε ResolvedField × σ)

/-- A look-up finds an entry, or a walk is made and fails, or it arrives and is kept. -/
theorem use_lookup_cases :
    (∃ arrival, s.cache.find? key = some arrival ∧
      s.lookup key resolve = ⟨.ok arrival, false, s.cache⟩ ∧
      s.use (.lookup key resolve) =
        ⟨s.past ++ [.answered key none (.ok arrival)], s.cache, s.state⟩) ∨
    (s.cache.find? key = none ∧ ∃ fault, (resolve s.state).1 = .error fault ∧
      s.lookup key resolve = ⟨.error fault, true, s.cache⟩ ∧
      s.use (.lookup key resolve) =
        ⟨s.past ++ [.answered key (some (.error fault)) (.error fault)], s.cache,
          (resolve s.state).2⟩) ∨
    ∃ (h : s.cache.find? key = none) (arrival : ResolvedField),
      (resolve s.state).1 = .ok arrival ∧
      s.lookup key resolve = ⟨.ok arrival, true, s.cache.insertNew key arrival h⟩ ∧
      s.use (.lookup key resolve) =
        ⟨s.past ++ [.answered key (some (.ok arrival)) (.ok arrival)],
          s.cache.insertNew key arrival h, (resolve s.state).2⟩ := by
  unfold use lookup
  dsimp only
  rcases s.cache.getOrResolve_cases key fun () => (resolve s.state).1 with
      ⟨arrival, hf, hg⟩ | ⟨hf, fault, hr, hg⟩ | ⟨hf, arrival, hr, hg⟩
  · exact .inl ⟨arrival, hf, hg, by rw [hg]; rfl⟩
  · exact .inr (.inl ⟨hf, fault, hr, hg, by rw [hg, hr]; rfl⟩)
  · exact .inr (.inr ⟨hf, arrival, hr, hg, by rw [hg, hr]; rfl⟩)

/-- One use adds its outcome to the history, and nothing else. -/
theorem past_use (u : Use σ ε) : (s.use u).past = s.past ++ [s.outcome u] := by
  cases u with
  | clear => rfl
  | lookup key resolve =>
    unfold use outcome
    dsimp only
    split <;> rfl

/-- What comes of a look-up depends on the entry and on what the walk would give. -/
theorem outcome_lookup :
    s.outcome (.lookup key resolve) =
      (s.cache.find? key).elim (.answered key (some (resolve s.state).1) (resolve s.state).1)
        fun arrival => .answered key none (.ok arrival) := by
  unfold outcome
  dsimp only
  rcases s.use_lookup_cases key resolve with
      ⟨_, hf, hl, -⟩ | ⟨hf, _, hr, hl, -⟩ | ⟨hf, _, hr, hl, -⟩
  · rw [hl, hf]
    rfl
  · rw [hl, hf, hr]
    rfl
  · rw [hl, hf, hr]
    rfl

theorem find?_use_lookup :
    (s.use (.lookup key resolve)).cache.find? key =
      (s.cache.find? key).or (resolve s.state).1.toOption := by
  rcases s.use_lookup_cases key resolve with
      ⟨_, hf, -, hu⟩ | ⟨hf, _, hr, -, hu⟩ | ⟨hf, _, hr, -, hu⟩
  · rw [hu, hf]
    rfl
  · rw [hu, hf, hr]
    rfl
  · rw [hu, hf, hr, find?_insertNew hf, if_pos rfl]
    rfl

end Step

/-! ## Whole histories -/

theorem after_append (before rest : List (Use σ ε)) (state : σ) :
    after (before ++ rest) state = rest.foldl use (after before state) :=
  List.foldl_append ..

/-- Uses add to the history at its end, one outcome each. -/
theorem past_foldl_use (uses : List (Use σ ε)) (s : Session σ ε) :
    ∃ outcomes, (uses.foldl use s).past = s.past ++ outcomes ∧ outcomes.length = uses.length := by
  induction uses generalizing s with
  | nil => exact ⟨[], (List.append_nil _).symm, rfl⟩
  | cons u rest ih =>
    obtain ⟨outcomes, hpast, hlength⟩ := ih (s.use u)
    refine ⟨s.outcome u :: outcomes, ?_, congrArg (· + 1) hlength⟩
    rw [List.foldl_cons, hpast, past_use, List.append_assoc]
    rfl

theorem length_past_after (uses : List (Use σ ε)) (state : σ) :
    (after uses state).past.length = uses.length := by
  obtain ⟨outcomes, hpast, hlength⟩ := past_foldl_use uses (start state)
  rw [after, hpast]
  exact hlength

/-- The history of any uses is recorded. -/
theorem recorded_after (uses : List (Use σ ε)) (state : σ) : Recorded uses state where
  length_eq := length_past_after uses state
  at_turn := by
    rintro before u rest rfl
    obtain ⟨outcomes, hpast, -⟩ := past_foldl_use rest ((after before state).use u)
    rw [after_append, List.foldl_cons, hpast, past_use, List.append_assoc, List.singleton_append,
      ← length_past_after before state]
    simp

/-! ## The invariant -/

/-- What the history says of the cache. -/
structure Tracked (s : Session σ ε) : Prop where
  /-- Entries are the first arrivals. -/
  entry : ∀ key, s.cache.find? key = firstArrival s.recent key
  /-- The keys of the entries are those that have succeeded. -/
  succeeded : ∀ key, Succeeded s.recent key ↔ ∃ arrival, s.cache.find? key = some arrival

theorem find?_empty (key : WalkKey) : (∅ : Cache).find? key = none := rfl

/-- Without entries, nothing may have happened since the last clear. -/
theorem tracked_of_empty {s : Session σ ε} (hc : s.cache = ∅) (hr : s.recent = []) :
    s.Tracked where
  entry key := by
    rw [hc, hr]
    rfl
  succeeded key := by
    rw [hc, hr, find?_empty]
    constructor
    · rintro ⟨_, _, h⟩
      cases h
    · rintro ⟨_, h⟩
      cases h

/-- A look-up keeps the invariant when it adds the arrival of its walk to the entries, if one was
made and none was there, and succeeds only on keys with an entry. -/
theorem Tracked.answered {s : Session σ ε} (h : s.Tracked) {key : WalkKey}
    {made : Option (Except ε ResolvedField)} {result : Except ε ResolvedField} {cache : Cache}
    {state : σ}
    (hentry : ∀ other, cache.find? other =
      (s.cache.find? other).or (Outcome.arrival? other (.answered key made result)))
    (hkept : ∀ arrival, result = .ok arrival → cache.find? key = some arrival)
    (hmade : ∀ arrival, made = some (.ok arrival) → result = .ok arrival) :
    Tracked (⟨s.past ++ [.answered key made result], cache, state⟩ : Session σ ε) where
  entry other := by
    rw [recent, sinceClear_answered, firstArrival_append, hentry, h.entry]
    rfl
  succeeded other := by
    rw [recent, sinceClear_answered, succeeded_append_iff, ← recent, h.succeeded, hentry]
    constructor
    · rintro (⟨arrival, hf⟩ | ⟨rfl, arrival, hr⟩)
      · rw [hf]
        exact ⟨arrival, rfl⟩
      · rw [← hentry]
        exact ⟨arrival, hkept arrival hr⟩
    · rintro ⟨arrival, hf⟩
      rcases Option.or_eq_some_iff.1 hf with hf | ⟨-, hf⟩
      · exact .inl ⟨arrival, hf⟩
      · obtain ⟨rfl, hm⟩ := Outcome.arrival?_eq_some_iff.1 hf
        exact .inr ⟨rfl, arrival, hmade arrival hm⟩

/-- One use keeps the invariant. -/
theorem tracked_use {s : Session σ ε} (h : s.Tracked) (u : Use σ ε) : (s.use u).Tracked := by
  cases u with
  | clear => exact tracked_of_empty rfl sinceClear_cleared
  | lookup key resolve =>
    rcases s.use_lookup_cases key resolve with
        ⟨arrival, hf, -, hu⟩ | ⟨hf, fault, -, -, hu⟩ | ⟨hf, arrival, -, -, hu⟩
    · rw [hu]
      refine h.answered (fun other => ?_) ?_ (fun _ hm => ?_)
      · exact (Option.or_none ..).symm
      · rintro _ ⟨⟩
        exact hf
      · cases hm
    · rw [hu]
      refine h.answered (fun other => ?_) (fun _ hr => ?_) (fun _ hm => ?_)
      · exact (Option.or_none ..).symm
      · cases hr
      · cases hm
    · rw [hu]
      refine h.answered (fun other => ?_) ?_ ?_
      · rw [find?_insertNew hf]
        show _ = Option.or _ (if key = other then some arrival else none)
        -- The key had no entry, so nothing is written over.
        split
        · rename_i hk
          rw [← hk, hf]
          rfl
        · rw [Option.or_none]
      · rintro _ ⟨⟩
        rw [find?_insertNew hf, if_pos rfl]
      · rintro _ ⟨⟩
        rfl

/-- The invariant holds at all times. -/
theorem tracked_after (uses : List (Use σ ε)) (state : σ) : (after uses state).Tracked := by
  have hrun : ∀ s : Session σ ε, s.Tracked → (uses.foldl use s).Tracked := by
    induction uses with
    | nil => exact fun s hs => hs
    | cons u rest ih => exact fun s hs => ih _ (tracked_use hs u)
  exact hrun _ (tracked_of_empty rfl rfl)

/-! ## Other keys -/

/-- The uses that concern a key. A walk that might be made is replaced by what it would give at its
turn. -/
def turns (key : WalkKey) : List (Use σ ε) → Session σ ε → List (Use Unit ε)
  | [], _ => []
  | .lookup other resolve :: rest, s =>
    let later := turns key rest (s.use (.lookup other resolve))
    if other = key then .lookup key (fun _ => ((resolve s.state).1, ())) :: later else later
  | .clear :: rest, s => .clear :: turns key rest (s.use .clear)

/-- A session is what another is for one key. -/
structure Narrows (key : WalkKey) (s : Session σ ε) (t : Session Unit ε) : Prop where
  entry : t.cache.find? key = s.cache.find? key
  past : t.past = s.past.filter (Outcome.concerns key)

section Narrows

variable {key other : WalkKey} {s : Session σ ε} {t : Session Unit ε}

theorem Narrows.skip (h : Narrows key s t) (hk : other ≠ key)
    (resolve : σ → Except ε ResolvedField × σ) : Narrows key (s.use (.lookup other resolve)) t := by
  have hfilter : ∀ (made : Option (Except ε ResolvedField)) (result : Except ε ResolvedField),
      (s.past ++ [Outcome.answered other made result]).filter (Outcome.concerns key) =
        s.past.filter (Outcome.concerns key) := by
    intro made result
    have hc : ¬(Outcome.answered other made result).concerns key = true := by
      simpa only [Outcome.concerns, decide_eq_true_eq] using hk
    rw [List.filter_append, List.filter_cons_of_neg hc, List.filter_nil, List.append_nil]
  rcases s.use_lookup_cases other resolve with ⟨_, _, -, hu⟩ | ⟨_, _, -, -, hu⟩ | ⟨hf, _, -, -, hu⟩
  · rw [hu]
    exact ⟨h.entry, h.past.trans (hfilter _ _).symm⟩
  · rw [hu]
    exact ⟨h.entry, h.past.trans (hfilter _ _).symm⟩
  · rw [hu]
    refine ⟨h.entry.trans ?_, h.past.trans (hfilter _ _).symm⟩
    rw [find?_insertNew hf, if_neg hk]

theorem Narrows.past_append (h : Narrows key s t) {outcome : Outcome ε}
    (hc : outcome.concerns key = true) :
    t.past ++ [outcome] = (s.past ++ [outcome]).filter (Outcome.concerns key) := by
  rw [List.filter_append, ← h.past, List.filter_cons_of_pos hc, List.filter_nil]

theorem Narrows.lookup (h : Narrows key s t) (resolve : σ → Except ε ResolvedField × σ) :
    Narrows key (s.use (.lookup key resolve))
      (t.use (.lookup key fun _ => ((resolve s.state).1, ()))) where
  entry := by
    rw [find?_use_lookup, find?_use_lookup, h.entry]
  past := by
    rw [past_use, past_use, outcome_lookup, outcome_lookup, h.entry]
    refine h.past_append ?_
    cases s.cache.find? key <;> exact decide_eq_true rfl

theorem Narrows.clear (h : Narrows key s t) : Narrows key (s.use .clear) (t.use .clear) :=
  ⟨rfl, h.past_append rfl⟩

end Narrows

/-- Uses that do not concern a key may be left out. -/
theorem narrows_turns (key : WalkKey) (uses : List (Use σ ε)) {s : Session σ ε}
    {t : Session Unit ε} (h : Narrows key s t) :
    Narrows key (uses.foldl use s) ((turns key uses s).foldl use t) := by
  induction uses generalizing s t with
  | nil => exact h
  | cons u rest ih =>
    cases u with
    | clear => exact ih h.clear
    | lookup other resolve =>
      unfold turns
      dsimp only
      split
      · rename_i hk
        subst hk
        exact ih (h.lookup resolve)
      · rename_i hk
        exact ih (h.skip hk resolve)

/-! ## Look-ups -/

/-- What a look-up does, as the history has it. -/
structure WrittenOnce (s : Session σ ε) (key : WalkKey)
    (resolve : σ → Except ε ResolvedField × σ) : Prop where
  /-- A walk is made unless a look-up of the key has succeeded since the last clear. -/
  computed : (s.lookup key resolve).computed = true ↔ ¬Succeeded s.recent key
  /-- After a success, the look-up gives where the first walk arrived. -/
  kept : Succeeded s.recent key → ∃ arrival, firstArrival s.recent key = some arrival ∧
    (s.lookup key resolve).result = .ok arrival
  /-- Before one, it gives what its own walk does. -/
  own : ¬Succeeded s.recent key → (s.lookup key resolve).result = (resolve s.state).1
  failing : ∀ fault, (s.lookup key resolve).result = .error fault →
    (s.lookup key resolve).cache = s.cache

theorem Tracked.writtenOnce {s : Session σ ε} (h : s.Tracked) (key : WalkKey)
    (resolve : σ → Except ε ResolvedField × σ) : s.WrittenOnce key resolve := by
  have hnone : s.cache.find? key = none → ¬Succeeded s.recent key := by
    intro hf hyes
    obtain ⟨arrival, hfound⟩ := (h.succeeded key).1 hyes
    cases hf.symm.trans hfound
  rcases s.use_lookup_cases key resolve with
      ⟨arrival, hf, hl, -⟩ | ⟨hf, fault, hr, hl, -⟩ | ⟨hf, arrival, hr, hl, -⟩
  · have hyes : Succeeded s.recent key := (h.succeeded key).2 ⟨arrival, hf⟩
    have hfirst : firstArrival s.recent key = some arrival := (h.entry key).symm.trans hf
    constructor
    · rw [hl]
      exact iff_of_false Bool.false_ne_true (not_not_intro hyes)
    · rw [hl]
      exact fun _ => ⟨arrival, hfirst, rfl⟩
    · exact fun hno => absurd hyes hno
    · rw [hl]
      exact fun _ _ => rfl
  · constructor
    · rw [hl]
      exact iff_of_true rfl (hnone hf)
    · exact fun hyes => absurd hyes (hnone hf)
    · rw [hl, hr]
      exact fun _ => rfl
    · rw [hl]
      exact fun _ _ => rfl
  · constructor
    · rw [hl]
      exact iff_of_true rfl (hnone hf)
    · exact fun hyes => absurd hyes (hnone hf)
    · rw [hl, hr]
      exact fun _ => rfl
    · rw [hl]
      rintro _ ⟨⟩

/-- There are as many entries as keys that have succeeded. -/
theorem Tracked.size {s : Session σ ε} (h : s.Tracked) : ∃ keys : List WalkKey, keys.Nodup ∧
    (∀ key, key ∈ keys ↔ Succeeded s.recent key) ∧ s.cache.size = keys.length := by
  refine ⟨s.cache.entries.map Prod.fst, s.cache.nodup_keys, fun key => ?_,
    (List.length_map ..).symm⟩
  rw [h.succeeded, ← Option.ne_none_iff_exists', Ne, find?_eq_none_iff, not_not]

end Session

end Cache

namespace Sample

def cityKey : WalkKey := ⟨⟨0, 0⟩, "city"⟩

def streetKey : WalkKey := ⟨⟨0, 0⟩, "street"⟩

/-- A walk that fails the first time, and then arrives at another column each time. -/
def unsteady : Nat → Except String ResolvedField × Nat
  | 0 => (.error "not yet", 1)
  | n + 1 => (.ok ⟨.text, ["column_" ++ toString n]⟩, n + 2)

end Sample

namespace Cache

/-- After any uses, the history has the outcome of each of them. A look-up makes its walk exactly
when none of its key has succeeded since the last clear; it gives where the first of these arrived,
or else what its own walk does, and when it fails it leaves the cache as it is. Uses that do not
concern the key have no part in this, and there are as many entries as keys that have succeeded. -/
theorem written_once (uses : List (Use σ ε)) (state : σ) :
    Session.Recorded uses state ∧
    (∀ key resolve, (Session.after uses state).WrittenOnce key resolve) ∧
    (∀ key, (Session.after uses state).past.filter (Outcome.concerns key) =
      (Session.after (Session.turns key uses (.start state)) ()).past) ∧
    ∃ keys : List WalkKey, keys.Nodup ∧
      (∀ key, key ∈ keys ↔ Succeeded (Session.after uses state).recent key) ∧
      (Session.after uses state).cache.size = keys.length := by
  have htracked := Session.tracked_after uses state
  refine ⟨Session.recorded_after uses state, fun key resolve => htracked.writtenOnce key resolve,
    fun key => ?_, htracked.size⟩
  have hstart : Session.Narrows key (.start state : Session σ ε) (.start ()) := ⟨rfl, rfl⟩
  exact (Session.narrows_turns key uses hstart).past.symm

/-- The walk to a street is made between two walks to a city. The third look-up of the city makes
none, although it would arrive elsewhere. -/
example : (Session.after
    [.lookup Sample.cityKey Sample.unsteady, .lookup Sample.cityKey Sample.unsteady,
      .lookup Sample.streetKey Sample.unsteady, .lookup Sample.cityKey Sample.unsteady] 0).past =
    [.answered Sample.cityKey (some (.error "not yet")) (.error "not yet"),
      .answered Sample.cityKey (some (.ok ⟨.text, ["column_0"]⟩)) (.ok ⟨.text, ["column_0"]⟩),
      .answered Sample.streetKey (some (.ok ⟨.text, ["column_1"]⟩)) (.ok ⟨.text, ["column_1"]⟩),
      .answered Sample.cityKey none (.ok ⟨.text, ["column_0"]⟩)] := rfl

end Cache

end RecordQuery
