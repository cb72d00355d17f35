import RecordQuery.ListParams
import RecordQuery.Proofs.Faults

/-!
# A request survives the query of its URL

A client may write the query of a URL in many ways: it escapes what it likes, in digits of either
case, and puts the parameters in any order. None of them changes the request. Whatever is in the
tokens, signs that separate parameters and names included, the parameters that arrive ask for what
the tokens, the page and the size ask for directly.

1. `ListParams.SentAs`: the queries that send given parameters.
2. `ListParams.ofQueryString_of_sentAs`: the parameters arrive.
3. `ListParams.survives_query_string`: what arrives is read like what was sent.
-/
namespace RecordQuery

/-! ## What is sent, and what arrives -/

theorem ListParam.ofName?_name (param : ListParam) : ofName? param.name = some param := by
  cases param <;> rfl

namespace ListParams

/-- Parameters that agree on one of them. -/
def Agrees (p q : ListParams) : ListParam → Prop
  | .filter => p.filter = q.filter
  | .sort => p.sort = q.sort
  | .page => p.page = q.page
  | .size => p.size = q.size

theorem eq_of_agrees {p q : ListParams} (h : ∀ param, p.Agrees q param) : p = q := by
  obtain ⟨filter, sort, page, size⟩ := p
  cases h .filter
  cases h .sort
  cases h .page
  cases h .size
  rfl

/-- Tokens with commas between them. -/
def joined (tokens : List String) : String := (String.singleton ',').intercalate tokens

/-- The text that sends a parameter; a page or a size that is not there is not sent. -/
def text? (p : ListParams) : ListParam → Option String
  | .filter => some (joined p.filter)
  | .sort => some (joined p.sort)
  | .page => p.page.map fun page => toString page.toNat
  | .size => p.size.map fun size => toString size.toInt

/-- A query that sends the parameters, each at most once, in any order and any encoding. What is not
sent is as it is by default: a list without tokens, or no page or size. -/
def SentAs (p : ListParams) (query : String) : Prop :=
  ∃ sent : List (ListParam × String),
    (sent.map Prod.fst).Nodup ∧ (∀ s ∈ sent, p.text? s.1 = some s.2) ∧
    (∀ param, param ∉ sent.map Prod.fst → p.Agrees {} param) ∧
    FormData.EncodesPairs (sent.map fun s => (s.1.name, s.2)) query

/-- What arrives of the parameters. A single empty token is sent as no token is. -/
def received (p : ListParams) : ListParams :=
  { p with filter := tokens (joined p.filter), sort := tokens (joined p.sort) }

/-- The parameters with one of them taken from others. -/
def take (q p : ListParams) : ListParam → ListParams
  | .filter => { q with filter := p.filter }
  | .sort => { q with sort := p.sort }
  | .page => { q with page := p.page }
  | .size => { q with size := p.size }

theorem agrees_take {p q : ListParams} {param other : ListParam}
    (h : other = param ∨ q.Agrees p other) : (q.take p param).Agrees p other := by
  by_cases he : other = param
  · subst he
    cases other <;> rfl
  · have hq := h.resolve_left he
    cases param <;> cases other <;> first | exact hq | exact absurd rfl he

/-- A parameter is read from its text as it was sent. -/
theorem set_eq_ok {p : ListParams} {param : ListParam} {value : String}
    (h : p.text? param = some value) (q : ListParams) :
    q.set param value = .ok (q.take p.received param) := by
  cases param with
  | filter | sort =>
    cases h
    rfl
  | page =>
    obtain ⟨page, hp, rfl⟩ := Option.map_eq_some_iff.1 h
    simp only [set, Numeral.readUInt64_toString, take, received, hp]
  | size =>
    obtain ⟨size, hs, rfl⟩ := Option.map_eq_some_iff.1 h
    simp only [set, Numeral.readInt64_toString, take, received, hs]

/-- Reading goes from pair to pair: what has been read stays, and what is read is what was sent. -/
theorem exists_readPairs {p : ListParams} {sent : List (ListParam × String)}
    (hn : (sent.map Prod.fst).Nodup) (htext : ∀ s ∈ sent, p.text? s.1 = some s.2)
    (q : ListParams) (seen : List ListParam) (hseen : ∀ s ∈ sent, s.1 ∉ seen) :
    ∃ r, readPairs q seen (sent.map fun s => (s.1.name, s.2)) = .ok r ∧
      ∀ param, param ∈ sent.map Prod.fst ∨ q.Agrees p.received param →
        r.Agrees p.received param := by
  induction sent generalizing q seen with
  | nil => exact ⟨q, rfl, fun param h => h.resolve_left List.not_mem_nil⟩
  | cons s rest ih =>
    obtain ⟨hfresh, hrest⟩ := List.nodup_cons.1 hn
    obtain ⟨hs, htext⟩ := List.forall_mem_cons.1 htext
    obtain ⟨hunseen, hseen⟩ := List.forall_mem_cons.1 hseen
    have hlater : ∀ s' ∈ rest, s'.1 ∉ s.1 :: seen := fun s' hs' hmem => by
      rcases List.mem_cons.1 hmem with he | hmem
      · exact hfresh (he ▸ List.mem_map_of_mem hs')
      · exact hseen s' hs' hmem
    obtain ⟨r, hr, hagrees⟩ := ih hrest htext (q.take p.received s.1) (s.1 :: seen) hlater
    refine ⟨r, ?_, fun param h => hagrees param ?_⟩
    · rw [List.map_cons, readPairs, ListParam.ofName?_name]
      dsimp only
      rw [if_neg hunseen, set_eq_ok hs]
      exact hr
    · rw [List.map_cons, List.mem_cons, or_assoc] at h
      rcases h with he | hmem | hq
      · exact .inr (agrees_take (.inl he))
      · exact .inl hmem
      · exact .inr (agrees_take (.inr hq))

theorem agrees_received_of_default {p : ListParams} {param : ListParam} (h : p.Agrees {} param) :
    ({} : ListParams).Agrees p.received param := by
  cases param with
  | filter | sort =>
    show [] = tokens (joined _)
    rw [show _ = [] from h]
    rfl
  | page | size => exact Eq.symm h

/-- The parameters arrive, whatever the encoding and the order. -/
theorem ofQueryString_of_sentAs {p : ListParams} {query : String} (h : p.SentAs query) :
    ofQueryString query = .ok p.received := by
  obtain ⟨sent, hn, htext, hdefault, hquery⟩ := h
  obtain ⟨r, hr, hagrees⟩ := exists_readPairs hn htext {} [] fun _ _ => List.not_mem_nil
  rw [ofQueryString, FormData.parse_of_encodesPairs hquery, hr]
  refine congrArg _ (eq_of_agrees fun param => hagrees param ?_)
  by_cases hmem : param ∈ sent.map Prod.fst
  · exact .inl hmem
  · exact .inr (agrees_received_of_default (hdefault param hmem))

/-! ## What is read from them -/

theorem parse_tokens_joined {τ : Type} (read : String → Except QueryError τ) {texts : List String}
    (h : ∀ t ∈ texts, ',' ∉ t.toList) :
    Spec.parse read (tokens (joined texts)) = Spec.parse read texts := by
  by_cases he : texts = [""]
  · subst he
    rfl
  · rw [joined, tokens_intercalate h he]

/-- The first parameter that is wrong is reported: the filter, then the sort, then the page. -/
theorem reports_toQuery (p : ListParams) (c : Config) :
    Reports (p.toQuery c) (InTurn [fun e => FilterSpec.parse p.filter = .error e,
      fun e => SortSpec.parse p.sort = .error e,
      fun e => Pagination.ofRequest p.page p.size c.defaultPageSize = .error e]) :=
  (Reports.self (FilterSpec.parse p.filter)).inTurn.bind fun _ _ =>
    (Reports.self (SortSpec.parse p.sort)).inTurn.bind fun _ _ =>
      ((Reports.self (Pagination.ofRequest p.page p.size c.defaultPageSize)).map _).inTurn

theorem toQuery_eq_ok_iff {p : ListParams} {c : Config} {q : ListQuery} :
    p.toQuery c = .ok q ↔ FilterSpec.parse p.filter = .ok q.filter ∧
      SortSpec.parse p.sort = .ok q.sort ∧
      Pagination.ofRequest p.page p.size c.defaultPageSize = .ok q.pagination := by
  constructor
  · intro h
    obtain ⟨filter, hf, h⟩ := bind_eq_ok_iff.1 h
    obtain ⟨sort, hs, h⟩ := bind_eq_ok_iff.1 h
    obtain ⟨pagination, hp, h⟩ := bind_eq_ok_iff.1 h
    cases h
    exact ⟨hf, hs, hp⟩
  · rintro ⟨hf, hs, hp⟩
    exact bind_eq_ok_iff.2 ⟨_, hf, bind_eq_ok_iff.2 ⟨_, hs, bind_eq_ok_iff.2 ⟨_, hp, rfl⟩⟩⟩

/-- A request survives the query of its URL. However it is encoded and in whatever order, its
parameters arrive, and what they are made into is what the tokens, the page and the size are made
into directly: the request of all three, or the error of the first that is wrong. -/
theorem survives_query_string (c : Config) {p : ListParams}
    (hcommas : ∀ t ∈ p.filter ++ p.sort, ',' ∉ t.toList) {query : String} (h : p.SentAs query) :
    ∃ q, ofQueryString query = .ok q ∧
      (∀ request, q.toQuery c = .ok request ↔
        FilterSpec.parse p.filter = .ok request.filter ∧
        SortSpec.parse p.sort = .ok request.sort ∧
        Pagination.ofRequest p.page p.size c.defaultPageSize = .ok request.pagination) ∧
      ∀ e, q.toQuery c = .error e ↔
        InTurn [fun e => FilterSpec.parse p.filter = .error e,
          fun e => SortSpec.parse p.sort = .error e,
          fun e => Pagination.ofRequest p.page p.size c.defaultPageSize = .error e] e := by
  obtain ⟨hfilter, hsort⟩ := List.forall_mem_append.1 hcommas
  have hf : FilterSpec.parse p.received.filter = FilterSpec.parse p.filter :=
    parse_tokens_joined _ hfilter
  have hs : SortSpec.parse p.received.sort = SortSpec.parse p.sort :=
    parse_tokens_joined _ hsort
  have hok := @toQuery_eq_ok_iff p.received c
  have herror := reports_toQuery p.received c
  rw [hf, hs] at herror
  simp only [hf, hs] at hok
  exact ⟨p.received, ofQueryString_of_sentAs h, @hok, herror⟩

end ListParams

namespace Sample

/-- Parameters with signs of the encoding in a token, an empty token, and the largest page. -/
def params : ListParams where
  filter := ["name:=:a b+é&c=%", "", "id:in:1;2"]
  sort := ["name:desc"]
  page := some 18446744073709551615
  size := some (-1)

/-- The parameters in a query that escapes the conditions only. -/
theorem sentAs_params : params.SentAs ("size=-1&sort=name:desc&page=18446744073709551615&filter=" ++
    "name%3A%3D%3Aa+b%2B%C3%A9%26c%3D%25%2C%2Cid%3Ain%3A1%3B2") := by
  refine ⟨[(.size, "-1"), (.sort, "name:desc"), (.page, "18446744073709551615"),
    (.filter, "name:=:a b+é&c=%,,id:in:1;2")], by decide, by decide, ?_, ?_⟩
  · intro param hnot
    cases param <;> exact absurd hnot (by decide)
  · have hfilter : FormData.EncodesPair ("filter", "name:=:a b+é&c=%,,id:in:1;2")
        ("filter=" ++ FormData.encodeComponent "name:=:a b+é&c=%,,id:in:1;2") :=
      ⟨"filter", _, FormData.encodes_of_isUnescaped (by decide), FormData.encodes_encodeComponent _,
        rfl⟩
    refine ⟨_, .cons (FormData.encodesPair_of_isUnescaped (by decide) (by decide))
      (.cons (FormData.encodesPair_of_isUnescaped (by decide) (by decide))
        (.cons (FormData.encodesPair_of_isUnescaped (by decide) (by decide))
          (.cons hfilter .nil))), ?_⟩
    decide

end Sample

namespace ListParams

/-- The parameters arrive and ask for every row, by name. -/
theorem survives_query_string_params :
    ∃ q request, ofQueryString ("size=-1&sort=name:desc&page=18446744073709551615&filter=" ++
        "name%3A%3D%3Aa+b%2B%C3%A9%26c%3D%25%2C%2Cid%3Ain%3A1%3B2") = .ok q ∧
      q.toQuery {} = .ok request ∧ request.filter.size = 2 ∧
      request.pagination = ⟨18446744073709551615, none⟩ := by
  obtain ⟨q, hq, hok, _⟩ := survives_query_string {} (p := Sample.params) (by decide)
    Sample.sentAs_params
  refine ⟨q, ⟨_, _, _⟩, hq, (hok _).2 ⟨rfl, rfl, rfl⟩, rfl, rfl⟩

end ListParams

end RecordQuery
