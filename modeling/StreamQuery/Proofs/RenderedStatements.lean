import StreamQuery.Proofs.ReadStatement
import StreamQuery.Proofs.RenderedExpressions

/-!
# Renderings of statements in the grammar

What holds of expressions and their renderings holds of queries at their places, and so of
statements: a well-formed statement is derived by its rendering, and every statement that is
derived is well-formed and rendered within the levels of its tokens.
-/

namespace StreamQuery

open Grammar

/-! ## Lists of parts -/

section Lists

variable {α : Type} {lead : List Token} {part : Derivation α} {f : α → List Token}

theorem lexical_separated {tss : List (List Token)} (between : Lexical lead) (each : ∀ ts ∈ tss, Lexical ts) :
    Lexical (separated lead tss) := by
  cases tss with
  | nil => exact lexical_nil
  | cons first rest =>
    rw [List.forall_mem_cons] at each
    rw [separated, lexical_append]
    refine ⟨each.1, fun t member => ?_⟩
    obtain ⟨ts, inside, here⟩ := List.mem_flatMap.mp member
    exact lexical_append.mpr ⟨between, each.2 ts inside⟩ t here

theorem repeated_map {as : List α} (each : ∀ a ∈ as, part (f a) a) :
    Repeated lead part ((as.map f).flatMap (lead ++ ·)) as := by
  induction as with
  | nil => exact .nil
  | cons a rest ih =>
    rw [List.forall_mem_cons] at each
    exact .cons each.1 (ih each.2)

theorem separated_map {as : List α} (some_ : as ≠ []) (each : ∀ a ∈ as, part (f a) a) :
    Separated lead part (separated lead (as.map f)) as := by
  cases as with
  | nil => exact absurd rfl some_
  | cons a rest =>
    rw [List.forall_mem_cons] at each
    exact .intro each.1 (repeated_map each.2)

theorem repeated_forall {p : α → Prop} {ts : List Token} {as : List α} (derived : Repeated lead part ts as)
    (lexical : Lexical ts) (each : ∀ {ts a}, part ts a → Lexical ts → p a) : ∀ a ∈ as, p a := by
  induction derived with
  | nil => simp
  | cons head tail ih =>
    simp only [lexical_append] at lexical
    exact List.forall_mem_cons.mpr ⟨each head lexical.1.2, ih lexical.2⟩

theorem separated_forall {p : α → Prop} {ts : List Token} {as : List α} (derived : Separated lead part ts as)
    (lexical : Lexical ts) (each : ∀ {ts a}, part ts a → Lexical ts → p a) : as ≠ [] ∧ ∀ a ∈ as, p a := by
  obtain ⟨head, tail⟩ := derived
  rw [lexical_append] at lexical
  have others := repeated_forall tail lexical.2 each
  exact ⟨List.cons_ne_nil _ _, List.forall_mem_cons.mpr ⟨each head lexical.1, others⟩⟩

theorem clause_forall {p : α → Prop} {ts : List Token} {found : Option α} (derived : Clause lead part ts found)
    (lexical : Lexical ts) (each : ∀ {ts a}, part ts a → Lexical ts → p a) : ∀ a ∈ found, p a := by
  cases derived with
  | absent => simp
  | present body =>
    rintro a ⟨⟩
    exact each body (lexical_append.mp lexical).2

theorem clause_tokens {found : Option α} (each : ∀ a ∈ found, part (f a) a) :
    Clause lead part (Clauses.clauseTokens lead f found) found := by
  cases found with
  | none => exact .absent
  | some a => exact .present (each a rfl)

theorem lexical_clause {found : Option α} (between : Lexical lead) (each : ∀ a ∈ found, Lexical (f a)) :
    Lexical (Clauses.clauseTokens lead f found) := by
  cases found with
  | none => exact lexical_nil
  | some a => exact lexical_append.mpr ⟨between, each a rfl⟩

end Lists

/-! ## Clauses -/

theorem levels_le {c : Clauses} {n : Nat} : c.levels ≤ n ↔ ∀ e ∈ c.expressions, e.levels + 1 ≤ n := by
  unfold Clauses.levels
  induction c.expressions with
  | nil => simp
  | cons e rest ih => rw [List.map_cons, List.foldr_cons, Nat.max_le, ih, List.forall_mem_cons]

theorem projected_item {n : Nat} {e : Expr} (item : e.IsItem) (enough : e.levels + 1 ≤ n) :
    Projected (Expression n 0) e.tokens e := by
  cases e with
  | rename inner name => exact .renamed name ((derives_of_plain item.1).full enough)
  | _ => exact .plain ((derives_of_plain item).full enough)

theorem sortKey_key {n : Nat} {key : Expr × Direction} (plain : key.1.IsPlain) (enough : key.1.levels + 1 ≤ n) :
    SortKey (Expression n 0) (sortKeyTokens key) key := by
  obtain ⟨e, direction⟩ := key
  cases direction with
  | ascending => exact .plain ((derives_of_plain plain).full enough)
  | descending => exact .descending (.inl rfl) ((derives_of_plain plain).full enough)

/-- Clauses that can be written derive the select with their source. -/
theorem select_tokens {c : Clauses} {n : Nat} {nested : Derivation Query} {ts : List Token} {source : Option Query}
    (writable : c.IsWritable) (enough : c.levels ≤ n) (sources : Clause [.keyword .FROM] (Source nested) ts source) :
    Select (Expression n 0) nested (c.tokens ts) (.select c source) := by
  have each := levels_le.mp enough
  obtain ⟨projection, filter, groupBy, orderBy⟩ := c
  simp only [Clauses.expressions, List.mem_append, Option.mem_toList] at each
  have full : ∀ {e : Expr}, e.IsPlain → e.levels + 1 ≤ n → Expression n 0 e.tokens e :=
    fun plain levels => (derives_of_plain plain).full levels
  refine .intro ?_ sources ?_ ?_ ?_
  · exact separated_map writable.projects fun e member =>
      projected_item (writable.items e member) (each e (.inl (.inl (.inl member))))
  · exact clause_tokens fun e member => full (writable.condition e member) (each e (.inl (.inl (.inr member))))
  · refine clause_tokens fun es present => separated_map ?_ fun e member => ?_
    · rintro rfl
      exact writable.groups present
    · have key : e ∈ Clauses.groupKeys ⟨projection, filter, groupBy, orderBy⟩ := by
        unfold Clauses.groupKeys
        rw [show groupBy = some es from present]
        exact member
      exact full (writable.groupKeys e key) (each e (.inl (.inr key)))
  · refine clause_tokens fun keys present => separated_map ?_ fun key member => ?_
    · rintro rfl
      exact writable.orders present
    · have sorts : key.1 ∈ Clauses.sortKeys ⟨projection, filter, groupBy, orderBy⟩ := by
        unfold Clauses.sortKeys
        rw [show orderBy = some keys from present]
        exact List.mem_map_of_mem member
      exact sortKey_key (writable.sortKeys key.1 sorts) (each key.1 (.inr sorts))

theorem lexical_item {e : Expr} (item : e.IsItem) : Lexical e.tokens := by
  cases e with
  | rename inner name =>
    have named : IsName name := item.2
    simp [Expr.tokens, Token.IsLexical, lexical_tokens item.1, named]
  | _ => exact lexical_tokens item

theorem lexical_sortKey {key : Expr × Direction} (plain : key.1.IsPlain) : Lexical (sortKeyTokens key) := by
  obtain ⟨e, direction⟩ := key
  have inner : Lexical e.tokens := lexical_tokens plain
  cases direction with
  | ascending => exact inner
  | descending => simp [sortKeyTokens, Token.IsLexical, inner]

theorem lexical_select {c : Clauses} {source : List Token} (writable : c.IsWritable) (inSource : Lexical source) :
    Lexical (c.tokens source) := by
  have comma : Lexical [.comma] := lexical_cons.mpr ⟨trivial, lexical_nil⟩
  have listed : ∀ {α : Type} (f : α → List Token) (as : List α), (∀ a ∈ as, Lexical (f a)) →
      Lexical (separated [.comma] (as.map f)) := by
    intro α f as each
    refine lexical_separated comma fun ts member => ?_
    obtain ⟨a, among, rfl⟩ := List.mem_map.mp member
    exact each a among
  have items := listed Expr.tokens c.projection fun e member => lexical_item (writable.items e member)
  have condition : Lexical (Clauses.clauseTokens [.keyword .WHERE] Expr.tokens c.filter) :=
    lexical_clause (by simp [Token.IsLexical]) fun e present => lexical_tokens (writable.condition e present)
  have group : Lexical (Clauses.clauseTokens [.keyword .GROUP, .keyword .BY]
      (fun es => separated [.comma] (es.map Expr.tokens)) c.groupBy) := by
    refine lexical_clause (by simp [Token.IsLexical]) fun es present => listed _ _ fun e member => ?_
    refine lexical_tokens (writable.groupKeys e ?_)
    unfold Clauses.groupKeys
    rw [show c.groupBy = some es from present]
    exact member
  have order : Lexical (Clauses.clauseTokens [.keyword .ORDER, .keyword .BY]
      (fun keys => separated [.comma] (keys.map sortKeyTokens)) c.orderBy) := by
    refine lexical_clause (by simp [Token.IsLexical]) fun keys present => listed _ _ fun key member => ?_
    refine lexical_sortKey (writable.sortKeys key.1 ?_)
    unfold Clauses.sortKeys
    rw [show c.orderBy = some keys from present]
    exact List.mem_map_of_mem member
  simp [Clauses.tokens, Token.IsLexical, items, inSource, condition, group, order]

mutual

theorem lexical_query : ∀ (q : Query) {place : Place}, q.Fits place → Lexical (q.tokens place)
  | .table name, _, fits => by
    have named : (Token.ident name).IsLexical := fits.2
    exact lexical_cons.mpr ⟨named, lexical_nil⟩
  | .select clauses source, _, fits =>
    lexical_parens.mpr (lexical_select fits.1 (lexical_source source fits.2))
  | .unionAll queries, _, fits =>
    lexical_parens.mpr (lexical_separated (by simp [Token.IsLexical]) (lexical_queries queries fits.2.2))
  | .crossJoin queries, _, fits =>
    lexical_separated (by simp [Token.IsLexical]) (lexical_queries queries fits.2.2)

theorem lexical_queries : ∀ (qs : List Query) {place : Place}, Query.AllFit place qs →
    ∀ ts ∈ Query.allTokens place qs, Lexical ts
  | [], _, _ => by simp [Query.allTokens]
  | q :: rest, place, fits =>
    List.forall_mem_cons.mpr ⟨lexical_query q fits.1, lexical_queries rest fits.2⟩

theorem lexical_source : ∀ (source : Option Query), Query.SourceFits source → Lexical (Query.sourceTokens source)
  | none, _ => lexical_nil
  | some q, fits => lexical_cons.mpr ⟨trivial, lexical_query q fits⟩

end

/-! ## Queries derive -/

/-- What derives a query at a place within so many levels. -/
def Place.derivation (n : Nat) : Place → Derivation Query
  | .select => Select (Expression n 0) (NestedQuery n)
  | .query => QueryOver (Expression n 0) (NestedQuery n)
  | .item => FromItem (NestedQuery n)
  | .source => Source (NestedQuery n)

/-- A query derives at every place but in a union, in parentheses behind FROM. -/
theorem query_at {ts : List Token} {q : Query} {k : Nat}
    (derives : ∀ n, k ≤ n → QueryOver (Expression n 0) (NestedQuery n) ts q) {place : Place}
    (outside : place ≠ .select) {n : Nat} (enough : levelsIn place.isFrom k ≤ n) :
    place.derivation n (parens place.isFrom ts) q := by
  have item : k + 1 ≤ n → FromItem (NestedQuery n) (.openParen :: ts ++ [.closeParen]) q := by
    intro enough
    cases n with
    | zero => cases enough
    | succ n => exact .query (derives n (Nat.le_of_succ_le_succ enough))
  cases place with
  | select => exact absurd rfl outside
  | query => exact derives n enough
  | item => exact item enough
  | source => exact .one (item enough)

/-- A select derives at every place. -/
theorem select_at {ts : List Token} {q : Query} {k : Nat}
    (derives : ∀ n, k ≤ n → Select (Expression n 0) (NestedQuery n) ts q) {place : Place} {n : Nat}
    (enough : levelsIn place.isFrom k ≤ n) : place.derivation n (parens place.isFrom ts) q := by
  by_cases inside : place = .select
  · subst inside
    exact derives n enough
  · exact query_at (fun n enough => .one (derives n enough)) inside enough

theorem union_of_two {qs : List Query} (two : 2 ≤ qs.length) : Query.union qs = .unionAll qs := by
  match qs, two with
  | _ :: _ :: _, _ => rfl

theorem product_of_two {qs : List Query} (two : 2 ≤ qs.length) : Query.product qs = .crossJoin qs := by
  match qs, two with
  | _ :: _ :: _, _ => rfl

theorem ne_nil_of_two {qs : List Query} (two : 2 ≤ qs.length) : qs ≠ [] := by
  rintro rfl
  cases two

theorem allTokens_eq (place : Place) (qs : List Query) : Query.allTokens place qs = qs.map (Query.tokens place) := by
  induction qs with
  | nil => rfl
  | cons q rest ih => rw [Query.allTokens, ih, List.map_cons]

mutual

/-- The rendering of a query that fits its place derives it there, within as many levels as it
    takes. -/
theorem derives_of_fits : ∀ (q : Query) {place : Place}, q.Fits place → ∀ {n : Nat}, q.levels place ≤ n →
    place.derivation n (q.tokens place) q
  | .table name, .item, _, _, _ => .table name
  | .table name, .source, _, _, _ => .one (.table name)
  | .table name, .select, fits, _, _ => by cases fits.1
  | .table name, .query, fits, _, _ => by cases fits.1
  | .select clauses source, place, fits, _, enough => by
    refine select_at (fun m enough => ?_) enough
    obtain ⟨inClauses, inSource⟩ := Nat.max_le.mp enough
    exact select_tokens fits.1 inClauses (derives_of_sourceFits source fits.2 inSource)
  | .unionAll queries, place, fits, _, enough => by
    obtain ⟨outside, two, each⟩ := fits
    refine query_at (fun m enough => ?_) outside enough
    have parts := derives_of_allFit queries each enough
    rw [allTokens_eq]
    exact Parser.queryOver_iff.mpr ⟨queries, separated_map (ne_nil_of_two two) parts, union_of_two two⟩
  | .crossJoin queries, place, fits, _, enough => by
    obtain ⟨rfl, two, each⟩ := fits
    have parts := derives_of_allFit queries each enough
    rw [Query.tokens, allTokens_eq]
    exact Parser.source_iff.mpr ⟨queries, separated_map (ne_nil_of_two two) parts, product_of_two two⟩

theorem derives_of_allFit : ∀ (qs : List Query) {place : Place}, Query.AllFit place qs → ∀ {n : Nat},
    Query.allLevels place qs ≤ n → ∀ q ∈ qs, place.derivation n (q.tokens place) q
  | [], _, _, _, _ => by simp
  | q :: rest, place, fits, n, enough => by
    obtain ⟨first, later⟩ := Nat.max_le.mp enough
    exact List.forall_mem_cons.mpr
      ⟨derives_of_fits q fits.1 first, derives_of_allFit rest fits.2 later⟩

theorem derives_of_sourceFits : ∀ (source : Option Query), Query.SourceFits source → ∀ {n : Nat},
    Query.sourceLevels source ≤ n → Clause [.keyword .FROM] (Source (NestedQuery n)) (Query.sourceTokens source) source
  | none, _, _, _ => .absent
  | some q, fits, _, enough => .present (derives_of_fits q fits enough)

end

/-! ## Derivations render -/

section Bounds

variable {n : Nat} {nested : Derivation Query}

theorem projected_bounded {ts : List Token} {e : Expr} (derived : Projected (Expression n 0) ts e)
    (lexical : Lexical ts) : e.IsItem ∧ e.levels + 1 ≤ n := by
  cases derived with
  | plain derived =>
    obtain ⟨plain, levels⟩ := full_bounded derived lexical
    refine ⟨?_, levels⟩
    cases e with
    | rename inner name => exact plain.elim
    | _ => exact plain
  | renamed name derived =>
    simp only [lexical_append, lexical_cons] at lexical
    obtain ⟨plain, levels⟩ := full_bounded derived lexical.1
    exact ⟨⟨plain, lexical.2.2.1⟩, levels⟩

theorem sortKey_bounded {ts : List Token} {key : Expr × Direction} (derived : SortKey (Expression n 0) ts key)
    (lexical : Lexical ts) : key.1.IsPlain ∧ key.1.levels + 1 ≤ n := by
  cases derived with
  | plain derived => exact full_bounded derived lexical
  | ascending _ derived => exact full_bounded derived (lexical_append.mp lexical).1
  | descending _ derived => exact full_bounded derived (lexical_append.mp lexical).1

/-- A query that can be written in parentheses can be written as an item, which takes a level. -/
theorem item_of_query {q : Query} (fits : q.Fits .query) : q.Fits .item ∧ q.levels .item = q.levels .query + 1 := by
  cases q with
  | table name => cases fits.1
  | select clauses source => exact ⟨fits, rfl⟩
  | unionAll queries => exact ⟨⟨by decide, fits.2⟩, rfl⟩
  | crossJoin queries => cases fits.1

theorem source_of_item {q : Query} (fits : q.Fits .item) : q.Fits .source ∧ q.levels .source = q.levels .item := by
  cases q with
  | table name => exact ⟨fits, rfl⟩
  | select clauses source => exact ⟨fits, rfl⟩
  | unionAll queries => exact ⟨⟨by decide, fits.2⟩, rfl⟩
  | crossJoin queries => cases fits.1

theorem query_of_select {q : Query} (fits : q.Fits .select) : q.Fits .query ∧ q.levels .query = q.levels .select := by
  cases q with
  | table name => cases fits.1
  | select clauses source => exact ⟨fits, rfl⟩
  | unionAll queries => exact absurd rfl fits.1
  | crossJoin queries => cases fits.1

theorem allFit_of_forall {place : Place} : ∀ {qs : List Query}, (∀ q ∈ qs, q.Fits place ∧ q.levels place ≤ n) →
    Query.AllFit place qs ∧ Query.allLevels place qs ≤ n
  | [], _ => ⟨trivial, Nat.zero_le _⟩
  | q :: rest, each => by
    rw [List.forall_mem_cons] at each
    obtain ⟨fits, levels⟩ := allFit_of_forall each.2
    exact ⟨⟨each.1.1, fits⟩, Nat.max_le.mpr ⟨each.1.2, levels⟩⟩

theorem union_bounded {qs : List Query} (some_ : qs ≠ []) (each : ∀ q ∈ qs, q.Fits .select ∧ q.levels .select ≤ n) :
    (Query.union qs).Fits .query ∧ (Query.union qs).levels .query ≤ n := by
  match qs, some_ with
  | [q], _ =>
    obtain ⟨fits, levels⟩ := each q (List.mem_singleton_self q)
    obtain ⟨outer, same⟩ := query_of_select fits
    exact ⟨outer, same ▸ levels⟩
  | q :: r :: rest, _ =>
    obtain ⟨fits, levels⟩ := allFit_of_forall each
    exact ⟨⟨by decide, by simp, fits⟩, levels⟩

theorem product_bounded {qs : List Query} (some_ : qs ≠ []) (each : ∀ q ∈ qs, q.Fits .item ∧ q.levels .item ≤ n) :
    (Query.product qs).Fits .source ∧ (Query.product qs).levels .source ≤ n := by
  match qs, some_ with
  | [q], _ =>
    obtain ⟨fits, levels⟩ := each q (List.mem_singleton_self q)
    obtain ⟨outer, same⟩ := source_of_item fits
    exact ⟨outer, same ▸ levels⟩
  | q :: r :: rest, _ =>
    obtain ⟨fits, levels⟩ := allFit_of_forall each
    exact ⟨⟨rfl, by simp, fits⟩, levels⟩

variable (inside : ∀ {ts : List Token} {q : Query}, nested ts q → Lexical ts → q.Fits .query ∧ q.levels .query + 1 ≤ n)

include inside

theorem fromItem_bounded {ts : List Token} {q : Query} (derived : FromItem nested ts q) (lexical : Lexical ts) :
    q.Fits .item ∧ q.levels .item ≤ n := by
  cases derived with
  | table name => exact ⟨⟨rfl, (lexical_cons.mp lexical).1⟩, Nat.zero_le _⟩
  | query derived =>
    simp only [List.cons_append, lexical_cons, lexical_append] at lexical
    obtain ⟨fits, levels⟩ := inside derived lexical.2.1
    obtain ⟨item, same⟩ := item_of_query fits
    exact ⟨item, same ▸ levels⟩

theorem source_bounded {ts : List Token} {q : Query} (derived : Source nested ts q) (lexical : Lexical ts) :
    q.Fits .source ∧ q.levels .source ≤ n := by
  obtain ⟨items, separated, rfl⟩ := Parser.source_iff.mp derived
  obtain ⟨some_, each⟩ := separated_forall separated lexical (fromItem_bounded inside)
  exact product_bounded some_ each

theorem select_bounded {ts : List Token} {q : Query} (derived : Select (Expression n 0) nested ts q)
    (lexical : Lexical ts) : q.Fits .select ∧ q.levels .select ≤ n := by
  obtain @⟨ps, ss, ws, gs, os, projection, source, filter, groupBy, orderBy, items, sources, condition, group,
    order⟩ := derived
  simp only [List.cons_append, lexical_cons, lexical_append] at lexical
  obtain ⟨_, ⟨⟨⟨inItems, inSource⟩, inCondition⟩, inGroup⟩, inOrder⟩ := lexical
  obtain ⟨projects, item⟩ := separated_forall items inItems projected_bounded
  have read : ∀ q ∈ source, q.Fits .source ∧ q.levels .source ≤ n :=
    clause_forall sources inSource (source_bounded inside)
  have filtered : ∀ e ∈ filter, e.IsPlain ∧ e.levels + 1 ≤ n :=
    clause_forall condition inCondition full_bounded
  have grouped : ∀ es ∈ groupBy, es ≠ [] ∧ ∀ e ∈ es, e.IsPlain ∧ e.levels + 1 ≤ n :=
    clause_forall group inGroup fun derived lexical => separated_forall derived lexical full_bounded
  have ordered : ∀ keys ∈ orderBy, keys ≠ [] ∧ ∀ key ∈ keys, key.1.IsPlain ∧ key.1.levels + 1 ≤ n :=
    clause_forall order inOrder fun derived lexical => separated_forall derived lexical sortKey_bounded
  have groupKey : ∀ e ∈ groupBy.getD [], e.IsPlain ∧ e.levels + 1 ≤ n := by
    cases groupBy with
    | none => simp
    | some es => exact (grouped es rfl).2
  have sortKey : ∀ e ∈ (orderBy.getD []).map Prod.fst, e.IsPlain ∧ e.levels + 1 ≤ n := by
    cases orderBy with
    | none => simp
    | some keys =>
      intro e member
      obtain ⟨key, among, rfl⟩ := List.mem_map.mp member
      exact (ordered keys rfl).2 key among
  have writable : (⟨projection, filter, groupBy, orderBy⟩ : Clauses).IsWritable :=
    ⟨projects, fun e member => (item e member).1, fun e member => (filtered e member).1,
      fun same => (grouped [] same).1 rfl, fun e member => (groupKey e member).1,
      fun same => (ordered [] same).1 rfl, fun e member => (sortKey e member).1⟩
  have levels : (⟨projection, filter, groupBy, orderBy⟩ : Clauses).levels ≤ n := by
    refine levels_le.mpr fun e member => ?_
    simp only [Clauses.expressions, List.mem_append, Option.mem_toList] at member
    rcases member with ((projected | condition) | group) | order
    · exact (item e projected).2
    · exact (filtered e condition).2
    · exact (groupKey e group).2
    · exact (sortKey e order).2
  cases source with
  | none => exact ⟨⟨writable, trivial⟩, Nat.max_le.mpr ⟨levels, Nat.zero_le _⟩⟩
  | some q =>
    obtain ⟨fits, inner⟩ := read q rfl
    exact ⟨⟨writable, fits⟩, Nat.max_le.mpr ⟨levels, inner⟩⟩

theorem queryOver_bounded {ts : List Token} {q : Query} (derived : QueryOver (Expression n 0) nested ts q)
    (lexical : Lexical ts) : q.Fits .query ∧ q.levels .query ≤ n := by
  obtain ⟨selects, separated, rfl⟩ := Parser.queryOver_iff.mp derived
  obtain ⟨some_, each⟩ := separated_forall separated lexical (select_bounded inside)
  exact union_bounded some_ each

end Bounds

/-- What tokens derive as a query in parentheses can be written, and its rendering takes no more
    levels. -/
theorem nestedQuery_bounded (n : Nat) : ∀ {ts : List Token} {q : Query}, NestedQuery n ts q → Lexical ts →
    q.Fits .query ∧ q.levels .query + 1 ≤ n := by
  induction n with
  | zero => exact fun derived => derived.elim
  | succ n ih =>
    intro ts q derived lexical
    obtain ⟨fits, levels⟩ := queryOver_bounded ih derived lexical
    exact ⟨fits, Nat.succ_le_succ levels⟩

/-! ## Statements -/

theorem column_bounded {ts : List Token} {c : Column} (derived : ColumnOf ts c) (lexical : Lexical ts) :
    IsName c.name ∧ c.datatype ≠ .unknown := by
  cases derived with
  | int name => exact ⟨(lexical_cons.mp lexical).1, by simp⟩
  | bool name => exact ⟨(lexical_cons.mp lexical).1, by simp⟩

/-- Every statement that tokens derive is well-formed, and its rendering takes no more levels. -/
theorem statement_bounded {n : Nat} {ts : List Token} {s : Statement} (derived : StatementOf n ts s)
    (lexical : Lexical ts) : s.IsWellFormed ∧ s.levels ≤ n := by
  cases derived with
  | query derived => exact queryOver_bounded (nestedQuery_bounded n) derived (lexical_append.mp lexical).1
  | createTable name derived =>
    simp only [List.cons_append, lexical_cons, lexical_append] at lexical
    obtain ⟨_, _, named, _, inside, _⟩ := lexical
    refine ⟨⟨named, ?_⟩, Nat.zero_le _⟩
    cases derived with
    | none => simp
    | some derived => exact (separated_forall derived inside column_bounded).2

theorem column_tokens {c : Column} (known : c.datatype ≠ .unknown) :
    ColumnOf (.ident c.name :: Statement.typeTokens c.datatype) c := by
  obtain ⟨name, datatype⟩ := c
  cases datatype with
  | bool => exact .bool name
  | int => exact .int name
  | unknown => exact absurd rfl known

/-- The rendering of a well-formed statement derives it, within as many levels as it takes. -/
theorem statement_tokens {n : Nat} {s : Statement} (wellFormed : s.IsWellFormed) (enough : s.levels ≤ n) :
    StatementOf n s.tokens s := by
  cases s with
  | query q => exact .query (derives_of_fits q wellFormed enough)
  | createTable name columns =>
    refine .createTable name ?_
    cases columns with
    | nil => exact .none
    | cons c rest =>
      exact .some (separated_map (List.cons_ne_nil _ _) fun c member => column_tokens (wellFormed.2 c member).2)

/-- The tokens of a well-formed statement are such that texts have. -/
theorem lexical_statement {s : Statement} (wellFormed : s.IsWellFormed) : Lexical s.tokens := by
  cases s with
  | query q =>
    have inner : Lexical (q.tokens .query) := lexical_query q wellFormed
    simp [Statement.tokens, Token.IsLexical, inner]
  | createTable name columns =>
    obtain ⟨named, each⟩ := wellFormed
    have inner : Lexical (separated [.comma]
        (columns.map fun c => .ident c.name :: Statement.typeTokens c.datatype)) := by
      refine lexical_separated (by simp [Token.IsLexical]) fun ts member => ?_
      obtain ⟨⟨column, datatype⟩, among, rfl⟩ := List.mem_map.mp member
      have columnNamed : IsName column := (each _ among).1
      cases datatype <;> simp [Statement.typeTokens, Token.IsLexical, columnNamed]
    simp [Statement.tokens, Token.IsLexical, named, inner]

/-- The levels of a well-formed statement are those that its rendering needs. -/
theorem statement_levels {n : Nat} {s : Statement} (wellFormed : s.IsWellFormed) :
    StatementOf n s.tokens s ↔ s.levels ≤ n := by
  constructor
  · intro derived
    exact (statement_bounded derived (lexical_statement wellFormed)).2
  · exact statement_tokens wellFormed

end StreamQuery
