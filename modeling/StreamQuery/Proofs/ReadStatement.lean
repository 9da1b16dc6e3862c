import StreamQuery.Proofs.ReadExpression

/-!
# Reading statements

Each clause of a select ends where the keyword of a later clause can come, and a query ends where
no UNION comes. What is read in parentheses takes the levels that are left where it stands.
-/

namespace StreamQuery

open Grammar

namespace Parser

section Selects

variable {depth : Nat} {full : Derivation Expr}

theorem reads_projected (reads : expression.Reads depth (stopRank 0) full) :
    projected.Reads depth 6 (Projected full) := by
  refine ⟨fun {i rest e} at_ read => ?_, fun {i rest ts e} at_ derived begins enough => ?_⟩
  · obtain ⟨plain, middle, first, second⟩ := run_bind_ok.mp read
    obtain ⟨ts, derived, begins⟩ := reads.sound at_ first
    obtain ⟨found, behind, word, last⟩ := run_bind_ok.mp second
    rcases run_accept.mp word with ⟨rfl, next, rfl⟩ | ⟨rfl, _, rfl⟩
    · obtain ⟨name, named, rfl⟩ := run_map_ok.mp last
      exact ⟨_, .renamed name derived, Input.begins_append.mpr ⟨middle, begins, next, run_identifier.mp named⟩⟩
    · obtain ⟨rfl, rfl⟩ := run_pure_ok.mp last
      exact ⟨ts, .plain derived, begins⟩
  · cases derived with
    | plain derived =>
      refine run_bind_ok.mpr ⟨e, rest, reads.complete at_ derived begins (Nat.le_of_succ_le enough), ?_⟩
      exact run_bind_ok.mpr ⟨false, rest, run_accept.mpr (.inr ⟨rfl, Input.token_ne (by decide) enough, rfl⟩),
        run_pure_ok.mpr ⟨rfl, rfl⟩⟩
    | @renamed ts plain name derived =>
      obtain ⟨middle, begins, next, named⟩ := Input.begins_append.mp begins
      have stop : stopRank 0 ≤ middle.rank := by
        rw [Input.rank_of_token next]
        decide
      refine run_bind_ok.mpr ⟨plain, middle, reads.complete at_ derived begins stop, ?_⟩
      exact run_bind_ok.mpr ⟨true, middle.tail, run_accept.mpr (.inl ⟨rfl, next, rfl⟩),
        run_map_ok.mpr ⟨name, run_identifier.mpr named, rfl⟩⟩

def direction? : Token → Option Direction
  | .keyword .ASC => some Direction.ascending
  | .keyword .ASCENDING => some Direction.ascending
  | .keyword .DESC => some Direction.descending
  | .keyword .DESCENDING => some Direction.descending
  | _ => none

theorem run_sortKey {i rest : Input} {key : Expr × Direction} :
    sortKey.run i = .ok key rest ↔ ∃ e middle given, expression.run i = .ok e middle ∧
      (accept? direction?).run middle = .ok given rest ∧ key = (e, given.getD .ascending) := by
  constructor
  · intro read
    obtain ⟨e, middle, first, second⟩ := run_bind_ok.mp read
    obtain ⟨given, behind, word, last⟩ := run_bind_ok.mp second
    obtain ⟨rfl, rfl⟩ := run_pure_ok.mp last
    exact ⟨e, middle, given, first, word, rfl⟩
  · rintro ⟨e, middle, given, first, word, rfl⟩
    exact run_bind_ok.mpr ⟨e, middle, first, run_bind_ok.mpr ⟨given, rest, word, run_pure_ok.mpr ⟨rfl, rfl⟩⟩⟩

theorem direction?_ascending {k : Keyword} (word : k = .ASC ∨ k = .ASCENDING) :
    direction? (.keyword k) = some .ascending := by
  rcases word with rfl | rfl
  · rfl
  · rfl

theorem direction?_descending {k : Keyword} (word : k = .DESC ∨ k = .DESCENDING) :
    direction? (.keyword k) = some .descending := by
  rcases word with rfl | rfl
  · rfl
  · rfl

theorem direction?_eq_some {t : Token} {d : Direction} (given : direction? t = some d) :
    ∃ k, t = .keyword k ∧ t.rank = 5 ∧
      (d = .ascending ∧ (k = .ASC ∨ k = .ASCENDING) ∨ d = .descending ∧ (k = .DESC ∨ k = .DESCENDING)) := by
  cases t with
  | keyword k => cases k <;> cases given <;> exact ⟨_, rfl, rfl, by simp⟩
  | _ => cases given

theorem no_direction {i : Input} (enough : 6 ≤ i.rank) : i.token?.bind direction? = none := by
  cases next : i.token? with
  | none => rfl
  | some t =>
    rw [Option.bind_some]
    cases given : direction? t with
    | none => rfl
    | some d =>
      obtain ⟨_, _, rank, _⟩ := direction?_eq_some given
      rw [Input.rank_of_token next, rank] at enough
      omega

theorem reads_sortKey (reads : expression.Reads depth (stopRank 0) full) :
    sortKey.Reads depth 6 (SortKey full) := by
  refine ⟨fun {i rest key} at_ read => ?_, fun {i rest ts key} at_ derived begins enough => ?_⟩
  · obtain ⟨e, middle, given, first, word, rfl⟩ := run_sortKey.mp read
    obtain ⟨ts, derived, begins⟩ := reads.sound at_ first
    rcases run_accept?_ok.mp word with ⟨t, d, direction, rfl, next⟩ | ⟨rfl, _, rfl⟩
    · have whole := Input.begins_append.mpr ⟨middle, begins, next⟩
      obtain ⟨k, rfl, _, ⟨rfl, up⟩ | ⟨rfl, down⟩⟩ := direction?_eq_some direction
      · exact ⟨_, .ascending up derived, whole⟩
      · exact ⟨_, .descending down derived, whole⟩
    · exact ⟨ts, .plain derived, begins⟩
  · have directed : ∀ {us : List Token} {e : Expr} {k : Keyword} {d : Direction}, full us e →
        direction? (.keyword k) = some d → i.Begins (us ++ [.keyword k]) rest →
        sortKey.run i = .ok (e, d) rest := by
      intro us e k d derived direction begins
      obtain ⟨middle, begins, next⟩ := Input.begins_append.mp begins
      obtain ⟨_, same, rank, _⟩ := direction?_eq_some direction
      have stop : stopRank 0 ≤ middle.rank := by
        rw [Input.rank_of_token next.1, rank]
        decide
      exact run_sortKey.mpr ⟨e, middle, some d, reads.complete at_ derived begins stop,
        run_accept?_ok.mpr (.inl ⟨_, d, direction, rfl, next⟩), rfl⟩
    cases derived with
    | plain derived =>
      refine run_sortKey.mpr ⟨_, rest, none, ?_, ?_, rfl⟩
      · exact reads.complete at_ derived begins (Nat.le_of_succ_le enough)
      · exact run_accept?_ok.mpr (.inr ⟨rfl, no_direction enough, rfl⟩)
    | ascending word derived => exact directed derived (direction?_ascending word) begins
    | descending word derived => exact directed derived (direction?_descending word) begins

theorem reads_fromItem {inner : Parser Query} {nested : Derivation Query} (reads : inner.Reads depth 12 nested) :
    (fromItem inner).Reads depth 0 (FromItem nested) := by
  have closed := reads_closed id reads (Nat.le_refl 12)
  refine ⟨fun {i rest q} at_ read => ?_, fun {i rest ts q} at_ derived begins enough => ?_⟩
  · obtain ⟨found, middle, word, last⟩ := run_bind_ok.mp read
    rcases run_accept.mp word with ⟨rfl, next, rfl⟩ | ⟨rfl, _, rfl⟩
    · obtain ⟨_, ⟨us, inside, rfl, derived, rfl⟩, begins⟩ := closed.sound (i := i.tail) at_ last
      exact ⟨_, .query derived, next, begins⟩
    · obtain ⟨name, named, rfl⟩ := run_map_ok.mp last
      obtain ⟨t, given, begins⟩ := run_require.mp named
      cases t with
      | ident word =>
        cases given
        exact ⟨_, .table name, begins⟩
      | _ => cases given
  · cases derived with
    | table name =>
      have table : i.token? ≠ some .openParen := by
        rw [begins.1]
        simp
      refine run_bind_ok.mpr ⟨false, i, run_accept.mpr (.inr ⟨rfl, table, rfl⟩), ?_⟩
      exact run_map_ok.mpr ⟨name, run_require.mpr ⟨_, rfl, begins⟩, rfl⟩
    | @query us q derived =>
      refine run_bind_ok.mpr ⟨true, i.tail, run_accept.mpr (.inl ⟨rfl, begins.1, rfl⟩), ?_⟩
      exact closed.complete (i := i.tail) at_ ⟨us, q, rfl, derived, rfl⟩ begins.2 (Nat.zero_le _)

theorem separated_singleton {α : Type} {between : List Token} {part : Derivation α} {ts : List Token} {a : α} :
    Separated between part ts [a] ↔ part ts a := by
  constructor
  · rintro (⟨derived, ⟨⟩⟩)
    rwa [List.append_nil]
  · intro derived
    have one : Separated between part (ts ++ []) [a] := .intro derived .nil
    rwa [List.append_nil] at one

/-- What leaves one query as it is and puts several together gives what the grammar derives. -/
theorem joined_iff {between : List Token} {part : Derivation Query} (combine together : List Query → Query)
    (alone : ∀ q, combine [q] = q)
    (several : ∀ first second others, combine (first :: second :: others) = together (first :: second :: others))
    {ts : List Token} {q : Query} :
    Joined between part together ts q ↔ ∃ qs, Separated between part ts qs ∧ combine qs = q := by
  constructor
  · intro derived
    cases derived with
    | one derived => exact ⟨[q], separated_singleton.mpr derived, alone q⟩
    | several derived => exact ⟨_, derived, several _ _ _⟩
  · rintro ⟨qs, derived, rfl⟩
    match qs, derived with
    | [q], derived =>
      rw [alone]
      exact .one (separated_singleton.mp derived)
    | first :: second :: others, derived =>
      rw [several]
      exact .several derived

theorem source_iff {nested : Derivation Query} {ts : List Token} {q : Query} :
    Source nested ts q ↔ ∃ items, Separated [.comma] (FromItem nested) ts items ∧ Query.product items = q :=
  joined_iff .product .crossJoin (fun _ => rfl) fun _ _ _ => rfl

theorem queryOver_iff {nested : Derivation Query} {ts : List Token} {q : Query} :
    QueryOver full nested ts q ↔ ∃ selects,
      Separated [.keyword .UNION, .keyword .ALL] (Select full nested) ts selects ∧ Query.union selects = q :=
  joined_iff .union .unionAll (fun _ => rfl) fun _ _ _ => rfl

theorem reads_source {inner : Parser Query} {nested : Derivation Query} (reads : inner.Reads depth 12 nested) :
    (Query.product <$> commaSeparated (fromItem inner)).Reads depth 7 (Source nested) := by
  have items := reads_commaSeparated (reads_fromItem reads) (Nat.zero_le _)
  refine ⟨fun {i rest q} at_ read => ?_, fun {i rest ts q} at_ derived begins enough => ?_⟩
  · obtain ⟨qs, listed, rfl⟩ := run_map_ok.mp read
    obtain ⟨ts, derived, begins⟩ := items.sound at_ listed
    exact ⟨ts, source_iff.mpr ⟨qs, derived, rfl⟩, begins⟩
  · obtain ⟨qs, listed, rfl⟩ := source_iff.mp derived
    exact run_map_ok.mpr ⟨qs, items.complete at_ listed begins enough, rfl⟩

theorem run_select {inner : Parser Query} {i rest : Input} {q : Query} :
    (select inner).run i = .ok q rest ↔ ∃ m₀ projection m₁ source m₂ filter m₃ groupBy m₄ orderBy,
      i.Begins [.keyword .SELECT] m₀ ∧ (commaSeparated projected).run m₀ = .ok projection m₁ ∧
      (clause .FROM (Query.product <$> commaSeparated (fromItem inner))).run m₁ = .ok source m₂ ∧
      (clause .WHERE expression).run m₂ = .ok filter m₃ ∧
      (clause .GROUP (do expect (.keyword .BY); commaSeparated expression)).run m₃ = .ok groupBy m₄ ∧
      (clause .ORDER (do expect (.keyword .BY); commaSeparated sortKey)).run m₄ = .ok orderBy rest ∧
      q = .select ⟨projection, filter, groupBy, orderBy⟩ source := by
  constructor
  · intro read
    obtain ⟨_, m₀, word, read₀⟩ := run_bind_ok.mp read
    obtain ⟨projection, m₁, items, read₁⟩ := run_bind_ok.mp read₀
    obtain ⟨source, m₂, sources, read₂⟩ := run_bind_ok.mp read₁
    obtain ⟨filter, m₃, condition, read₃⟩ := run_bind_ok.mp read₂
    obtain ⟨groupBy, m₄, group, read₄⟩ := run_bind_ok.mp read₃
    obtain ⟨orderBy, m₅, order, last⟩ := run_bind_ok.mp read₄
    obtain ⟨rfl, rfl⟩ := run_pure_ok.mp last
    exact ⟨m₀, projection, m₁, source, m₂, filter, m₃, groupBy, m₄, orderBy, run_expect.mp word, items, sources,
      condition, group, order, rfl⟩
  · rintro ⟨m₀, projection, m₁, source, m₂, filter, m₃, groupBy, m₄, orderBy, word, items, sources, condition,
      group, order, rfl⟩
    refine run_bind_ok.mpr ⟨(), m₀, run_expect.mpr word, run_bind_ok.mpr ⟨projection, m₁, items, ?_⟩⟩
    refine run_bind_ok.mpr ⟨source, m₂, sources, run_bind_ok.mpr ⟨filter, m₃, condition, ?_⟩⟩
    exact run_bind_ok.mpr ⟨groupBy, m₄, group, run_bind_ok.mpr ⟨orderBy, rest, order, run_pure_ok.mpr ⟨rfl, rfl⟩⟩⟩

theorem reads_select {inner : Parser Query} {nested : Derivation Query}
    (reads : expression.Reads depth (stopRank 0) full) (readsNested : inner.Reads depth 12 nested) :
    (select inner).Reads depth 11 (Select full nested) := by
  have items := reads_commaSeparated (reads_projected reads) (by decide)
  have sources : (clause .FROM (Query.product <$> commaSeparated (fromItem inner))).Reads depth 8
      (Clause [.keyword .FROM] (Source nested)) :=
    reads_optional ((reads_source readsNested).mono (by decide)) (by decide)
  have condition : (clause .WHERE expression).Reads depth 9 (Clause [.keyword .WHERE] full) :=
    reads_optional (reads.mono (by decide)) (by decide)
  have group : (clause .GROUP (do expect (.keyword .BY); commaSeparated expression)).Reads depth 10
      (Clause [.keyword .GROUP, .keyword .BY] (Separated [.comma] full)) :=
    reads_clause (reads_expect ((reads_commaSeparated reads (by decide)).mono (by decide))) (by decide)
  have order : (clause .ORDER (do expect (.keyword .BY); commaSeparated sortKey)).Reads depth 11
      (Clause [.keyword .ORDER, .keyword .BY] (Separated [.comma] (SortKey full))) :=
    reads_clause (reads_expect ((reads_commaSeparated (reads_sortKey reads) (by decide)).mono (by decide)))
      (by decide)
  refine ⟨fun {i rest q} at_ read => ?_, fun {i rest ts q} at_ derived begins enough => ?_⟩
  · obtain ⟨m₀, projection, m₁, source, m₂, filter, m₃, groupBy, m₄, orderBy, begins₀, run₁, run₂, run₃, run₄, run₅,
      rfl⟩ := run_select.mp read
    have at₀ := (Input.begins_depth begins₀).trans at_
    obtain ⟨ps, derived₁, begins₁⟩ := items.sound at₀ run₁
    have at₁ := (Input.begins_depth begins₁).trans at₀
    obtain ⟨ss, derived₂, begins₂⟩ := sources.sound at₁ run₂
    have at₂ := (Input.begins_depth begins₂).trans at₁
    obtain ⟨ws, derived₃, begins₃⟩ := condition.sound at₂ run₃
    have at₃ := (Input.begins_depth begins₃).trans at₂
    obtain ⟨gs, derived₄, begins₄⟩ := group.sound at₃ run₄
    obtain ⟨os, derived₅, begins₅⟩ := order.sound ((Input.begins_depth begins₄).trans at₃) run₅
    have upTo₁ : i.Begins ([.keyword .SELECT] ++ ps) m₁ := Input.begins_append.mpr ⟨m₀, begins₀, begins₁⟩
    have upTo₂ := Input.begins_append.mpr ⟨m₁, upTo₁, begins₂⟩
    have upTo₃ := Input.begins_append.mpr ⟨m₂, upTo₂, begins₃⟩
    have upTo₄ := Input.begins_append.mpr ⟨m₃, upTo₃, begins₄⟩
    exact ⟨_, .intro derived₁ derived₂ derived₃ derived₄ derived₅, Input.begins_append.mpr ⟨m₄, upTo₄, begins₅⟩⟩
  · obtain ⟨derived₁, derived₂, derived₃, derived₄, derived₅⟩ := derived
    obtain ⟨m₄, begins, begins₅⟩ := Input.begins_append.mp begins
    obtain ⟨m₃, begins, begins₄⟩ := Input.begins_append.mp begins
    obtain ⟨m₂, begins, begins₃⟩ := Input.begins_append.mp begins
    obtain ⟨m₁, ⟨next, begins₁⟩, begins₂⟩ := Input.begins_append.mp begins
    have stop₄ : 10 ≤ m₄.rank := rank_of_clause derived₅ begins₅ (by decide) (Nat.le_of_succ_le enough)
    have stop₃ : 9 ≤ m₃.rank := rank_of_clause derived₄ begins₄ (by decide) (Nat.le_of_succ_le stop₄)
    have stop₂ : 8 ≤ m₂.rank := rank_of_clause derived₃ begins₃ (by decide) (Nat.le_of_succ_le stop₃)
    have stop₁ : 7 ≤ m₁.rank := rank_of_clause derived₂ begins₂ (by decide) (Nat.le_of_succ_le stop₂)
    have at₁ := (Input.begins_depth begins₁).trans at_
    have at₂ := (Input.begins_depth begins₂).trans at₁
    have at₃ := (Input.begins_depth begins₃).trans at₂
    have at₄ := (Input.begins_depth begins₄).trans at₃
    exact run_select.mpr ⟨i.tail, _, m₁, _, m₂, _, m₃, _, m₄, _, ⟨next, rfl⟩,
      items.complete (i := i.tail) at_ derived₁ begins₁ stop₁, sources.complete at₁ derived₂ begins₂ stop₂,
      condition.complete at₂ derived₃ begins₃ stop₃, group.complete at₃ derived₄ begins₄ stop₄,
      order.complete at₄ derived₅ begins₅ enough, rfl⟩

theorem reads_queryOver {inner : Parser Query} {nested : Derivation Query}
    (reads : expression.Reads depth (stopRank 0) full) (readsNested : inner.Reads depth 12 nested) :
    (queryOver inner).Reads depth 12 (QueryOver full nested) := by
  have one := reads_select reads readsNested
  have others : (many (exactly (.keyword .UNION)) fun _ => do expect (.keyword .ALL); select inner).Reads depth 12
      (Repeated [.keyword .UNION, .keyword .ALL] (Select full nested)) :=
    reads_many (t := .keyword .UNION) (reads_expect one) (by decide)
  refine ⟨fun {i rest q} at_ read => ?_, fun {i rest ts q} at_ derived begins enough => ?_⟩
  · obtain ⟨first, m, head, behind⟩ := run_bind_ok.mp read
    obtain ⟨more, m', tail, last⟩ := run_bind_ok.mp behind
    obtain ⟨rfl, rfl⟩ := run_pure_ok.mp last
    obtain ⟨ts, derived, begins⟩ := one.sound at_ head
    obtain ⟨us, repeated, ends⟩ := others.sound ((Input.begins_depth begins).trans at_) tail
    exact ⟨_, queryOver_iff.mpr ⟨_, .intro derived repeated, rfl⟩, Input.begins_append.mpr ⟨m, begins, ends⟩⟩
  · obtain ⟨_, @⟨ts, us, first, more, head, tail⟩, rfl⟩ := queryOver_iff.mp derived
    obtain ⟨m, begins, ends⟩ := Input.begins_append.mp begins
    have stop : 11 ≤ m.rank := rank_of_repeated tail ends (by decide) (Nat.le_of_succ_le enough)
    refine run_bind_ok.mpr ⟨first, m, one.complete at_ head begins stop, ?_⟩
    exact run_bind_ok.mpr ⟨more, rest, others.complete ((Input.begins_depth begins).trans at_) tail ends enough,
      run_pure_ok.mpr ⟨rfl, rfl⟩⟩

end Selects

/-! ## Nested queries -/

/-- Queries in parentheses are read with the levels that are left to the limit. -/
theorem reads_nested (levels : Nat) : ∀ depth, levels + depth = maxNesting →
    (within (fun self (_ : Unit) => queryOver (self ())) levels ()).Reads depth 12 (NestedQuery levels) := by
  induction levels with
  | zero =>
    intro depth _
    refine ⟨fun _ read => ?_, fun _ derived => derived.elim⟩
    cases read
  | succ levels ih =>
    intro depth total
    have left : maxNesting - (depth + 1) = levels := by omega
    have reads : expression.Reads (depth + 1) (stopRank 0) (Expression levels 0) := by
      rw [← left]
      exact reads_expressionAt (Nat.zero_le _)
    exact reads_deeper (reads_queryOver reads (ih (depth + 1) (by omega)))

theorem reads_nestedQuery : nestedQuery.Reads 0 12 (NestedQuery maxNesting) :=
  reads_recursive (reads_nested maxNesting 0 rfl)

theorem reads_query : query.Reads 0 12 (QueryOver (Expression maxNesting 0) (NestedQuery maxNesting)) :=
  reads_queryOver (reads_expressionAt (Nat.zero_le _)) reads_nestedQuery

/-! ## Declarations -/

theorem reads_column (depth : Nat) : column.Reads depth 0 ColumnOf := by
  refine ⟨fun {i rest c} at_ read => ?_, fun {i rest ts c} at_ derived begins enough => ?_⟩
  · obtain ⟨name, middle, first, second⟩ := run_bind_ok.mp read
    obtain ⟨datatype, behind, word, last⟩ := run_bind_ok.mp second
    obtain ⟨rfl, rfl⟩ := run_pure_ok.mp last
    obtain ⟨t, given, next⟩ := run_require.mp word
    have whole := Input.begins_append.mpr ⟨middle, run_identifier.mp first, next⟩
    cases t with
    | keyword k =>
      cases k with
      | INT => cases given; exact ⟨_, .int name, whole⟩
      | BOOL => cases given; exact ⟨_, .bool name, whole⟩
      | _ => cases given
    | _ => cases given
  · cases derived with
    | int name =>
      refine run_bind_ok.mpr ⟨name, i.tail, run_identifier.mpr ⟨begins.1, rfl⟩, ?_⟩
      exact run_bind_ok.mpr ⟨.int, rest, run_require.mpr ⟨_, rfl, begins.2⟩, run_pure_ok.mpr ⟨rfl, rfl⟩⟩
    | bool name =>
      refine run_bind_ok.mpr ⟨name, i.tail, run_identifier.mpr ⟨begins.1, rfl⟩, ?_⟩
      exact run_bind_ok.mpr ⟨.bool, rest, run_require.mpr ⟨_, rfl, begins.2⟩, run_pure_ok.mpr ⟨rfl, rfl⟩⟩

theorem reads_columns (depth : Nat) : (commaSeparated column).Reads depth 7 (Separated [.comma] ColumnOf) :=
  reads_commaSeparated (reads_column depth) (Nat.zero_le _)

/-- A declaration up to its closing parenthesis. -/
inductive Declaration : Derivation Statement where
  | intro (name : String) {ts : List Token} {columns : List Column} (derived : ColumnsOf ts columns) :
      Declaration (.keyword .CREATE :: .keyword .TABLE :: .ident name :: .openParen :: ts ++ [.closeParen])
        (.createTable name columns)

theorem reads_createTable (depth : Nat) : createTable.Reads depth 0 Declaration := by
  refine ⟨fun {i rest s} at_ read => ?_, fun {i rest ts s} at_ derived begins enough => ?_⟩
  · obtain ⟨_, m₁, create, read₁⟩ := run_bind_ok.mp read
    obtain ⟨_, m₂, table, read₂⟩ := run_bind_ok.mp read₁
    obtain ⟨name, m₃, named, read₃⟩ := run_bind_ok.mp read₂
    obtain ⟨_, m₄, paren, read₄⟩ := run_bind_ok.mp read₃
    obtain ⟨empty, m₅, close, last⟩ := run_bind_ok.mp read₄
    obtain ⟨next₁, rfl⟩ := run_expect.mp create
    obtain ⟨next₂, rfl⟩ := run_expect.mp table
    obtain ⟨next₃, rfl⟩ := run_identifier.mp named
    obtain ⟨next₄, rfl⟩ := run_expect.mp paren
    rcases run_accept.mp close with ⟨rfl, next₅, rfl⟩ | ⟨rfl, _, rfl⟩
    · obtain ⟨rfl, rfl⟩ := run_pure_ok.mp last
      exact ⟨_, .intro name .none, next₁, next₂, next₃, next₄, next₅, rfl⟩
    · obtain ⟨columns, m₆, listed, final⟩ := run_bind_ok.mp last
      obtain ⟨_, m₇, closed, done⟩ := run_bind_ok.mp final
      obtain ⟨rfl, rfl⟩ := run_pure_ok.mp done
      obtain ⟨ts, derived, begins⟩ := (reads_columns depth).sound (i := i.tail.tail.tail.tail) at_ listed
      exact ⟨_, .intro name (.some derived), next₁, next₂, next₃, next₄,
        Input.begins_append.mpr ⟨m₆, begins, run_expect.mp closed⟩⟩
  · obtain ⟨name, derived⟩ := derived
    obtain ⟨next₁, next₂, next₃, next₄, begins⟩ := begins
    refine run_bind_ok.mpr ⟨(), i.tail, run_expect.mpr ⟨next₁, rfl⟩, ?_⟩
    refine run_bind_ok.mpr ⟨(), i.tail.tail, run_expect.mpr ⟨next₂, rfl⟩, ?_⟩
    refine run_bind_ok.mpr ⟨name, i.tail.tail.tail, run_identifier.mpr ⟨next₃, rfl⟩, ?_⟩
    refine run_bind_ok.mpr ⟨(), i.tail.tail.tail.tail, run_expect.mpr ⟨next₄, rfl⟩, ?_⟩
    cases derived with
    | none =>
      exact run_bind_ok.mpr ⟨true, rest, run_accept.mpr (.inl ⟨rfl, begins⟩), run_pure_ok.mpr ⟨rfl, rfl⟩⟩
    | some derived =>
      obtain ⟨m, listed, close⟩ := Input.begins_append.mp begins
      have stop : 7 ≤ m.rank := by
        rw [Input.rank_of_token close.1]
        decide
      have some_column : i.tail.tail.tail.tail.token? ≠ some .closeParen := by
        obtain ⟨head, _⟩ := derived
        cases head with
        | int name => rw [listed.1]; simp
        | bool name => rw [listed.1]; simp
      refine run_bind_ok.mpr ⟨false, _, run_accept.mpr (.inr ⟨rfl, some_column, rfl⟩), ?_⟩
      refine run_bind_ok.mpr ⟨_, m, (reads_columns depth).complete at_ derived listed stop, ?_⟩
      exact run_bind_ok.mpr ⟨(), rest, run_expect.mpr close, run_pure_ok.mpr ⟨rfl, rfl⟩⟩

/-! ## Statements -/

/-- A statement without its semicolon. -/
inductive Unended : Derivation Statement where
  | query {ts : List Token} {q : Query}
      (derived : QueryOver (Expression maxNesting 0) (NestedQuery maxNesting) ts q) : Unended ts (.query q)
  | createTable {ts : List Token} {s : Statement} (derived : Declaration ts s) : Unended ts s

theorem statementOf_iff {ts : List Token} {s : Statement} :
    StatementOf maxNesting ts s ↔ ∃ us, ts = us ++ [.semicolon] ∧ Unended us s := by
  constructor
  · intro derived
    cases derived with
    | query derived => exact ⟨_, rfl, .query derived⟩
    | createTable name derived =>
      refine ⟨_, ?_, .createTable (.intro name derived)⟩
      simp
  · rintro ⟨us, rfl, derived⟩
    cases derived with
    | query derived => exact .query derived
    | createTable derived =>
      obtain ⟨name, derived⟩ := derived
      have whole : StatementOf maxNesting _ _ := .createTable name derived
      simpa using whole

theorem reads_statement : statement.Reads 0 12 Unended := by
  refine ⟨fun {i rest s} at_ read => ?_, fun {i rest ts s} at_ derived begins enough => ?_⟩
  · obtain ⟨next, m, peeked, last⟩ := run_bind_ok.mp read
    obtain ⟨rfl, rfl, _⟩ := run_peek.mp peeked
    cases next : m.token? with
    | none => rw [next] at last; cases last
    | some t =>
      rw [next] at last
      cases t with
      | keyword k =>
        cases k with
        | CREATE =>
          obtain ⟨ts, derived, begins⟩ := (reads_createTable 0).sound at_ last
          exact ⟨ts, .createTable derived, begins⟩
        | SELECT =>
          obtain ⟨q, selected, rfl⟩ := run_map_ok.mp last
          obtain ⟨ts, derived, begins⟩ := reads_query.sound at_ selected
          exact ⟨ts, .query derived, begins⟩
        | _ => cases last
      | _ => cases last
  · cases derived with
    | query derived =>
      have first : i.token? = some (.keyword .SELECT) := by
        obtain ⟨_, ⟨⟨_, _, _, _, _⟩, _⟩, rfl⟩ := queryOver_iff.mp derived
        exact begins.1
      refine run_bind_ok.mpr ⟨_, i, run_peek_some first, ?_⟩
      exact run_map_ok.mpr ⟨_, reads_query.complete at_ derived begins enough, rfl⟩
    | createTable derived =>
      have first : i.token? = some (.keyword .CREATE) := by
        obtain ⟨name, _⟩ := derived
        exact begins.1
      refine run_bind_ok.mpr ⟨_, i, run_peek_some first, ?_⟩
      exact (reads_createTable 0).complete at_ derived begins (Nat.zero_le _)

theorem run_endOfInput {i rest : Input} {u : Unit} :
    endOfInput.run i = .ok u rest ↔
      rest = i ∧ i.lexemes = [] ∧ ∃ position, i.ending = .finished position := by
  constructor
  · intro read
    obtain ⟨next, m, peeked, last⟩ := run_bind_ok.mp read
    obtain ⟨rfl, rfl, finished⟩ := run_peek.mp peeked
    cases lexemes : m.lexemes with
    | nil =>
      rw [Input.token?, lexemes] at last
      obtain ⟨_, rfl⟩ := run_pure_ok.mp last
      exact ⟨rfl, rfl, finished lexemes⟩
    | cons l ls =>
      rw [Input.token?, lexemes] at last
      cases last
  · rintro ⟨rfl, empty, finished⟩
    refine run_bind_ok.mpr ⟨none, rest, run_peek.mpr ⟨rfl, ?_, fun _ => finished⟩, run_pure_ok.mpr ⟨rfl, rfl⟩⟩
    rw [Input.token?, empty]
    rfl

theorem begins_tokens {ts : List Token} {i rest : Input} (begins : i.Begins ts rest) :
    i.lexemes.map Lexeme.token = ts ++ rest.lexemes.map Lexeme.token ∧ rest.ending = i.ending := by
  induction ts generalizing i with
  | nil =>
    rw [show rest = i from begins]
    exact ⟨rfl, rfl⟩
  | cons t ts ih =>
    obtain ⟨next, later⟩ := begins
    obtain ⟨tokens, ending⟩ := ih later
    obtain ⟨ls, e, f, d⟩ := i
    cases ls with
    | nil => cases next
    | cons l ls =>
      cases next
      exact ⟨congrArg (l.token :: ·) tokens, ending⟩

theorem begins_front (front later : List Lexeme) (ending : Ending) (finish : Position) (depth : Nat) :
    (⟨front ++ later, ending, finish, depth⟩ : Input).Begins (front.map Lexeme.token)
      ⟨later, ending, finish, depth⟩ := by
  induction front with
  | nil => rfl
  | cons l front ih => exact ⟨rfl, ih⟩

/-- Every input begins with its tokens, and nothing is left behind them. -/
theorem begins_whole (ls : List Lexeme) (ending : Ending) (finish : Position) (depth : Nat) :
    (⟨ls, ending, finish, depth⟩ : Input).Begins (ls.map Lexeme.token) ⟨[], ending, finish, depth⟩ := by
  have front := begins_front ls [] ending finish depth
  rw [List.append_nil] at front
  exact front

/-- A whole input is read as a statement if it ends without an error and its tokens are the
    statement. -/
theorem run_wholeStatement {i : Input} {s : Statement} (at_ : i.depth = 0) :
    (wholeStatement.run i).answer = .ok s ↔
      (∃ position, i.ending = .finished position) ∧
        StatementOf maxNesting (i.lexemes.map Lexeme.token) s := by
  have answer : (wholeStatement.run i).answer = .ok s ↔ ∃ rest, wholeStatement.run i = .ok s rest := by
    cases wholeStatement.run i with
    | ok t rest => simp [Outcome.answer]
    | error e rest => simp [Outcome.answer]
  rw [answer, statementOf_iff]
  constructor
  · rintro ⟨rest, read⟩
    obtain ⟨s, m₁, first, read₁⟩ := run_bind_ok.mp read
    obtain ⟨_, m₂, semicolon, read₂⟩ := run_bind_ok.mp read₁
    obtain ⟨_, m₃, final, last⟩ := run_bind_ok.mp read₂
    obtain ⟨rfl, rfl⟩ := run_pure_ok.mp last
    obtain ⟨rfl, empty, finished⟩ := run_endOfInput.mp final
    obtain ⟨us, derived, begins⟩ := reads_statement.sound at_ first
    obtain ⟨tokens, ending⟩ := begins_tokens (Input.begins_append.mpr ⟨m₁, begins, run_expect.mp semicolon⟩)
    rw [empty, List.map_nil, List.append_nil] at tokens
    rw [← ending]
    exact ⟨finished, us, tokens, derived⟩
  · rintro ⟨finished, us, tokens, derived⟩
    have whole := begins_whole i.lexemes i.ending i.finish i.depth
    rw [tokens] at whole
    obtain ⟨m, begins, semicolon⟩ := Input.begins_append.mp whole
    have stop : 12 ≤ m.rank := by
      rw [Input.rank_of_token semicolon.1]
      decide
    refine ⟨⟨[], i.ending, i.finish, i.depth⟩,
      run_bind_ok.mpr ⟨s, m, reads_statement.complete at_ derived begins stop, ?_⟩⟩
    refine run_bind_ok.mpr ⟨(), _, run_expect.mpr semicolon, ?_⟩
    exact run_bind_ok.mpr ⟨(), _, run_endOfInput.mpr ⟨rfl, rfl, finished⟩, run_pure_ok.mpr ⟨rfl, rfl⟩⟩

end Parser

/-- The tokens of a text that has no lexical error. -/
def Lexes (text : String) (ts : List Token) : Prop :=
  ∃ lexemes position, (Cursor.start text).lexemes = (lexemes, .finished position) ∧
    lexemes.map Lexeme.token = ts

/-- A text is parsed as a statement if and only if it has no lexical error and its tokens are the
    statement, with no token inside more than 128 levels. -/
theorem parse_eq_ok_iff {text : String} {s : Statement} :
    Statement.parse text = .ok s ↔ ∃ ts, Lexes text ts ∧ StatementOf 128 ts s := by
  show (Parser.wholeStatement.run (.ofText text)).answer = .ok s ↔ ∃ ts, Lexes text ts ∧ StatementOf maxNesting ts s
  rw [Parser.run_wholeStatement rfl]
  constructor
  · rintro ⟨⟨position, finished⟩, derived⟩
    exact ⟨_, ⟨_, position, Prod.ext rfl finished, rfl⟩, derived⟩
  · rintro ⟨_, ⟨lexemes, position, all, rfl⟩, derived⟩
    have same : (Input.ofText text).lexemes = lexemes := congrArg Prod.fst all
    rw [same]
    exact ⟨⟨position, congrArg Prod.snd all⟩, derived⟩

end StreamQuery
