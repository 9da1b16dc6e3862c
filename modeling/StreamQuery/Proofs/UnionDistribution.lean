import StreamQuery.Proofs.Grouping

/-!
# Selects over unions

A select that neither groups nor sorts reads its rows one by one, so what it makes of a list of rows
is what it makes of the parts of the list, one behind the other (`Piecewise`). Over a union of
streams with one header it is therefore the union of the selects over them. The two visit the rows
in different orders and may fail with different errors, but they fail together.
-/

namespace StreamQuery

/-! ## Lists that are computed part by part -/

section Piecewise

variable {ε α β γ : Type}

/-- A computation that has a result for a list if it has results for both parts of the list; the
    result is then theirs, one behind the other. -/
structure Piecewise (f : List α → Except ε (List β)) : Prop where
  nil : f [] = .ok []
  append : ∀ xs ys out, f (xs ++ ys) = .ok out ↔
    ∃ left right, f xs = .ok left ∧ f ys = .ok right ∧ out = left ++ right

theorem piecewise_ok : Piecewise (Except.ok : List α → Except ε (List α)) where
  nil := rfl
  append xs ys out := by
    constructor
    · intro same
      cases same
      exact ⟨xs, ys, rfl, rfl, rfl⟩
    · rintro ⟨left, right, first, second, rfl⟩
      cases first
      cases second
      rfl

theorem piecewise_mapM (f : α → Except ε β) : Piecewise (List.mapM f) where
  nil := rfl
  append xs ys out := by
    rw [List.mapM_append, bind_eq_ok]
    constructor
    · rintro ⟨left, first, rest⟩
      obtain ⟨right, second, same⟩ := bind_eq_ok.mp rest
      cases same
      exact ⟨left, right, first, second, rfl⟩
    · rintro ⟨left, right, first, second, rfl⟩
      exact ⟨left, first, bind_eq_ok.mpr ⟨right, second, rfl⟩⟩

/-- Two computations part by part, one behind the other, are one. The first one is through with
    both parts before the second begins, which changes the error but not whether there is one. -/
theorem Piecewise.bind {f : List α → Except ε (List β)} {g : List β → Except ε (List γ)} (first : Piecewise f)
    (second : Piecewise g) : Piecewise fun xs => f xs >>= g where
  nil := by
    rw [first.nil]
    exact second.nil
  append xs ys out := by
    simp only [bind_eq_ok]
    constructor
    · rintro ⟨middle, made, rest⟩
      obtain ⟨left, right, here, there, rfl⟩ := (first.append xs ys middle).mp made
      obtain ⟨front, back, fromLeft, fromRight, rfl⟩ := (second.append left right out).mp rest
      exact ⟨front, back, ⟨left, here, fromLeft⟩, ⟨right, there, fromRight⟩, rfl⟩
    · rintro ⟨front, back, ⟨left, here, fromLeft⟩, ⟨right, there, fromRight⟩, same⟩
      exact ⟨left ++ right, (first.append xs ys _).mpr ⟨left, right, here, there, rfl⟩,
        (second.append left right out).mpr ⟨front, back, fromLeft, fromRight, same⟩⟩

/-- What is computed part by part has a result for many parts if it has one for each. -/
theorem Piecewise.flatMap {f : List α → Except ε (List β)} (piecewise : Piecewise f) (part : γ → List α)
    {l : List γ} {out : List β} :
    f (l.flatMap part) = .ok out ↔ ∃ outs, l.mapM (fun c => f (part c)) = .ok outs ∧ out = outs.flatten := by
  induction l generalizing out with
  | nil =>
    rw [List.flatMap_nil, piecewise.nil]
    constructor
    · intro same
      cases same
      exact ⟨[], rfl, rfl⟩
    · rintro ⟨outs, none, rfl⟩
      cases none
      rfl
  | cons c rest ih =>
    rw [List.flatMap_cons, piecewise.append]
    simp only [ih, mapM_cons_eq_ok]
    constructor
    · rintro ⟨front, _, here, ⟨outs, later, rfl⟩, rfl⟩
      exact ⟨front :: outs, ⟨front, outs, here, later, rfl⟩, rfl⟩
    · rintro ⟨_, ⟨front, outs, here, later, rfl⟩, rfl⟩
      exact ⟨front, outs.flatten, here, ⟨outs, later, rfl⟩, rfl⟩

end Piecewise

/-! ## The records of a select that reads rows one by one -/

theorem piecewise_filter (condition : Expr) : Piecewise (Scope.filter condition) where
  nil := rfl
  append xs ys out := by
    induction xs generalizing out with
    | nil =>
      constructor
      · intro made
        exact ⟨[], out, rfl, made, rfl⟩
      · rintro ⟨left, right, none, made, rfl⟩
        cases none
        exact made
    | cons scope rest ih =>
      simp only [List.cons_append, Scope.filter, bind_eq_ok, ih]
      constructor
      · rintro ⟨v, value, kept, satisfied, _, ⟨left, right, first, second, rfl⟩, same⟩
        cases same
        refine ⟨_, right, ⟨v, value, kept, satisfied, left, first, rfl⟩, second, ?_⟩
        cases kept <;> rfl
      · rintro ⟨_, right, ⟨v, value, kept, satisfied, left, first, same⟩, second, rfl⟩
        cases same
        refine ⟨v, value, kept, satisfied, left ++ right, ⟨left, right, first, second, rfl⟩, ?_⟩
        cases kept <;> rfl

theorem piecewise_passing (c : Clauses) : Piecewise c.passing := by
  unfold Clauses.passing
  cases c.filter with
  | none => exact piecewise_ok
  | some condition => exact piecewise_filter condition

/-- The records that a select makes of its rows, one for each that passes WHERE. -/
def Clauses.recordsOf (c : Clauses) (scopes : List Scope) : Except Error (List Record) := do
  let kept ← c.passing scopes
  kept.mapM fun scope => c.projection.mapM (Expr.eval scope)

theorem piecewise_recordsOf (c : Clauses) : Piecewise c.recordsOf :=
  (piecewise_passing c).bind (piecewise_mapM _)

theorem rows_plain {c : Clauses} (plain : c.isGrouped = false) (unordered : c.orderBy = none) (source : List Column)
    (kept : List Scope) :
    c.rows source kept =
      List.map (⟨·, []⟩ : Record → Row) <$> kept.mapM fun scope => c.projection.mapM (Expr.eval scope) := by
  have project : ∀ scope, c.project [] scope =
      (⟨·, []⟩ : Record → Row) <$> c.projection.mapM (Expr.eval scope) := by
    intro scope
    unfold Clauses.project Clauses.sortKeys
    rw [unordered]
    show (c.projection.mapM (Expr.eval scope) >>= fun record => .ok (⟨record, []⟩ : Row)) = _
    cases c.projection.mapM (Expr.eval scope) <;> rfl
  rw [Clauses.rows, plain, if_neg Bool.false_ne_true]
  exact mapM_after fun scope _ => project scope

/-- Where the header and the types are accepted, a select that neither groups nor sorts puts the
    records of its rows under the header. -/
theorem run_plain {c : Clauses} {strict : Bool} {source header : List Column} (plain : c.isGrouped = false)
    (unordered : c.orderBy = none) (named : c.header strict source = .ok header)
    (typed : strict = true → c.checkTypes source = .ok ()) (scopes : List Scope) :
    c.run strict source scopes = Stream.mk header <$> c.recordsOf scopes := by
  rw [Clauses.run_of_accepted named typed]
  unfold Clauses.recordsOf
  cases c.passing scopes with
  | error e => rfl
  | ok kept =>
    show (c.rows source kept >>= fun rows => .ok (Stream.mk header ((c.sorted rows).map Row.record))) =
      Stream.mk header <$> kept.mapM fun scope => c.projection.mapM (Expr.eval scope)
    simp only [rows_plain plain unordered, sorted_unordered unordered]
    cases kept.mapM fun scope => c.projection.mapM (Expr.eval scope) with
    | error e => rfl
    | ok records => exact congrArg (fun result => Except.ok (Stream.mk header result)) (records_of_rows records)

/-! ## Unions of streams with one header -/

theorem unionAll_of_header {header : List Column} {streams : List Stream} (nonempty : streams ≠ [])
    (same : ∀ s ∈ streams, s.header = header) :
    Stream.unionAll streams = .ok ⟨header, streams.flatMap Stream.records⟩ := by
  cases streams with
  | nil => exact absurd rfl nonempty
  | cons first rest =>
    obtain ⟨rfl, others⟩ := List.forall_mem_cons.mp same
    refine bind_eq_ok.mpr ⟨(), forM_eq_ok.mpr fun s member => ?_, rfl⟩
    rw [Stream.checkWidth, others s member, if_pos rfl]

theorem unionAll_of_records {header : List Column} {outs : List (List Record)} (nonempty : outs ≠ []) :
    Stream.unionAll (outs.map (Stream.mk header)) = .ok ⟨header, outs.flatten⟩ := by
  have present : outs.map (Stream.mk header) ≠ [] := fun none => nonempty (List.map_eq_nil_iff.mp none)
  have headed : ∀ s ∈ outs.map (Stream.mk header), s.header = header := by simp
  rw [unionAll_of_header present headed, List.flatMap_map, List.flatMap_id']

theorem scopes_of_union {header : List Column} {streams : List Stream} (same : ∀ s ∈ streams, s.header = header) :
    Stream.scopes ⟨header, streams.flatMap Stream.records⟩ = streams.flatMap Stream.scopes := by
  rw [Stream.scopes, List.map_flatMap]
  refine List.flatMap_congr fun s member => ?_
  rw [Stream.scopes, same s member]

/-- Selects over streams with one header have a union if the select over their union has a result,
    and then it is that result. -/
theorem run_distributes {c : Clauses} {strict : Bool} {header : List Column} {streams : List Stream} {result : Stream}
    (plain : c.isGrouped = false) (unordered : c.orderBy = none) (nonempty : streams ≠ [])
    (same : ∀ s ∈ streams, s.header = header) :
    c.run strict header (streams.flatMap Stream.scopes) = .ok result ↔
      (streams.mapM (fun s => c.run strict s.header s.scopes) >>= Stream.unionAll) = .ok result := by
  rw [bind_eq_ok]
  by_cases accepted : ∃ named, c.header strict header = .ok named ∧ (strict = true → c.checkTypes header = .ok ())
  · obtain ⟨columns, named, typed⟩ := accepted
    have each : streams.mapM (fun s => c.run strict s.header s.scopes) =
        List.map (Stream.mk columns) <$> streams.mapM fun s => c.recordsOf s.scopes := by
      refine mapM_after fun s member => ?_
      rw [same s member, run_plain plain unordered named typed]
    rw [run_plain plain unordered named typed, each]
    simp only [map_eq_ok, (piecewise_recordsOf c).flatMap]
    constructor
    · rintro ⟨_, ⟨outs, made, rfl⟩, rfl⟩
      exact ⟨_, ⟨outs, made, rfl⟩, unionAll_of_records (ne_nil_of_mapM made nonempty)⟩
    · rintro ⟨_, ⟨outs, made, rfl⟩, joined⟩
      rw [unionAll_of_records (ne_nil_of_mapM made nonempty)] at joined
      exact ⟨_, ⟨outs, made, rfl⟩, Except.ok.inj joined⟩
  · -- No row is read on either side; on the right it is the first stream whose select is refused.
    have refused : ∀ scopes s, c.run strict header scopes ≠ .ok s := by
      intro scopes s run
      obtain ⟨named, typed, _⟩ := run_eq_ok.mp run
      exact accepted ⟨_, named, typed⟩
    constructor
    · intro run
      exact absurd run (refused _ _)
    · rintro ⟨results, made, _⟩
      obtain ⟨first, rest, rfl⟩ := List.exists_cons_of_ne_nil nonempty
      obtain ⟨s, _, run, _⟩ := mapM_cons_eq_ok.mp made
      rw [same first List.mem_cons_self] at run
      exact absurd run (refused _ _)

/-- A select without aggregate functions, GROUP BY and ORDER BY distributes over UNION ALL. Over
    queries with results under one header, the select over their union has a result if and only if
    the union of the selects over each has, and the results are the same. -/
theorem eval_select_union {checks : Checks} {tables : Tables} {c : Clauses} {queries : List Query}
    {header : List Column} (nonempty : queries ≠ [])
    (evaluated : ∀ q ∈ queries, ∃ s, q.eval checks tables = .ok s ∧ s.header = header)
    (noCalls : ∀ e ∈ c.projection, e.outerCalls = []) (ungrouped : c.groupBy = none) (unordered : c.orderBy = none)
    (result : Stream) :
    (Query.select c (some (.unionAll queries))).eval checks tables = .ok result ↔
      (Query.unionAll (queries.map fun q => .select c (some q))).eval checks tables = .ok result := by
  have plain : c.isGrouped = false := by
    rw [Clauses.isGrouped, ungrouped, Option.isSome_none, Bool.false_or, List.any_eq_false]
    intro e member calls
    exact (hasCall_iff e).mp calls (noCalls e member)
  obtain ⟨streams, members⟩ := mapM_ok_iff.mpr fun q member => (evaluated q member).imp fun _ found => found.1
  have same : ∀ s ∈ streams, s.header = header := by
    intro s member
    obtain ⟨q, inside, found⟩ := mem_of_mapM members s member
    obtain ⟨t, again, headed⟩ := evaluated q inside
    cases found.symm.trans again
    exact headed
  have present : streams ≠ [] := ne_nil_of_mapM members nonempty
  have joined : (Query.unionAll queries).eval checks tables = .ok ⟨header, streams.flatMap Stream.records⟩ := by
    rw [Query.eval, Query.evalAll_eq_mapM, members]
    exact unionAll_of_header present same
  have selects : (queries.map fun q => Query.select c (some q)).mapM (Query.eval checks tables) =
      streams.mapM fun s => c.run checks.types s.header s.scopes := by
    rw [List.mapM_map]
    refine mapM_of_steps (fun q s found => ?_) members
    show (Query.select c (some q)).eval checks tables = _
    rw [Query.eval, Query.evalSource, found]
    rfl
  have whole : (Query.select c (some (.unionAll queries))).eval checks tables =
      c.run checks.types header (streams.flatMap Stream.scopes) := by
    rw [Query.eval, Query.evalSource, joined, ← scopes_of_union same]
    rfl
  have parts : (Query.unionAll (queries.map fun q => .select c (some q))).eval checks tables =
      streams.mapM (fun s => c.run checks.types s.header s.scopes) >>= Stream.unionAll := by
    rw [Query.eval, Query.evalAll_eq_mapM, selects]
  rw [whole, parts]
  exact run_distributes plain unordered present same

/-- The theorem at a table and a select with the same header, under a condition that is NULL in one
    row and false in another. -/
theorem eval_select_union_filtered :
    let checks : Checks := ⟨true, true⟩
    let header : List Column := [⟨"k", .int⟩, ⟨"b", .bool⟩]
    let tables : Tables := fun _ => .ok ⟨header, [[.int 1, .bool true], [.int 2, .null], [.int 3, .bool false]]⟩
    let negated : Query :=
      .select ⟨[.var "k", .rename (.not (.var "b")) "b"], none, none, none⟩ (some (.table "t"))
    let queries : List Query := [.table "t", negated]
    let c : Clauses := ⟨[.binary (.arith .add) (.var "k") (.lit (.int 2)), .rename (.var "k") "n"], some (.var "b"),
      none, none⟩
    queries ≠ [] ∧ (∀ q ∈ queries, ∃ s, q.eval checks tables = .ok s ∧ s.header = header) ∧
      (∀ e ∈ c.projection, e.outerCalls = []) ∧ c.groupBy = none ∧ c.orderBy = none ∧
      (Query.unionAll (queries.map fun q => .select c (some q))).eval checks tables =
        .ok ⟨[⟨"expression", .int⟩, ⟨"n", .int⟩], [[.int 3, .int 1], [.int 5, .int 3]]⟩ := by
  intro checks header tables negated queries c
  have evaluated : ∀ q ∈ queries, ∃ s, q.eval checks tables = .ok s ∧ s.header = header := by
    intro q member
    rcases List.mem_pair.mp member with rfl | rfl
    · exact ⟨_, rfl, rfl⟩
    · exact ⟨_, rfl, rfl⟩
  have noCalls : ∀ e ∈ c.projection, e.outerCalls = [] := by decide
  have nonempty : queries ≠ [] := List.cons_ne_nil _ _
  refine ⟨nonempty, evaluated, noCalls, rfl, rfl, ?_⟩
  refine (eval_select_union nonempty evaluated noCalls rfl rfl _).mp ?_
  decide

end StreamQuery
