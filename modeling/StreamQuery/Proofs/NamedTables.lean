import StreamQuery.Proofs.CatalogLog
import StreamQuery.Proofs.ResultTypes

/-!
# The tables that a query names

A query reads the tables that it names and no others. So it has one result for any two ways of
finding tables that agree on those (`eval_congr`), errors and their order included. An operation on
a catalog changes one table at most, and the one that its change names (`Does.spares`); a run of
operations on other tables therefore stands between two equal results of a query.
-/

namespace StreamQuery

/-! ## Evaluation -/

section Evaluation

variable {checks : Checks} {one other : Tables}

theorem table_congr {name : String} (agree : one name = other name) :
    checks.table one name = checks.table other name := by
  unfold Checks.table
  rw [agree]

mutual

/-- A query depends on the tables alone that are named in it. -/
theorem eval_congr : ∀ q : Query, (∀ name, .table name ∈ q.parts → one name = other name) →
    q.eval checks one = q.eval checks other
  | .table name, agree => table_congr (agree name (mem_parts _))
  | .select clauses source, agree => by
    have inside := evalSource_congr source fun name named => agree name (List.mem_cons_of_mem _ named)
    rw [Query.eval, Query.eval, inside]
  | .unionAll queries, agree => by
    have inside := evalAll_congr queries fun name named => agree name (List.mem_cons_of_mem _ named)
    rw [Query.eval, Query.eval, inside]
  | .crossJoin queries, agree => by
    have inside := evalAll_congr queries fun name named => agree name (List.mem_cons_of_mem _ named)
    rw [Query.eval, Query.eval, inside]

theorem evalAll_congr : ∀ queries : List Query,
    (∀ name, .table name ∈ Query.allParts queries → one name = other name) →
    Query.evalAll checks one queries = Query.evalAll checks other queries
  | [], _ => rfl
  | q :: rest, agree => by
    have first := eval_congr q fun name named => agree name (List.mem_append_left _ named)
    have later := evalAll_congr rest fun name named => agree name (List.mem_append_right _ named)
    rw [Query.evalAll, Query.evalAll, first, later]

theorem evalSource_congr : ∀ source : Option Query,
    (∀ name, .table name ∈ Query.sourceParts source → one name = other name) →
    Query.evalSource checks one source = Query.evalSource checks other source
  | none, _ => rfl
  | some q, agree => by
    have inside := eval_congr q agree
    rw [Query.evalSource, Query.evalSource, inside]

end

end Evaluation

/-! ## Operations on other tables -/

def Change.table : Change → String
  | registered name _ => name
  | inserted name _ => name

/-- An operation that asks for no change of a table. -/
def Operation.Spares (operation : Operation) (name : String) : Prop :=
  ∀ change ∈ operation.change?, change.table ≠ name

/-- An operation leaves every table as it is but the one that its change is made to. -/
theorem Does.spares {c changed : Catalog} {change : Option Change} {answer : Except Error Unit}
    (does : Does c change answer changed) {name : String} (other : ∀ one ∈ change, one.table ≠ name) :
    changed.get? name = c.get? name := by
  cases does with
  | failed => rfl
  | read => rfl
  | @registered n columns changed accepted =>
    obtain ⟨free, _, rfl⟩ := register_eq_ok.mp accepted
    have elsewhere : name ≠ n := Ne.symm (other _ rfl)
    show (Catalog.place n _ c.tables).lookup name = c.tables.lookup name
    rw [lookup_place free, if_neg elsewhere]
  | @inserted n records changed accepted =>
    obtain ⟨_, _, _, rfl⟩ := insert_eq_ok.mp accepted
    have elsewhere : name ≠ n := Ne.symm (other _ rfl)
    show (c.tables.map (Catalog.extend n records)).lookup name = c.tables.lookup name
    simp [lookup_extend, elsewhere]

section Sessions

variable {κ : Type} [StatementStore κ] {checks : Checks} {s : Session Catalog κ} {c : Catalog}

theorem settings_perform (s : Session Catalog κ) (operation : Operation) :
    (s.perform operation).2.settings = s.settings := by
  cases operation with
  | register name columns => rfl
  | run statement => rfl
  | insert name records =>
    dsimp only [Session.perform]
    cases s.environment.insert name records <;> rfl
  | execute text =>
    dsimp only [Session.perform, Session.execute, Session.parse]
    cases (s.cache.parse text).1 <;> rfl

variable [LawfulStore κ]

theorem Session.Over.perform (serves : s.Over checks c) (operation : Operation) :
    ∃ d, (s.perform operation).2.Over checks d ∧ ∀ name, operation.Spares name → d.get? name = c.get? name := by
  obtain ⟨does, faithful⟩ := does_perform serves.cache operation
  have same : (s.perform operation).2.settings.checks = checks := by
    rw [settings_perform, serves.checks]
  refine ⟨(s.perform operation).2.environment, ⟨same, rfl, faithful⟩, fun name spares => ?_⟩
  rw [← serves.environment]
  exact does.spares spares

/-- A run of operations on a session leaves a session, and every table that none of them changes. -/
theorem Session.Over.run_perform (operations : List Operation) (serves : s.Over checks c) :
    ∃ d, (serve Session.perform s operations).2.Over checks d ∧
      ∀ name, (∀ operation ∈ operations, operation.Spares name) → d.get? name = c.get? name := by
  induction operations generalizing s c with
  | nil => exact ⟨c, serves, fun _ _ => rfl⟩
  | cons operation rest ih =>
    obtain ⟨d, next, step⟩ := serves.perform operation
    obtain ⟨e, last, run⟩ := ih next
    refine ⟨e, last, fun name spare => ?_⟩
    rw [List.forall_mem_cons] at spare
    exact (run name spare.2).trans (step name spare.1)

end Sessions

/-! ## Results of a query -/

/-- A request for the result of a query, as it is or by a text of it. -/
inductive Request.AsksFor (q : Query) : Request → Prop where
  | run : AsksFor q (.run (.query q))
  | execute {text : String} (parsed : Statement.parse text = .ok (.query q)) : AsksFor q (.execute text)

theorem Request.AsksFor.uncached {ε : Type} [Environment ε] {q : Query} {request : Request}
    (asks : request.AsksFor q) (checks : Checks) (environment : ε) :
    request.uncached checks environment =
      (.stream (q.eval checks (Environment.lookup environment)), environment) := by
  cases asks with
  | run => rfl
  | execute parsed =>
    dsimp only [Request.uncached, executeText]
    rw [parsed]
    rfl

/-- A query depends only on the tables that it names. Over two environments where the lookups of
    those tables agree, in their streams or their errors, it has the same result. And in a session
    over a catalog, whatever was done before, two requests for a query have the same answer if the
    operations between them change none of the tables that it names, by registrations, insertions or
    statements, and whether those succeed or not. -/
theorem eval_named_tables :
    (∀ (ε ζ : Type) [Environment ε] [Environment ζ] (checks : Checks) (one : ε) (other : ζ) (q : Query),
      (∀ name, .table name ∈ q.parts → Environment.lookup one name = Environment.lookup other name) →
      q.eval checks (Environment.lookup one) = q.eval checks (Environment.lookup other)) ∧
    ∀ (κ : Type) [StatementStore κ] [LawfulStore κ] (settings : Settings) (catalog : Catalog)
      (earlier between : List Operation) (q : Query) (first second : Request),
      (∀ operation ∈ between, ∀ name, .table name ∈ q.parts → operation.Spares name) →
      first.AsksFor q → second.AsksFor q →
      let s := (serve Session.perform (Session.start settings catalog κ) earlier).2
      let t := (serve Session.perform (s.answer first).2 between).2
      (t.answer second).1 = (s.answer first).1 := by
  refine ⟨fun ε ζ _ _ checks one other q agree => eval_congr q agree, ?_⟩
  intro κ _ _ settings catalog earlier between q first second spare asks again s t
  obtain ⟨c, serves, _⟩ := (over_start (κ := κ) settings catalog).run_perform earlier
  obtain ⟨answer, next⟩ := serves.answer first
  obtain ⟨d, later, kept⟩ := next.run_perform between
  obtain ⟨answerAgain, _⟩ := later.answer second
  rw [asks.uncached] at answer kept
  rw [again.uncached] at answerAgain
  rw [answerAgain, answer]
  refine congrArg Answer.stream (eval_congr q fun name named => ?_)
  show d.lookup name = c.lookup name
  unfold Catalog.lookup
  rw [kept name fun operation member => spare operation member name named]

/-- The theorem at a catalog and a host that have one table in common, and at a session where other
    tables are registered and filled between the two requests, and one of the operations fails. -/
theorem eval_named_tables_common :
    let q : Query := .select ⟨[.var "a"], none, none, none⟩ (some (.table "t"))
    let table : Stream := ⟨[⟨"a", .int⟩], [[.int 1]]⟩
    let catalog : Catalog := ⟨[("t", table), ("u", .ofHeader [⟨"b", .bool⟩])]⟩
    let host : HostTables := ⟨[("u", table), ("t", table)]⟩
    let between : List Operation :=
      [.insert "u" [[.bool true]], .register "u" [], .run (.createTable "v" [⟨"c", .int⟩]), .insert "v" [[.null]]]
    let s := Session.start ⟨1, ⟨true, true⟩⟩ catalog
    let t := (serve Session.perform (s.answer (.run (.query q))).2 between).2
    (∀ name, .table name ∈ q.parts → Environment.lookup catalog name = Environment.lookup host name) ∧
      (∀ operation ∈ between, ∀ name, .table name ∈ q.parts → operation.Spares name) ∧
      Statement.parse "select a from t;" = .ok (.query q) ∧
      t.environment.sizes = [("t", 1), ("u", 1), ("v", 1)] ∧
      q.eval ⟨true, true⟩ (Environment.lookup host) = .ok table ∧
      (t.answer (.execute "select a from t;")).1 = .stream (.ok table) := by
  intro q table catalog host between s t
  have named : ∀ name, .table name ∈ q.parts → name = "t" := by
    intro name member
    simpa [q, Query.parts, Query.sourceParts] using member
  have agree : ∀ name, .table name ∈ q.parts → Environment.lookup catalog name = Environment.lookup host name := by
    intro name member
    rw [named name member]
    rfl
  have spare : ∀ operation ∈ between, ∀ name, .table name ∈ q.parts → operation.Spares name := by
    intro operation inside name member
    rw [named name member]
    simp only [between, List.mem_cons, List.not_mem_nil, or_false] at inside
    rcases inside with rfl | rfl | rfl | rfl <;> simp [Operation.Spares, Operation.change?, Statement.change?, Change.table]
  have parsed : Statement.parse "select a from t;" = .ok (.query q) := by with_unfolding_all rfl
  have first : q.eval ⟨true, true⟩ (Environment.lookup catalog) = .ok table := by rfl
  refine ⟨agree, spare, parsed, by decide +kernel, ?_, ?_⟩
  · exact (eval_named_tables.1 Catalog HostTables ⟨true, true⟩ catalog host q agree).symm.trans first
  · have same := eval_named_tables.2 RecentStatements ⟨1, ⟨true, true⟩⟩ catalog [] between q _ _ spare .run
      (.execute parsed)
    exact same.trans (congrArg Answer.stream first)

end StreamQuery
