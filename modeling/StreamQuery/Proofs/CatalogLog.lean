import StreamQuery.Proofs.CacheTransparency
import StreamQuery.Proofs.Lookup
import StreamQuery.Proofs.Outcome

/-!
# The catalog is a log

A catalog in memory is the log of the operations on it that succeeded: a table is there if it was
registered, which happens once, and its rows are the batches that were inserted, in order.
Operations that fail leave no trace. `Does` says what one operation does to a catalog, `Follows`
that a catalog is that of a log; the first preserves the second, and runs follow by induction. The
columns of a table have different names, so binding by name is binding by place, and a select of all
columns reads the table back as it is.
-/

namespace StreamQuery

/-! ## Operations and their log -/

inductive Operation where
  | register (name : String) (columns : List Column)
  | insert (name : String) (records : List Record)
  | execute (text : String)
  | run (statement : Statement)

/-- What an operation changes in a catalog, as it is logged. -/
inductive Change where
  | registered (name : String) (columns : List Column)
  | inserted (name : String) (records : List Record)

/-- What a statement changes: queries change nothing. -/
def Statement.change? : Statement → Option Change
  | query _ => none
  | createTable name columns => some (.registered name columns)

def Operation.change? : Operation → Option Change
  | register name columns => some (.registered name columns)
  | insert name records => some (.inserted name records)
  | execute text =>
    match Statement.parse text with
    | .ok statement => statement.change?
    | .error _ => none
  | run statement => statement.change?

/-- What an answer adds to the log. -/
def logChange : Option Change → Except Error Unit → List Change
  | some change, .ok () => [change]
  | _, _ => []

/-- The log of some operations with their answers: the changes of those that succeeded. -/
def logged (operations : List Operation) (answers : List (Except Error Unit)) : List Change :=
  (List.zipWith (fun operation answer => logChange operation.change? answer) operations answers).flatten

/-- The columns of the registrations of a table, in order. -/
def registrations (name : String) : List Change → List (List Column)
  | [] => []
  | .registered n columns :: rest => if n = name then columns :: registrations name rest else registrations name rest
  | .inserted _ _ :: rest => registrations name rest

/-- The batches of rows that were inserted into a table, in order. -/
def batches (name : String) : List Change → List (List Record)
  | [] => []
  | .registered _ _ :: rest => batches name rest
  | .inserted n records :: rest => if n = name then records :: batches name rest else batches name rest

section Sessions

variable {κ : Type} [StatementStore κ]

/-- The answer to an operation, and the session behind it. -/
def Session.perform (s : Session Catalog κ) : Operation → Except Error Unit × Session Catalog κ
  | .register name columns =>
    let (answer, changed) := Environment.register s.environment name columns
    (answer, { s with environment := changed })
  | .insert name records =>
    match s.environment.insert name records with
    | .ok changed => (.ok (), { s with environment := changed })
    | .error e => (.error e, s)
  | .execute text =>
    let (answer, changed) := s.execute text
    (answer.map fun _ => (), changed)
  | .run statement =>
    let (answer, changed) := s.run statement
    (answer.map fun _ => (), changed)

/-! ## What an operation does -/

/-- What an operation does to a catalog that asks for a change or none, by its answer. -/
inductive Does (c : Catalog) : Option Change → Except Error Unit → Catalog → Prop where
  | failed (change : Option Change) (e : Error) : Does c change (.error e) c
  | read : Does c none (.ok ()) c
  | registered {name : String} {columns : List Column} {changed : Catalog}
      (accepted : c.register name columns = .ok changed) : Does c (some (.registered name columns)) (.ok ()) changed
  | inserted {name : String} {records : List Record} {changed : Catalog}
      (accepted : c.insert name records = .ok changed) : Does c (some (.inserted name records)) (.ok ()) changed

theorem does_register (c : Catalog) (name : String) (columns : List Column) :
    Does c (some (.registered name columns)) (c.tryRegister name columns).1 (c.tryRegister name columns).2 := by
  unfold Catalog.tryRegister
  cases accepted : c.register name columns with
  | ok changed => exact .registered accepted
  | error e => exact .failed _ e

theorem does_execute (checks : Checks) (c : Catalog) (statement : Statement) :
    Does c statement.change? ((statement.execute checks c).1.map fun _ => ()) (statement.execute checks c).2 := by
  cases statement with
  | query q =>
    show Does c none ((q.eval checks (Environment.lookup c)).map fun _ => ()) c
    cases q.eval checks (Environment.lookup c) with
    | ok s => exact .read
    | error e => exact .failed _ e
  | createTable name columns =>
    dsimp only [Statement.execute]
    cases checkColumns columns with
    | error e => exact .failed _ e
    | ok u =>
      have does := does_register c name columns
      show Does c _ (((c.tryRegister name columns).1.map fun _ => Stream.empty).map fun _ => ()) _
      cases answer : (c.tryRegister name columns).1 with
      | error e =>
        rw [answer] at does
        exact does
      | ok u =>
        rw [answer] at does
        exact does

variable [LawfulStore κ]

/-- An operation makes its change or none, and keeps the cache faithful. -/
theorem does_perform {s : Session Catalog κ} (faithful : s.cache.Faithful) (operation : Operation) :
    Does s.environment operation.change? (s.perform operation).1 (s.perform operation).2.environment ∧
      (s.perform operation).2.cache.Faithful := by
  have serves : s.Over s.settings.checks s.environment := ⟨rfl, rfl, faithful⟩
  cases operation with
  | register name columns => exact ⟨does_register s.environment name columns, faithful⟩
  | insert name records =>
    dsimp only [Session.perform]
    cases accepted : s.environment.insert name records with
    | ok changed => exact ⟨.inserted accepted, faithful⟩
    | error e => exact ⟨.failed _ e, faithful⟩
  | run statement =>
    obtain ⟨answer, next⟩ := serves.run statement
    refine ⟨?_, next.cache⟩
    show Does s.environment statement.change? ((s.run statement).1.map fun _ => ()) (s.run statement).2.environment
    rw [answer, next.environment]
    exact does_execute _ _ statement
  | execute text =>
    obtain ⟨answer, next⟩ := serves.execute text
    refine ⟨?_, next.cache⟩
    show Does s.environment (Operation.execute text).change? ((s.execute text).1.map fun _ => ())
      (s.execute text).2.environment
    rw [answer, next.environment]
    dsimp only [executeText, Operation.change?]
    cases Statement.parse text with
    | ok statement => exact does_execute _ _ statement
    | error e => exact .failed _ e

end Sessions

/-! ## Tables of a catalog -/

theorem lookup_place {name : String} {tables : List (String × Stream)} (free : tables.lookup name = none)
    (table : Stream) (other : String) :
    (Catalog.place name table tables).lookup other = if other = name then some table else tables.lookup other := by
  induction tables with
  | nil => exact lookup_entry (name, table) [] other
  | cons entry rest ih =>
    rw [lookup_entry] at free
    split_ifs at free with here
    by_cases before : (compare name entry.1).isLT
    · rw [Catalog.place, if_pos before]
      exact lookup_entry (name, table) (entry :: rest) other
    · rw [Catalog.place, if_neg before, lookup_entry, ih free, lookup_entry]
      by_cases same : other = name
      · rw [if_pos same, if_pos same, same, if_neg here]
      · rw [if_neg same, if_neg same]

theorem lookup_extend (name : String) (records : List Record) (tables : List (String × Stream)) (other : String) :
    (tables.map (Catalog.extend name records)).lookup other = (tables.lookup other).map fun table =>
      if other = name then ⟨table.header, table.records ++ records⟩ else table := by
  induction tables with
  | nil => rfl
  | cons entry rest ih =>
    have key : (Catalog.extend name records entry).1 = entry.1 := by
      unfold Catalog.extend
      split_ifs with same
      · exact same.symm
      · rfl
    rw [List.map_cons, lookup_entry, lookup_entry, key, ih]
    by_cases here : other = entry.1
    · rw [if_pos here, if_pos here, Option.map_some, here]
      unfold Catalog.extend
      split_ifs <;> rfl
    · rw [if_neg here, if_neg here]

/-- The columns of a table have names, all of them different. -/
theorem checkColumns_iff {columns : List Column} : checkColumns columns = .ok () ↔
    (columns.map Column.name).Nodup ∧ ∀ c ∈ columns, c.name ≠ "" := by
  suffices general : ∀ seen : List String, checkColumns.go seen columns = .ok () ↔
      (columns.map Column.name).Nodup ∧ (∀ c ∈ columns, c.name ≠ "") ∧ ∀ c ∈ columns, c.name ∉ seen by
    show checkColumns.go [] columns = .ok () ↔ _
    rw [general]
    simp
  induction columns with
  | nil => exact fun _ => ⟨fun _ => by simp, fun _ => rfl⟩
  | cons c rest ih =>
    intro seen
    unfold checkColumns.go
    simp only [List.map_cons, List.nodup_cons, List.forall_mem_cons]
    split_ifs with empty known
    · simp [empty]
    · simp [known]
    · rw [ih]
      simp only [known, List.mem_append, List.mem_singleton, List.mem_map, not_or, not_exists, not_and]
      constructor
      · rintro ⟨distinct, named, fresh⟩
        exact ⟨⟨fun d member => (fresh d member).2, distinct⟩, ⟨empty, named⟩, not_false,
          fun d member => (fresh d member).1⟩
      · rintro ⟨⟨absent, distinct⟩, ⟨_, named⟩, _, fresh⟩
        exact ⟨distinct, named, fun d member => ⟨fresh d member, absent d member⟩⟩

/-! ## A catalog and its log -/

theorem registrations_append (name : String) (earlier later : List Change) :
    registrations name (earlier ++ later) = registrations name earlier ++ registrations name later := by
  induction earlier with
  | nil => rfl
  | cons change rest ih =>
    cases change with
    | inserted n records => exact ih
    | registered n columns =>
      rw [List.cons_append, registrations, registrations, ih]
      split_ifs <;> rfl

theorem batches_append (name : String) (earlier later : List Change) :
    batches name (earlier ++ later) = batches name earlier ++ batches name later := by
  induction earlier with
  | nil => rfl
  | cons change rest ih =>
    cases change with
    | registered n columns => exact ih
    | inserted n records =>
      rw [List.cons_append, batches, batches, ih]
      split_ifs <;> rfl

/-- A catalog whose tables are those of a log. -/
structure Follows (c : Catalog) (log : List Change) : Prop where
  once : ∀ name, (registrations name log).length ≤ 1
  early : ∀ name, registrations name log = [] → batches name log = []
  tables : ∀ name, c.get? name = (registrations name log).head?.map fun columns =>
    ⟨columns, (batches name log).flatten⟩
  declared : ∀ name columns, columns ∈ registrations name log → checkColumns columns = .ok ()
  rows : ∀ name columns, columns ∈ registrations name log → ∀ record ∈ (batches name log).flatten,
    checkRecord columns record = .ok ()

theorem follows_empty : Follows Catalog.empty [] where
  once _ := Nat.zero_le 1
  early _ _ := rfl
  tables _ := rfl
  declared _ _ member := nomatch member
  rows _ _ member := nomatch member

theorem register_eq_ok {c changed : Catalog} {name : String} {columns : List Column} :
    c.register name columns = .ok changed ↔ c.get? name = none ∧ checkColumns columns = .ok () ∧
      changed = ⟨Catalog.place name (.ofHeader columns) c.tables⟩ := by
  unfold Catalog.register
  cases c.get? name with
  | some table => simp
  | none =>
    rw [bind_eq_ok]
    constructor
    · rintro ⟨_, checked, same⟩
      cases same
      exact ⟨rfl, checked, rfl⟩
    · rintro ⟨_, checked, rfl⟩
      exact ⟨(), checked, rfl⟩

theorem insert_eq_ok {c changed : Catalog} {name : String} {records : List Record} :
    c.insert name records = .ok changed ↔ ∃ table, c.get? name = some table ∧
      (∀ record ∈ records, checkRecord table.header record = .ok ()) ∧
      changed = ⟨c.tables.map (Catalog.extend name records)⟩ := by
  unfold Catalog.insert Catalog.lookup Stream.ofRecords Stream.check
  cases c.get? name with
  | none =>
    constructor
    · intro accepted
      cases accepted
    · rintro ⟨_, absurd, _⟩
      cases absurd
  | some table =>
    rw [bind_eq_ok]
    constructor
    · rintro ⟨_, same, accepted⟩
      cases same
      obtain ⟨_, checked, same⟩ := bind_eq_ok.mp accepted
      obtain ⟨_, fits, stream⟩ := bind_eq_ok.mp checked
      cases stream
      cases same
      exact ⟨table, rfl, forM_eq_ok.mp fits, rfl⟩
    · rintro ⟨_, same, fits, rfl⟩
      cases same
      refine ⟨table, rfl, bind_eq_ok.mpr ⟨⟨table.header, records⟩, ?_, rfl⟩⟩
      exact bind_eq_ok.mpr ⟨(), forM_eq_ok.mpr fits, rfl⟩

section Follows

variable {c changed : Catalog} {log : List Change} (follows : Follows c log)

include follows

/-- A table was registered once, with its columns, and its rows are those that were inserted. -/
theorem Follows.table {name : String} {table : Stream} (found : c.get? name = some table) :
    registrations name log = [table.header] ∧ table.records = (batches name log).flatten := by
  have once := follows.once name
  rw [follows.tables name] at found
  cases registered : registrations name log with
  | nil =>
    rw [registered] at found
    cases found
  | cons columns rest =>
    rw [registered] at found once
    obtain rfl : rest = [] := List.length_eq_zero_iff.mp (by simpa using once)
    cases found
    exact ⟨rfl, rfl⟩

theorem Follows.register {name : String} {columns : List Column} (accepted : c.register name columns = .ok changed) :
    Follows changed (log ++ [.registered name columns]) := by
  obtain ⟨free, checked, rfl⟩ := register_eq_ok.mp accepted
  have none : registrations name log = [] := by
    have absent := follows.tables name
    rw [free] at absent
    simpa using absent.symm
  have registered : ∀ n, registrations n (log ++ [.registered name columns]) =
      if name = n then [columns] else registrations n log := by
    intro n
    rw [registrations_append]
    by_cases same : name = n
    · subst same
      rw [none, if_pos rfl, registrations, if_pos rfl]
      rfl
    · rw [if_neg same, registrations, if_neg same]
      exact List.append_nil _
  have inserted : ∀ n, batches n (log ++ [.registered name columns]) = batches n log := by
    intro n
    rw [batches_append]
    exact List.append_nil _
  refine ⟨fun n => ?once, fun n => ?early, fun n => ?tables, fun n => ?declared, fun n => ?rows⟩
  all_goals simp only [registered, inserted]
  case once =>
    split_ifs
    · exact Nat.le_refl 1
    · exact follows.once n
  case early =>
    split_ifs
    · intro absurd
      cases absurd
    · exact follows.early n
  case tables =>
    -- Nothing was inserted under a free name, so the log has a table without rows as well.
    show (Catalog.place name (.ofHeader columns) c.tables).lookup n = _
    rw [lookup_place free]
    by_cases same : name = n
    · subst same
      rw [if_pos rfl, if_pos rfl, follows.early name none]
      rfl
    · rw [if_neg (Ne.symm same), if_neg same]
      exact follows.tables n
  case declared =>
    intro other member
    split_ifs at member
    · rw [List.mem_singleton.mp member]
      exact checked
    · exact follows.declared n other member
  case rows =>
    intro other member
    split_ifs at member with same
    · subst same
      rw [follows.early name none]
      simp
    · exact follows.rows n other member

theorem Follows.insert {name : String} {records : List Record} (accepted : c.insert name records = .ok changed) :
    Follows changed (log ++ [.inserted name records]) := by
  obtain ⟨table, found, fits, rfl⟩ := insert_eq_ok.mp accepted
  obtain ⟨once, _⟩ := follows.table found
  have registered : ∀ n, registrations n (log ++ [.inserted name records]) = registrations n log := by
    intro n
    rw [registrations_append]
    exact List.append_nil _
  have inserted : ∀ n, batches n (log ++ [.inserted name records]) =
      if name = n then batches name log ++ [records] else batches n log := by
    intro n
    rw [batches_append]
    by_cases same : name = n
    · subst same
      rw [if_pos rfl, batches, if_pos rfl]
      rfl
    · rw [if_neg same, batches, if_neg same]
      exact List.append_nil _
  refine ⟨fun n => ?once, fun n => ?early, fun n => ?tables, fun n => ?declared, fun n => ?rows⟩
  all_goals simp only [registered, inserted]
  case once => exact follows.once n
  case early =>
    split_ifs with same
    · subst same
      rw [once]
      intro absurd
      cases absurd
    · exact follows.early n
  case tables =>
    show (c.tables.map (Catalog.extend name records)).lookup n = _
    rw [lookup_extend]
    show (c.get? n).map _ = _
    rw [follows.tables n]
    by_cases same : name = n
    · subst same
      simp [once]
    · cases (registrations n log).head? <;> simp [same, Ne.symm same]
  case declared => exact follows.declared n
  case rows =>
    intro columns member record inside
    split_ifs at inside with same
    · subst same
      rw [List.flatten_append, List.flatten_singleton, List.mem_append] at inside
      rcases inside with earlier | new
      · exact follows.rows name columns member record earlier
      · rw [once, List.mem_singleton] at member
        rw [member]
        exact fits record new
    · exact follows.rows n columns member record inside

theorem Follows.does {change : Option Change} {answer : Except Error Unit} (does : Does c change answer changed) :
    Follows changed (log ++ logChange change answer) := by
  cases does with
  | failed change e =>
    have none : logChange change (.error e) = [] := by cases change <;> rfl
    rw [none, List.append_nil]
    exact follows
  | read =>
    rw [logChange, List.append_nil]
    · exact follows
    · simp
  | registered accepted => exact follows.register accepted
  | inserted accepted => exact follows.insert accepted

end Follows

/-! ## Runs of operations -/

section Runs

variable {κ : Type} [StatementStore κ] [LawfulStore κ]

/-- After a run the catalog is that of the log before it and of what the run has logged. -/
theorem follows_run (operations : List Operation) {s : Session Catalog κ} {log : List Change}
    (faithful : s.cache.Faithful) (follows : Follows s.environment log) :
    Follows (serve Session.perform s operations).2.environment
        (log ++ logged operations (serve Session.perform s operations).1) ∧
      (serve Session.perform s operations).2.cache.Faithful := by
  induction operations generalizing s log with
  | nil =>
    rw [show logged [] (serve Session.perform s []).1 = [] from rfl, List.append_nil]
    exact ⟨follows, faithful⟩
  | cons operation rest ih =>
    obtain ⟨does, next⟩ := does_perform faithful operation
    obtain ⟨last, cache⟩ := ih next (follows.does does)
    rw [List.append_assoc] at last
    exact ⟨last, cache⟩

/-- A run keeps the header of every table and only adds rows to it. -/
theorem table_after_run (operations : List Operation) {s : Session Catalog κ} {log : List Change}
    (faithful : s.cache.Faithful) (follows : Follows s.environment log) {name : String} {table : Stream}
    (found : s.environment.get? name = some table) :
    ∃ added, (serve Session.perform s operations).2.environment.get? name =
      some ⟨table.header, table.records ++ added⟩ := by
  obtain ⟨registered, inserted⟩ := follows.table found
  obtain ⟨last, _⟩ := follows_run operations faithful follows
  rw [last.tables name, registrations_append, batches_append, registered, List.flatten_append, ← inserted]
  exact ⟨_, rfl⟩

end Runs

/-! ## Reading a table back -/

theorem Follows.valid {c : Catalog} {log : List Change} (follows : Follows c log) {name : String}
    {table : Stream} (found : c.get? name = some table) :
    (table.header.map Column.name).Nodup ∧ (∀ column ∈ table.header, column.name ≠ "") ∧ table.check = .ok () := by
  obtain ⟨registered, inserted⟩ := follows.table found
  have member : table.header ∈ registrations name log := by simp [registered]
  obtain ⟨distinct, named⟩ := checkColumns_iff.mp (follows.declared name _ member)
  refine ⟨distinct, named, forM_eq_ok.mpr fun record inside => ?_⟩
  rw [inserted] at inside
  exact follows.rows name _ member record inside

def allColumns (header : List Column) : Clauses := ⟨header.map fun c => .var c.name, none, none, none⟩

def selectAll (name : String) (header : List Column) : Query :=
  .select (allColumns header) (some (.table name))

theorem header_allColumns (strict : Bool) {header : List Column} (distinct : (header.map Column.name).Nodup) :
    (allColumns header).header strict header = .ok header := by
  refine mapM_eq_ok.mpr (List.forall₂_map_left_iff.mpr (List.forall₂_same.mpr fun c member => ?_))
  show Except.ok (Column.mk c.name (columnType header c.name)) = .ok c
  rw [columnType_of_mem distinct member]

theorem project_allColumns {header : List Column} (distinct : (header.map Column.name).Nodup) {record : Record}
    (fits : checkRecord header record = .ok ()) :
    (allColumns header).project [] (Scope.ofRecord header record) = .ok ⟨record, []⟩ := by
  unfold checkRecord at fits
  split_ifs at fits with width
  refine bind_eq_ok.mpr ⟨record, ?_, rfl⟩
  exact mapM_eq_ok.mpr (List.forall₂_map_left_iff.mpr
    (List.forall₂_iff_zip.mpr ⟨width.symm, fun place => lookup_ofRecord distinct place⟩))

theorem rows_allColumns {table : Stream} (distinct : (table.header.map Column.name).Nodup)
    (valid : table.check = .ok ()) :
    (allColumns table.header).rows table.header table.scopes = .ok (table.records.map fun record => ⟨record, []⟩) := by
  have plain : (allColumns table.header).isGrouped = false := by
    simp [allColumns, Clauses.isGrouped, Expr.hasCall, Expr.walk, Expr.isCall]
  unfold Clauses.rows
  rw [if_neg (by rw [plain]; decide)]
  refine mapM_eq_ok.mpr (List.forall₂_map_left_iff.mpr (List.forall₂_map_right_iff.mpr ?_))
  exact List.forall₂_same.mpr fun record member => project_allColumns distinct (forM_eq_ok.mp valid record member)

/-- A select of all columns makes every record of a table with different names into itself. -/
theorem run_allColumns (strict : Bool) {table : Stream} (distinct : (table.header.map Column.name).Nodup)
    (valid : table.check = .ok ()) :
    (allColumns table.header).run strict table.header table.scopes = .ok table := by
  have records : (table.records.map fun record => (⟨record, []⟩ : Row)).map Row.record = table.records := by
    rw [List.map_map]
    exact List.map_id _
  have last : (do
      let rows ← (allColumns table.header).rows table.header table.scopes
      .ok ⟨table.header, rows.map Row.record⟩) = (.ok table : Except Error Stream) := by
    rw [rows_allColumns distinct valid]
    exact congrArg (fun records => Except.ok (Stream.mk table.header records)) records
  refine bind_eq_ok.mpr ⟨table.header, header_allColumns strict distinct, ?_⟩
  cases strict with
  | true => exact bind_eq_ok.mpr ⟨(), rfl, last⟩
  | false => exact last

/-- A select of all columns of a table reads the table, whatever is checked. -/
theorem eval_selectAll (checks : Checks) {tables : Tables} {name : String} {table : Stream}
    (found : tables name = .ok table) (distinct : (table.header.map Column.name).Nodup)
    (valid : table.check = .ok ()) : (selectAll name table.header).eval checks tables = .ok table := by
  have checked : checks.table tables name = .ok table := by
    refine bind_eq_ok.mpr ⟨table, found, ?_⟩
    cases checks.sources with
    | true => exact bind_eq_ok.mpr ⟨(), valid, rfl⟩
    | false => rfl
  have source : Query.evalSource checks tables (some (.table name)) = .ok (table.header, table.scopes) :=
    bind_eq_ok.mpr ⟨table, checked, rfl⟩
  exact bind_eq_ok.mpr ⟨_, source, run_allColumns checks.types distinct valid⟩

theorem Does.unchanged {c changed : Catalog} {change : Option Change} {e : Error}
    (does : Does c change (.error e) changed) : changed = c := by
  cases does
  rfl

/-- A catalog is the append-only log of the operations on it that succeeded. After every run over an
    empty catalog: an operation that fails changes no table; a name has a table if and only if it was
    registered, which happens once at most, and the table has the columns of that registration and
    the rows of the batches that were inserted, in order. The names of its columns are there and
    different, its rows fit them, later operations keep its header and only add rows, and a select of
    all its columns reads it as it is, whatever is checked. -/
theorem catalog_log (κ : Type) [StatementStore κ] [LawfulStore κ] (settings : Settings)
    (operations : List Operation) :
    let run := serve Session.perform (Session.start settings Catalog.empty κ) operations
    let log := logged operations run.1
    let catalog := run.2.environment
    (∀ operation e, (run.2.perform operation).1 = .error e → (run.2.perform operation).2.environment = catalog) ∧
    (∀ name, (registrations name log).length ≤ 1 ∧
      catalog.get? name = (registrations name log).head?.map fun columns =>
        ⟨columns, (batches name log).flatten⟩) ∧
    ∀ name table, catalog.get? name = some table →
      (table.header.map Column.name).Nodup ∧ (∀ column ∈ table.header, column.name ≠ "") ∧ table.check = .ok () ∧
      (∀ later, ∃ added, (serve Session.perform run.2 later).2.environment.get? name =
        some ⟨table.header, table.records ++ added⟩) ∧
      ∀ checks, (Statement.execute checks catalog (.query (selectAll name table.header))).1 = .ok table := by
  intro run log catalog
  have start : Follows (Session.start settings Catalog.empty κ).environment [] := follows_empty
  obtain ⟨follows, faithful⟩ :=
    follows_run operations (StatementCache.faithful_ofCapacity settings.cacheCapacity) start
  refine ⟨fun operation e failed => ?_, fun name => ⟨follows.once name, follows.tables name⟩, fun name table found => ?_⟩
  · have does := (does_perform faithful operation).1
    rw [failed] at does
    exact does.unchanged
  · obtain ⟨distinct, named, valid⟩ := follows.valid found
    have looked : Environment.lookup catalog name = .ok table := by
      show catalog.lookup name = .ok table
      unfold Catalog.lookup
      rw [found]
    exact ⟨distinct, named, valid, fun later => table_after_run later faithful follows found,
      fun checks => eval_selectAll checks looked distinct valid⟩

/-- The theorem at a run with a second registration and a batch that is refused in the middle. -/
theorem catalog_log_refused :
    let operations : List Operation :=
      [.execute "create table t (a int, b bool);", .insert "t" [[.int 1, .null], [.null, .bool true]],
        .register "t" [⟨"c", .int⟩], .insert "t" [[.int 2, .null], [.bool true, .null]], .insert "u" [],
        .execute " create table t (a int, b bool);", .insert "t" [[.int 3, .bool false]]]
    let run := serve Session.perform (Session.start ⟨1, ⟨true, true⟩⟩ Catalog.empty) operations
    let table : Stream := ⟨[⟨"a", .int⟩, ⟨"b", .bool⟩],
      [[.int 1, .null], [.null, .bool true], [.int 3, .bool false]]⟩
    run.2.environment.get? "t" = some table ∧ table.check = .ok () ∧
      ∀ checks, (Statement.execute checks run.2.environment (.query (selectAll "t" table.header))).1 = .ok table := by
  intro operations run table
  have found : run.2.environment.get? "t" = some table := by decide +kernel
  obtain ⟨_, _, valid, _, readBack⟩ :=
    (catalog_log RecentStatements ⟨1, ⟨true, true⟩⟩ operations).2.2 "t" table found
  exact ⟨found, valid, readBack⟩

end StreamQuery
