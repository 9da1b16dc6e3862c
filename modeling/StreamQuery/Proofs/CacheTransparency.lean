import StreamQuery.Proofs.Lookup
import StreamQuery.Proofs.SurroundingBlanks
import StreamQuery.Session

/-!
# The cache is transparent

A cache answers every request as if there were none. Statements are kept by their trimmed texts, so
what is found under a key was parsed from another text, maybe; the invariant of a cache (`Faithful`)
is that it is the statement of every text with that key. Errors are never kept, and so their
positions are those of the text at hand. Nothing but the capacity of its cache tells two sessions
apart, and so they answer alike.
-/

namespace StreamQuery

/-! ## Stores -/

/-- What a cache relies on: a new or cleared store keeps nothing, looking up changes nothing that
    is kept, and a statement that is put is kept, while every other one is kept as it was or goes. -/
class LawfulStore (κ : Type) [StatementStore κ] : Prop where
  get_ofCapacity (capacity : Nat) (positive : 0 < capacity) (key : String) :
    (StatementStore.get (StatementStore.ofCapacity capacity positive : κ) key).1 = none
  get_clear (store : κ) (key : String) : (StatementStore.get (StatementStore.clear store) key).1 = none
  get_get (store : κ) (first key : String) :
    (StatementStore.get (StatementStore.get store first).2 key).1 = (StatementStore.get store key).1
  get_put_self (store : κ) (key : String) (s : SharedStatement) :
    (StatementStore.get (StatementStore.put store key s) key).1 = some s
  get_put_other (store : κ) {first key : String} (s : SharedStatement) (other : key ≠ first) :
    (StatementStore.get (StatementStore.put store first s) key).1 = (StatementStore.get store key).1 ∨
      (StatementStore.get (StatementStore.put store first s) key).1 = none

namespace RecentStatements

theorem get_eq_lookup (r : RecentStatements) (key : String) : (r.get key).1 = r.entries.lookup key := by
  unfold get
  cases r.entries.lookup key <;> rfl

theorem lookup_inFront_self (r : RecentStatements) (key : String) (s : SharedStatement) :
    (r.inFront key s).lookup key = some s := by
  simp [inFront]

theorem lookup_inFront_other (r : RecentStatements) {first key : String} (s : SharedStatement) (other : key ≠ first) :
    (r.inFront first s).lookup key = r.entries.lookup key := by
  rw [inFront, lookup_entry, if_neg other]
  induction r.entries with
  | nil => rfl
  | cons entry rest ih =>
    by_cases same : entry.1 = first
    · rw [List.filter_cons_of_neg (by simp [same]), ih, lookup_entry, same, if_neg other]
    · rw [List.filter_cons_of_pos (by simp [same]), lookup_entry, lookup_entry, ih]

/-- What is found in the front of a list is found in the list. -/
theorem lookup_take (entries : List (String × SharedStatement)) (n : Nat) (key : String) :
    (entries.take n).lookup key = entries.lookup key ∨ (entries.take n).lookup key = none := by
  have split : entries.lookup key = ((entries.take n).lookup key).or ((entries.drop n).lookup key) := by
    rw [← List.lookup_append, List.take_append_drop]
  cases front : (entries.take n).lookup key with
  | none => exact .inr rfl
  | some s =>
    rw [front] at split
    exact .inl split.symm

theorem lookup_get (r : RecentStatements) (first key : String) :
    (r.get first).2.entries.lookup key = r.entries.lookup key := by
  unfold get
  cases found : r.entries.lookup first with
  | none => rfl
  | some s =>
    by_cases same : key = first
    · rw [same, found]
      exact r.lookup_inFront_self first s
    · exact r.lookup_inFront_other s same

theorem lookup_put_self (r : RecentStatements) (key : String) (s : SharedStatement) :
    (r.put key s).entries.lookup key = some s := by
  obtain ⟨n, room⟩ := Nat.exists_eq_succ_of_ne_zero (Nat.ne_of_gt r.positive)
  show ((r.inFront key s).take r.capacity).lookup key = some s
  rw [room, inFront, List.take_succ_cons, List.lookup_cons_self]

instance : LawfulStore RecentStatements where
  get_ofCapacity _ _ _ := rfl
  get_clear _ _ := rfl
  get_get r first key := by
    show ((r.get first).2.get key).1 = (r.get key).1
    rw [get_eq_lookup, get_eq_lookup, lookup_get]
  get_put_self r key s := by
    show ((r.put key s).get key).1 = some s
    rw [get_eq_lookup, lookup_put_self]
  get_put_other r first key s other := by
    show ((r.put first s).get key).1 = (r.get key).1 ∨ ((r.put first s).get key).1 = none
    rw [get_eq_lookup, get_eq_lookup, ← r.lookup_inFront_other s other]
    exact lookup_take (r.inFront first s) r.capacity key

end RecentStatements

/-! ## Runs of requests -/

/-- The answers to requests that are made one after another, and the state behind them. -/
def serve {σ ρ α : Type} (step : σ → ρ → α × σ) : σ → List ρ → List α × σ
  | s, [] => ([], s)
  | s, request :: rest =>
    let (answer, t) := step s request
    let (others, last) := serve step t rest
    (answer :: others, last)

/-- Two systems that answer alike and stay related in each step do so over a whole run. -/
theorem serve_simulates {σ τ ρ α : Type} {one : σ → ρ → α × σ} {other : τ → ρ → α × τ} (related : σ → τ → Prop)
    (step : ∀ s t request, related s t →
      (one s request).1 = (other t request).1 ∧ related (one s request).2 (other t request).2)
    (requests : List ρ) {s : σ} {t : τ} (start : related s t) :
    (serve one s requests).1 = (serve other t requests).1 ∧
      related (serve one s requests).2 (serve other t requests).2 := by
  induction requests generalizing s t with
  | nil => exact ⟨rfl, start⟩
  | cons request rest ih =>
    obtain ⟨answer, next⟩ := step s t request start
    obtain ⟨answers, last⟩ := ih next
    exact ⟨congrArg₂ List.cons answer answers, last⟩

theorem serve_stateless {ρ α : Type} (answer : ρ → α) (requests : List ρ) :
    (serve (fun (_ : Unit) request => (answer request, ())) () requests).1 = requests.map answer := by
  induction requests with
  | nil => rfl
  | cons request rest ih => exact congrArg (answer request :: ·) ih

/-! ## Caches -/

inductive CacheRequest where
  | parse (text : String)
  | clear

/-- The answer where nothing is kept: the text is parsed. There is none to a clearing. -/
def CacheRequest.uncached : CacheRequest → Option (Except Error Statement)
  | parse text => some (Statement.parse text)
  | clear => none

namespace StatementCache

variable {κ : Type} [StatementStore κ]

/-- The answer of a cache, and the cache behind it. -/
def answer (c : StatementCache κ) : CacheRequest → Option (Except Error Statement) × StatementCache κ
  | .parse text =>
    let (outcome, changed) := c.parse text
    (some (outcome.map SharedStatement.statement), changed)
  | .clear => (none, c.clear)

/-- What is kept under a key is the statement of every text that is the key when it is trimmed. -/
def Faithful (c : StatementCache κ) : Prop :=
  ∀ key s, (StatementStore.get c.store key).1 = some s →
    ∀ text, Text.trim text = key → Statement.parse text = .ok s.statement

variable [LawfulStore κ]

theorem faithful_ofCapacity (capacity : Nat) : (ofCapacity capacity κ).Faithful := by
  intro key s kept
  have absent := LawfulStore.get_ofCapacity (κ := κ) (max 1 capacity) (Nat.le_max_left 1 capacity) key
  rw [show (StatementStore.get (ofCapacity capacity κ).store key).1 = none from absent] at kept
  cases kept

theorem Faithful.clear {c : StatementCache κ} : c.clear.Faithful := by
  intro key s kept
  rw [show (StatementStore.get c.clear.store key).1 = none from LawfulStore.get_clear c.store key] at kept
  cases kept

theorem Faithful.get {c : StatementCache κ} (faithful : c.Faithful) (first : String) (parsed : Nat) :
    Faithful ⟨(StatementStore.get c.store first).2, parsed⟩ := by
  intro key s kept
  rw [LawfulStore.get_get] at kept
  exact faithful key s kept

/-- A statement may be kept under the key of a text that it was parsed from: any other text with
    that key is the same statement. -/
theorem Faithful.put {c : StatementCache κ} (faithful : c.Faithful) {text : String} {s : SharedStatement}
    (parsed : Statement.parse text = .ok s.statement) (count : Nat) :
    Faithful ⟨StatementStore.put c.store (Text.trim text) s, count⟩ := by
  intro key t kept other trimmed
  by_cases same : key = Text.trim text
  · subst same
    rw [LawfulStore.get_put_self] at kept
    cases kept
    exact (parse_congr_trim trimmed s.statement).mpr parsed
  · rcases LawfulStore.get_put_other c.store s same with before | gone
    · exact faithful key t (before.symm.trans kept) other trimmed
    · rw [gone] at kept
      cases kept

/-- A faithful cache answers as parsing does, and is faithful behind it. -/
theorem Faithful.parse {c : StatementCache κ} (faithful : c.Faithful) (text : String) :
    (c.parse text).1.map SharedStatement.statement = Statement.parse text ∧ (c.parse text).2.Faithful := by
  have kept := faithful (Text.trim text)
  have behind := faithful.get (Text.trim text) c.parsed
  unfold StatementCache.parse
  dsimp only
  generalize StatementStore.get c.store (Text.trim text) = looked at kept behind ⊢
  obtain ⟨_ | s, store⟩ := looked
  · cases parsed : Statement.parse text with
    | error e => exact ⟨rfl, behind⟩
    | ok statement => exact ⟨rfl, Faithful.put behind parsed (c.parsed + 1)⟩
  · exact ⟨(kept s rfl text rfl).symm, behind⟩

theorem Faithful.answer {c : StatementCache κ} (faithful : c.Faithful) (request : CacheRequest) :
    (c.answer request).1 = request.uncached ∧ (c.answer request).2.Faithful := by
  cases request with
  | clear => exact ⟨rfl, .clear⟩
  | parse text =>
    obtain ⟨same, next⟩ := faithful.parse text
    exact ⟨congrArg some same, next⟩

end StatementCache

/-! ## Sessions -/

inductive Request where
  | execute (text : String)
  | parse (text : String)
  | run (statement : Statement)

inductive Answer where
  | stream (outcome : Except Error Stream)
  | statement (outcome : Except Error Statement)

section Sessions

variable {ε κ : Type}

/-- The answer of a session, and the session behind it. -/
def Session.answer [Environment ε] [StatementStore κ] (s : Session ε κ) : Request → Answer × Session ε κ
  | .execute text =>
    let (outcome, changed) := s.execute text
    (.stream outcome, changed)
  | .parse text =>
    let (outcome, changed) := s.parse text
    (.statement outcome, changed)
  | .run statement =>
    let (outcome, changed) := s.run statement
    (.stream outcome, changed)

/-- The result of the statement that a text is, and the environment behind it. -/
def executeText [Environment ε] (checks : Checks) (environment : ε) (text : String) : Except Error Stream × ε :=
  match Statement.parse text with
  | .ok statement => statement.execute checks environment
  | .error e => (.error e, environment)

/-- The answer over an environment where nothing is kept, and the environment behind it. -/
def Request.uncached [Environment ε] (checks : Checks) (environment : ε) : Request → Answer × ε
  | .execute text =>
    let (outcome, changed) := executeText checks environment text
    (.stream outcome, changed)
  | .parse text => (.statement (Statement.parse text), environment)
  | .run statement =>
    let (outcome, changed) := statement.execute checks environment
    (.stream outcome, changed)

/-- A session over an environment, with a faithful cache. -/
structure Session.Over [StatementStore κ] (checks : Checks) (s : Session ε κ) (environment : ε) : Prop where
  checks : s.settings.checks = checks
  environment : s.environment = environment
  cache : s.cache.Faithful

variable [StatementStore κ] {checks : Checks} {s : Session ε κ} {environment : ε}

theorem Session.Over.run [Environment ε] (serves : s.Over checks environment) (statement : Statement) :
    (s.run statement).1 = (statement.execute checks environment).1 ∧
      (s.run statement).2.Over checks (statement.execute checks environment).2 := by
  unfold Session.run
  rw [serves.checks, serves.environment]
  exact ⟨rfl, serves.checks, rfl, serves.cache⟩

variable [LawfulStore κ]

theorem over_start (settings : Settings) (environment : ε) :
    (Session.start settings environment κ).Over settings.checks environment :=
  ⟨rfl, rfl, StatementCache.faithful_ofCapacity settings.cacheCapacity⟩

theorem Session.Over.parse (serves : s.Over checks environment) (text : String) :
    (s.parse text).1 = Statement.parse text ∧ (s.parse text).2.Over checks environment := by
  obtain ⟨same, next⟩ := serves.cache.parse text
  exact ⟨same, serves.checks, serves.environment, next⟩

theorem Session.Over.execute [Environment ε] (serves : s.Over checks environment) (text : String) :
    (s.execute text).1 = (executeText checks environment text).1 ∧
      (s.execute text).2.Over checks (executeText checks environment text).2 := by
  obtain ⟨same, next⟩ := serves.parse text
  unfold Session.execute executeText
  rw [← same]
  generalize s.parse text = parsed at next ⊢
  obtain ⟨_ | statement, t⟩ := parsed
  · exact ⟨rfl, next⟩
  · exact next.run statement

/-- A session answers as if nothing were kept, and leaves the same environment. -/
theorem Session.Over.answer [Environment ε] (serves : s.Over checks environment) (request : Request) :
    (s.answer request).1 = (request.uncached checks environment).1 ∧
      (s.answer request).2.Over checks (request.uncached checks environment).2 := by
  cases request with
  | parse text =>
    obtain ⟨same, next⟩ := serves.parse text
    exact ⟨congrArg Answer.statement same, next⟩
  | run statement =>
    obtain ⟨same, next⟩ := serves.run statement
    exact ⟨congrArg Answer.stream same, next⟩
  | execute text =>
    obtain ⟨same, next⟩ := serves.execute text
    exact ⟨congrArg Answer.stream same, next⟩

end Sessions

/-- Over every store that keeps what it is given, or drops it, a cache answers all requests as if it
    kept nothing, whatever its capacity. And two sessions over one environment that differ in the
    capacity of their caches alone give the same answers and leave the same environment. -/
theorem cache_transparent (κ : Type) [StatementStore κ] [LawfulStore κ] :
    (∀ (capacity : Nat) (requests : List CacheRequest),
      (serve StatementCache.answer (StatementCache.ofCapacity capacity κ) requests).1 =
        requests.map CacheRequest.uncached) ∧
    ∀ (ε : Type) [Environment ε] (environment : ε) (checks : Checks) (one other : Nat) (requests : List Request),
      (serve Session.answer (Session.start ⟨one, checks⟩ environment κ) requests).1 =
          (serve Session.answer (Session.start ⟨other, checks⟩ environment κ) requests).1 ∧
        (serve Session.answer (Session.start ⟨one, checks⟩ environment κ) requests).2.environment =
          (serve Session.answer (Session.start ⟨other, checks⟩ environment κ) requests).2.environment := by
  refine ⟨fun capacity requests => ?_, fun ε _ environment checks one other requests => ?_⟩
  · rw [← serve_stateless]
    refine (serve_simulates (fun c _ => c.Faithful) (fun c _ request faithful => ?_) requests
      (StatementCache.faithful_ofCapacity capacity)).1
    exact faithful.answer request
  · have uncached : ∀ capacity,
        (serve Session.answer (Session.start ⟨capacity, checks⟩ environment κ) requests).1 =
            (serve (fun e request => request.uncached checks e) environment requests).1 ∧
          (serve Session.answer (Session.start ⟨capacity, checks⟩ environment κ) requests).2.Over checks
            (serve (fun e request => request.uncached checks e) environment requests).2 := fun capacity =>
      serve_simulates (Session.Over checks) (fun _ _ request serves => serves.answer request) requests
        (over_start ⟨capacity, checks⟩ environment)
    obtain ⟨answers, last⟩ := uncached one
    obtain ⟨answersOther, lastOther⟩ := uncached other
    exact ⟨answers.trans answersOther.symm, last.environment.trans lastOther.environment.symm⟩

/-- The theorem at a store of recent statements. The statement is found under a text with other
    blanks, has gone after the clearing, and the errors are those of the texts themselves. -/
theorem cache_transparent_recent :
    let requests : List CacheRequest :=
      [.parse "  select", .parse "select true;", .parse "\n\tselect true; ", .clear, .parse "select"]
    let texts : List Request :=
      [.execute "create table t (a int);", .execute " create table t (a int);", .parse "select a from t;",
        .run (.query (.table "t"))]
    (serve StatementCache.answer (StatementCache.ofCapacity 1) requests).1 = requests.map CacheRequest.uncached ∧
      ((serve StatementCache.answer (StatementCache.ofCapacity 1) (requests.take 3)).2.size,
        (serve StatementCache.answer (StatementCache.ofCapacity 1) (requests.take 3)).2.parsed) = (1, 1) ∧
      (serve Session.answer (Session.start ⟨1, ⟨true, true⟩⟩ Catalog.empty) texts).1 =
        (serve Session.answer (Session.start ⟨1000, ⟨true, true⟩⟩ Catalog.empty) texts).1 := by
  intro requests texts
  refine ⟨(cache_transparent RecentStatements).1 1 requests, ?_, ?_⟩
  · decide +kernel
  · exact ((cache_transparent RecentStatements).2 Catalog Catalog.empty ⟨true, true⟩ 1 1000 texts).1

end StreamQuery
