import StreamQuery.Environment
import StreamQuery.StatementCache

/-!
# Sessions

A session executes statements against one environment and keeps the statements that it
parsed.
-/

namespace StreamQuery

structure Settings where
  cacheCapacity : Nat
  checks : Checks
  deriving DecidableEq

namespace Settings

/-- The usual settings: tables are checked when they are read, types only in rows. -/
def default : Settings := ⟨StatementCache.defaultCapacity, ⟨false, true⟩⟩

/-- Settings for tests: a small cache and every check. -/
def testing : Settings := ⟨16, ⟨true, true⟩⟩

end Settings

/-- An environment, the settings of its use, and the statements parsed so far. -/
structure Session (ε : Type) (κ : Type := RecentStatements) where
  settings : Settings
  environment : ε
  cache : StatementCache κ

namespace Session

def start {ε : Type} (settings : Settings) (environment : ε) (κ : Type := RecentStatements)
    [StatementStore κ] : Session ε κ :=
  ⟨settings, environment, .ofCapacity settings.cacheCapacity κ⟩

variable {ε κ : Type}

def parse [StatementStore κ] (s : Session ε κ) (text : String) :
    Except Error Statement × Session ε κ :=
  let (answer, cache) := s.cache.parse text
  (answer.map SharedStatement.statement, { s with cache := cache })

def run [Environment ε] (s : Session ε κ) (statement : Statement) :
    Except Error Stream × Session ε κ :=
  let (answer, environment) := statement.execute s.settings.checks s.environment
  (answer, { s with environment := environment })

def execute [Environment ε] [StatementStore κ] (s : Session ε κ) (text : String) :
    Except Error Stream × Session ε κ :=
  match s.parse text with
  | (.ok statement, s) => s.run statement
  | (.error e, s) => (.error e, s)

end Session

end StreamQuery
