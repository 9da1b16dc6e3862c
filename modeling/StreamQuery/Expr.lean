import StreamQuery.Aggregate
import StreamQuery.Operator
import StreamQuery.Value

/-!
# Expressions

The expressions of a statement: literals, columns, operators, CASE, calls of aggregate
functions and, at the top of a projected item, a new name.
-/

namespace StreamQuery

mutual

/-- An expression over the columns of a row. -/
inductive Expr where
  | lit (value : Value)
  | rename (inner : Expr) (name : String)
  | var (name : String)
  | not (operand : Expr)
  | binary (op : BinaryOp) (left right : Expr)
  | case (arms : Arms)
  | call (kind : AggregateKind) (argument : Expr)

/-- The arms of a CASE, in order: conditions with their results, and then the result
    behind ELSE, if there is one. -/
inductive Arms where
  | done
  | otherwise (result : Expr)
  | when (condition result : Expr) (rest : Arms)

end

deriving instance DecidableEq for Expr, Arms

namespace Arms

/-- The arms with the given conditions and results, and the result behind ELSE. -/
def ofBranches : List (Expr × Expr) → Option Expr → Arms
  | [], none => done
  | [], some result => otherwise result
  | (condition, result) :: rest, final => when condition result (ofBranches rest final)

def branches : Arms → List (Expr × Expr)
  | done => []
  | otherwise _ => []
  | when condition result rest => (condition, result) :: rest.branches

def final? : Arms → Option Expr
  | done => none
  | otherwise result => some result
  | when _ _ rest => rest.final?

theorem branches_ofBranches (branches : List (Expr × Expr)) (final : Option Expr) :
    (ofBranches branches final).branches = branches := by
  induction branches with
  | nil => cases final <;> rfl
  | cons b rest ih => rw [ofBranches, Arms.branches, ih]

theorem final?_ofBranches (branches : List (Expr × Expr)) (final : Option Expr) :
    (ofBranches branches final).final? = final := by
  induction branches with
  | nil => cases final <;> rfl
  | cons b rest ih => rw [ofBranches, Arms.final?, ih]

theorem ofBranches_branches : ∀ arms : Arms, ofBranches arms.branches arms.final? = arms
  | done => rfl
  | otherwise _ => rfl
  | when condition result rest => by
    rw [branches, final?, ofBranches, ofBranches_branches rest]

end Arms

/-- A call of an aggregate function: its kind and its argument. -/
abbrev Call := AggregateKind × Expr

/-- A visit of some nodes: it is given a state and answers whether to go on, with the state
    that it hands on. -/
abbrev Visit (σ : Type) := σ → Bool × σ

/-- Makes the second visit where the first goes on, and stops where it stops. -/
def Visit.andThen {σ : Type} (first second : Visit σ) : Visit σ := fun s =>
  match first s with
  | (true, s) => second s
  | (false, s) => (false, s)

mutual

/-- Visits the nodes of an expression, each before its parts, until the visit of a node
    answers not to go on. -/
def Expr.walk {σ : Type} (visit : Expr → Visit σ) : Expr → Visit σ
  | .lit value => visit (.lit value)
  | .var name => visit (.var name)
  | .rename inner name => (visit (.rename inner name)).andThen (inner.walk visit)
  | .not operand => (visit (.not operand)).andThen (operand.walk visit)
  | .call kind argument => (visit (.call kind argument)).andThen (argument.walk visit)
  | .binary op left right =>
    (visit (.binary op left right)).andThen
      ((left.walk visit).andThen (right.walk visit))
  | .case arms => (visit (.case arms)).andThen (arms.walk visit)

/-- Visits the arms of a CASE in order, a condition before its result. -/
def Arms.walk {σ : Type} (visit : Expr → Visit σ) : Arms → Visit σ
  | .done => fun s => (true, s)
  | .otherwise result => result.walk visit
  | .when condition result rest =>
    (condition.walk visit).andThen ((result.walk visit).andThen (rest.walk visit))

end

namespace Expr

def isCall : Expr → Bool
  | call _ _ => true
  | _ => false

/-- Whether an expression calls an aggregate function anywhere. -/
def hasCall (e : Expr) : Bool :=
  !(e.walk (fun node (_ : Unit) => (!node.isCall, ())) ()).1

end Expr

/-- The calls with one more at the end, unless it is among them. -/
def addCall (calls : List Call) (call : Call) : List Call :=
  if call ∈ calls then calls else calls ++ [call]

mutual

/-- The calls with those of an expression that are new. Calls inside the argument of a
    call are not collected. -/
def Expr.addCalls (calls : List Call) : Expr → List Call
  | .lit _ => calls
  | .var _ => calls
  | .rename inner _ => inner.addCalls calls
  | .not operand => operand.addCalls calls
  | .call kind argument => addCall calls (kind, argument)
  | .binary _ left right => right.addCalls (left.addCalls calls)
  | .case arms => arms.addCalls calls

def Arms.addCalls (calls : List Call) : Arms → List Call
  | .done => calls
  | .otherwise result => result.addCalls calls
  | .when condition result rest =>
    rest.addCalls (result.addCalls (condition.addCalls calls))

end

/-- The calls of some expressions, each once, in order of appearance. -/
def callsOf (es : List Expr) : List Call := es.foldl Expr.addCalls []

end StreamQuery
