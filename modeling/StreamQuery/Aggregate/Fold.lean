import StreamQuery.Error

/-!
# Folding by an aggregate function

The function of a call is the one with the name of its kind. A function's state is a value. One step
folds one more value into it, and the state after the last step is the result. NULL leaves every state
as it is.
-/

namespace StreamQuery

/-- The function that computes the calls of a kind. -/
def AggregateKind.function (kind : AggregateKind) : Except Error Aggregate :=
  match Aggregate.named? kind.name with
  | some f => .ok f
  | none => .error (.invalidValue (.unknownAggregate kind))

/-- The function that every kind has. -/
def AggregateKind.builtin : AggregateKind → Aggregate
  | boolOr => .boolOr
  | sum => .sum

/-- No kind is without a function. -/
theorem AggregateKind.function_eq (kind : AggregateKind) : kind.function = .ok kind.builtin := by
  cases kind <;> rfl

theorem AggregateKind.name_builtin (kind : AggregateKind) : kind.builtin.name = kind.name := by
  cases kind <;> rfl

theorem Aggregate.builtin_kind (f : Aggregate) : f.kind.builtin = f := by
  cases f <;> rfl

/-- The state after one more value. A value of another kind than the function folds, or
    any value but NULL on a state of another kind, is an error; so is a sum outside
    64 bits. -/
def Aggregate.step (f : Aggregate) (v state : Value) : Except Error Value :=
  match f, v, state with
  | _, .null, state => .ok state
  | boolOr, .bool a, .bool b => .ok (.bool (b || a))
  | sum, .int a, .int b =>
    if inRange (b + a) then .ok (.int (b + a)) else .error (.invalidValue .sumOverflow)
  | f, v, _ => .error (.typeMismatch (.argument f) (.value v))

end StreamQuery
