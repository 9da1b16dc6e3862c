import Mathlib.Data.List.Infix
import StreamQuery.Expr

/-!
# Visits in preorder

A visit that walks through an expression comes to its nodes in preorder: each before its parts, and
the parts from left to right. So a walk is a run along a list of nodes (`walk_eq_along`), where the
state of the visit goes from node to node, and the first answer not to go on ends it. Which nodes are
visited is told by a visit that keeps a record of them (`recorded`).
-/

namespace StreamQuery

/-! ## Preorder -/

mutual

/-- The nodes of an expression in preorder, once for each place where they stand. -/
def Expr.nodes : Expr → List Expr
  | .lit value => [.lit value]
  | .var name => [.var name]
  | .rename inner name => .rename inner name :: inner.nodes
  | .not operand => .not operand :: operand.nodes
  | .call function argument => .call function argument :: argument.nodes
  | .binary op left right => .binary op left right :: (left.nodes ++ right.nodes)
  | .case arms => .case arms :: arms.nodes

/-- The nodes in the arms of a CASE: those of each condition before those of its result, arm by arm,
    and those behind ELSE last. -/
def Arms.nodes : Arms → List Expr
  | .done => []
  | .otherwise result => result.nodes
  | .when condition result rest => condition.nodes ++ (result.nodes ++ rest.nodes)

end

/-- The nodes of arms by their conditions with results and the result behind ELSE. -/
theorem nodes_ofBranches (branches : List (Expr × Expr)) (final : Option Expr) :
    (Arms.ofBranches branches final).nodes =
      branches.flatMap (fun branch => branch.1.nodes ++ branch.2.nodes) ++ final.toList.flatMap Expr.nodes := by
  induction branches with
  | nil =>
    cases final with
    | none => rfl
    | some result => exact (List.append_nil _).symm
  | cons branch rest ih =>
    rw [Arms.ofBranches, Arms.nodes, ih, List.flatMap_cons]
    simp only [List.append_assoc]

/-! ## Walks -/

section Walks

variable {σ : Type} (visit : Expr → Visit σ)

/-- Visits some nodes in order, until the visit of one answers not to go on. -/
def visitAlong : List Expr → Visit σ
  | [] => fun s => (true, s)
  | node :: rest => (visit node).andThen (visitAlong rest)

theorem andThen_assoc (first second third : Visit σ) :
    (first.andThen second).andThen third = first.andThen (second.andThen third) := by
  funext s
  unfold Visit.andThen
  rcases first s with ⟨_ | _, t⟩ <;> rfl

theorem andThen_goOn (first : Visit σ) : first.andThen (fun s => (true, s)) = first := by
  funext s
  unfold Visit.andThen
  rcases first s with ⟨_ | _, t⟩ <;> rfl

theorem visitAlong_append (nodes others : List Expr) :
    visitAlong visit (nodes ++ others) = (visitAlong visit nodes).andThen (visitAlong visit others) := by
  induction nodes with
  | nil => rfl
  | cons node rest ih => rw [List.cons_append, visitAlong, visitAlong, ih, andThen_assoc]

mutual

/-- A walk through an expression is a run along its nodes. -/
theorem walk_eq_along : ∀ e : Expr, e.walk visit = visitAlong visit e.nodes
  | .lit _ => (andThen_goOn _).symm
  | .var _ => (andThen_goOn _).symm
  | .rename inner _ => by
    rw [Expr.walk, Expr.nodes, visitAlong, walk_eq_along inner]
  | .not operand => by
    rw [Expr.walk, Expr.nodes, visitAlong, walk_eq_along operand]
  | .call _ argument => by
    rw [Expr.walk, Expr.nodes, visitAlong, walk_eq_along argument]
  | .binary _ left right => by
    rw [Expr.walk, Expr.nodes, visitAlong, visitAlong_append, walk_eq_along left, walk_eq_along right]
  | .case arms => by
    rw [Expr.walk, Expr.nodes, visitAlong, walk_arms_eq_along arms]

theorem walk_arms_eq_along : ∀ arms : Arms, arms.walk visit = visitAlong visit arms.nodes
  | .done => rfl
  | .otherwise result => walk_eq_along result
  | .when condition result rest => by
    rw [Arms.walk, Arms.nodes, visitAlong_append, visitAlong_append, walk_eq_along condition,
      walk_eq_along result, walk_arms_eq_along rest]

end

/-! ## What is visited -/

/-- The visit that keeps a record of the nodes that it is given and of its answers. -/
def recorded (node : Expr) : Visit (σ × List (Expr × Bool)) := fun (s, calls) =>
  ((visit node s).1, (visit node s).2, calls ++ [(node, (visit node s).1)])

/-- A run of a visit along some nodes, with the calls that are made and the answers to them. Each
    call is given the state that the one before has left. After an answer not to go on there is no
    call; otherwise the calls go on to the last node. -/
inductive RunAlong : List Expr → σ → List (Expr × Bool) → Bool × σ → Prop where
  | finished {s : σ} : RunAlong [] s [] (true, s)
  | stopped {node : Expr} {rest : List Expr} {s t : σ} (answer : visit node s = (false, t)) :
      RunAlong (node :: rest) s [(node, false)] (false, t)
  | goesOn {node : Expr} {rest : List Expr} {s t : σ} {calls : List (Expr × Bool)} {result : Bool × σ}
      (answer : visit node s = (true, t)) (later : RunAlong rest t calls result) :
      RunAlong (node :: rest) s ((node, true) :: calls) result

variable {visit}

/-- Every visit along some nodes is a run, and it makes the calls that are recorded. -/
theorem run_along (nodes : List Expr) (s : σ) (earlier : List (Expr × Bool)) :
    ∃ calls, RunAlong visit nodes s calls (visitAlong visit nodes s) ∧
      visitAlong (recorded visit) nodes (s, earlier) =
        ((visitAlong visit nodes s).1, (visitAlong visit nodes s).2, earlier ++ calls) := by
  induction nodes generalizing s earlier with
  | nil => exact ⟨[], .finished, by rw [List.append_nil]; rfl⟩
  | cons node rest ih =>
    rcases answer : visit node s with ⟨_ | _, t⟩
    · have stops : visitAlong visit (node :: rest) s = (false, t) := by
        simp only [visitAlong, Visit.andThen, answer]
      refine ⟨[(node, false)], by rw [stops]; exact .stopped answer, ?_⟩
      simp only [visitAlong, Visit.andThen, recorded, answer]
    · have goes : visitAlong visit (node :: rest) s = visitAlong visit rest t := by
        simp only [visitAlong, Visit.andThen, answer]
      obtain ⟨calls, run, record⟩ := ih t (earlier ++ [(node, true)])
      refine ⟨(node, true) :: calls, by rw [goes]; exact .goesOn answer run, ?_⟩
      rw [goes, List.append_cons, ← record]
      simp only [visitAlong, Visit.andThen, recorded, answer]

variable {nodes : List Expr} {s : σ} {calls : List (Expr × Bool)} {result : Bool × σ}

/-- The nodes are visited from the first on, in order and each once. -/
theorem RunAlong.visited (run : RunAlong visit nodes s calls result) : calls.map Prod.fst <+: nodes := by
  induction run with
  | finished => exact List.prefix_rfl
  | stopped _ => exact List.cons_prefix_cons.mpr ⟨rfl, List.nil_prefix⟩
  | goesOn _ _ ih => exact List.cons_prefix_cons.mpr ⟨rfl, ih⟩

/-- A run answers to go on if every node has been visited and each visit has answered so. -/
theorem RunAlong.finishes (run : RunAlong visit nodes s calls result) (goes : result.1 = true) :
    calls = nodes.map fun node => (node, true) := by
  induction run with
  | finished => rfl
  | stopped _ => cases goes
  | goesOn _ _ ih => rw [ih goes, List.map_cons]

/-- A run that answers not to go on ends with the first visit that has answered so. -/
theorem RunAlong.stops (run : RunAlong visit nodes s calls result) (stops : result.1 = false) :
    ∃ before node, calls = before ++ [(node, false)] ∧ ∀ call ∈ before, call.2 = true := by
  induction run with
  | finished => cases stops
  | @stopped node => exact ⟨[], node, rfl, by simp⟩
  | @goesOn node _ _ _ calls _ _ _ ih =>
    obtain ⟨before, last, rfl, all⟩ := ih stops
    exact ⟨(node, true) :: before, last, rfl, List.forall_mem_cons.mpr ⟨rfl, all⟩⟩

/-- A run answers to go on exactly if no visit has answered otherwise. -/
theorem RunAlong.answers (run : RunAlong visit nodes s calls result) :
    result.1 = true ↔ ∀ call ∈ calls, call.2 = true := by
  induction run with
  | finished => simp
  | stopped _ => simp
  | goesOn _ _ ih => rw [ih, List.forall_mem_cons]; simp

end Walks

/-- A walk visits the nodes of an expression in preorder, each once, up to and including the first
    where the visit answers not to go on, and none behind it. It answers to go on if and only if no
    visit has answered otherwise. The visit may carry any state, which it hands on from node to node;
    the calls are those that a visit with a record has kept. -/
theorem walk_preorder {σ : Type} (visit : Expr → Visit σ) (e : Expr) (s : σ) :
    ∃ calls, e.walk (recorded visit) (s, []) = ((e.walk visit s).1, (e.walk visit s).2, calls) ∧
      RunAlong visit e.nodes s calls (e.walk visit s) ∧
      calls.map Prod.fst <+: e.nodes ∧
      ((e.walk visit s).1 = true ↔ ∀ call ∈ calls, call.2 = true) ∧
      ((e.walk visit s).1 = true → calls.map Prod.fst = e.nodes) ∧
      ((e.walk visit s).1 = false →
        ∃ before node, calls = before ++ [(node, false)] ∧ ∀ call ∈ before, call.2 = true) := by
  rw [walk_eq_along, walk_eq_along]
  obtain ⟨calls, run, record⟩ := run_along e.nodes s []
  refine ⟨calls, record, run, run.visited, run.answers, fun goes => ?_, run.stops⟩
  rw [run.finishes goes, List.map_map]
  exact List.map_id _

/-- The walk stops at the condition of a CASE, before its result and the result behind ELSE. -/
example :
    let stopAtColumn : Expr → Visit Nat := fun node n => (node != .var "x", n + 1)
    let e : Expr := .case (.when (.var "x") (.lit (.int 1)) (.otherwise (.var "y")))
    e.walk stopAtColumn 0 = (false, 2) ∧ e.nodes.length = 4 := by decide

end StreamQuery
