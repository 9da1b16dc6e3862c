import Mathlib.Data.List.Basic
import Mathlib.Data.List.Induction
import StreamQuery.Proofs.ReadExpression

/-!
# The tree of a chain of operators

A chain of operands with operators between them has one tree in which every operator binds at most
as tightly as the root on its left and less tightly than the root on its right
(`existsUnique_arranges`). Such a tree is a derivation of the chain, whose right operands take a
level each, so it is what the chain is read as.
-/

namespace StreamQuery

open Grammar

/-! ## Derivations within more levels -/

namespace Grammar

theorem ArmsOver.imp {one other : Derivation Expr} (wider : ∀ {ts : List Token} {e : Expr}, one ts e → other ts e)
    {ts : List Token} {arms : Arms} (derived : ArmsOver one ts arms) : ArmsOver other ts arms := by
  induction derived with
  | done => exact .done
  | otherwise derived => exact .otherwise (wider derived)
  | when test value _ ih => exact .when (wider test) (wider value) ih

theorem AtomOver.imp {one other : Derivation Expr} (wider : ∀ {ts : List Token} {e : Expr}, one ts e → other ts e)
    {ts : List Token} {e : Expr} (derived : AtomOver one ts e) : AtomOver other ts e := by
  cases derived with
  | number fits => exact .number fits
  | true => exact .true
  | false => exact .false
  | null => exact .null
  | column name => exact .column name
  | call named derived => exact .call named (wider derived)
  | case derived => exact .case (derived.imp wider)
  | parens derived => exact .parens (wider derived)

theorem Layer.imp {one other : Nat → Derivation Expr}
    (wider : ∀ {p : Nat} {ts : List Token} {e : Expr}, one p ts e → other p ts e)
    {p : Nat} {ts : List Token} {e : Expr} (derived : Layer one p ts e) : Layer other p ts e := by
  induction derived with
  | binary binds _ second ih => exact .binary binds ih (wider second)
  | not derived => exact .not (wider derived)
  | atom derived => exact .atom (derived.imp wider)
  | tighter _ ih => exact .tighter ih

theorem expression_mono {n m : Nat} (less : n ≤ m) {p : Nat} {ts : List Token} {e : Expr}
    (derived : Expression n p ts e) : Expression m p ts e := by
  induction n generalizing m p ts e with
  | zero => exact derived.elim
  | succ n ih =>
    obtain ⟨k, rfl⟩ := Nat.exists_eq_add_of_lt less
    exact Layer.imp (ih (by omega)) derived

/-- An operand of a chain with so many levels inside it: a literal, a column, a call, a CASE or an
    expression in parentheses, or one of these behind one NOT or more, each of which takes a level. -/
inductive OperandOf : Nat → Derivation Expr where
  | atom {levels : Nat} {ts : List Token} {e : Expr} (derived : AtomOver (Expression levels 0) ts e) :
      OperandOf levels ts e
  | not {levels : Nat} {ts : List Token} {e : Expr} (derived : OperandOf levels ts e) :
      OperandOf (levels + 1) (.keyword .NOT :: ts) (.not e)

/-- NOT takes its own operand alone, so an operand is of the layer of NOT. -/
theorem OperandOf.layer {levels n : Nat} {ts : List Token} {e : Expr} (derived : OperandOf levels ts e)
    (enough : levels ≤ n) : Layer (Expression n) negationPrecedence ts e := by
  induction derived generalizing n with
  | atom derived => exact .tighter (.atom (derived.imp (expression_mono enough)))
  | not _ ih =>
    obtain ⟨k, rfl⟩ := Nat.exists_eq_add_of_lt enough
    exact .not (ih (by omega))

end Grammar

/-! ## Trees of operators -/

/-- A tree of operators over operands of any kind. -/
inductive OperatorTree (α : Type) where
  | leaf (operand : α)
  | node (op : BinaryOp) (left right : OperatorTree α)

namespace OperatorTree

variable {α : Type}

def leaves : OperatorTree α → List α
  | leaf a => [a]
  | node _ left right => left.leaves ++ right.leaves

def operators : OperatorTree α → List BinaryOp
  | leaf _ => []
  | node op left right => left.operators ++ op :: right.operators

def root? : OperatorTree α → Option BinaryOp
  | leaf _ => none
  | node op _ _ => some op

/-- Every operator binds at most as tightly as the one at the root of its left subtree, and less
    tightly than the one at the root of its right subtree. -/
def Grouped : OperatorTree α → Prop
  | leaf _ => True
  | node op left right =>
    (∀ o ∈ left.root?, op.precedence ≤ o.precedence) ∧ (∀ o ∈ right.root?, op.precedence < o.precedence) ∧
      left.Grouped ∧ right.Grouped

/-- A tree of a chain: the chain is what the tree is from left to right, and its operators are
    grouped by how tightly they bind. -/
structure Arranges (t : OperatorTree α) (first : α) (others : List (BinaryOp × α)) : Prop where
  leaves : t.leaves = first :: others.map Prod.snd
  operators : t.operators = others.map Prod.fst
  grouped : t.Grouped

def first : OperatorTree α → α
  | leaf a => a
  | node _ left _ => left.first

/-- The operators of a tree from left to right, each with the operand behind it. -/
def steps : OperatorTree α → List (BinaryOp × α)
  | leaf _ => []
  | node op left right => left.steps ++ (op, right.first) :: right.steps

theorem leaves_eq (t : OperatorTree α) : t.leaves = t.first :: t.steps.map Prod.snd := by
  induction t with
  | leaf a => rfl
  | node op left right first second => simp [leaves, steps, OperatorTree.first, first, second]

theorem operators_eq (t : OperatorTree α) : t.operators = t.steps.map Prod.fst := by
  induction t with
  | leaf a => rfl
  | node op left right first second => simp [operators, steps, first, second]

theorem arranges_iff {t : OperatorTree α} {first : α} {others : List (BinaryOp × α)} :
    t.Arranges first others ↔ t.first = first ∧ t.steps = others ∧ t.Grouped := by
  constructor
  · rintro ⟨leaves, operators, grouped⟩
    rw [leaves_eq, List.cons.injEq] at leaves
    rw [operators_eq] at operators
    exact ⟨leaves.1, (List.zip_of_prod operators leaves.2).trans (List.zip_of_prod rfl rfl).symm, grouped⟩
  · rintro ⟨rfl, rfl, grouped⟩
    exact ⟨t.leaves_eq, t.operators_eq, grouped⟩

/-! ### There is one tree of a chain -/

/-- The tree with one more operator and operand at its end. The operator takes all that binds at least
    as tightly for its left operand. -/
def push (op : BinaryOp) (a : α) : OperatorTree α → OperatorTree α
  | leaf b => node op (leaf b) (leaf a)
  | node o left right =>
    if op.precedence ≤ o.precedence then node op (node o left right) (leaf a)
    else node o left (push op a right)

theorem first_push (op : BinaryOp) (a : α) (t : OperatorTree α) : (t.push op a).first = t.first := by
  cases t with
  | leaf b => rfl
  | node o left right =>
    unfold push
    split_ifs <;> rfl

theorem steps_push (op : BinaryOp) (a : α) (t : OperatorTree α) : (t.push op a).steps = t.steps ++ [(op, a)] := by
  induction t with
  | leaf b => rfl
  | node o left right _ second =>
    unfold push
    split_ifs
    · rfl
    · simp [steps, second, first_push]

theorem root_push (op : BinaryOp) (a : α) (t : OperatorTree α) :
    (t.push op a).root? = some op ∨ (t.push op a).root? = t.root? := by
  cases t with
  | leaf b => exact .inl rfl
  | node o left right =>
    unfold push
    split_ifs
    · exact .inl rfl
    · exact .inr rfl

theorem grouped_push (op : BinaryOp) (a : α) {t : OperatorTree α} (grouped : t.Grouped) : (t.push op a).Grouped := by
  induction t with
  | leaf b => exact ⟨nofun, nofun, trivial, trivial⟩
  | node o left right _ second =>
    unfold push
    split_ifs with loose
    · refine ⟨fun p root => ?_, nofun, grouped, trivial⟩
      obtain rfl := Option.some.inj root
      exact loose
    · obtain ⟨onLeft, onRight, inLeft, inRight⟩ := grouped
      refine ⟨onLeft, fun p root => ?_, inLeft, second inRight⟩
      rcases root_push op a right with same | same
      · obtain rfl := Option.some.inj (same.symm.trans root)
        exact Nat.lt_of_not_le loose
      · exact onRight p (same.symm.trans root)

/-- No operator of a tree binds less tightly than its root. -/
theorem Grouped.root_le {t : OperatorTree α} (grouped : t.Grouped) {k : Nat} (root : ∀ o ∈ t.root?, k ≤ o.precedence) :
    ∀ step ∈ t.steps, k ≤ step.1.precedence := by
  induction t with
  | leaf a => exact nofun
  | node op left right first second =>
    obtain ⟨onLeft, onRight, inLeft, inRight⟩ := grouped
    have here : k ≤ op.precedence := root op rfl
    intro step member
    rw [steps, List.mem_append, List.mem_cons] at member
    rcases member with before | rfl | behind
    · exact first inLeft (fun o root => Nat.le_trans here (onLeft o root)) step before
    · exact here
    · exact second inRight (fun o root => Nat.le_trans here (Nat.le_of_lt (onRight o root))) step behind

/-- Behind an operator that all later ones bind more tightly than, there is none that binds at most as
    tightly as those before it. -/
theorem eq_of_least {between behind behind' : List (BinaryOp × α)} {step step' : BinaryOp × α}
    (same : step :: behind = between ++ step' :: behind') (high : ∀ s ∈ behind, step.1.precedence < s.1.precedence)
    (low : ∀ s ∈ between, step'.1.precedence ≤ s.1.precedence) : between = [] ∧ step = step' ∧ behind = behind' := by
  cases between with
  | nil =>
    obtain ⟨first, rest⟩ := List.cons.inj same
    exact ⟨rfl, first, rest⟩
  | cons next between =>
    obtain ⟨rfl, rest⟩ := List.cons.inj same
    have less := high step' (by simp [rest])
    have more := low step List.mem_cons_self
    omega

/-- The last of the operators that bind least has one place in a chain. -/
theorem split_at_least {before before' behind behind' : List (BinaryOp × α)} {step step' : BinaryOp × α}
    (same : before ++ step :: behind = before' ++ step' :: behind')
    (low : ∀ s ∈ before, step.1.precedence ≤ s.1.precedence) (high : ∀ s ∈ behind, step.1.precedence < s.1.precedence)
    (low' : ∀ s ∈ before', step'.1.precedence ≤ s.1.precedence)
    (high' : ∀ s ∈ behind', step'.1.precedence < s.1.precedence) :
    before = before' ∧ step = step' ∧ behind = behind' := by
  rcases List.append_eq_append_iff.mp same with ⟨between, rfl, back⟩ | ⟨between, rfl, back⟩
  · obtain ⟨rfl, first, rest⟩ := eq_of_least back high fun s member => low' s (List.mem_append_right _ member)
    exact ⟨(List.append_nil _).symm, first, rest⟩
  · obtain ⟨rfl, first, rest⟩ := eq_of_least back high' fun s member => low s (List.mem_append_right _ member)
    exact ⟨List.append_nil _, first.symm, rest.symm⟩

theorem Grouped.unique {t u : OperatorTree α} (one : t.Grouped) (other : u.Grouped) (firsts : t.first = u.first)
    (steps : t.steps = u.steps) : t = u := by
  induction t generalizing u with
  | leaf a =>
    cases u with
    | leaf b => exact congrArg leaf firsts
    | node op left right => simp [OperatorTree.steps] at steps
  | node op left right ihLeft ihRight =>
    cases u with
    | leaf b => simp [OperatorTree.steps] at steps
    | node op' left' right' =>
      obtain ⟨onLeft, onRight, inLeft, inRight⟩ := one
      obtain ⟨onLeft', onRight', inLeft', inRight'⟩ := other
      obtain ⟨before, root, behind⟩ := split_at_least steps (inLeft.root_le onLeft) (inRight.root_le onRight)
        (inLeft'.root_le onLeft') (inRight'.root_le onRight')
      obtain ⟨rfl, operand⟩ := Prod.mk.inj root
      rw [ihLeft inLeft inLeft' firsts before, ihRight inRight inRight' operand behind]

/-- A chain has one tree in which its operators are grouped. -/
theorem existsUnique_arranges (first : α) (others : List (BinaryOp × α)) :
    ∃ t : OperatorTree α, t.Arranges first others ∧ ∀ u : OperatorTree α, u.Arranges first others → u = t := by
  obtain ⟨t, arranges⟩ : ∃ t : OperatorTree α, t.Arranges first others := by
    induction others using List.reverseRecOn with
    | nil => exact ⟨leaf first, rfl, rfl, trivial⟩
    | append_singleton others step ih =>
      obtain ⟨t, arranges⟩ := ih
      obtain ⟨rfl, rfl, grouped⟩ := arranges_iff.mp arranges
      exact ⟨t.push step.1 step.2, arranges_iff.mpr ⟨first_push _ _ t, steps_push _ _ t, grouped_push _ _ grouped⟩⟩
  refine ⟨t, arranges, fun u other => ?_⟩
  obtain ⟨firsts, steps, grouped⟩ := arranges_iff.mp arranges
  obtain ⟨firsts', steps', grouped'⟩ := arranges_iff.mp other
  exact grouped'.unique grouped (firsts'.trans firsts.symm) (steps'.trans steps.symm)

end OperatorTree

/-! ## Trees of operands -/

/-- An operand of a chain: the tokens that it is read from, the expression that they are, and the
    levels inside it. -/
structure Operand where
  tokens : List Token
  expr : Expr
  levels : Nat
  derived : OperandOf levels tokens expr

def chainTokens (first : Operand) (others : List (BinaryOp × Operand)) : List Token :=
  first.tokens ++ others.flatMap fun step => step.1.token :: step.2.tokens

theorem chainTokens_append (first a : Operand) (op : BinaryOp) (before behind : List (BinaryOp × Operand)) :
    chainTokens first (before ++ (op, a) :: behind) = chainTokens first before ++ op.token :: chainTokens a behind := by
  simp [chainTokens]

namespace OperatorTree

def expr : OperatorTree Operand → Expr
  | leaf a => a.expr
  | node op left right => .binary op left.expr right.expr

/-- The levels inside a tree, where each right operand takes one. -/
def levels : OperatorTree Operand → Nat
  | leaf a => a.levels
  | node _ left right => max left.levels (right.levels + 1)

/-- The layer of a tree: that of its root, and that of NOT where there is no operator. -/
def layer (t : OperatorTree Operand) : Nat := (t.root?.map BinaryOp.precedence).getD negationPrecedence

theorem le_layer {t : OperatorTree Operand} {k : Nat} (bounded : k ≤ negationPrecedence)
    (root : ∀ o ∈ t.root?, k ≤ o.precedence) : k ≤ t.layer := by
  unfold layer
  cases top : t.root? with
  | none => exact bounded
  | some o => exact root o top

/-- A tree derives its tokens in its layer. Its left operand has the levels that the tree has, and its
    right operand one less. -/
theorem Grouped.derives {t : OperatorTree Operand} (grouped : t.Grouped) {n : Nat} (enough : t.levels ≤ n) :
    Layer (Expression n) t.layer (chainTokens t.first t.steps) t.expr := by
  induction t generalizing n with
  | leaf a =>
    have tokens : chainTokens a [] = a.tokens := List.append_nil _
    show Layer (Expression n) negationPrecedence (chainTokens a []) a.expr
    rw [tokens]
    exact a.derived.layer enough
  | node op left right ihLeft ihRight =>
    obtain ⟨onLeft, onRight, inLeft, inRight⟩ := grouped
    obtain ⟨enoughLeft, enoughRight⟩ := Nat.max_le.mp enough
    obtain ⟨k, rfl⟩ := Nat.exists_eq_add_of_lt enoughRight
    have bounded := Parser.precedence_lt op
    have deeper : right.levels ≤ right.levels + k := Nat.le_add_right _ _
    have first := Parser.layer_mono (ihLeft inLeft enoughLeft) (le_layer (Nat.le_of_lt bounded) onLeft)
    have second := Parser.layer_mono (ihRight inRight deeper) (le_layer bounded onRight)
    show Layer _ op.precedence (chainTokens left.first (left.steps ++ (op, right.first) :: right.steps)) _
    rw [chainTokens_append]
    exact .binary (Parser.binds_iff.mpr rfl) first second

end OperatorTree

/-- An expression ends before a token that is neither an operator nor an opening parenthesis. -/
theorem rank_of_other {i : Input} (other : ∀ next ∈ i.token?, Parser.operator? next = none ∧ next ≠ .openParen) :
    Parser.stopRank 0 ≤ i.rank := by
  cases next : i.token? with
  | none =>
    rw [Input.rank, next]
    decide
  | some t =>
    obtain ⟨noOperator, noParen⟩ := other t next
    rw [Input.rank_of_token next]
    cases t with
    | openParen => exact absurd rfl noParen
    | keyword k => cases k <;> decide
    | number | ident => exact (by decide : Parser.stopRank 0 ≤ 12)
    | closeParen | comma | semicolon => decide
    | _ => cases noOperator

/-- A chain of operands is read as its one tree. For every chain there is one tree whose leaves are the
    operands and whose operators are those of the chain, in order, and in which an operator binds at
    most as tightly as the one at the root of its left subtree and less tightly than the one at the root
    of its right subtree. Before the end of the input, or a token that is no operator and no opening
    parenthesis, and within the nesting limit, the chain is read as that tree, up to its end. -/
theorem expression_of_chain (first : Operand) (others : List (BinaryOp × Operand)) :
    ∃ t : OperatorTree Operand, t.Arranges first others ∧
      (∀ u : OperatorTree Operand, u.Arranges first others → u = t) ∧
      ∀ i rest : Input, i.Begins (chainTokens first others) rest →
        (∀ next ∈ rest.token?, Parser.operator? next = none ∧ next ≠ .openParen) →
        i.depth + t.levels < maxNesting → Parser.expression.run i = .ok t.expr rest := by
  obtain ⟨t, arranges, unique⟩ := OperatorTree.existsUnique_arranges first others
  refine ⟨t, arranges, unique, fun i rest begins ends within => ?_⟩
  obtain ⟨rfl, rfl, grouped⟩ := OperatorTree.arranges_iff.mp arranges
  have derived : Expression (maxNesting - i.depth) 0 (chainTokens t.first t.steps) t.expr := by
    obtain ⟨k, levels⟩ : ∃ k, maxNesting - i.depth = t.levels + k + 1 := ⟨maxNesting - i.depth - t.levels - 1, by omega⟩
    rw [levels]
    exact Parser.layer_mono (grouped.derives (Nat.le_add_right _ k)) (Nat.zero_le _)
  exact (Parser.reads_expressionAt (Nat.zero_le _)).complete rfl derived begins (rank_of_other ends)

/-- The theorem at a chain with NOT, parentheses and operators of every precedence, as deep as it can
    be. -/
theorem expression_of_chain_mixed :
    let a : Operand := ⟨[.keyword .NOT, .ident "a"], .not (.var "a"), 1, .not (.atom (.column "a"))⟩
    let one : Operand := ⟨[.number "1"], .lit (.int (valueOf "1")), 0, .atom (.number (by decide))⟩
    let b : Operand := ⟨[.openParen, .ident "b", .closeParen], .var "b", 1,
      .atom (.parens (Parser.layer_mono (.atom (.column "b")) (Nat.zero_le _)))⟩
    let c : Operand := ⟨[.ident "c"], .var "c", 0, .atom (.column "c")⟩
    let others : List (BinaryOp × Operand) :=
      [(.compare .eq, one), (.arith .sub, b), (.arith .mul, c), (.arith .sub, c)]
    let lexemes := (chainTokens a others).map (Lexeme.mk .start)
    let rest : Input := ⟨[⟨.start, .closeParen⟩], .finished .start, .start, 124⟩
    let i : Input := { rest with lexemes := lexemes ++ rest.lexemes }
    i.Begins (chainTokens a others) rest ∧
      (∀ next ∈ rest.token?, Parser.operator? next = none ∧ next ≠ .openParen) ∧
      Parser.expression.run i = .ok (.binary (.compare .eq) (.not (.var "a"))
        (.binary (.arith .sub)
          (.binary (.arith .sub) (.lit (.int 1)) (.binary (.arith .mul) (.var "b") (.var "c"))) (.var "c"))) rest := by
  intro a one b c others lexemes rest i
  let u : OperatorTree Operand := .node (.compare .eq) (.leaf a)
    (.node (.arith .sub) (.node (.arith .sub) (.leaf one) (.node (.arith .mul) (.leaf b) (.leaf c))) (.leaf c))
  have arranges : u.Arranges a others := by
    refine ⟨rfl, rfl, ?_⟩
    simp [u, OperatorTree.Grouped, OperatorTree.root?, BinaryOp.precedence]
  have begins : i.Begins (chainTokens a others) rest :=
    ⟨rfl, rfl, rfl, rfl, rfl, rfl, rfl, rfl, rfl, rfl, rfl, rfl, rfl⟩
  have ends : ∀ next ∈ rest.token?, Parser.operator? next = none ∧ next ≠ .openParen := by
    rintro next same
    cases same
    exact ⟨rfl, nofun⟩
  obtain ⟨t, _, unique, read⟩ := expression_of_chain a others
  obtain rfl := unique u arranges
  exact ⟨begins, ends, read i rest begins ends (by decide)⟩

end StreamQuery
