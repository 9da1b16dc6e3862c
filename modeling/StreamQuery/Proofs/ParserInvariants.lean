import StreamQuery.Parser.Statement

/-!
# Invariants of parsers

A property of parsers that the combinators keep is one of every parser of the grammar. What a
combinator keeps depends on two things: on the depth at which the parser is run, and on what is
known of the lexemes that are read, which the errors in the middle of a construct point back to.
-/

namespace StreamQuery.Parser

/-- A property of parsers at a depth that the combinators keep, where something is known of every
    lexeme that is read. An error of its own a parser has only for what comes next or for a lexeme
    that it has read. -/
structure Invariant (Known : Lexeme → Prop) (P : Nat → (α : Type) → Parser α → Prop) : Prop where
  succeed : ∀ {d : Nat} {α : Type} (a : α), P d α (Parser.succeed a)
  andThen : ∀ {d : Nat} {α β : Type} {p : Parser α} {f : α → Parser β}, P d α p → (∀ a, P d β (f a)) →
    P d β (Parser.andThen p f)
  unexpected : ∀ {d : Nat} {α : Type} (expected : Expectation), P d α (Parser.unexpected expected)
  failAt : ∀ {d : Nat} {α : Type} {l : Lexeme} (expected : Expectation), Known l →
    P d α (Parser.fail (.unexpected l.position expected (some l.token)))
  failCall : ∀ {d : Nat} {α : Type} {p : Position} {name : String}, Known ⟨p, .ident name⟩ →
    P d α (Parser.fail (.unknownFunction p name))
  peek : ∀ {d : Nat}, P d (Option Token) Parser.peek
  next : ∀ {d : Nat} {β : Type} {expected : Expectation} {f : Lexeme → Parser β}, (∀ l, Known l → P d β (f l)) →
    P d β (Parser.andThen (Parser.next expected) f)
  accept? : ∀ {d : Nat} {α : Type} (f : Token → Option α), P d (Option α) (Parser.accept? f)
  many : ∀ {d : Nat} {α β : Type} {lead : Token → Option α} {p : α → Parser β}, (∀ a, P d β (p a)) →
    P d (List β) (Parser.many lead p)
  deeper : ∀ {d : Nat} {α : Type} {p : Parser α}, d < maxNesting → P (d + 1) α p → P d α (Parser.deeper p)
  recursive : ∀ {d : Nat} {α ι : Type} {body : (ι → Parser α) → ι → Parser α} {x : ι},
    P d α (Parser.within body (maxNesting - d) x) → P d α (Parser.recursive body x)

namespace Invariant

variable {Known : Lexeme → Prop} {P : Nat → (α : Type) → Parser α → Prop} (inv : Invariant Known P)
variable {α β : Type} {d : Nat}

/-! ## Combinators -/

theorem either {c : Bool} {p q : Parser α} (yes : P d α p) (no : P d α q) : P d α (if c = true then p else q) := by
  cases c with
  | true => exact yes
  | false => exact no

include inv

theorem pure (a : α) : P d α (pure a) := inv.succeed a

theorem bind {p : Parser α} {f : α → Parser β} (first : P d α p) (rest : ∀ a, P d β (f a)) : P d β (p >>= f) :=
  inv.andThen first rest

theorem map {p : Parser α} {f : α → β} (h : P d α p) : P d β (f <$> p) :=
  inv.andThen h fun a => inv.succeed (f a)

theorem accept (t : Token) : P d Bool (accept t) := inv.map (inv.accept? _)

theorem require (expected : Expectation) (f : Token → Option α) : P d α (require expected f) := by
  refine inv.bind (inv.accept? f) fun found => ?_
  cases found with
  | some a => exact inv.pure a
  | none => exact inv.unexpected expected

theorem expect (t : Token) : P d Unit (expect t) := inv.require _ _

theorem identifier : P d String identifier := inv.require _ _

theorem commaSeparated {p : Parser α} (h : P d α p) : P d (List α) (commaSeparated p) :=
  inv.bind h fun _ => inv.bind (inv.many fun _ => h) fun _ => inv.pure _

theorem clause {p : Parser α} (keyword : Keyword) (h : P d α p) : P d (Option α) (clause keyword p) := by
  refine inv.bind (inv.accept _) fun found => ?_
  exact either (inv.map h) (inv.pure none)

/-- A recursion keeps what its body keeps: the levels that are left are those up to the limit. -/
theorem within {ι : Type} {body : (ι → Parser α) → ι → Parser α}
    (step : ∀ {d self}, (∀ y, P d α (self y)) → ∀ x, P d α (body self x)) :
    ∀ (levels d : Nat), levels = maxNesting - d → ∀ x, P d α (Parser.within body levels x) := by
  intro levels
  induction levels with
  | zero =>
    intro d _ x
    exact inv.unexpected .nestingWithinLimit
  | succ levels ih =>
    intro d left x
    have room : d < maxNesting := by omega
    exact inv.deeper room (step (ih (d + 1) (by omega)) x)

theorem recursion {ι : Type} {body : (ι → Parser α) → ι → Parser α}
    (step : ∀ {d self}, (∀ y, P d α (self y)) → ∀ x, P d α (body self x)) (x : ι) : P d α (Parser.recursive body x) :=
  inv.recursive (inv.within step _ d rfl x)

/-! ## Expressions -/

theorem integer {position : Position} {digits : String} (known : Known ⟨position, .number digits⟩) :
    P d Expr (integer position digits) :=
  either (inv.pure _) (inv.failAt _ known)

theorem caseArms {inner : Parser Expr} (h : P d Expr inner) : P d Arms (caseArms inner) := by
  refine inv.bind (inv.many fun _ => ?_) fun branches => ?_
  · exact inv.bind h fun condition => inv.bind (inv.expect _) fun _ => inv.bind h fun result => inv.pure _
  refine inv.bind (inv.accept _) fun found => ?_
  cases found with
  | true => exact inv.bind (inv.map h) fun final => inv.bind (inv.expect _) fun _ => inv.pure _
  | false => exact inv.bind (inv.pure none) fun final => inv.bind (inv.expect _) fun _ => inv.pure _

theorem callArgument {inner : Parser Expr} (h : P d Expr inner) {position : Position} {name : String}
    (known : Known ⟨position, .ident name⟩) : P d Expr (callArgument inner position name) := by
  unfold Parser.callArgument
  cases Aggregate.ofCall? name with
  | none => exact inv.failCall known
  | some function => exact inv.bind h fun argument => inv.bind (inv.expect _) fun _ => inv.pure _

theorem atom {inner : Parser Expr} (h : P d Expr inner) : P d Expr (atom inner) := by
  refine inv.next fun l known => ?_
  obtain ⟨position, t⟩ := l
  cases t with
  | number digits => exact inv.integer known
  | ident name => exact inv.bind (inv.accept _) fun found => either (inv.callArgument h known) (inv.pure _)
  | openParen => exact inv.bind h fun e => inv.bind (inv.expect _) fun _ => inv.pure e
  | keyword k =>
    cases k with
    | TRUE | FALSE | NULL => exact inv.pure _
    | CASE => exact inv.map (inv.caseArms h)
    | _ => exact inv.failAt _ known
  | _ => exact inv.failAt _ known

theorem operand {chainAt : Nat → Parser Expr} (h : ∀ min, P d Expr (chainAt min)) (min : Nat) :
    P d Expr (operand chainAt min) := by
  refine inv.bind (inv.accept? _) fun found => ?_
  cases found with
  | some _ => exact inv.map (h _)
  | none => exact inv.atom (h 0)

theorem chain {chainAt : Nat → Parser Expr} (h : ∀ min, P d Expr (chainAt min)) (min : Nat) :
    P d Expr (chain chainAt min) := by
  refine inv.bind (inv.operand h min) fun first => ?_
  exact inv.bind (inv.many fun op => inv.map (h _)) fun others => inv.pure _

theorem expressionAt (min : Nat) : P d Expr (expressionAt min) := inv.recursion inv.chain min

theorem expression : P d Expr expression := inv.expressionAt 0

/-! ## Statements -/

theorem projected : P d Expr projected := by
  refine inv.bind inv.expression fun e => inv.bind (inv.accept _) fun found => ?_
  exact either (inv.map inv.identifier) (inv.pure e)

theorem sortKey : P d (Expr × Direction) sortKey :=
  inv.bind inv.expression fun _ => inv.bind (inv.accept? _) fun _ => inv.pure _

theorem fromItem {inner : Parser Query} (h : P d Query inner) : P d Query (fromItem inner) := by
  refine inv.bind (inv.accept _) fun found => either ?_ (inv.map (inv.require _ _))
  exact inv.bind h fun q => inv.bind (inv.expect _) fun _ => inv.pure q

theorem select {inner : Parser Query} (h : P d Query inner) : P d Query (select inner) := by
  have keys : ∀ {α : Type} {p : Parser α}, P d α p →
      P d (List α) (do Parser.expect (.keyword .BY); Parser.commaSeparated p) := fun part =>
    inv.bind (inv.expect _) fun _ => inv.commaSeparated part
  refine inv.bind (inv.expect _) fun _ => inv.bind (inv.commaSeparated inv.projected) fun projection => ?_
  refine inv.bind (inv.clause _ (inv.map (inv.commaSeparated (inv.fromItem h)))) fun source => ?_
  refine inv.bind (inv.clause _ inv.expression) fun filter => ?_
  refine inv.bind (inv.clause _ (keys inv.expression)) fun groupBy => ?_
  exact inv.bind (inv.clause _ (keys inv.sortKey)) fun orderBy => inv.pure _

theorem queryOver {inner : Parser Query} (h : P d Query inner) : P d Query (queryOver inner) := by
  refine inv.bind (inv.select h) fun first => inv.bind (inv.many fun _ => ?_) fun others => inv.pure _
  exact inv.bind (inv.expect _) fun _ => inv.select h

theorem nestedQuery : P d Query nestedQuery := inv.recursion (fun self _ => inv.queryOver (self ())) ()

theorem query : P d Query query := inv.queryOver inv.nestedQuery

theorem column : P d Column column :=
  inv.bind inv.identifier fun _ => inv.bind (inv.require _ _) fun _ => inv.pure _

theorem createTable : P d Statement createTable := by
  refine inv.bind (inv.expect _) fun _ => inv.bind (inv.expect _) fun _ => inv.bind inv.identifier fun name => ?_
  refine inv.bind (inv.expect _) fun _ => inv.bind (inv.accept _) fun found => either (inv.pure _) ?_
  exact inv.bind (inv.commaSeparated inv.column) fun columns => inv.bind (inv.expect _) fun _ => inv.pure _

theorem statement : P d Statement statement := by
  refine inv.bind inv.peek fun found => ?_
  split
  · exact inv.createTable
  · exact inv.map inv.query
  · exact inv.unexpected .statement

theorem endOfInput : P d Unit endOfInput := by
  refine inv.bind inv.peek fun found => ?_
  cases found with
  | some t => exact inv.unexpected .endOfInput
  | none => exact inv.pure ()

theorem wholeStatement : P d Statement wholeStatement := by
  refine inv.bind inv.statement fun s => inv.bind (inv.expect _) fun _ => ?_
  exact inv.bind inv.endOfInput fun _ => inv.pure s

end Invariant

end StreamQuery.Parser
