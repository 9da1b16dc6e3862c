import Mathlib.Data.List.Forall2
import StreamQuery.Proofs.Lexing
import StreamQuery.Proofs.RenderedStatements

/-!
# Statements and their texts

Parsing undoes rendering, and the statements that are parsed are those that can be rendered: the
grammar stands between the two, since parsing follows it and renderings derive in it.
-/

namespace StreamQuery

open Grammar

/-! ## The text of a statement -/

theorem spelledBy_display (t : Token) : t.SpelledBy t.display.toList := by
  cases t <;> rfl

theorem renders_spaced {ts : List Token} {words : List (List Char × List Char)}
    (spelled : List.Forall₂ (fun t word => t.SpelledBy word.2) ts words)
    (blank : ∀ word ∈ words, word.1 ≠ [] ∧ ∀ c ∈ word.1, Text.isBlank c = true) :
    Renders ts (words.flatMap fun word => word.1 ++ word.2) := by
  induction spelled with
  | nil => exact .nothing (by simp)
  | @cons t word ts words first _ ih =>
    refine .token (blank word List.mem_cons_self).2 first (fun c head => ?_)
      (ih fun other member => blank other (List.mem_cons_of_mem _ member))
    cases words with
    | nil => simp at head
    | cons next rest =>
      obtain ⟨some, all⟩ := blank next (by simp)
      exact all c (List.mem_of_mem_head? (by simpa [List.head?_append_of_ne_nil _ some] using head))

theorem toList_intercalate_blank (first : String) (rest : List String) :
    (" ".intercalate (first :: rest)).toList = first.toList ++ rest.flatMap fun word => [' '] ++ word.toList := by
  induction rest generalizing first with
  | nil => simp
  | cons next rest ih =>
    rw [String.intercalate_cons_cons, String.toList_append, String.toList_append, ih, List.flatMap_cons,
      List.append_assoc, List.append_assoc]
    rfl

theorem renders_intercalate (ts : List Token) : Renders ts (" ".intercalate (ts.map Token.display)).toList := by
  cases ts with
  | nil => exact .nothing (by simp)
  | cons t ts =>
    rw [List.map_cons, toList_intercalate_blank, List.flatMap_map]
    have spelled : List.Forall₂ (fun t word => Token.SpelledBy t word.2) ts
        (ts.map fun u => ([' '], u.display.toList)) :=
      List.forall₂_map_right_iff.mpr (List.forall₂_same.mpr fun u _ => spelledBy_display u)
    have later : Renders ts (ts.flatMap fun u => [' '] ++ u.display.toList) := by
      have spaced := renders_spaced spelled fun word member => by
        obtain ⟨u, _, rfl⟩ := List.mem_map.mp member
        exact ⟨by simp, by simp; decide⟩
      simpa only [List.flatMap_map] using spaced
    refine @Renders.token t ts [] _ _ (by simp) (spelledBy_display t) (fun c head => ?_) later
    cases ts with
    | nil => simp at head
    | cons u ts =>
      obtain rfl : ' ' = c := by simpa using head
      decide

theorem renders_render (s : Statement) : Renders s.tokens s.render.toList := renders_intercalate s.tokens

/-! ## Round trip -/

/-- A rendering of a well-formed statement within the limit of nesting is parsed as it. -/
theorem parse_of_renders {s : Statement} {text : String} (wellFormed : s.IsWellFormed) (within : s.levels ≤ maxNesting)
    (renders : Renders s.tokens text.toList) : Statement.parse text = .ok s := by
  obtain ⟨lexemes, position, all, tokens⟩ :=
    lexemes_of_renders renders (lexical_statement wellFormed) (.start text) rfl
  have ending : (Input.ofText text).ending = .finished position := congrArg Prod.snd all
  have same : (Input.ofText text).lexemes = lexemes := congrArg Prod.fst all
  refine (Parser.run_wholeStatement rfl).mpr ⟨⟨position, ending⟩, ?_⟩
  rw [same, tokens]
  exact (statement_levels wellFormed).mpr within

theorem wellFormed_of_parse {s : Statement} {text : String} (parsed : Statement.parse text = .ok s) :
    s.IsWellFormed ∧ s.levels ≤ maxNesting := by
  obtain ⟨_, derived⟩ := (Parser.run_wholeStatement rfl).mp parsed
  refine statement_bounded derived fun t member => ?_
  obtain ⟨l, among, rfl⟩ := List.mem_map.mp member
  exact lexemes_lexical (.start text) l among

/-- Parsing undoes rendering. Every rendering of a well-formed statement whose nesting stays
    within 128 levels is parsed as the statement. In the other direction every statement that some
    text is parsed as is well-formed, its rendering stays within them, and it is parsed from
    its own text and from every other rendering. -/
theorem parse_renders (s : Statement) :
    (s.IsWellFormed → s.levels ≤ 128 → ∀ text : String, Renders s.tokens text.toList →
      Statement.parse text = .ok s) ∧
    ∀ text, Statement.parse text = .ok s → s.IsWellFormed ∧ s.levels ≤ 128 ∧
      Statement.parse s.render = .ok s ∧
      ∀ other : String, Renders s.tokens other.toList → Statement.parse other = .ok s := by
  refine ⟨fun wellFormed within text renders => parse_of_renders wellFormed within renders, fun text parsed => ?_⟩
  obtain ⟨wellFormed, within⟩ := wellFormed_of_parse parsed
  exact ⟨wellFormed, within, parse_of_renders wellFormed within (renders_render s),
    fun other renders => parse_of_renders wellFormed within renders⟩

/-- The theorem at an operand in parentheses, with several blanks and keywords in several letter
    cases. -/
theorem parse_renders_parens :
    let s : Statement := .query (.select
      ⟨[.rename (.not (.binary (.compare .lt) (.var "a") (.lit (.int 7)))) "b"], none, none, none⟩ none)
    s.IsWellFormed ∧ s.levels ≤ 128 ∧ Renders s.tokens "\nselect\n nOt ( a < 7 )\tAS b ;".toList ∧
      Statement.parse "\nselect\n nOt ( a < 7 )\tAS b ;" = .ok s ∧ Statement.parse s.render = .ok s := by
  intro s
  have first : IsName "a" := @IsName.word ['a'] ⟨by decide, by simp⟩ (by decide +kernel)
  have second : IsName "b" := @IsName.word ['b'] ⟨by decide, by simp⟩ (by decide +kernel)
  have wellFormed : s.IsWellFormed := by
    refine ⟨⟨by simp, ?_, by simp, by simp, by simp [Clauses.groupKeys], by simp, by simp [Clauses.sortKeys]⟩, trivial⟩
    intro e member
    obtain rfl := List.mem_singleton.mp member
    exact ⟨⟨first, by decide, by decide⟩, second⟩
  have within : s.levels ≤ 128 := by decide
  have spelled : List.Forall₂ (fun t word => Token.SpelledBy t word.2) s.tokens
      [(['\n'], "select".toList), (['\n', ' '], "nOt".toList), ([' '], ['(']), ([' '], ['a']), ([' '], ['<']),
        ([' '], ['7']), ([' '], [')']), (['\t'], "AS".toList), ([' '], ['b']), ([' '], [';'])] :=
    .cons rfl (.cons rfl (.cons rfl (.cons rfl (.cons rfl (.cons rfl (.cons rfl (.cons rfl (.cons rfl
      (.cons rfl .nil)))))))))
  have renders : Renders s.tokens "\nselect\n nOt ( a < 7 )\tAS b ;".toList := by
    refine renders_spaced spelled fun word member => ⟨?_, List.all_eq_true.mp ?_⟩
    · revert word
      decide
    · revert word
      decide
  have parsed := (parse_renders s).1 wellFormed within _ renders
  exact ⟨wellFormed, within, renders, parsed, ((parse_renders s).2 _ parsed).2.2.1⟩

end StreamQuery
