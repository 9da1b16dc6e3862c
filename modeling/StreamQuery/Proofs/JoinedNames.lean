import Mathlib.Data.List.Nodup
import StreamQuery.Proofs.Lexing
import StreamQuery.Proofs.Lookup
import StreamQuery.Proofs.RenderedExpressions
import StreamQuery.Stream.Product

/-!
# Names of joined columns

A column of a cross join is reached by the name that it takes there. The name tells the place of the
stream and the name in it apart, whatever characters the latter has, as digits end at the dot. So the
names of a joined header are all different where those of each stream are, a joined record has the
value of each column at the place of its name, and a name whose last part is a word is one that can
be written in a query.
-/

namespace StreamQuery

open Text Grammar

/-! ## Names -/

theorem digits_of_number {s : String} (number : IsNumber s) :
    ∃ first rest, s.toList = first :: rest ∧ ∀ c ∈ first :: rest, isDigit c = true := by
  obtain @⟨first, rest, digits⟩ := number
  exact ⟨first, rest, String.toList_ofList, digits⟩

theorem toList_joinedName (index : Nat) (name : String) :
    (joinedName index name).toList = '$' :: ((toString index).toList ++ '.' :: name.toList) := by
  simp [joinedName]

/-- The digits of a joined name end at its first dot. -/
theorem index_of_joinedName (index : Nat) (name : String) :
    ((toString index).toList ++ '.' :: name.toList).takeWhile isDigit = (toString index).toList := by
  obtain ⟨first, rest, same, digits⟩ := digits_of_number (isNumber_toString index)
  rw [same]
  refine takeWhile_append digits fun c head => ?_
  cases head
  decide

/-- A joined name tells its index and its name, whatever characters the name has. -/
theorem joinedName_inj {i j : Nat} {m n : String} : joinedName i m = joinedName j n ↔ i = j ∧ m = n := by
  constructor
  · intro same
    have behind := congrArg (List.tail ∘ String.toList) same
    simp only [Function.comp_apply, toList_joinedName, List.tail_cons] at behind
    -- The digits are what can be read of each up to its first dot, and the names are the rest.
    have digits := congrArg (List.takeWhile isDigit) behind
    rw [index_of_joinedName, index_of_joinedName] at digits
    rw [digits] at behind
    refine ⟨?_, String.toList_injective (List.cons.inj (List.append_cancel_left behind)).2⟩
    rw [← valueOf_toString i, String.toList_injective digits, valueOf_toString]
  · rintro ⟨rfl, rfl⟩
    rfl

/-- A joined name can be written in a query if the name of the column is a word. -/
theorem isName_joined (index : Nat) {name : String} (word : IsWord name.toList) : IsName (joinedName index name) := by
  obtain ⟨first, rest, same, digits⟩ := digits_of_number (isNumber_toString index)
  have spelled : joinedName index name = String.ofList ('$' :: first :: rest ++ '.' :: name.toList) := by
    rw [← String.toList_inj, toList_joinedName, same, String.toList_ofList]
    rfl
  rw [spelled]
  exact .reference digits word

theorem lexemes_of_name {name : String} (isName : IsName name) :
    ∃ lexemes position, (Cursor.start name).lexemes = (lexemes, .finished position) ∧
      lexemes.map Lexeme.token = [.ident name] := by
  have renders : Renders [.ident name] name.toList := by
    have alone := @Renders.token (.ident name) [] [] name.toList [] (by simp) rfl (by simp) (.nothing (by simp))
    rwa [List.nil_append, List.append_nil] at alone
  exact lexemes_of_renders renders (List.forall_mem_singleton.mpr isName) _ rfl

/-! ## Places -/

theorem names_crossJoin (streams : List Stream) :
    (Stream.crossJoin streams).header.map Column.name =
      streams.zipIdx.flatMap fun (s, index) => (s.header.map Column.name).map (joinedName index) := by
  rw [Stream.crossJoin, List.map_flatMap]
  refine List.flatMap_congr fun ⟨s, index⟩ _ => ?_
  simp [Stream.joinedColumns, Column.renamed]

/-- The names of a joined header are different if those of each stream are. -/
theorem distinct_joined {streams : List Stream} (distinct : ∀ s ∈ streams, (s.header.map Column.name).Nodup) :
    ((Stream.crossJoin streams).header.map Column.name).Nodup := by
  have indexes : streams.zipIdx.Pairwise fun a b => a.2 ≠ b.2 := by
    have all : (streams.zipIdx.map Prod.snd).Nodup := by
      rw [List.zipIdx_map_snd]
      exact List.nodup_range'
    exact List.pairwise_map.mp all
  rw [names_crossJoin, List.nodup_flatMap]
  refine ⟨fun ⟨s, index⟩ member => ?_, indexes.imp fun differ name left right => ?_⟩
  · refine (distinct s (List.fst_mem_of_mem_zipIdx member)).map fun m n same => ?_
    exact (joinedName_inj.mp same).2
  · obtain ⟨m, _, rfl⟩ := List.mem_map.mp left
    obtain ⟨n, _, same⟩ := List.mem_map.mp right
    exact differ (joinedName_inj.mp same).1.symm

/-- A joined record has the values of each part at the places of the columns of its stream. -/
theorem zip_joined {streams : List Stream} {records : List Record}
    (widths : List.Forall₂ (fun s r => r.length = s.header.length) streams records) (index : Nat) :
    ((streams.zipIdx index).flatMap fun (s, i) => s.joinedColumns i).zip (joinRecords records) =
      ((streams.zipIdx index).zip records).flatMap fun ((s, i), r) => (s.joinedColumns i).zip r := by
  induction widths generalizing index with
  | nil => rfl
  | @cons s r rest others width _ ih =>
    have here : (s.joinedColumns index).length = r.length := by rw [Stream.joinedColumns, List.length_map, width]
    rw [List.zipIdx_cons, List.flatMap_cons, List.zip_cons_cons, List.flatMap_cons, ← ih]
    exact List.zip_append here

/-- A column of a stream stands in the joined header under its joined name, at the place of its own
    value. -/
theorem place_of_joined {streams : List Stream} {records : List Record} {s : Stream} {c : Column} {r : Record}
    {v : Value} {i j : Nat} (widths : List.Forall₂ (fun s r => r.length = s.header.length) streams records)
    (stream : streams[i]? = some s) (column : s.header[j]? = some c) (record : records[i]? = some r)
    (value : r[j]? = some v) :
    (c.renamed (joinedName i c.name), v) ∈ (Stream.crossJoin streams).header.zip (joinRecords records) := by
  have part : ((s, i), r) ∈ streams.zipIdx.zip records := by
    refine List.mem_of_getElem? (i := i) (List.getElem?_zip_eq_some.mpr ⟨?_, record⟩)
    rw [List.getElem?_zipIdx, stream, Option.map_some, Nat.zero_add]
  have cell : (c.renamed (joinedName i c.name), v) ∈ (s.joinedColumns i).zip r := by
    refine List.mem_of_getElem? (i := j) (List.getElem?_zip_eq_some.mpr ⟨?_, value⟩)
    rw [Stream.joinedColumns, List.getElem?_map, column, Option.map_some]
  rw [Stream.crossJoin, zip_joined widths 0]
  exact List.mem_flatMap.mpr ⟨_, part, cell⟩

/-- The name that a column takes in a cross join is that of its own column. Where the names within
    each stream are different and every record is as wide as its header, the joined header has the
    joined name of a column once, the name reads the value of that column in the joined record, and
    its type is that of the column. If the column's name is a word, the joined name is read as one
    token. -/
theorem joinedName_resolves {streams : List Stream} {records : List Record} {s : Stream} {c : Column} {i j : Nat}
    (distinct : ∀ s ∈ streams, (s.header.map Column.name).Nodup)
    (widths : List.Forall₂ (fun s r => r.length = s.header.length) streams records)
    (stream : streams[i]? = some s) (column : s.header[j]? = some c) :
    ((Stream.crossJoin streams).header.map Column.name).count (joinedName i c.name) = 1 ∧
      (∃ r v, records[i]? = some r ∧ r[j]? = some v ∧
        (Scope.ofRecord (Stream.crossJoin streams).header (joinRecords records)).lookup (joinedName i c.name) =
          .ok v) ∧
      (∀ strict, (Expr.var (joinedName i c.name)).infer strict (Stream.crossJoin streams).header = .ok c.datatype) ∧
      (IsWord c.name.toList → ∃ lexemes position,
        (Cursor.start (joinedName i c.name)).lexemes = (lexemes, .finished position) ∧
          lexemes.map Lexeme.token = [.ident (joinedName i c.name)]) := by
  have names := distinct_joined distinct
  obtain ⟨inStreams, rfl⟩ := List.getElem?_eq_some_iff.mp stream
  obtain ⟨inHeader, _⟩ := List.getElem?_eq_some_iff.mp column
  obtain ⟨same, each⟩ := List.forall₂_iff_get.mp widths
  have record : records[i]? = some records[i] := List.getElem?_eq_getElem (by omega)
  have width : records[i].length = streams[i].header.length := each i inStreams (by omega)
  have value : records[i][j]? = some records[i][j] := List.getElem?_eq_getElem (by omega)
  have place := place_of_joined widths stream column record value
  have member := (List.of_mem_zip place).1
  refine ⟨?_, ⟨_, _, record, value, lookup_ofRecord names place⟩, fun strict => ?_, fun word => ?_⟩
  · exact List.count_eq_one_of_mem names (List.mem_map.mpr ⟨_, member, rfl⟩)
  · exact congrArg Except.ok (columnType_of_mem names member)
  · exact lexemes_of_name (isName_joined i word)

/-- The theorem at a stream without columns between two whose names have dots, digits and a dollar
    sign in them, for a name that both have. -/
theorem joinedName_resolves_dotted :
    let streams : List Stream :=
      [⟨[⟨"2.x", .bool⟩, ⟨"x", .int⟩], []⟩, ⟨[], []⟩, ⟨[⟨"$2.x", .int⟩, ⟨"x", .bool⟩], []⟩]
    let records : List Record := [[.bool true, .int 4], [], [.int 7, .null]]
    let header : List Column := (Stream.crossJoin streams).header
    (∀ s ∈ streams, (s.header.map Column.name).Nodup) ∧
      List.Forall₂ (fun s r => r.length = s.header.length) streams records ∧
      streams[2]? = some ⟨[⟨"$2.x", .int⟩, ⟨"x", .bool⟩], []⟩ ∧ IsWord "x".toList ∧
      header.map Column.name = ["$0.2.x", "$0.x", "$2.$2.x", "$2.x"] ∧
      (Scope.ofRecord header (joinRecords records)).lookup "$2.x" = .ok .null ∧
      (Expr.var "$2.x").infer true header = .ok .bool ∧
      ∃ lexemes position, (Cursor.start "$2.x").lexemes = (lexemes, .finished position) ∧
        lexemes.map Lexeme.token = [.ident "$2.x"] := by
  intro streams records header
  have distinct : ∀ s ∈ streams, (s.header.map Column.name).Nodup := by decide
  have widths : List.Forall₂ (fun s r => r.length = s.header.length) streams records :=
    .cons rfl (.cons rfl (.cons rfl .nil))
  have word : IsWord "x".toList := ⟨by decide, List.all_eq_true.mp (by decide)⟩
  obtain ⟨_, ⟨r, v, record, value, found⟩, type, read⟩ :=
    joinedName_resolves (i := 2) (j := 1) (c := ⟨"x", .bool⟩) distinct widths rfl rfl
  cases record
  cases value
  exact ⟨distinct, widths, rfl, word, by decide, found, type true, read word⟩

end StreamQuery
