import Offside.Document
import Offside.Proofs.Source.Concatenation
import Offside.Proofs.Text.Lines
import Offside.Proofs.Token.LineBreaks
import Offside.Proofs.Tree.Leaves

/-!
# Outlines

An entry of a document's outline is a name that stands in the text, also in a pattern of several
names. Its range is on the line of the name. The range counts columns, which are the positions of
the line's characters as long as the tabs before the name take one column each.
-/

namespace Offside

/-! ## Names in a text -/

namespace Lexeme

/-- The token of a name stands at the start of its lexeme, which is on one line. -/
theorem name_token? {previous : Option Char} {c : Char} {rest : List Char} {location : Location}
    {segments : List Segment} {token : Token}
    (found : (read previous c rest).token? location segments = .ok (some token))
    (isName : token.kind = .identifier) :
    token.location = location ∧ '\n' ∉ (read previous c rest).slice := by
  have operators : ∀ entry ∈ ("!", .bang) :: Token.operators, entry.2 ≠ .identifier := by decide
  have keywords : ∀ entry ∈ Token.keywords, entry.2 ≠ .identifier := by decide
  have yields := yields_of_token? found
  generalize lexeme : read previous c rest = other at yields ⊢
  cases yields with
  | operator => exact absurd isName (operators _ (read_operator lexeme))
  | keyword member => exact absurd isName (keywords _ member)
  | name =>
      obtain ⟨starts, rfl⟩ := read_word lexeme
      refine ⟨rfl, fun member => ?_⟩
      rcases List.mem_cons.mp member with rfl | member
      · cases starts
      · cases List.mem_takeWhile_imp member
  | _ => cases isName

end Lexeme

namespace Token

/-- A token stands for a name that is written in a text, on one line, at the token's location. -/
def Names (start : Location) (whole : List Char) (token : Token) : Prop :=
  ∃ before name after, whole = before ++ (name ++ after) ∧ '\n' ∉ name ∧
    token.payload = .text (String.ofList name) ∧ token.location = start.advanceAll before

variable {start : Location} {whole : List Char}

/-- What holds of the tokens of every part of a text holds to any depth. -/
theorem forall_nestedAll_of_scanFrom {holds : Token → Prop} {previous : Option Char}
    {before chars after : List Char} {tokens : List Token}
    (each : ∀ {previous before chars after tokens}, whole = before ++ (chars ++ after) →
      scanFrom previous (start.advanceAll before) chars = .ok tokens →
      ∀ token ∈ tokens, holds token)
    (split : whole = before ++ (chars ++ after))
    (found : scanFrom previous (start.advanceAll before) chars = .ok tokens) :
    ∀ token ∈ nestedAll tokens, holds token := by
  refine forall_mem_nestedAll.mpr fun token member => ?_
  rw [nested_eq, List.forall_mem_cons, forall_mem_segments]
  refine ⟨each split found token member, fun inner text part => ?_⟩
  have alone : chars = [] ++ (chars ++ []) := (List.append_nil chars).symm
  have placed := forall_mem_nestedAll.mp (placed_scanFrom alone found) token member
  rw [nested_eq, List.forall_mem_cons] at placed
  obtain ⟨before', after', split', innerFound⟩ := placed.1.stands inner text part
  have innerFound : scanFrom none (start.advanceAll (before ++ (before' ++ ['\x7b']))) text.toList =
      .ok inner := by
    rwa [Location.advanceAll_append]
  have shorter : text.toList.length < chars.length := by
    rw [split']
    simp only [List.length_append, List.length_cons]
    omega
  have split : whole = (before ++ (before' ++ ['\x7b'])) ++
      (text.toList ++ '\x7d' :: (after' ++ after)) := by
    rw [split, split']
    simp
  exact forall_nestedAll_of_scanFrom each split innerFound
termination_by chars.length

theorem names_of_scanFrom {previous : Option Char} {before chars after : List Char}
    {tokens : List Token} (split : whole = before ++ (chars ++ after))
    (found : scanFrom previous (start.advanceAll before) chars = .ok tokens) :
    ∀ token ∈ tokens, token.kind = .identifier → Names start whole token := by
  generalize here : start.advanceAll before = location at found
  replace found := scanning_of_scanFrom found
  induction found generalizing before with
  | done => simp [inserted]
  | lexeme cut _ tokenFound _ ih =>
      rw [cut, List.append_assoc] at split
      refine List.forall_mem_append.mpr ⟨?_, ?_⟩
      · intro token member isName
        obtain rfl := Option.mem_toList.mp member
        obtain ⟨place, inLine⟩ := Lexeme.name_token? tokenFound isName
        exact ⟨before, _, _, split, inLine, (Lexeme.spelled_token? tokenFound).1.name isName,
          place.trans here.symm⟩
      · exact ih (by rw [split, List.append_assoc]) (by rw [Location.advanceAll_append, here])

/-- The leaf of a name is that of its token. -/
theorem eq_of_leaf?_eq_name {token : Token} {name : String} {location : Location}
    (leaf : token.leaf? = some (.name name location)) :
    token.kind = .identifier ∧ token.payload = .text name ∧ token.location = location := by
  unfold leaf? at leaf
  split at leaf
  case h_1 isName payload =>
      obtain ⟨rfl, rfl⟩ := Leaf.name.inj (Option.some.inj leaf)
      exact ⟨isName, payload, rfl⟩
  all_goals cases leaf

end Token

namespace Source

/-- The leaves of a program are those of the tokens of its text. -/
theorem Stages.leaves {source : String} {file : Option String} {program : Program}
    {before layout : List Token} (stages : Stages source file program before layout) :
    program.leaves = (Token.leaves (before ++ [lastToken source file]) : List Leaf) := by
  have regular := Token.regular_scanFrom (Location.Counted.start file) stages.scanned
  have raw := Token.raw_scanFrom stages.scanned
  obtain ⟨regular, ended, same⟩ := Token.leaves_normalize raw regular stages.normalized
  rw [← same]
  exact (Tree.returns_parse _ program stages.parsed).2 regular ended

/-- A name in a program stands in its text, at its place. -/
theorem name_of_mem_leaves {source : String} {file : Option String} {program : Program}
    (accepted : Source.program source file = .ok program) {name : String} {location : Location}
    (member : Leaf.name name location ∈ program.leaves) :
    ∃ before after, source.toList = before ++ (name.toList ++ after) ∧ '\n' ∉ name.toList ∧
      location = (Location.start file).advanceAll before := by
  obtain ⟨tokens, layout, stages⟩ := exists_stages accepted
  rw [stages.leaves, Multiset.mem_coe, Token.leaves] at member
  obtain ⟨token, inside, leaf⟩ := List.mem_filterMap.mp member
  have whole : source.toList = [] ++ (source.toList ++ []) := (List.append_nil _).symm
  have named := Token.forall_nestedAll_of_scanFrom Token.names_of_scanFrom whole stages.scanned
  obtain ⟨isName, payload, rfl⟩ := Token.eq_of_leaf?_eq_name leaf
  obtain ⟨before, letters, after, split, inLine, spelled, place⟩ := named token inside isName
  obtain rfl : name = String.ofList letters := Payload.text.inj (payload.symm.trans spelled)
  rw [String.toList_ofList]
  exact ⟨before, after, split, inLine, place⟩

end Source

/-! ## Outlines -/

namespace Document

/-- The characters of a text in a range on one of its lines, which line feeds separate. -/
def Range.selected (text : String) (range : Range) : Option (List Char) :=
  ((text.toList.splitOn '\n')[range.startLine.toNat]?).map fun line =>
    (line.take range.endColumn.toNat).drop range.startColumn.toNat

/-- An entry of the outline is for a name in the program. -/
theorem exists_of_mem_symbols {program : Program} {symbol : Symbol}
    (member : symbol ∈ symbols program) : ∃ isFunction name location,
      symbol = .ofName isFunction name location ∧ Leaf.name name location ∈ program.leaves := by
  obtain ⟨statement, inside, member⟩ := List.mem_flatMap.mp member
  cases statement with
  | binding pattern value mutable location =>
      obtain ⟨⟨name, place⟩, bound, rfl⟩ := List.mem_map.mp member
      refine ⟨isLambda value, name, place, rfl, ?_⟩
      obtain ⟨earlier, later, split⟩ := List.append_of_mem inside
      have leaf : Leaf.name name place ∈ pattern.leaves :=
        Multiset.mem_coe.mpr (List.mem_map.mpr ⟨(name, place), bound, rfl⟩)
      rw [Block.leaves, split, Node.leavesOfAll_append]
      simp [Node.leavesOfAll, Node.leaves, leaf]
  | _ => cases member

/-- An entry of the outline of a program is for a name on a line of its text, and its range counts
the columns before the name. Where these are as many as the characters before the name, which is so
if every tab among them takes one column, the range selects the name. -/
theorem symbols_selected {text : String} {file : Option String} {program : Program}
    (accepted : Source.program text file = .ok program) {symbol : Symbol}
    (member : symbol ∈ symbols program) :
    ∃ (number : Nat) (before after : List Char),
      (text.toList.splitOn '\n')[number]? = some (before ++ (symbol.name.toList ++ after)) ∧
      symbol.range = ⟨number, Text.width before, number,
        Text.width before + symbol.name.length⟩ ∧
      (Text.width before = before.length ↔ ∀ i, before[i]? = some '\t' → i % 4 = 3) ∧
      (Text.width before = before.length →
        symbol.range.selected text = some symbol.name.toList) := by
  obtain ⟨isFunction, name, location, rfl, leaf⟩ := exists_of_mem_symbols member
  obtain ⟨before, after, split, inLine, rfl⟩ := Source.name_of_mem_leaves accepted leaf
  have line := Text.getElem?_splitOn before (name.toList ++ after)
  rw [Text.lineAt_append, Text.takeWhile_of_not_mem inLine, ← split] at line
  have range : (Symbol.ofName isFunction name ((Location.start file).advanceAll before)).range =
      ⟨before.count '\n', Text.width (before.rtakeWhile (· ≠ '\n')), before.count '\n',
        Text.width (before.rtakeWhile (· ≠ '\n')) + name.length⟩ := by
    rw [Symbol.ofName, Location.advanceAll_line, Location.advanceAll_column]
    simp [Location.start]
  refine ⟨_, _, _, line, range, Text.width_eq_length_iff, fun even => ?_⟩
  rw [range, Range.selected, even]
  simp only [Int.toNat_natCast, ← Int.natCast_add, line, Option.map_some]
  rw [← List.append_assoc, ← String.length_toList, ← List.length_append, List.take_left,
    List.drop_left]
  rfl

/-- A name in a nested pattern, after a tab that takes one column. -/
theorem symbols_selected_nested :
    let text := "f := 1\n(a,\t(bc)) := p"
    ∃ program symbol, Source.program text none = .ok program ∧ symbol ∈ symbols program ∧
      symbol.name = "bc" ∧ symbol.range = ⟨1, 5, 1, 7⟩ ∧
      ∃ (number : Nat) (before after : List Char),
        (text.toList.splitOn '\n')[number]? = some (before ++ (symbol.name.toList ++ after)) ∧
        symbol.range = ⟨number, Text.width before, number,
          Text.width before + symbol.name.length⟩ ∧
        (Text.width before = before.length ↔ ∀ i, before[i]? = some '\t' → i % 4 = 3) ∧
        (Text.width before = before.length →
          symbol.range.selected text = some symbol.name.toList) := by
  intro text
  have found : ((Source.program text none).toOption.bind fun program =>
      (symbols program).find? (·.name = "bc")).map (·.range) = some ⟨1, 5, 1, 7⟩ := by
    decide +kernel
  obtain ⟨symbol, found, range⟩ := Option.map_eq_some_iff.mp found
  obtain ⟨program, accepted, found⟩ := Option.bind_eq_some_iff.mp found
  have accepted := Layout.eq_ok_of_toOption accepted
  have member := List.mem_of_find?_eq_some found
  exact ⟨program, symbol, accepted, member, by simpa using List.find?_some found, range,
    symbols_selected accepted member⟩

/-- After a tab that takes four columns the range is not at the name. -/
theorem symbols_misplaced :
    let text := "\tx := 1"
    (Source.program text none).toOption.map (fun program =>
      (symbols program).map fun symbol => (symbol.name, symbol.range.selected text)) =
        some [("x", some ['='])] := by
  decide +kernel

end Document

end Offside
