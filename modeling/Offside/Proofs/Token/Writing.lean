import Offside.Proofs.Token.Interpolation

/-!
# Literals are read as they were written

A text is written between quotes with a backslash before what would end the literal, and a template
also doubles the braces of its texts. Each character that is written is read as one item, and an
interpolation as another, whatever stands next to it; so the segments of the literal are the parts
that were written.
-/

namespace Offside.Token

open Literal (Item backquote isQuote slices)

/-- A part of a template. -/
inductive Part where
  | text (content : String)
  | interpolation (source : String)

namespace Part

/-- The characters of a part in a template. -/
def written : Part → List Char
  | .text content => content.toList.flatMap (spelling backquote)
  | .interpolation source => '\x7b' :: (source.toList ++ ['\x7d'])

/-- The items of a part in a template. -/
def items : Part → List Item
  | .text content => content.toList.map (spelledItem backquote)
  | .interpolation source => [.interpolation source.toList]

/-- A part that can be told from its neighbours: a text that is not empty, or the source of an
expression that is not blank, without quotes, braces, line feeds and overlong integer literals. -/
def Writable : Part → Prop
  | .text content => content ≠ ""
  | .interpolation source => Text.isBlank source.toList = false ∧
      (∀ c ∈ source.toList, isQuote c = false ∧ c ≠ '\x7b' ∧ c ≠ '\x7d' ∧ c ≠ '\n') ∧
      InBounds none source.toList

/-- Two parts that are not both texts. -/
def Apart : Part → Part → Prop
  | .text _, .text _ => False
  | _, _ => True

/-- The segment of a part; that of an interpolation has the tokens of its source. -/
def Decoded : Part → Segment → Prop
  | .text content, segment => segment = .text content
  | .interpolation source, segment =>
    ∃ place tokens, scanAt place source = .ok tokens ∧ segment = .expression tokens source

theorem slices_items (part : Part) : slices part.items = part.written := by
  cases part with
  | text content => exact slices_spelled backquote content.toList
  | interpolation source => simp [slices, items, written, Item.slice]

theorem slices_flatMap_items (parts : List Part) :
    slices (parts.flatMap items) = parts.flatMap written := by
  rw [slices, List.flatMap_assoc]
  exact congrArg (parts.flatMap ·) (funext slices_items)

/-- A part is read as its items. -/
theorem Writable.stand {part : Part} (writable : part.Writable) :
    ∀ item ∈ part.items, item.Stands backquote := by
  cases part with
  | text content => exact List.forall_mem_map.mpr fun c _ => stands_spelledItem rfl c
  | interpolation source =>
      obtain ⟨filled, plain, -⟩ := writable
      have nested : Literal.nesting 0 source.toList = some 0 := by
        generalize source.toList = chars at plain
        induction chars with
        | nil => rfl
        | cons c chars ih =>
            obtain ⟨⟨-, opening, closing, -⟩, others⟩ := List.forall_mem_cons.mp plain
            simpa [Literal.nesting, Literal.braces, opening, closing] using ih others
      have passes := Literal.passes_of_nesting
        (fun c member => ⟨(plain c member).2.2.2, (plain c member).1⟩) nested 0
      have single : source.toList.head? ≠ some '\x7b' := fun brace =>
        (plain _ (List.mem_of_head? brace)).2.1 rfl
      exact List.forall_mem_singleton.mpr (.interpolation rfl passes filled single)

end Part

/-- The template of a list of parts. -/
def template (parts : List Part) : String :=
  String.ofList (backquote :: (parts.flatMap Part.written ++ [backquote]))

/-- A text between quotes. -/
def quotedBy (quote : Char) (text : String) : String :=
  String.ofList (quote :: (text.toList.flatMap (spelling quote) ++ [quote]))

/-- The parts of a template are read as their items. -/
theorem read_parts {parts : List Part} (writable : ∀ part ∈ parts, part.Writable)
    (rest : List Char) :
    Literal.read backquote (parts.flatMap Part.written ++ backquote :: rest) =
      ⟨parts.flatMap Part.items, .closed⟩ := by
  have stand : ∀ item ∈ parts.flatMap Part.items, item.Stands backquote :=
    List.forall_mem_flatMap.mpr fun part member => (writable part member).stand
  rw [← Part.slices_flatMap_items]
  exact Literal.read_quoted stand (by decide) rest

/-- The items of parts are scanned as the segments of these parts. A text has a segment of its own
since none follows it. -/
theorem exists_decoded {parts : List Part} (writable : ∀ part ∈ parts, part.Writable)
    (apart : parts.IsChain Part.Apart) (location : Location) :
    ∃ segments, scanItems location (parts.flatMap Part.items) = .ok segments ∧
      List.Forall₂ Part.Decoded parts segments := by
  induction parts generalizing location with
  | nil => exact ⟨[], by rw [List.flatMap_nil, scanItems], .nil⟩
  | cons part parts ih =>
      obtain ⟨first, others⟩ := List.forall_mem_cons.mp writable
      rw [List.flatMap_cons]
      cases part with
      | text content =>
          obtain ⟨segments, found, decoded⟩ := ih others apart.of_cons _
          refine ⟨.text content :: segments, ?_, .cons rfl decoded⟩
          rw [Part.items, scanItems_written, found]
          refine congrArg Except.ok ((foldr_consText ?_ ?_).trans (by rw [String.ofList_toList]))
          · exact fun empty => first (String.toList_eq_nil_iff.mp empty)
          · intro text head
            cases decoded with
            | nil => cases head
            | @cons part _ _ _ here =>
                obtain rfl := Option.some.inj head
                cases part with
                | text => exact (List.isChain_cons_cons.mp apart).1
                | interpolation =>
                    obtain ⟨_, _, _, ⟨⟩⟩ := here
      | interpolation source =>
          obtain ⟨-, -, inBounds⟩ := first
          obtain ⟨tokens, scanned⟩ := exists_scanFrom_of_inBounds inBounds (location.advance '\x7b')
          obtain ⟨segments, found, decoded⟩ := ih others apart.of_cons _
          refine ⟨.expression tokens source :: segments, ?_,
            .cons ⟨_, tokens, scanned, rfl⟩ decoded⟩
          rw [Part.items, List.singleton_append, scanItems, scanned, found, String.ofList_toList]
          rfl

/-- Parts that are told from their neighbours are the segments of their template, and a text is the
only segment of a literal that writes it, or is left out if it is empty. -/
theorem scan_written (start : Location) :
    (∀ parts : List Part, (∀ part ∈ parts, part.Writable) → parts.IsChain Part.Apart →
      ∃ segments, List.Forall₂ Part.Decoded parts segments ∧
        scanAt start (template parts) = .ok [⟨.string, .segments segments, start⟩,
          inserted .endOfFile (start.advanceAll (template parts).toList)]) ∧
      ∀ quote ∈ ['"', '\''], ∀ text : String,
        scanAt start (quotedBy quote text) =
          .ok [⟨.string, .segments (if text = "" then [] else [.text text]), start⟩,
            inserted .endOfFile (start.advanceAll (quotedBy quote text).toList)] := by
  constructor
  · intro parts writable apart
    obtain ⟨segments, found, decoded⟩ := exists_decoded writable apart (start.advance backquote)
    have scans : Scans (fun _ => True) start (template parts).toList
        [⟨.string, .segments segments, start⟩] := by
      rw [template, String.toList_ofList]
      refine .lexeme (.literal backquote ⟨parts.flatMap Part.items, .closed⟩)
        (fun previous rest _ => ?_) ?_ found rfl
      · rw [Lexeme.read_quote rfl, List.append_assoc, List.singleton_append,
          read_parts writable rest]
      · simp [Lexeme.slice, Literal.Body.slice, Literal.Ending.slice, Part.slices_flatMap_items]
    exact ⟨segments, decoded, scans.whole trivial⟩
  · intro quote member text
    have quotes : isQuote quote := by
      simp only [List.mem_cons, List.not_mem_nil, or_false] at member
      rcases member with rfl | rfl <;> rfl
    have segments : textSegments text.toList = if text = "" then [] else [.text text] := by
      simp [textSegments]
    rw [← segments, quotedBy, scanAt, String.toList_ofList]
    exact (scans_written quotes text.toList start).whole trivial

/-- Interpolations between braces and next to each other. -/
theorem scan_written_braces :
    let parts : List Part := [.text "\x7b\n", .interpolation " f \\", .interpolation "1_0",
      .text "\x7d\x60"]
    (∀ part ∈ parts, part.Writable) ∧ parts.IsChain Part.Apart ∧
      template parts = "\x60\x7b\x7b\\n\x7b f \\\x7d\x7b1_0\x7d\x7d\x7d\\\x60\x60" ∧
      ∃ segments, List.Forall₂ Part.Decoded parts segments ∧
        scanAt (.start none) (template parts) = .ok [⟨.string, .segments segments, .start none⟩,
          inserted .endOfFile ((Location.start none).advanceAll (template parts).toList)] := by
  intro parts
  have inBounds (source : String) (answers : (scan source none).isOk) :
      InBounds none source.toList := by
    cases found : scan source none with
    | error overflow =>
        rw [found] at answers
        cases answers
    | ok tokens => exact inBounds_of_scanFrom found
  have first : (Part.interpolation " f \\").Writable :=
    ⟨by decide, by simp [isQuote, backquote], inBounds _ (by decide +kernel)⟩
  have second : (Part.interpolation "1_0").Writable :=
    ⟨by decide, by simp [isQuote, backquote], inBounds _ (by decide +kernel)⟩
  have writable : ∀ part ∈ parts, part.Writable := by
    have text {content : String} (filled : content ≠ "") : (Part.text content).Writable := filled
    simp [parts, first, second, text]
  have apart : parts.IsChain Part.Apart := by simp [parts, Part.Apart]
  exact ⟨writable, apart, by decide, (scan_written (.start none)).1 parts writable apart⟩

end Offside.Token
