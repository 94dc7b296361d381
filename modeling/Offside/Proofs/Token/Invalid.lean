import Offside.Proofs.Token.Leaves

/-!
# Invalid tokens

A piece of text that forms no token makes an invalid one, which says what is wrong. Layout keeps the
invalid tokens of a text in their order, and it ends all blocks before the end of file.
-/

namespace Offside

open Layout (isLayout)
open Token (Kind)

/-! ## The first invalid token -/

namespace Token

/-- The first invalid token, depth first through interpolations. -/
def firstInvalid? (tokens : List Token) : Option Token :=
  (nestedAll tokens).find? (·.kind == .invalid)

theorem firstInvalid?_eq_none_iff {tokens : List Token} :
    firstInvalid? tokens = none ↔ ∀ token ∈ nestedAll tokens, token.kind ≠ .invalid := by
  simp [firstInvalid?]

theorem firstInvalid?_cons (token : Token) (rest : List Token) :
    firstInvalid? (token :: rest) = (firstInvalid? [token]).or (firstInvalid? rest) := by
  rw [firstInvalid?, nestedAll_cons, List.find?_append, firstInvalid?, firstInvalid?]

theorem firstInvalid?_of_invalid {token : Token} (invalid : token.kind = .invalid)
    (rest : List Token) : firstInvalid? (token :: rest) = some token := by
  rw [firstInvalid?, nestedAll, nested_eq, List.cons_append,
    List.find?_cons_of_pos (by simp [invalid])]

/-- What is invalid in a literal is so in one of its expressions. -/
theorem firstInvalid?_literal {token : Token} {segments : List Segment}
    (isString : token.kind = .string) (payload : token.payload = .segments segments) :
    firstInvalid? [token] = (Segment.nestedAll segments).find? (·.kind == .invalid) := by
  rw [firstInvalid?, nestedAll, nestedAll, List.append_nil, nested_eq,
    List.find?_cons_of_neg (by simp [isString]), payload]
  rfl

/-- A valid token other than a literal holds no invalid ones. -/
theorem firstInvalid?_of_valid {token : Token} (scanned : token.Scanned)
    (other : token.kind ≠ .string) (valid : token.kind ≠ .invalid) :
    firstInvalid? [token] = none := by
  rw [firstInvalid?, scanned.nestedAll_singleton other,
    List.find?_cons_of_neg (by simp [valid]), List.find?_nil]

/-! ## Layout -/

/-- Layout keeps the invalid tokens, and it ends every block. -/
theorem firstInvalid?_normalize {tokens output : List Token} (raw : Raw tokens)
    (regular : Regular tokens) (found : Layout.normalize tokens = .ok output) :
    firstInvalid? output = firstInvalid? tokens ∧ Layout.starts output = Layout.ends output := by
  have unseen {token : Token} (valid : token.kind ≠ .invalid) :
      Option.guard (·.kind == .invalid) token = none := by
    simp [Option.guard, valid]
  have kept := (regular_normalize raw regular found).2.2 (Option.guard (·.kind == .invalid))
    (fun token layout => unseen fun invalid => by rw [invalid] at layout; cases layout)
    fun depth token dropped => unseen fun invalid => by rw [invalid] at dropped; cases dropped
  refine ⟨?_, ?_⟩
  · rw [firstInvalid?, List.find?_eq_findSome?_guard, ← List.head?_filterMap, kept,
      List.head?_filterMap, ← List.find?_eq_findSome?_guard, firstInvalid?]
  · obtain ⟨before, last, rfl, isEnd, isRaw⟩ := raw
    have layoutless (token : Token) (member : token ∈ before) : isLayout token.kind = false := by
      simpa using (Bool.and_eq_true_iff.mp (isRaw token member)).1
    have nested := (Layout.run_spec Layout.sound_initial (List.forall_mem_append.mpr
      ⟨layoutless, List.forall_mem_singleton.mpr (by rw [isEnd]; rfl)⟩) found).2.1
    simpa [Layout.State.initial] using nested.total

end Token

/-! ## What invalid tokens say -/

/-- A message that does not start like one about something expected. -/
def IsComplaint (message : String) : Prop := message.toList.take 2 ≠ ['E', 'x']

instance (message : String) : Decidable (IsComplaint message) :=
  inferInstanceAs (Decidable (message.toList.take 2 ≠ ['E', 'x']))

theorem isComplaint_append {start : String} (complains : IsComplaint start)
    (long : 2 ≤ start.toList.length) (rest : String) : IsComplaint (start ++ rest) := by
  rw [IsComplaint, String.toList_append, List.take_append_of_le_length long]
  exact complains

theorem Literal.Defect.isComplaint_message (defect : Literal.Defect) :
    IsComplaint defect.message := by
  cases defect with
  | invalidEscape c => exact isComplaint_append (by decide) (by decide) _
  | _ => decide

theorem Layout.Defect.isComplaint_message (defect : Layout.Defect) :
    IsComplaint defect.message := by
  cases defect with
  | missingBlock opener =>
      have message : (Layout.Defect.missingBlock opener).message =
          "expected an indented block after '" ++ (opener.payload.shown ++ "'") :=
        String.append_assoc
      rw [message]
      exact isComplaint_append (by decide) (by decide) _
  | _ => decide

namespace Lexeme

theorem complains_token? {previous : Option Char} {c : Char} {rest : List Char}
    {location : Location} {segments : List Segment} {token : Token}
    (found : (read previous c rest).token? location segments = .ok (some token))
    (invalid : token.kind = .invalid) :
    ∃ message, token.payload = .text message ∧ IsComplaint message := by
  have operators : ∀ entry ∈ ("!", .bang) :: Token.operators, entry.2 ≠ .invalid := by decide
  have keywords : ∀ entry ∈ Token.keywords, entry.2 ≠ .invalid := by decide
  have yields := yields_of_token? found
  generalize lexeme : read previous c rest = other at yields
  cases yields with
  | operator => exact absurd invalid (operators _ (read_operator lexeme))
  | keyword member => exact absurd invalid (keywords _ member)
  | broken quote items defect => exact ⟨_, rfl, defect.isComplaint_message⟩
  | stray => exact ⟨_, rfl, isComplaint_append (by decide) (by decide) _⟩
  | _ => cases invalid

end Lexeme

namespace Token

theorem complains_of_mem {previous : Option Char} {location : Location} {chars : List Char}
    {tokens : List Token} (found : scanFrom previous location chars = .ok tokens) :
    ∀ token ∈ tokens, token.kind = .invalid →
      ∃ message, token.payload = .text message ∧ IsComplaint message := by
  replace found := scanning_of_scanFrom found
  induction found with
  | done => simp [inserted]
  | lexeme _ _ tokenFound _ ih =>
      refine List.forall_mem_append.mpr ⟨fun token member => ?_, ih⟩
      obtain rfl := Option.mem_toList.mp member
      exact Lexeme.complains_token? tokenFound

/-- An invalid token says what is wrong with the text. -/
theorem complains_scanFrom {previous : Option Char} {location : Location} {chars : List Char}
    {tokens : List Token} (counted : location.Counted)
    (found : scanFrom previous location chars = .ok tokens) :
    ∀ token ∈ nestedAll tokens, token.kind = .invalid →
      ∃ message, token.payload = .text message ∧ IsComplaint message := by
  refine forall_mem_nestedAll.mpr fun token member => ?_
  rw [nested_eq, List.forall_mem_cons]
  refine ⟨complains_of_mem found token member, forall_mem_segments.mpr ?_⟩
  intro inner text part
  obtain ⟨place, chars', counted', shorter, innerFound⟩ :=
    exists_of_mem_parts counted found member part
  exact complains_scanFrom counted' innerFound
termination_by chars.length
decreasing_by exact shorter

end Token

end Offside
