import Offside.Proofs.Value.Linked
import Offside.Value.Equality

/-!
# Equality of values is an equivalence

Two values are equal when they have the same content, in which numbers stand for their exact values
and a range for the list of its elements; a value with a double in it that is not a number has none.
The comparison has an answer whenever the ranges in the values can be counted.
-/

namespace Offside

/-! ## Exact numbers -/

theorem Number.Exact.equal_iff {left right : Number.Exact} :
    left.equal right ↔ left = right ∧ left ≠ .undefined := by
  cases left <;> cases right <;> simp [equal]

/-- Numbers are equal if they have the same exact value. -/
theorem Numeral.equal_iff {left right : Numeral} :
    left.equal right ↔ left.exact = right.exact ∧ left.exact ≠ .undefined := by
  cases left with
  | float x => exact Number.Exact.equal_iff
  | int m =>
      cases right with
      | float y => exact Number.Exact.equal_iff
      | int n => simp [equal, exact, Number.Exact.ofInt]

namespace Value

/-! ## Kinds and parts of values -/

/-- The kinds of values; those of the same kind may be equal. -/
inductive Kind where
  | truth
  | number
  | text
  | unit
  | sequence
  | tuple
  | function
  deriving DecidableEq

/-- The kind of a value. -/
def kind : Value → Kind
  | .bool _ => .truth
  | .int _ | .float _ => .number
  | .string _ => .text
  | .unit => .unit
  | .list _ | .range _ _ => .sequence
  | .tuple _ => .tuple
  | .closure .. | .builtin .. => .function

/-- What tells a function from others: the number it was given when it was made, and whether it is
built in. -/
inductive Identity where
  | closure (identity : Nat)
  | builtin (function : Builtin) (identity : Option Nat)
  deriving DecidableEq

/-- The identity of a function. -/
def identity? : Value → Option Identity
  | .closure _ _ _ _ _ identity => some (.closure identity)
  | .builtin function _ identity => some (.builtin function identity)
  | _ => none

/-- A value is a part of another one, at any depth of its lists and tuples. -/
inductive Occurs (part : Value) : Value → Prop where
  | whole : Occurs part part
  | list {items : List Value} {item : Value} (member : item ∈ items) (occurs : Occurs part item) :
      Occurs part (.list items)
  | tuple {items : List Value} {item : Value} (member : item ∈ items) (occurs : Occurs part item) :
      Occurs part (.tuple items)

/-- No range in a value has too many elements to be counted. -/
def Countable (value : Value) : Prop :=
  ∀ low high, Occurs (.range low high) value → rangeLength low high ≤ Overflow.lengthLimit

theorem countable_list {items : List Value} :
    Countable (.list items) ↔ ∀ item ∈ items, Countable item := by
  constructor
  · exact fun countable item member low high occurs => countable low high (.list member occurs)
  · intro each low high occurs
    cases occurs with
    | list member occurs => exact each _ member low high occurs

theorem countable_tuple {items : List Value} :
    Countable (.tuple items) ↔ ∀ item ∈ items, Countable item := by
  constructor
  · exact fun countable item member low high occurs => countable low high (.tuple member occurs)
  · intro each low high occurs
    cases occurs with
    | tuple member occurs => exact each _ member low high occurs

theorem countable_ofNumeral (number : Numeral) : Countable (ofNumeral number) := by
  intro low high occurs
  cases number <;> cases occurs

theorem countable_range {low high : Int} (counted : rangeLength low high ≤ Overflow.lengthLimit) :
    Countable (.range low high) := by
  rintro _ _ ⟨⟩
  exact counted

/-- A double in a value is not a number. -/
def HasNaN (value : Value) : Prop :=
  ∃ x, Number.decode x = .undefined ∧ Occurs (.float x) value

/-- The second value is the first one with some of its ranges, at any depth, written out as the
lists of their elements. -/
inductive WrittenOut : Value → Value → Prop where
  | same (value : Value) : WrittenOut value value
  | range (low high : Int) :
      WrittenOut (.range low high) (.list (integersFrom low (rangeLength low high)))
  | list {items items' : List Value} (each : List.Forall₂ WrittenOut items items') :
      WrittenOut (.list items) (.list items')
  | tuple {items items' : List Value} (each : List.Forall₂ WrittenOut items items') :
      WrittenOut (.tuple items) (.tuple items')

/-! ## Contents -/

/-- Two partial results are both there and the same. -/
def Agree {α : Type} (left right : Option α) : Prop :=
  ∃ result, left = some result ∧ right = some result

section Agree

variable {α β : Type} {left middle right : Option α}

theorem Agree.symm (agree : Agree left right) : Agree right left :=
  agree.imp fun _ => And.symm

theorem Agree.trans (first : Agree left middle) (second : Agree middle right) :
    Agree left right := by
  obtain ⟨result, found, rfl⟩ := first
  obtain ⟨_, ⟨⟩, found'⟩ := second
  exact ⟨result, found, found'⟩

theorem agree_self : Agree left left ↔ left ≠ none := by
  cases left <;> simp [Agree]

@[simp]
theorem agree_some {result : α} : Agree left (some result) ↔ left = some result := by
  simp [Agree]

@[simp]
theorem some_agree {result : α} : Agree (some result) right ↔ right = some result := by
  simp [Agree]

theorem agree_map {f : α → β} (injective : ∀ {a b}, f a = f b → a = b) :
    Agree (left.map f) (right.map f) ↔ Agree left right := by
  cases left with
  | none => simp [Agree]
  | some result =>
      cases right with
      | none => simp [Agree]
      | some result' => simpa using ⟨injective, congrArg f⟩

end Agree

/-- What equality sees of a value. -/
inductive Content where
  | truth (value : Bool)
  | number (value : Number.Exact)
  | text (value : String)
  | unit
  | sequence (items : List Content)
  | tuple (items : List Content)
  | function (identity : Identity)

/-- The kind of the values with a content. -/
def Content.kind : Content → Kind
  | .truth _ => .truth
  | .number _ => .number
  | .text _ => .text
  | .unit => .unit
  | .sequence _ => .sequence
  | .tuple _ => .tuple
  | .function _ => .function

/-- The `count` integers from `low` on, as contents. -/
def Content.integersFrom (low : Int) : (count : Nat) → List Content
  | 0 => []
  | count + 1 => .number (.ofInt low) :: integersFrom (low + 1) count

mutual

/-- The content of a value, if all doubles in it are numbers. -/
def content? : Value → Option Content
  | .bool value => some (.truth value)
  | .int value => some (.number (.ofInt value))
  | .float value =>
    if Number.Exact.ofFloat value = .undefined then none else some (.number (.ofFloat value))
  | .string value => some (.text value)
  | .unit => some .unit
  | .list items => (contents? items).map .sequence
  | .tuple items => (contents? items).map .tuple
  | .range low high => some (.sequence (Content.integersFrom low (rangeLength low high)))
  | .closure _ _ _ _ _ identity => some (.function (.closure identity))
  | .builtin function _ identity => some (.function (.builtin function identity))

/-- The contents of values. -/
def contents? : List Value → Option (List Content)
  | [] => some []
  | item :: items => item.content?.bind fun first => (contents? items).map (first :: ·)

end

/-- Values with the same content. -/
abbrev Same (left right : Value) : Prop := Agree left.content? right.content?

theorem kind_of_content? {value : Value} {content : Content}
    (found : value.content? = some content) : content.kind = value.kind := by
  cases value with
  | float x =>
      obtain ⟨-, ⟨⟩⟩ := Option.ite_none_left_eq_some.mp found
      rfl
  | list items | tuple items =>
      obtain ⟨_, -, rfl⟩ := Option.map_eq_some_iff.mp found
      rfl
  | _ =>
      obtain rfl := Option.some.inj found
      rfl

theorem contents?_cons_eq_some {item : Value} {items : List Value} {content : Content}
    {contents : List Content} : contents? (item :: items) = some (content :: contents) ↔
      item.content? = some content ∧ contents? items = some contents := by
  simp [contents?, Option.bind_eq_some_iff]

theorem contents?_eq_none {items : List Value} :
    contents? items = none ↔ ∃ item ∈ items, item.content? = none := by
  induction items with
  | nil => simp [contents?]
  | cons item items ih => cases found : item.content? <;> simp [contents?, found, ih]

theorem length_of_contents? {items : List Value} {contents : List Content}
    (found : contents? items = some contents) : contents.length = items.length := by
  induction items generalizing contents with
  | nil =>
      obtain rfl := Option.some.inj found
      rfl
  | cons item items ih =>
      obtain ⟨_, -, later⟩ := Option.bind_eq_some_iff.mp found
      obtain ⟨_, others, rfl⟩ := Option.map_eq_some_iff.mp later
      exact congrArg (· + 1) (ih others)

theorem contents?_integersFrom (low : Int) (count : Nat) :
    contents? (integersFrom low count) = some (Content.integersFrom low count) := by
  induction count generalizing low with
  | zero => rfl
  | succ count ih => exact contents?_cons_eq_some.mpr ⟨rfl, ih (low + 1)⟩

theorem Content.length_integersFrom (low : Int) (count : Nat) :
    (integersFrom low count).length = count := by
  induction count generalizing low with
  | zero => rfl
  | succ count ih => exact congrArg (· + 1) (ih (low + 1))

theorem ofFloat_eq_undefined {x : Float} :
    Number.Exact.ofFloat x = .undefined ↔ Number.decode x = .undefined := by
  unfold Number.Exact.ofFloat
  split <;> simp [*]

/-- The values without content are those with a double in them that is not a number. -/
theorem content?_eq_none {value : Value} : value.content? = none ↔ value.HasNaN := by
  constructor
  · intro missing
    induction value using Value.induction with
    | float x =>
        refine ⟨x, ofFloat_eq_undefined.mp ?_, .whole⟩
        by_contra defined
        rw [content?, if_neg defined] at missing
        cases missing
    | list items ih =>
        obtain ⟨item, member, missing⟩ := contents?_eq_none.mp (Option.map_eq_none_iff.mp missing)
        obtain ⟨x, nan, occurs⟩ := ih item member missing
        exact ⟨x, nan, .list member occurs⟩
    | tuple items ih =>
        obtain ⟨item, member, missing⟩ := contents?_eq_none.mp (Option.map_eq_none_iff.mp missing)
        obtain ⟨x, nan, occurs⟩ := ih item member missing
        exact ⟨x, nan, .tuple member occurs⟩
    | _ => cases missing
  · rintro ⟨x, nan, occurs⟩
    induction occurs with
    | whole => rw [content?, if_pos (ofFloat_eq_undefined.mpr nan)]
    | list member _ ih => rw [content?, contents?_eq_none.mpr ⟨_, member, ih⟩, Option.map_none]
    | tuple member _ ih => rw [content?, contents?_eq_none.mpr ⟨_, member, ih⟩, Option.map_none]

theorem contents?_of_forall₂ {items items' : List Value}
    (each : List.Forall₂ (fun item item' => item.content? = item'.content?) items items') :
    contents? items = contents? items' := by
  induction each with
  | nil => rfl
  | cons same _ ih => rw [contents?, contents?, same, ih]

/-- A range has the content of the list of its elements, wherever it stands. -/
theorem WrittenOut.content?_eq {value value' : Value} (written : WrittenOut value value') :
    value.content? = value'.content? := by
  induction value using Value.induction generalizing value' with
  | list items ih =>
      cases written with
      | same => rfl
      | list each =>
          rw [content?, content?, contents?_of_forall₂ (forall₂_imp_of_mem each
            fun item member _ => ih item member)]
  | tuple items ih =>
      cases written with
      | same => rfl
      | tuple each =>
          rw [content?, content?, contents?_of_forall₂ (forall₂_imp_of_mem each
            fun item member _ => ih item member)]
  | range low high =>
      cases written with
      | same => rfl
      | range => rw [content?, content?, contents?_integersFrom, Option.map_some]
  | _ =>
      cases written
      rfl

/-! ## Comparisons -/

/-- A comparison has an answer, which says whether `P` holds. -/
def Decides (comparison : Except Overflow Bool) (P : Prop) : Prop :=
  ∃ same : Bool, comparison = .ok same ∧ (same ↔ P)

theorem decides_ok {same : Bool} {P : Prop} (correct : same ↔ P) : Decides (.ok same) P :=
  ⟨same, rfl, correct⟩

theorem decides_false {P : Prop} (differ : ¬P) : Decides (.ok false) P :=
  decides_ok (by simpa using differ)

theorem Decides.congr {comparison : Except Overflow Bool} {P Q : Prop}
    (decides : Decides comparison P) (same : P ↔ Q) : Decides comparison Q :=
  propext same ▸ decides

theorem Decides.eq_true_iff {comparison : Except Overflow Bool} {P : Prop}
    (decides : Decides comparison P) : comparison = .ok true ↔ P := by
  obtain ⟨same, rfl, correct⟩ := decides
  rw [← correct, Except.ok.injEq]

theorem content?_ofNumeral (number : Numeral) : (ofNumeral number).content? =
    if number.exact = .undefined then none else some (.number number.exact) := by
  cases number with
  | int n => rfl
  | float x => rfl

theorem equal_numerals_iff {left right : Numeral} :
    left.equal right ↔ Same (ofNumeral left) (ofNumeral right) := by
  rw [Numeral.equal_iff, Same, content?_ofNumeral, content?_ofNumeral]
  by_cases undefined : left.exact = .undefined
  · simp [undefined, Agree]
  · rw [if_neg undefined, some_agree, Option.ite_none_left_eq_some]
    constructor
    · rintro ⟨same, -⟩
      exact ⟨same ▸ undefined, same ▸ rfl⟩
    · rintro ⟨-, same⟩
      exact ⟨(Content.number.inj (Option.some.inj same)).symm, undefined⟩

section Ranges

variable {low high low' high' : Int} {items : List Value}

theorem countRange_eq (counted : rangeLength low high ≤ Overflow.lengthLimit) :
    countRange low high = .ok (rangeLength low high) :=
  if_neg (Nat.not_lt.mpr counted)

theorem equalsInt_iff {item : Value} :
    equalsInt low item ↔ item.content? = some (.number (.ofInt low)) := by
  cases item with
  | int n => exact (@equal_numerals_iff (.int n) (.int low)).trans agree_some
  | float x => exact (@equal_numerals_iff (.float x) (.int low)).trans agree_some
  | _ => simp [equalsInt, numeral?, content?]

theorem equalIntegers_iff : equalIntegers low items ↔
    contents? items = some (Content.integersFrom low items.length) := by
  induction items generalizing low with
  | nil => simp [equalIntegers, contents?, Content.integersFrom]
  | cons item items ih =>
      rw [equalIntegers, Bool.and_eq_true, equalsInt_iff, ih, List.length_cons,
        Content.integersFrom, contents?_cons_eq_some]

theorem decides_equalRange (counted : rangeLength low high ≤ Overflow.lengthLimit) :
    Decides (equalRange items low high)
      (contents? items = some (Content.integersFrom low (rangeLength low high))) := by
  rw [equalRange, countRange_eq counted]
  refine decides_ok ?_
  rw [Bool.and_eq_true, equalIntegers_iff, beq_iff_eq]
  constructor
  · rintro ⟨length, same⟩
    rw [same, length]
  · intro same
    have length := length_of_contents? same
    rw [Content.length_integersFrom] at length
    exact ⟨length.symm, length ▸ same⟩

theorem decides_equalRanges (counted : rangeLength low high ≤ Overflow.lengthLimit)
    (counted' : rangeLength low' high' ≤ Overflow.lengthLimit) :
    Decides (equalRanges low high low' high')
      (Content.integersFrom low (rangeLength low high) =
        Content.integersFrom low' (rangeLength low' high')) := by
  rw [equalRanges, countRange_eq counted, countRange_eq counted']
  refine decides_ok ?_
  generalize rangeLength low high = count
  generalize rangeLength low' high' = count'
  rw [Bool.and_eq_true, Bool.or_eq_true, beq_iff_eq, beq_iff_eq, beq_iff_eq]
  constructor
  · rintro ⟨rfl, rfl | rfl⟩ <;> rfl
  · intro same
    have length := congrArg List.length same
    rw [Content.length_integersFrom, Content.length_integersFrom] at length
    subst length
    cases count with
    | zero => exact ⟨rfl, .inl rfl⟩
    | succ count =>
        refine ⟨rfl, .inr ?_⟩
        rw [Content.integersFrom, Content.integersFrom, List.cons.injEq] at same
        simpa [Number.Exact.ofInt, Rat.intCast_inj] using same.1

theorem equalAll_integersFrom (low low' : Int) (count : Nat) :
    equalAll (integersFrom low count) (integersFrom low' count) =
      .ok (count == 0 || low == low') := by
  induction count generalizing low low' with
  | zero => rfl
  | succ count ih =>
      have first : equal (.int low) (.int low') = .ok (low == low') := rfl
      rw [integersFrom, integersFrom, equalAll, first]
      change (if (low == low') = true then _ else _) = _
      split
      · next same => simp [ih, beq_iff_eq.mp same]
      · next differ =>
        rw [Bool.eq_false_iff.mpr differ]
        rfl

/-- Two ranges are compared as the lists of their elements are. -/
theorem equalRanges_eq (counted : rangeLength low high ≤ Overflow.lengthLimit)
    (counted' : rangeLength low' high' ≤ Overflow.lengthLimit) :
    equalRanges low high low' high' = equal (.list (integersFrom low (rangeLength low high)))
      (.list (integersFrom low' (rangeLength low' high'))) := by
  rw [equalRanges, countRange_eq counted, countRange_eq counted', equal, length_integersFrom,
    length_integersFrom]
  change Except.ok _ = _
  split
  · next same => rw [← beq_iff_eq.mp same, equalAll_integersFrom, beq_self_eq_true, Bool.true_and]
  · next differ => rw [Bool.eq_false_iff.mpr differ, Bool.false_and]

end Ranges

/-- Lists of values are compared item by item. -/
theorem decides_equalAll {lefts rights : List Value} (length : lefts.length = rights.length)
    (each : ∀ left ∈ lefts, ∀ right ∈ rights, Decides (left.equal right) (Same left right)) :
    Decides (equalAll lefts rights) (Agree (contents? lefts) (contents? rights)) := by
  induction lefts generalizing rights with
  | nil =>
      cases rights with
      | nil => exact decides_ok (by simp [contents?])
      | cons => cases length
  | cons left lefts ih =>
      cases rights with
      | nil => cases length
      | cons right rights =>
          have later := ih (Nat.succ.inj length) fun left member right member' =>
            each left (List.mem_cons_of_mem _ member) right (List.mem_cons_of_mem _ member')
          obtain ⟨same, first, correct⟩ := each left List.mem_cons_self right List.mem_cons_self
          rw [equalAll, first, contents?, contents?]
          cases same with
          | true =>
              obtain ⟨content, found, found'⟩ := correct.mp rfl
              rw [found, found']
              refine later.congr (agree_map ?_).symm
              intro contents contents' same
              exact (List.cons.inj same).2
          | false =>
              refine decides_false ?_
              rintro ⟨contents, found, found'⟩
              obtain ⟨content, first, later⟩ := Option.bind_eq_some_iff.mp found
              obtain ⟨content', first', later'⟩ := Option.bind_eq_some_iff.mp found'
              obtain ⟨_, -, rfl⟩ := Option.map_eq_some_iff.mp later
              obtain ⟨_, -, same⟩ := Option.map_eq_some_iff.mp later'
              obtain rfl := (List.cons.inj same).1
              cases correct.mpr ⟨content', first, first'⟩

theorem decides_items {lefts rights : List Value}
    (each : ∀ left ∈ lefts, ∀ right ∈ rights, Decides (left.equal right) (Same left right)) :
    Decides (if lefts.length == rights.length then equalAll lefts rights else .ok false)
      (Agree (contents? lefts) (contents? rights)) := by
  by_cases length : lefts.length = rights.length
  · rw [if_pos (beq_iff_eq.mpr length)]
    exact decides_equalAll length each
  · rw [if_neg (by simpa using length)]
    refine decides_false ?_
    rintro ⟨contents, found, found'⟩
    exact length ((length_of_contents? found).symm.trans (length_of_contents? found'))

/-- Values of different kinds are different. -/
theorem equal_of_kind_ne {left right : Value} (other : left.kind ≠ right.kind) :
    left.equal right = .ok false := by
  cases left <;> cases right <;> first | rfl | exact absurd rfl other

/-- Functions are the same if they have the same identity. -/
theorem equal_functions {left right : Value} {identity identity' : Identity}
    (isFunction : left.identity? = some identity) (isFunction' : right.identity? = some identity') :
    left.equal right = .ok (decide (identity = identity')) := by
  cases left <;> cases isFunction <;> cases right <;> cases isFunction' <;>
    simp [Value.equal, numeral?, Bool.decide_and, Bool.beq_eq_decide_eq]

/-- A comparison of values with contents. -/
theorem decides_contents {left right : Value} {content content' : Content}
    (found : left.content? = some content) (found' : right.content? = some content') {same : Bool}
    (correct : same ↔ content = content') : Decides (.ok same) (Same left right) := by
  refine decides_ok (correct.trans ?_)
  rw [Same, found, found', agree_some, Option.some.injEq]

theorem decides_of_kind_ne {left right : Value} (other : left.kind ≠ right.kind) :
    Decides (left.equal right) (Same left right) := by
  rw [equal_of_kind_ne other]
  refine decides_false ?_
  rintro ⟨content, found, found'⟩
  exact other ((kind_of_content? found).symm.trans (kind_of_content? found'))

theorem decides_functions {left right : Value} {identity identity' : Identity}
    (isFunction : left.identity? = some identity) (isFunction' : right.identity? = some identity') :
    Decides (left.equal right) (Same left right) := by
  have content {value : Value} {identity : Identity} (found : value.identity? = some identity) :
      value.content? = some (.function identity) := by
    cases value <;> cases found <;> rfl
  rw [equal_functions isFunction isFunction']
  exact decides_contents (content isFunction) (content isFunction') (by simp)

/-- A comparison of values whose ranges can be counted says whether they have the same content. -/
theorem decides_equal {left right : Value} (countable : Countable left)
    (countable' : Countable right) : Decides (left.equal right) (Same left right) := by
  induction left using Value.induction generalizing right with
  | bool value =>
      cases right with
      | bool value' => exact decides_contents rfl rfl (by simp)
      | _ => exact decides_of_kind_ne (by rintro ⟨⟩)
  | int m =>
      cases right with
      | int n => exact decides_ok (@equal_numerals_iff (.int m) (.int n))
      | float y => exact decides_ok (@equal_numerals_iff (.int m) (.float y))
      | _ => exact decides_of_kind_ne (by rintro ⟨⟩)
  | float x =>
      cases right with
      | int n => exact decides_ok (@equal_numerals_iff (.float x) (.int n))
      | float y => exact decides_ok (@equal_numerals_iff (.float x) (.float y))
      | _ => exact decides_of_kind_ne (by rintro ⟨⟩)
  | string value =>
      cases right with
      | string value' => exact decides_contents rfl rfl (by simp)
      | _ => exact decides_of_kind_ne (by rintro ⟨⟩)
  | unit =>
      cases right with
      | unit => exact decides_contents rfl rfl (by simp)
      | _ => exact decides_of_kind_ne (by rintro ⟨⟩)
  | list items ih =>
      cases right with
      | list items' =>
          rw [Value.equal, Same, content?, content?, agree_map Content.sequence.inj]
          exact decides_items fun item member item' member' =>
            ih item member (countable_list.mp countable item member)
              (countable_list.mp countable' item' member')
      | range low high =>
          rw [Value.equal, Same, content?, content?, agree_some, Option.map_eq_some_iff]
          exact (decides_equalRange (countable' low high .whole)).congr (by simp)
      | _ => exact decides_of_kind_ne (by rintro ⟨⟩)
  | tuple items ih =>
      cases right with
      | tuple items' =>
          rw [Value.equal, Same, content?, content?, agree_map Content.tuple.inj]
          exact decides_items fun item member item' member' =>
            ih item member (countable_tuple.mp countable item member)
              (countable_tuple.mp countable' item' member')
      | _ => exact decides_of_kind_ne (by rintro ⟨⟩)
  | range low high =>
      cases right with
      | list items' =>
          rw [Value.equal, Same, content?, content?, some_agree, Option.map_eq_some_iff]
          exact (decides_equalRange (countable low high .whole)).congr (by simp)
      | range low' high' =>
          rw [Value.equal, Same, content?, content?, agree_some, Option.some.injEq,
            Content.sequence.injEq]
          exact decides_equalRanges (countable low high .whole) (countable' low' high' .whole)
      | _ => exact decides_of_kind_ne (by rintro ⟨⟩)
  | closure | builtin =>
      cases right with
      | closure | builtin => exact decides_functions rfl rfl
      | _ => exact decides_of_kind_ne (by rintro ⟨⟩)

/-! ## An equivalence -/

/-- Equality of values whose ranges can be counted is symmetric and transitive, and reflexive on
those without doubles that are not numbers. Numbers are compared exactly, a range at any depth
equals the list of its elements, values of different kinds are different, and functions are compared
by identity. -/
theorem equal_equivalence {first second third : Value} (countable : Countable first)
    (countable' : Countable second) (countable'' : Countable third) :
    (∃ same, first.equal second = .ok same ∧ second.equal first = .ok same) ∧
      (first.equal second = .ok true → second.equal third = .ok true →
        first.equal third = .ok true) ∧
      (first.equal first = .ok true ↔ ¬first.HasNaN) ∧
      (∀ {left right : Numeral}, first = ofNumeral left → second = ofNumeral right →
        (first.equal second = .ok true ↔ left.exact = right.exact ∧ left.exact ≠ .undefined)) ∧
      (WrittenOut first second → ¬first.HasNaN → first.equal second = .ok true) ∧
      (first.kind ≠ second.kind → first.equal second = .ok false) ∧
      ∀ {identity identity'}, first.identity? = some identity → second.identity? = some identity' →
        first.equal second = .ok (decide (identity = identity')) := by
  have same := decides_equal countable countable'
  refine ⟨?_, fun left right => ?_, ?_, ?_, fun written defined => ?_, equal_of_kind_ne,
    equal_functions⟩
  · obtain ⟨answer, found, correct⟩ := same
    obtain ⟨answer', found', correct'⟩ := decides_equal countable' countable
    refine ⟨answer, found, found'.trans (congrArg _ (Bool.eq_iff_iff.mpr ?_))⟩
    exact correct'.trans (Iff.trans ⟨Agree.symm, Agree.symm⟩ correct.symm)
  · have left := same.eq_true_iff.mp left
    have right := (decides_equal countable' countable'').eq_true_iff.mp right
    exact (decides_equal countable countable'').eq_true_iff.mpr (left.trans right)
  · rw [(decides_equal countable countable).eq_true_iff, Same, agree_self, Ne, content?_eq_none]
  · rintro left right rfl rfl
    rw [same.eq_true_iff, ← equal_numerals_iff, Numeral.equal_iff]
  · refine same.eq_true_iff.mpr ?_
    rw [Same, ← written.content?_eq, agree_self, Ne, content?_eq_none]
    exact defined

/-- A range in a list, and lists in its place with integers and doubles. -/
theorem equal_equivalence_nested :
    let ranged := Value.list [.int 1, .range 2 3]
    let mixed := Value.list [.float 1, .list [.float 2, .int 3]]
    let whole := Value.list [.int 1, .list [.int 2, .int 3]]
    Countable ranged ∧ Countable mixed ∧ Countable whole ∧ ranged.equal mixed = .ok true ∧
      mixed.equal whole = .ok true ∧ ranged.equal whole = .ok true := by
  intro ranged mixed whole
  have int (n : Int) : Countable (.int n) := countable_ofNumeral (.int n)
  have float (x : Float) : Countable (.float x) := countable_ofNumeral (.float x)
  have range : Countable (.range 2 3) := countable_range (by decide)
  have countable : Countable ranged := by simp [ranged, countable_list, int, range]
  have countable' : Countable mixed := by simp [mixed, countable_list, int, float]
  have countable'' : Countable whole := by simp [whole, countable_list, int]
  have same : ranged.equal mixed = .ok true := by decide +kernel
  have same' : mixed.equal whole = .ok true := by decide +kernel
  exact ⟨countable, countable', countable'', same, same',
    (equal_equivalence countable countable' countable'').2.1 same same'⟩

end Value

end Offside
