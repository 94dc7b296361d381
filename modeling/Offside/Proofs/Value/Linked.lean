import Offside.Evaluation.Builtins
import Mathlib.Data.List.Forall2

/-!
# Values of two evaluations

Two evaluations of the same program may put corresponding scopes at different positions and give
different identities to corresponding functions. Their values then differ in nothing else, and no
operation on values tells them apart.
-/

namespace Offside

/-- Which scopes and which identities of two evaluations correspond to each other. -/
structure Links where
  scope : Nat → Nat → Prop
  identity : Nat → Nat → Prop

/-- More scopes and identities correspond. -/
structure Links.Le (links links' : Links) : Prop where
  scope : ∀ {position position'}, links.scope position position' → links'.scope position position'
  identity : ∀ {identity identity'}, links.identity identity identity' →
    links'.identity identity identity'

/-- Identities correspond one to one. -/
def Links.Unique (links : Links) : Prop :=
  ∀ {first first' second second'}, links.identity first first' → links.identity second second' →
    (first = second ↔ first' = second')

namespace Value

/-- Induction over values, with one hypothesis for each item and each argument held. -/
@[elab_as_elim]
theorem induction {motive : Value → Prop}
    (bool : ∀ value, motive (.bool value)) (int : ∀ value, motive (.int value))
    (float : ∀ value, motive (.float value)) (string : ∀ value, motive (.string value))
    (unit : motive .unit)
    (list : ∀ items, (∀ item ∈ items, motive item) → motive (.list items))
    (tuple : ∀ items, (∀ item ∈ items, motive item) → motive (.tuple items))
    (range : ∀ low high, motive (.range low high))
    (closure : ∀ parameters body scope bound name identity, (∀ value ∈ bound, motive value) →
      motive (.closure parameters body scope bound name identity))
    (builtin : ∀ function bound identity, (∀ value ∈ bound, motive value) →
      motive (.builtin function bound identity))
    (value : Value) : motive value :=
  @Value.rec motive (fun values => ∀ value ∈ values, motive value)
    bool int float string unit list tuple range closure builtin (by simp)
    (fun _ _ first rest => by simpa using ⟨first, rest⟩) value

/-- Values that differ in nothing but corresponding scopes and identities. -/
inductive Linked (links : Links) : Value → Value → Prop
  | bool (value : Bool) : Linked links (.bool value) (.bool value)
  | int (value : Int) : Linked links (.int value) (.int value)
  | float (value : Float) : Linked links (.float value) (.float value)
  | string (value : String) : Linked links (.string value) (.string value)
  | unit : Linked links .unit .unit
  | list {items items' : List Value} (each : List.Forall₂ (Linked links) items items') :
      Linked links (.list items) (.list items')
  | tuple {items items' : List Value} (each : List.Forall₂ (Linked links) items items') :
      Linked links (.tuple items) (.tuple items')
  | range (low high : Int) : Linked links (.range low high) (.range low high)
  | closure {parameters : List Pattern} {body : Block Node} {scope scope' : Nat}
      {bound bound' : List Value} {name : Option String} {identity identity' : Nat}
      (scopes : links.scope scope scope') (each : List.Forall₂ (Linked links) bound bound')
      (identities : links.identity identity identity') :
      Linked links (.closure parameters body scope bound name identity)
        (.closure parameters body scope' bound' name identity')
  | builtin {function : Builtin} {bound bound' : List Value} {identity identity' : Option Nat}
      (each : List.Forall₂ (Linked links) bound bound')
      (identities : Option.Rel links.identity identity identity') :
      Linked links (.builtin function bound identity) (.builtin function bound' identity')

/-- Lists of values that are linked one by one. -/
abbrev AllLinked (links : Links) : List Value → List Value → Prop := List.Forall₂ (Linked links)

theorem forall₂_imp_of_mem {α β : Type} {R S : α → β → Prop} {left : List α} {right : List β}
    (each : List.Forall₂ R left right) (implies : ∀ a ∈ left, ∀ b, R a b → S a b) :
    List.Forall₂ S left right := by
  induction each with
  | nil => exact .nil
  | cons first _ ih =>
      rw [List.forall_mem_cons] at implies
      exact .cons (implies.1 _ first) (ih implies.2)

theorem Linked.mono {links links' : Links} (le : links.Le links') {value value' : Value}
    (linked : Linked links value value') : Linked links' value value' := by
  induction value using Value.induction generalizing value' with
  | bool | int | float | string | unit | range =>
      cases linked
      constructor
  | list items ih =>
      cases linked with
      | list each => exact .list (forall₂_imp_of_mem each fun item found _ => ih item found)
  | tuple items ih =>
      cases linked with
      | tuple each => exact .tuple (forall₂_imp_of_mem each fun item found _ => ih item found)
  | closure parameters body scope bound name identity ih =>
      cases linked with
      | closure scopes each identities =>
          exact .closure (le.scope scopes)
            (forall₂_imp_of_mem each fun value found _ => ih value found) (le.identity identities)
  | builtin function bound identity ih =>
      cases linked with
      | builtin each identities =>
          refine .builtin (forall₂_imp_of_mem each fun value found _ => ih value found) ?_
          cases identities with
          | some same => exact .some (le.identity same)
          | none => exact .none

/-! ## Operations on values -/

/-- Values of the same form whose parts correspond. -/
inductive Parallel (Values : Value → Value → Prop)
    (Closes : List Pattern → Block Node → Nat → Nat → Prop) (Same : Nat → Nat → Prop) :
    Value → Value → Prop
  | bool (value : Bool) : Parallel Values Closes Same (.bool value) (.bool value)
  | int (value : Int) : Parallel Values Closes Same (.int value) (.int value)
  | float (value : Float) : Parallel Values Closes Same (.float value) (.float value)
  | string (value : String) : Parallel Values Closes Same (.string value) (.string value)
  | unit : Parallel Values Closes Same .unit .unit
  | list {items items' : List Value} (each : List.Forall₂ Values items items') :
      Parallel Values Closes Same (.list items) (.list items')
  | tuple {items items' : List Value} (each : List.Forall₂ Values items items') :
      Parallel Values Closes Same (.tuple items) (.tuple items')
  | range (low high : Int) : Parallel Values Closes Same (.range low high) (.range low high)
  | closure {parameters : List Pattern} {body : Block Node} {scope scope' : Nat}
      {bound bound' : List Value} {name : Option String} {identity identity' : Nat}
      (closes : Closes parameters body scope scope') (each : List.Forall₂ Values bound bound')
      (same : Same identity identity') :
      Parallel Values Closes Same (.closure parameters body scope bound name identity)
        (.closure parameters body scope' bound' name identity')
  | builtin {function : Builtin} {bound bound' : List Value} {identity identity' : Option Nat}
      (each : List.Forall₂ Values bound bound') (same : Option.Rel Same identity identity') :
      Parallel Values Closes Same (.builtin function bound identity)
        (.builtin function bound' identity')

/-- A way in which values correspond: those of the same form whose parts do. -/
structure Matching where
  /-- The values that correspond. -/
  Values : Value → Value → Prop
  /-- The scopes that correspond, of closures with the same parameters and body. -/
  Closes : List Pattern → Block Node → Nat → Nat → Prop
  /-- The identities that correspond. -/
  Same : Nat → Nat → Prop
  view : ∀ {value value'}, Values value value' → Parallel Values Closes Same value value'
  make : ∀ {value value'}, Parallel Values Closes Same value value' → Values value value'
  unique : ∀ {first first' second second'}, Same first first' → Same second second' →
    (first = second ↔ first' = second')

theorem length_integersFrom (low : Int) (count : Nat) :
    (integersFrom low count).length = count := by
  induction count generalizing low with
  | zero => rfl
  | succ count ih => rw [integersFrom, List.length_cons, ih]

theorem nestedTexts_congr {values values' : List Value}
    (each : List.Forall₂ (fun value value' => nestedText value = nestedText value') values
      values') :
    nestedTexts values = nestedTexts values' := by
  induction each with
  | nil => rfl
  | cons first _ ih => rw [nestedTexts, nestedTexts, first, ih]

namespace Matching

variable {m : Matching} {value value' : Value} {values values' : List Value}

theorem ofNumeral (number : Numeral) : m.Values (.ofNumeral number) (.ofNumeral number) := by
  cases number <;> exact m.make (by constructor)

theorem integersFrom (low : Int) (count : Nat) :
    List.Forall₂ m.Values (integersFrom low count) (Value.integersFrom low count) := by
  induction count generalizing low with
  | zero => exact .nil
  | succ count ih => exact .cons (m.make (.int low)) (ih (low + 1))

theorem Values.typeName (alike : m.Values value value') : value.typeName = value'.typeName := by
  cases m.view alike <;> rfl

theorem Values.numeral? (alike : m.Values value value') : value.numeral? = value'.numeral? := by
  cases m.view alike <;> rfl

theorem Values.nestedText (alike : m.Values value value') :
    value.nestedText = value'.nestedText := by
  induction value using Value.induction generalizing value' with
  | bool | int | float | string | unit | range =>
      cases m.view alike
      rfl
  | list items ih =>
      cases m.view alike with
      | list each =>
          rw [Value.nestedText, Value.nestedText,
            nestedTexts_congr (forall₂_imp_of_mem each fun item found _ => ih item found)]
  | tuple items ih =>
      cases m.view alike with
      | tuple each =>
          rw [Value.nestedText, Value.nestedText,
            nestedTexts_congr (forall₂_imp_of_mem each fun item found _ => ih item found)]
  | closure parameters body scope bound name identity ih =>
      cases m.view alike with
      | closure closes each same => simp [Value.nestedText, each.length_eq]
  | builtin function bound identity ih =>
      cases m.view alike
      rfl

theorem Values.display (alike : m.Values value value') : value.display = value'.display := by
  have nested := alike.nestedText
  cases m.view alike <;> first | rfl | exact nested

theorem equalIntegers_congr (each : List.Forall₂ m.Values values values') (low : Int) :
    equalIntegers low values = equalIntegers low values' := by
  induction each generalizing low with
  | nil => rfl
  | cons first _ ih => simp [equalIntegers, equalsInt, first.numeral?, ih]

theorem equalRange_congr (each : List.Forall₂ m.Values values values') (low high : Int) :
    equalRange values low high = equalRange values' low high := by
  simp [equalRange, each.length_eq, equalIntegers_congr each]

theorem equalAll_congr {rights rights' : List Value}
    (eachLeft : List.Forall₂ (fun left left' => ∀ {right right'}, m.Values right right' →
      left.equal right = left'.equal right') values values')
    (eachRight : List.Forall₂ m.Values rights rights') :
    equalAll values rights = equalAll values' rights' := by
  induction eachLeft generalizing rights rights' with
  | nil => cases eachRight <;> rfl
  | cons first _ ih =>
      cases eachRight with
      | nil => rfl
      | cons second others => rw [equalAll, equalAll, first second, ih others]

theorem unique_option {first first' second second' : Option Nat}
    (same : Option.Rel m.Same first first') (same' : Option.Rel m.Same second second') :
    first = second ↔ first' = second' := by
  cases same <;> cases same' <;> simp
  rename_i same _ _ same'
  exact m.unique same same'

/-- Values are equal if and only if those that correspond to them are. -/
theorem Values.equal {other other' : Value} (alike : m.Values value value')
    (alikeOther : m.Values other other') : value.equal other = value'.equal other' := by
  induction value using Value.induction generalizing value' other other' with
  | bool | int | float | string | unit =>
      cases m.view alike
      cases m.view alikeOther <;> rfl
  | range low high =>
      cases m.view alike
      cases m.view alikeOther with
      | list each => rw [Value.equal, Value.equal, equalRange_congr each]
      | _ => rfl
  | list items ih =>
      cases m.view alike with
      | list each =>
          cases m.view alikeOther with
          | list eachOther =>
              rw [Value.equal, Value.equal, each.length_eq, eachOther.length_eq,
                equalAll_congr (forall₂_imp_of_mem each fun item found _ alike =>
                  ih item found alike) eachOther]
          | range low high => rw [Value.equal, Value.equal, equalRange_congr each]
          | _ => rfl
  | tuple items ih =>
      cases m.view alike with
      | tuple each =>
          cases m.view alikeOther with
          | tuple eachOther =>
              rw [Value.equal, Value.equal, each.length_eq, eachOther.length_eq,
                equalAll_congr (forall₂_imp_of_mem each fun item found _ alike =>
                  ih item found alike) eachOther]
          | _ => rfl
  | closure parameters body scope bound name identity ih =>
      cases m.view alike with
      | closure closes each same =>
          cases m.view alikeOther with
          | closure closes' each' same' =>
              have same := m.unique same same'
              simp [Value.equal, beq_eq_decide, same]
          | _ => rfl
  | builtin function bound identity ih =>
      cases m.view alike with
      | builtin each same =>
          cases m.view alikeOther with
          | builtin each' same' =>
              have same := unique_option same same'
              simp [Value.equal, beq_eq_decide, same]
          | _ => rfl

end Matching

end Value

/-- Elements that correspond. -/
abbrev Elements.Matched (m : Value.Matching) (elements elements' : Elements) : Prop :=
  List.Forall₂ m.Values elements.toList elements'.toList ∧
    Eval.countElements elements = Eval.countElements elements'

/-- To go through elements is to go through the list of them. -/
theorem Elements.foldM_eq {m : Type → Type} [Monad m] {β : Type} (step : β → Value → m β)
    (initial : β) (elements : Elements) :
    elements.foldM step initial = foldItems step elements.toList initial := by
  cases elements with
  | values items => rfl
  | integers low count =>
      rw [Elements.foldM, Elements.toList]
      induction count generalizing low initial with
      | zero => rfl
      | succ count ih => simp only [foldIntegers, Value.integersFrom, foldItems, ih]

/-- Results that are refused in the same way or related. -/
inductive ExceptRel {α β : Type} (R : α → β → Prop) : Except Overflow α → Except Overflow β → Prop
  | ok {a : α} {b : β} (related : R a b) : ExceptRel R (.ok a) (.ok b)
  | error (overflow : Overflow) : ExceptRel R (.error overflow) (.error overflow)

theorem ExceptRel.mono {α β : Type} {R S : α → β → Prop} {first : Except Overflow α}
    {second : Except Overflow β} (related : ExceptRel R first second)
    (implies : ∀ a b, R a b → S a b) : ExceptRel S first second := by
  cases related with
  | ok holds => exact .ok (implies _ _ holds)
  | error overflow => exact .error overflow

namespace Value.Matching.Values

variable {m : Matching} {value value' : Value} (alike : m.Values value value')

include alike

theorem ofSequence? :
    Option.Rel (Elements.Matched m) (Elements.ofSequence? value) (Elements.ofSequence? value') := by
  have counted {items items' : List Value} (each : List.Forall₂ m.Values items items') :
      Elements.Matched m (.values items) (.values items') :=
    ⟨each, by rw [Eval.countElements, Eval.countElements, each.length_eq]⟩
  cases m.view alike with
  | list each => exact .some (counted each)
  | tuple each => exact .some (counted each)
  | range low high => exact .some ⟨integersFrom _ _, rfl⟩
  | _ => exact .none

theorem ofIterable? :
    Option.Rel (Elements.Matched m) (Elements.ofIterable? value) (Elements.ofIterable? value') := by
  have sequence := alike.ofSequence?
  cases m.view alike with
  | string text =>
      refine .some ⟨List.forall₂_map_left_iff.mpr (List.forall₂_map_right_iff.mpr ?_), rfl⟩
      exact List.forall₂_same.mpr fun c _ => m.make (.string (String.singleton c))
  | _ => exact sequence

theorem writtenOut? :
    Option.Rel (ExceptRel (List.Forall₂ m.Values)) (Eval.writtenOut? value)
      (Eval.writtenOut? value') := by
  cases m.view alike with
  | list each => exact .some (.ok each)
  | range low high =>
      refine .some ?_
      cases Value.countRange low high with
      | ok count => exact .ok (integersFrom low count)
      | error overflow => exact .error overflow
  | _ => exact .none

end Value.Matching.Values

/-- Linked values correspond, as long as identities do one to one. -/
def Links.matching (links : Links) (unique : links.Unique) : Value.Matching where
  Values := Value.Linked links
  Closes _ _ := links.scope
  Same := links.identity
  view linked := by cases linked <;> constructor <;> assumption
  make alike := by cases alike <;> constructor <;> assumption
  unique := unique

/-! ## Identities of functions -/

mutual

/-- The identities of the functions in a value. -/
def Value.identities : Value → List Nat
  | .list items => identitiesOf items
  | .tuple items => identitiesOf items
  | .closure _ _ _ bound _ identity => identity :: identitiesOf bound
  | .builtin _ bound identity => identity.toList ++ identitiesOf bound
  | _ => []

/-- The identities of the functions in several values. -/
def Value.identitiesOf : List Value → List Nat
  | [] => []
  | value :: rest => value.identities ++ identitiesOf rest

end

theorem Value.mem_identitiesOf {values : List Value} {identity : Nat} :
    identity ∈ Value.identitiesOf values ↔ ∃ value ∈ values, identity ∈ value.identities := by
  induction values with
  | nil => simp [Value.identitiesOf]
  | cons value rest ih => simp [Value.identitiesOf, ih]

/-- A value is linked to itself if its identities are. -/
theorem Value.linked_self {links : Links} (scopes : ∀ scope, links.scope scope scope)
    {value : Value} (own : ∀ identity ∈ value.identities, links.identity identity identity) :
    Value.Linked links value value := by
  have all {values : List Value}
      (each : ∀ value ∈ values, (∀ identity ∈ value.identities, links.identity identity identity) →
        Value.Linked links value value)
      (own : ∀ identity ∈ Value.identitiesOf values, links.identity identity identity) :
      Value.AllLinked links values values :=
    List.forall₂_same.mpr fun value found => each value found fun identity mem =>
      own identity (Value.mem_identitiesOf.mpr ⟨value, found, mem⟩)
  induction value using Value.induction with
  | bool | int | float | string | unit | range => constructor
  | list items ih => exact .list (all ih own)
  | tuple items ih => exact .tuple (all ih own)
  | closure parameters body scope bound name identity ih =>
      rw [Value.identities, List.forall_mem_cons] at own
      exact .closure (scopes scope) (all ih own.2) own.1
  | builtin function bound identity ih =>
      rw [Value.identities, List.forall_mem_append] at own
      refine .builtin (all ih own.2) ?_
      cases identity with
      | none => exact .none
      | some identity => exact .some (own.1 identity (by simp))

/-- Every identity in a linked value is linked to some other. -/
theorem Value.Linked.exists_identity {links : Links} {value value' : Value}
    (linked : Value.Linked links value value') :
    ∀ identity ∈ value.identities, ∃ identity', links.identity identity identity' := by
  have all {values values' : List Value} (each : Value.AllLinked links values values')
      (ih : ∀ value ∈ values, ∀ {value'}, Value.Linked links value value' →
        ∀ identity ∈ value.identities, ∃ identity', links.identity identity identity') :
      ∀ identity ∈ Value.identitiesOf values, ∃ identity', links.identity identity identity' := by
    induction each with
    | nil => simp [Value.identitiesOf]
    | cons first _ rest =>
        rw [List.forall_mem_cons] at ih
        rw [Value.identitiesOf, List.forall_mem_append]
        exact ⟨ih.1 first, rest ih.2⟩
  induction value using Value.induction generalizing value' with
  | bool | int | float | string | unit | range => simp [Value.identities]
  | list items ih =>
      cases linked with
      | list each => exact all each ih
  | tuple items ih =>
      cases linked with
      | tuple each => exact all each ih
  | closure parameters body scope bound name identity ih =>
      cases linked with
      | closure scopes each identities =>
          rw [Value.identities, List.forall_mem_cons]
          exact ⟨⟨_, identities⟩, all each ih⟩
  | builtin function bound identity ih =>
      cases linked with
      | builtin each identities =>
          rw [Value.identities, List.forall_mem_append]
          refine ⟨?_, all each ih⟩
          cases identities with
          | none => simp
          | some linked => simpa using ⟨_, linked⟩

/-! ## The same values -/

/-- Every scope and every identity corresponds to itself only. -/
def Links.same : Links := ⟨Eq, Eq⟩

theorem Links.unique_same : Links.same.Unique := by
  rintro first _ second _ rfl rfl
  rfl

theorem Value.linked_refl (value : Value) : Value.Linked .same value value :=
  Value.linked_self (fun _ => rfl) fun _ _ => rfl

theorem Value.allLinked_refl (values : List Value) : Value.AllLinked .same values values :=
  List.forall₂_same.mpr fun value _ => value.linked_refl

theorem Value.linked_same {value value' : Value} (linked : Value.Linked .same value value') :
    value = value' := by
  have all {values values' : List Value} (each : List.Forall₂ Eq values values') :
      values = values' := by rwa [List.forall₂_eq_eq_eq] at each
  induction value using Value.induction generalizing value' with
  | bool | int | float | string | unit | range =>
      cases linked
      rfl
  | list items ih =>
      cases linked with
      | list each => rw [all (forall₂_imp_of_mem each fun item found _ => ih item found)]
  | tuple items ih =>
      cases linked with
      | tuple each => rw [all (forall₂_imp_of_mem each fun item found _ => ih item found)]
  | closure parameters body scope bound name identity ih =>
      cases linked with
      | closure scopes each identities =>
          rw [all (forall₂_imp_of_mem each fun value found _ => ih value found),
            show scope = _ from scopes, show identity = _ from identities]
  | builtin function bound identity ih =>
      cases linked with
      | builtin each identities =>
          rw [all (forall₂_imp_of_mem each fun value found _ => ih value found)]
          cases identities with
          | none => rfl
          | some same => rw [show _ = _ from same]

end Offside
