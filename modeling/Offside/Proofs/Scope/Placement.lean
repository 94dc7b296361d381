import Mathlib.Data.List.Forall2
import Mathlib.Order.Monotone.Basic
import Offside.Evaluation.Binding
import Offside.Proofs.Scope

/-!
# Scopes at other places

Two stores have related scopes: they bind the same names to related values and lie in related
scopes. The scopes may stand at other positions in the second store, as long as they are in the same
order and the root is in its place. Names are then found in related scopes.
-/

namespace Offside

/-! ## Related scopes -/

/-- Scopes at the same place that bind the same names to related values. -/
structure Scope.Rel {α β : Type} (R : α → β → Prop) (scope : Scope α) (scope' : Scope β) :
    Prop where
  parent : scope.parent = scope'.parent
  bindings : List.Forall₂ (fun binding binding' => binding.1 = binding'.1 ∧ R binding.2 binding'.2)
    scope.bindings scope'.bindings

theorem optionRel_isSome {α β : Type} {R : α → β → Prop} {left : Option α} {right : Option β}
    (related : Option.Rel R left right) : left.isSome = right.isSome := by
  cases related <;> rfl

theorem optionRel_mono {α β : Type} {R S : α → β → Prop} {left : Option α} {right : Option β}
    (related : Option.Rel R left right) (implies : ∀ a b, R a b → S a b) :
    Option.Rel S left right := by
  cases related with
  | none => exact .none
  | some holds => exact .some (implies _ _ holds)

section Scopes

variable {α β : Type} {R : α → β → Prop} {scope : Scope α} {scope' : Scope β}
  (related : Scope.Rel R scope scope')

include related

theorem Scope.Rel.mono {S : α → β → Prop} (implies : ∀ a b, R a b → S a b) :
    Scope.Rel S scope scope' :=
  ⟨related.parent, related.bindings.imp fun _ _ binding => ⟨binding.1, implies _ _ binding.2⟩⟩

theorem Scope.Rel.get? (name : String) : Option.Rel R (scope.get? name) (scope'.get? name) := by
  have each := related.bindings
  unfold Scope.get?
  generalize scope.bindings = bindings, scope'.bindings = bindings' at each
  induction each with
  | nil => exact .none
  | @cons binding binding' _ _ first _ ih =>
      obtain ⟨bound, value⟩ := binding
      obtain ⟨bound', value'⟩ := binding'
      obtain ⟨rfl, values⟩ := first
      rw [List.lookup_cons, List.lookup_cons]
      cases name == bound with
      | true => exact .some values
      | false => exact ih

theorem Scope.Rel.define (name : String) {value : α} {value' : β} (values : R value value') :
    Scope.Rel R (scope.define name value) (scope'.define name value') where
  parent := related.parent
  bindings := by
    have each := related.bindings
    unfold Scope.define
    generalize scope.bindings = bindings, scope'.bindings = bindings' at each
    induction each with
    | nil => exact .cons ⟨rfl, values⟩ .nil
    | @cons binding binding' _ _ first others ih =>
        obtain ⟨bound, old⟩ := binding
        obtain ⟨bound', old'⟩ := binding'
        obtain ⟨rfl, olds⟩ := first
        rw [Scope.bind, Scope.bind]
        split
        · exact .cons ⟨rfl, values⟩ others
        · exact .cons ⟨rfl, olds⟩ ih

theorem Scope.Rel.names : scope.bindings.map (·.1) = scope'.bindings.map (·.1) := by
  have same := related.bindings.imp fun _ _ first => first.1
  have names := List.forall₂_map_left_iff.mpr (List.forall₂_map_right_iff.mpr same)
  rwa [List.forall₂_eq_eq_eq] at names

end Scopes

theorem forall₂_iff_getElem? {α β : Type} {R : α → β → Prop} {left : List α} {right : List β} :
    List.Forall₂ R left right ↔
      ∀ position : Nat, Option.Rel R left[position]? right[position]? := by
  constructor
  · intro each
    induction each with
    | nil => exact fun _ => .none
    | cons first _ ih =>
        intro position
        cases position with
        | zero => exact .some first
        | succ position => simpa using ih position
  · intro each
    induction left generalizing right with
    | nil =>
        cases right with
        | nil => exact .nil
        | cons => cases each 0
    | cons a left ih =>
        cases right with
        | nil => cases each 0
        | cons b right =>
            cases each 0 with
            | some first =>
                exact .cons first (ih fun position => by simpa using each (position + 1))

/-- Stores of related scopes at the same positions. -/
def Scopes.Rel {α β : Type} (R : α → β → Prop) (scopes : Scopes α) (scopes' : Scopes β) : Prop :=
  List.Forall₂ (Scope.Rel R) scopes.table.toList scopes'.table.toList

/-! ## Scopes that stand later -/

/-- Where scopes stand if all but the root stand `gap` positions later. -/
def place (gap position : Nat) : Nat :=
  if position = Eval.builtinScope then Eval.builtinScope else position + gap

theorem place_lt_place (gap : Nat) {first second : Nat} :
    place gap first < place gap second ↔ first < second := by
  unfold place Eval.builtinScope
  split <;> split <;> omega

theorem place_injective (gap : Nat) : Function.Injective (place gap) := by
  intro first second same
  unfold place Eval.builtinScope at same
  split at same <;> split at same <;> omega

@[simp]
theorem place_builtinScope (gap : Nat) : place gap Eval.builtinScope = Eval.builtinScope :=
  if_pos rfl

theorem place_eq_builtinScope (gap : Nat) {position : Nat} :
    place gap position = Eval.builtinScope ↔ position = Eval.builtinScope := by
  constructor
  · intro same
    exact place_injective gap (same.trans (place_builtinScope gap).symm)
  · rintro rfl
    exact place_builtinScope gap

@[simp]
theorem place_zero (position : Nat) : place 0 position = position := by
  unfold place
  split
  · next outermost => exact outermost.symm
  · rfl

theorem place_of_pos {gap position : Nat} (inner : 0 < position) :
    place gap position = position + gap :=
  if_neg (Nat.ne_of_gt inner)

/-- The scope in the place of one that lies in a scope that stands later. -/
def Scope.move {α : Type} (gap : Nat) (scope : Scope α) : Scope α :=
  { scope with parent := scope.parent.map (place gap) }

/-- Stores of related scopes; those of the second one stand `gap` positions later. -/
structure Scopes.Placed {α β : Type} (gap : Nat) (R : α → β → Prop) (scopes : Scopes α)
    (scopes' : Scopes β) : Prop where
  size : scopes'.size = scopes.size + gap
  /-- The next scope will not be the root. -/
  next : place gap scopes.size = scopes.size + gap
  get? : ∀ position, Option.Rel (Scope.Rel R) ((scopes.get? position).map (Scope.move gap))
    (scopes'.get? (place gap position))

theorem Scope.move_zero {α : Type} : (Scope.move 0 : Scope α → Scope α) = id := by
  have same : place 0 = id := funext place_zero
  funext scope
  rw [move, same, Option.map_id]
  rfl

theorem Scopes.placed_zero {α β : Type} {R : α → β → Prop} {scopes : Scopes α}
    {scopes' : Scopes β} : Placed 0 R scopes scopes' ↔ Scopes.Rel R scopes scopes' := by
  have each : (∀ position, Option.Rel (Scope.Rel R) ((scopes.get? position).map (Scope.move 0))
      (scopes'.get? (place 0 position))) ↔ Scopes.Rel R scopes scopes' := by
    simp [Scopes.Rel, forall₂_iff_getElem?, Scope.move_zero, Scopes.get?]
  refine ⟨fun placed => each.mp placed.get?, fun related => ⟨?_, place_zero _, each.mpr related⟩⟩
  simpa [Scopes.size] using related.length_eq.symm

namespace Scopes.Placed

variable {α β : Type} {R : α → β → Prop} {gap : Nat} {scopes : Scopes α}
  {scopes' : Scopes β} (placed : Placed gap R scopes scopes')

include placed

theorem mono {S : α → β → Prop} (implies : ∀ a b, R a b → S a b) :
    Placed gap S scopes scopes' :=
  ⟨placed.size, placed.next, fun position =>
    optionRel_mono (placed.get? position) fun _ _ related => related.mono implies⟩

/-- Positions outside of the first store are outside of the second. -/
theorem get?_none {position : Nat} (missing : scopes.get? position = none) :
    scopes'.get? (place gap position) = none := by
  have found := placed.get? position
  rw [missing] at found
  generalize scopes'.get? (place gap position) = right at found
  cases found
  rfl

theorem get?_some {position : Nat} {scope : Scope α} (present : scopes.get? position = some scope) :
    ∃ scope', scopes'.get? (place gap position) = some scope' ∧
      scope'.parent = scope.parent.map (place gap) ∧ Scope.Rel R (scope.move gap) scope' := by
  have found := placed.get? position
  rw [present] at found
  generalize scopes'.get? (place gap position) = right at found
  cases found with
  | some related => exact ⟨_, rfl, related.parent.symm, related⟩

theorem push (parent : Nat) :
    Placed gap R (scopes.push parent) (scopes'.push (place gap parent)) where
  size := by
    rw [size_push, size_push, placed.size]
    omega
  next := by
    rw [size_push]
    exact place_of_pos (Nat.succ_pos _)
  get? position := by
    have new : place gap position = scopes'.size ↔ position = scopes.size := by
      rw [placed.size, ← placed.next, (place_injective gap).eq_iff]
    rw [get?_push, get?_push]
    by_cases last : position = scopes.size
    · rw [if_pos last, if_pos (new.mpr last)]
      exact .some ⟨rfl, .nil⟩
    · rw [if_neg last, if_neg (mt new.mp last)]
      exact placed.get? position

theorem define (position : Nat) (name : String) {value : α} {value' : β} (values : R value value') :
    Placed gap R (scopes.define position name value)
      (scopes'.define (place gap position) name value') where
  size := by rw [size_define, size_define, placed.size]
  next := by rw [size_define, placed.next]
  get? other := by
    by_cases same : position = other
    · subst same
      cases present : scopes.get? position with
      | none =>
          rw [get?_define_of_none present, get?_define_of_none (placed.get?_none present)]
          exact .none
      | some scope =>
          obtain ⟨scope', present', -, related⟩ := placed.get?_some present
          rw [get?_define_self present, get?_define_self present']
          exact .some (related.define name values)
    · rw [get?_define_of_ne same, get?_define_of_ne ((place_injective gap).ne same)]
      exact placed.get? other

theorem find? (name : String) (position : Nat) :
    scopes'.find? name (place gap position) = (scopes.find? name position).map (place gap) := by
  induction position using Nat.strongRecOn with
  | ind position ih =>
      unfold Scopes.find?
      cases present : scopes.get? position with
      | none => rw [placed.get?_none present]; rfl
      | some scope =>
          obtain ⟨scope', present', inside, related⟩ := placed.get?_some present
          have bound : (scope.get? name).isSome = (scope'.get? name).isSome :=
            optionRel_isSome (related.get? name)
          simp only [present', inside, ← bound]
          split
          · rfl
          · cases scope.parent with
            | none => rfl
            | some parent =>
                simp only [Option.map_some, place_lt_place]
                split
                · next smaller => exact ih parent smaller
                · rfl

theorem chain (position : Nat) :
    scopes'.chain (place gap position) = (scopes.chain position).map (place gap) := by
  induction position using Nat.strongRecOn with
  | ind position ih =>
      unfold Scopes.chain
      cases present : scopes.get? position with
      | none => rw [placed.get?_none present]; rfl
      | some scope =>
          obtain ⟨scope', present', inside, -⟩ := placed.get?_some present
          simp only [present', inside]
          cases scope.parent with
          | none => rfl
          | some parent =>
              simp only [Option.map_some, place_lt_place]
              split
              · next smaller => rw [ih parent smaller, List.map_cons]
              · rfl

theorem names (position : Nat) : scopes'.names (place gap position) = scopes.names position := by
  unfold Scopes.names
  cases present : scopes.get? position with
  | none => rw [placed.get?_none present]
  | some scope =>
      obtain ⟨scope', present', -, related⟩ := placed.get?_some present
      rw [present']
      exact related.names.symm

theorem unbound (name : String) (position : Nat) (location : Option Location) :
    scopes'.unbound name (place gap position) location = scopes.unbound name position location := by
  rw [Scopes.unbound, Scopes.unbound, visibleNames, visibleNames, placed.chain, List.flatMap_map]
  simp only [placed.names]

theorem value? (name : String) (position : Nat) :
    Option.Rel R (scopes.value? name position) (scopes'.value? name (place gap position)) := by
  unfold Scopes.value?
  rw [placed.find?]
  cases scopes.find? name position with
  | none => exact .none
  | some owner =>
      simp only [Option.map_some, Option.bind_eq_bind, Option.bind_some]
      cases present : scopes.get? owner with
      | none =>
          rw [placed.get?_none present]
          exact .none
      | some scope =>
          obtain ⟨scope', present', -, related⟩ := placed.get?_some present
          rw [present']
          exact related.get? name

end Scopes.Placed

end Offside
