import Offside.Proofs.Scope

/-!
# The way outwards

From a scope one goes outwards from link to link, and a name is searched on the way. Where each
scope comes after the one it lies in, the way is finite, it goes through no scope twice, and the
search gives what the bounded search gives.
-/

namespace Offside.Scopes

variable {α : Type} {scopes : Scopes α}

/-- The scopes on the way outwards from a scope, to one that lies in no other. -/
inductive Path (scopes : Scopes α) : Nat → List Nat → Prop
  | root {position : Nat} {scope : Scope α} (found : scopes.get? position = some scope)
      (outermost : scope.parent = none) : Path scopes position [position]
  | outwards {position parent : Nat} {scope : Scope α} {rest : List Nat}
      (found : scopes.get? position = some scope) (inside : scope.parent = some parent)
      (later : Path scopes parent rest) : Path scopes position (position :: rest)

/-- The search of a name from a scope outwards ends, and this is what it gives. -/
inductive Finds (scopes : Scopes α) (name : String) : Nat → Option Nat → Prop
  | here {position : Nat} {scope : Scope α} (found : scopes.get? position = some scope)
      (bound : (scope.get? name).isSome) : Finds scopes name position (some position)
  | outwards {position parent : Nat} {scope : Scope α} {result : Option Nat}
      (found : scopes.get? position = some scope) (unbound : ¬ (scope.get? name).isSome)
      (inside : scope.parent = some parent) (later : Finds scopes name parent result) :
      Finds scopes name position result
  | nowhere {position : Nat} {scope : Scope α} (found : scopes.get? position = some scope)
      (unbound : ¬ (scope.get? name).isSome) (outermost : scope.parent = none) :
      Finds scopes name position none

/-- Every scope lies in one that comes before it, if it lies in one. -/
def Descending (scopes : Scopes α) : Prop :=
  ∀ {position scope parent}, scopes.get? position = some scope → scope.parent = some parent →
    parent < position

section Descending

variable (descending : scopes.Descending)

include descending

theorem path_chain {position : Nat} (lt : position < scopes.size) :
    scopes.Path position (scopes.chain position) := by
  induction position using Nat.strongRecOn with
  | ind position ih =>
      obtain ⟨scope, found⟩ := exists_get? lt
      rw [chain, found]
      dsimp only
      cases inside : scope.parent with
      | none => exact .root found inside
      | some parent =>
          have smaller := descending found inside
          dsimp only
          rw [if_pos smaller]
          exact .outwards found inside (ih parent smaller (Nat.lt_trans smaller lt))

theorem finds_find? (name : String) {position : Nat} (lt : position < scopes.size) :
    scopes.Finds name position (scopes.find? name position) := by
  induction position using Nat.strongRecOn with
  | ind position ih =>
      obtain ⟨scope, found⟩ := exists_get? lt
      rw [find?, found]
      dsimp only
      split
      · next bound => exact .here found bound
      · next unbound =>
        cases inside : scope.parent with
        | none => exact .nowhere found unbound inside
        | some parent =>
            have smaller := descending found inside
            dsimp only
            rw [if_pos smaller]
            exact .outwards found unbound inside (ih parent smaller (Nat.lt_trans smaller lt))

theorem Path.le {position : Nat} {path : List Nat} (way : scopes.Path position path) :
    ∀ outer ∈ path, outer ≤ position := by
  induction way with
  | root => simp
  | outwards found inside _ ih =>
      have smaller := descending found inside
      refine List.forall_mem_cons.mpr ⟨Nat.le_refl _, fun outer member => ?_⟩
      exact Nat.le_trans (ih outer member) (Nat.le_of_lt smaller)

theorem Path.nodup {position : Nat} {path : List Nat} (way : scopes.Path position path) :
    path.Nodup := by
  induction way with
  | root => simp
  | outwards found inside later ih =>
      refine List.nodup_cons.mpr ⟨fun again => ?_, ih⟩
      exact Nat.not_le.mpr (descending found inside) (later.le descending _ again)

end Descending

/-- A name that a scope on the way binds is found. -/
theorem Finds.of_path {name : String} {position : Nat} {path : List Nat} {result : Option Nat}
    (finds : scopes.Finds name position result) (way : scopes.Path position path) {outer : Nat}
    (member : outer ∈ path) {scope : Scope α} (found : scopes.get? outer = some scope)
    (bound : (scope.get? name).isSome) : result.isSome := by
  induction finds generalizing path with
  | here => rfl
  | outwards found' unbound inside _ ih =>
      cases way with
      | root found'' outermost =>
          cases found'.symm.trans found''
          cases inside.symm.trans outermost
      | outwards found'' inside' later =>
          cases found'.symm.trans found''
          cases inside.symm.trans inside'
          rcases List.mem_cons.mp member with rfl | member
          · cases found.symm.trans found'
            exact absurd bound unbound
          · exact ih later member
  | nowhere found' unbound outermost =>
      cases way with
      | root =>
          cases List.mem_singleton.mp member
          cases found.symm.trans found'
          exact absurd bound unbound
      | outwards found'' inside =>
          cases found'.symm.trans found''
          cases outermost.symm.trans inside

theorem exists_value? {name : String} {position owner : Nat}
    (found : scopes.find? name position = some owner) :
    ∃ value, scopes.value? name position = some value := by
  obtain ⟨scope, value, present, bound⟩ := get?_of_find? found
  exact ⟨value, by simp [value?, found, present, bound]⟩

end Offside.Scopes
