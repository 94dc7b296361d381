import Offside.Scope

/-!
# Operations on scopes

What can be seen of a scope or of a store after something was bound or a scope was added, and where
a name is found.
-/

namespace Offside

namespace Scope

variable {α : Type}

theorem lookup_bind (name other : String) (value : α) (bindings : List (String × α)) :
    (bind name value bindings).lookup other =
      if other = name then some value else bindings.lookup other := by
  induction bindings with
  | nil =>
      rw [bind, List.lookup_cons]
      split <;> simp_all
  | cons binding rest ih =>
      obtain ⟨bound, old⟩ := binding
      rw [bind]
      split
      · grind
      · grind

@[simp]
theorem get?_define (scope : Scope α) (name other : String) (value : α) :
    (scope.define name value).get? other =
      if other = name then some value else scope.get? other :=
  lookup_bind name other value scope.bindings

theorem mem_bind {name : String} {value : α} {bindings : List (String × α)}
    {binding : String × α} (member : binding ∈ bind name value bindings) :
    binding ∈ bindings ∨ binding.2 = value := by
  induction bindings with
  | nil =>
      rw [bind, List.mem_singleton] at member
      exact .inr (member ▸ rfl)
  | cons first rest ih =>
      obtain ⟨bound, old⟩ := first
      rw [bind] at member
      split at member
      · rcases List.mem_cons.mp member with rfl | member
        · exact .inr rfl
        · exact .inl (List.mem_cons_of_mem _ member)
      · rcases List.mem_cons.mp member with rfl | member
        · exact .inl (List.mem_cons_self ..)
        · exact (ih member).imp_left (List.mem_cons_of_mem _)

theorem mem_of_get? {scope : Scope α} {name : String} {value : α}
    (bound : scope.get? name = some value) : (name, value) ∈ scope.bindings := by
  obtain ⟨before, after, same, -⟩ := List.lookup_eq_some_iff.mp bound
  rw [same]
  exact List.mem_append_right _ (List.mem_cons_self ..)

end Scope

namespace Scopes

variable {α : Type} (scopes : Scopes α)

@[simp]
theorem size_push (parent : Nat) : (scopes.push parent).size = scopes.size + 1 := by
  simp [push, size]

@[simp]
theorem size_define (position : Nat) (name : String) (value : α) :
    (scopes.define position name value).size = scopes.size := by
  simp [define, size]

variable {scopes}

theorem lt_size_of_get? {position : Nat} {scope : Scope α}
    (found : scopes.get? position = some scope) : position < scopes.size :=
  (Array.getElem?_eq_some_iff.mp found).1

theorem exists_get? {position : Nat} (lt : position < scopes.size) :
    ∃ scope, scopes.get? position = some scope :=
  ⟨_, Array.getElem?_eq_getElem lt⟩

theorem get?_eq_none {position : Nat} (le : scopes.size ≤ position) :
    scopes.get? position = none :=
  Array.getElem?_eq_none le

theorem get?_push (parent position : Nat) :
    (scopes.push parent).get? position =
      if position = scopes.size then some ⟨some parent, []⟩ else scopes.get? position := by
  unfold get? push size
  rw [Array.getElem?_push]

theorem get?_push_of_get? {position parent : Nat} {scope : Scope α}
    (found : scopes.get? position = some scope) :
    (scopes.push parent).get? position = some scope := by
  rw [get?_push, if_neg (Nat.ne_of_lt (lt_size_of_get? found)), found]

theorem get?_define_self {position : Nat} {scope : Scope α}
    (found : scopes.get? position = some scope) (name : String) (value : α) :
    (scopes.define position name value).get? position = some (scope.define name value) := by
  have found : scopes.table[position]? = some scope := found
  simp [get?, define, Array.getElem?_modify, found]

theorem get?_define_of_ne {position target : Nat} (ne : target ≠ position) (name : String)
    (value : α) : (scopes.define target name value).get? position = scopes.get? position := by
  simp [get?, define, Array.getElem?_modify, ne]

theorem get?_define_of_none {position : Nat} (missing : scopes.get? position = none)
    (name : String) (value : α) : (scopes.define position name value).get? position = none := by
  have missing : scopes.table[position]? = none := missing
  simp [get?, define, Array.getElem?_modify, missing]

/-- What a scope was before a name was bound. -/
theorem exists_of_get?_define {position target : Nat} {name : String} {value : α} {scope : Scope α}
    (found : (scopes.define target name value).get? position = some scope) :
    ∃ scope', scopes.get? position = some scope' ∧ scope.parent = scope'.parent ∧
      ∀ binding ∈ scope.bindings, binding ∈ scope'.bindings ∨ binding.2 = value := by
  by_cases same : target = position
  · subst same
    have lt := lt_size_of_get? found
    rw [size_define] at lt
    obtain ⟨scope', found'⟩ := exists_get? lt
    cases (get?_define_self found' name value).symm.trans found
    exact ⟨scope', found', rfl, fun _ => Scope.mem_bind⟩
  · rw [get?_define_of_ne same] at found
    exact ⟨scope, found, rfl, fun _ => .inl⟩

/-- The scope where a name is found binds it. -/
theorem get?_of_find? {name : String} {position owner : Nat}
    (found : scopes.find? name position = some owner) :
    ∃ scope value, scopes.get? owner = some scope ∧ scope.get? name = some value := by
  fun_induction scopes.find? name position with
  | case1 => cases found
  | case2 position scope present bound =>
      cases found
      obtain ⟨value, bound⟩ := Option.isSome_iff_exists.mp bound
      exact ⟨scope, value, present, bound⟩
  | case3 => cases found
  | case4 position scope present unbound parent inside lt ih => exact ih found
  | case5 => cases found

theorem value?_eq {name : String} {position : Nat} {value : α}
    (found : scopes.value? name position = some value) :
    ∃ owner scope, scopes.find? name position = some owner ∧ scopes.get? owner = some scope ∧
      scope.get? name = some value := by
  simp only [value?, Option.bind_eq_bind, Option.bind_eq_some_iff] at found
  obtain ⟨owner, owns, scope, present, bound⟩ := found
  exact ⟨owner, scope, owns, present, bound⟩

end Scopes

end Offside
