import Offside.Diagnostic.Similar
import Offside.Proofs.Text.EditDistance

/-!
# Suggestions are the nearest names

The suggestions for a name are the first ones in the ranking of all names within a distance of it,
letter case aside. Names whose lengths differ by more than that distance are left out before it is
computed; they lie too far away as long as lower-casing keeps the lengths.
-/

namespace Offside.Diagnostic

open Text (lowerCase)

/-- How far a candidate is from a name, letter case aside. -/
def distanceFrom (name candidate : String) : Nat :=
  Text.editDistance (lowerCase name) (lowerCase candidate)

/-- A candidate with its distance, by which it is ranked. -/
def scored (name candidate : String) : Nat × String := (distanceFrom name candidate, candidate)

/-- Whether a candidate is another name within the distance. -/
def qualifies (name : String) (maxDistance : Int) (candidate : String) : Bool :=
  candidate != name && decide (distanceFrom name candidate ≤ maxDistance)

/-- A candidate is nearer to a name than another one, or as near and not after it in the
alphabet. -/
def Precedes (name left right : String) : Prop :=
  distanceFrom name left < distanceFrom name right ∨
    distanceFrom name left = distanceFrom name right ∧ left ≤ right

/-- All candidates that qualify, as often as they occur, nearest first. -/
structure IsRanking (name : String) (maxDistance : Int) (candidates ranked : List String) :
    Prop where
  perm : ranked.Perm (candidates.filter (qualifies name maxDistance))
  sorted : ranked.Pairwise (Precedes name)

/-! ## The order of suggestions -/

theorem suggestionOrder_iff {left right : Nat × String} :
    suggestionOrder left right ↔ left.1 < right.1 ∨ left.1 = right.1 ∧ left.2 ≤ right.2 := by
  simp [suggestionOrder]

theorem suggestionOrder_trans (left middle right : Nat × String)
    (first : suggestionOrder left middle) (second : suggestionOrder middle right) :
    suggestionOrder left right := by
  rw [suggestionOrder_iff] at *
  rcases first with nearer | ⟨same, before⟩
  · exact .inl (by omega)
  rcases second with nearer | ⟨same', before'⟩
  · exact .inl (by omega)
  · exact .inr ⟨same.trans same', String.le_trans before before'⟩

theorem suggestionOrder_total (left right : Nat × String) :
    suggestionOrder left right || suggestionOrder right left := by
  rw [Bool.or_eq_true, suggestionOrder_iff, suggestionOrder_iff]
  rcases Nat.lt_trichotomy left.1 right.1 with nearer | same | nearer
  · exact .inl (.inl nearer)
  · exact (String.le_total left.2 right.2).imp (fun before => .inr ⟨same, before⟩)
      fun before => .inr ⟨same.symm, before⟩
  · exact .inr (.inl nearer)

theorem Precedes.antisymm {name left right : String} (first : Precedes name left right)
    (second : Precedes name right left) : left = right := by
  rcases first with nearer | ⟨same, before⟩
  · rcases second with nearer' | ⟨same, -⟩ <;> omega
  rcases second with nearer | ⟨-, before'⟩
  · omega
  · exact String.le_antisymm before before'

/-- There is at most one ranking: names that precede one another are the same. -/
theorem IsRanking.unique {name : String} {maxDistance : Int} {candidates : List String}
    {ranked ranked' : List String} (ranking : IsRanking name maxDistance candidates ranked)
    (ranking' : IsRanking name maxDistance candidates ranked') : ranked = ranked' :=
  (ranking.perm.trans ranking'.perm.symm).eq_of_pairwise
    (fun _ _ _ _ => Precedes.antisymm) ranking.sorted ranking'.sorted

/-! ## The length filter -/

/-- A text that is as long in lower case. -/
def KeepsLength (text : String) : Prop := (lowerCase text).length = text.length

theorem length_lowerFrom {chars : List Char} (ascii : ∀ c ∈ chars, c.toNat < 128)
    (before : List Char) : (Text.lowerFrom before chars).length = chars.length := by
  induction chars generalizing before with
  | nil => rfl
  | cons c chars ih =>
      obtain ⟨first, others⟩ := List.forall_mem_cons.mp ascii
      have plain : c.toNat ≠ 0x3A3 := by omega
      rw [Text.lowerFrom, if_neg plain, Text.lowerChar, if_pos first, List.length_append,
        ih others, Nat.add_comm]
      rfl

theorem keepsLength_of_ascii {text : String} (ascii : ∀ c ∈ text.toList, c.toNat < 128) :
    KeepsLength text := by
  rw [KeepsLength, lowerCase, String.length_ofList, length_lowerFrom ascii, String.length_toList]

/-- Names whose lengths differ by more than the distance do not qualify. -/
theorem score?_eq {name candidate : String} (keeps : KeepsLength name)
    (keeps' : KeepsLength candidate) (maxDistance : Int) :
    score? name maxDistance candidate =
      if qualifies name maxDistance candidate then some (scored name candidate) else none := by
  have gap : ((candidate.length : Int) - name.length).natAbs ≤ distanceFrom name candidate := by
    have bound := Text.length_le_charDistance (lowerCase name).toList (lowerCase candidate).toList
    rw [String.length_toList, String.length_toList, keeps, keeps'] at bound
    rw [distanceFrom, Text.editDistance]
    omega
  change (if candidate == name || decide _ then none
    else if (distanceFrom name candidate : Int) ≤ maxDistance then
      some (scored name candidate) else none) = _
  by_cases same : candidate = name
  · simp [qualifies, same]
  by_cases near : distanceFrom name candidate ≤ maxDistance
  · have close : ¬maxDistance < ((candidate.length : Int) - name.length).natAbs := by omega
    have kept : ¬(candidate == name ||
        decide (maxDistance < ((candidate.length : Int) - name.length).natAbs)) = true := by
      rw [Bool.or_eq_true, beq_iff_eq, decide_eq_true_iff]
      exact not_or.mpr ⟨same, close⟩
    rw [if_neg kept, if_pos near, if_pos (by simp [qualifies, same, near])]
  · simp [qualifies, same, near]

theorem filterMap_score? {name : String} {candidates : List String} (keeps : KeepsLength name)
    (keepsAll : ∀ candidate ∈ candidates, KeepsLength candidate) (maxDistance : Int) :
    candidates.filterMap (score? name maxDistance) =
      (candidates.filter (qualifies name maxDistance)).map (scored name) := by
  induction candidates with
  | nil => rfl
  | cons candidate candidates ih =>
      obtain ⟨first, others⟩ := List.forall_mem_cons.mp keepsAll
      rw [List.filterMap_cons, List.filter_cons, score?_eq keeps first, ih others]
      cases qualifies name maxDistance candidate <;> rfl

/-! ## The suggestions -/

/-- The ranking of all names that qualify. -/
def ranking (name : String) (maxDistance : Int) (candidates : List String) : List String :=
  (candidates.filter (qualifies name maxDistance)).mergeSort fun left right =>
    suggestionOrder (scored name left) (scored name right)

theorem isRanking_ranking (name : String) (maxDistance : Int) (candidates : List String) :
    IsRanking name maxDistance candidates (ranking name maxDistance candidates) := by
  refine ⟨List.mergeSort_perm _ _, ?_⟩
  have sorted := List.pairwise_mergeSort
    (fun left middle right => suggestionOrder_trans (scored name left) (scored name middle)
      (scored name right))
    (fun left right => suggestionOrder_total (scored name left) (scored name right))
    (candidates.filter (qualifies name maxDistance))
  refine sorted.imp fun {left right} before => ?_
  simpa only [suggestionOrder_iff, scored, Precedes] using before

theorem similarNames_eq_take {name : String} {candidates : List String}
    {maxSuggestions : Int} (count : 0 ≤ maxSuggestions) (keeps : KeepsLength name)
    (keepsAll : ∀ candidate ∈ candidates, KeepsLength candidate) (maxDistance : Int) :
    similarNames name candidates maxDistance maxSuggestions =
      (ranking name maxDistance candidates).take maxSuggestions.toNat := by
  have sorted : ((candidates.filter (qualifies name maxDistance)).map (scored name)).mergeSort
      suggestionOrder = (ranking name maxDistance candidates).map (scored name) := by
    symm
    exact List.map_mergeSort fun _ _ _ _ => rfl
  rw [similarNames, filterMap_score? keeps keepsAll, sorted, takeInt, if_pos count, ← List.map_take,
    List.map_map]
  exact List.map_id _

/-- The suggestions are the first ones in the ranking of all names that qualify, and none of the
others comes before any of them. -/
theorem similarNames_ranked {name : String} {candidates : List String}
    {maxDistance maxSuggestions : Int} (count : 0 ≤ maxSuggestions) (keeps : KeepsLength name)
    (keepsAll : ∀ candidate ∈ candidates, KeepsLength candidate) :
    ∃ ranked, (∀ other, IsRanking name maxDistance candidates other ↔ other = ranked) ∧
      similarNames name candidates maxDistance maxSuggestions =
        ranked.take maxSuggestions.toNat ∧
      ∀ suggested ∈ similarNames name candidates maxDistance maxSuggestions,
        ∀ omitted ∈ ranked.drop maxSuggestions.toNat, Precedes name suggested omitted := by
  have isRanking := isRanking_ranking name maxDistance candidates
  have suggestions := similarNames_eq_take count keeps keepsAll maxDistance
  refine ⟨ranking name maxDistance candidates, fun other => ⟨fun isRanking' => ?_, ?_⟩,
    suggestions, fun suggested member omitted member' => ?_⟩
  · exact isRanking'.unique isRanking
  · rintro rfl
    exact isRanking
  · rw [suggestions] at member
    have sorted := isRanking.sorted
    rw [← List.take_append_drop maxSuggestions.toNat (ranking ..), List.pairwise_append] at sorted
    exact sorted.2.2 suggested member omitted member'

/-- Four candidates are in reach of `ab`, and the one that occurs twice is suggested twice. -/
theorem similarNames_ranked_repeated :
    let candidates := ["b", "AC", "abcd", "aa", "AC"]
    (0 : Int) ≤ 2 ∧ KeepsLength "ab" ∧ (∀ candidate ∈ candidates, KeepsLength candidate) ∧
      ∃ ranked, (∀ other, IsRanking "ab" 1 candidates other ↔ other = ranked) ∧
        similarNames "ab" candidates 1 2 = ranked.take 2 ∧
        ∀ suggested ∈ similarNames "ab" candidates 1 2, ∀ omitted ∈ ranked.drop 2,
          Precedes "ab" suggested omitted := by
  intro candidates
  have keeps : KeepsLength "ab" := keepsLength_of_ascii (by simp)
  have keepsAll (candidate : String) (member : candidate ∈ candidates) : KeepsLength candidate :=
    keepsLength_of_ascii (by revert candidate; simp [candidates])
  exact ⟨by decide, keeps, keepsAll, similarNames_ranked (by decide) keeps keepsAll⟩

end Offside.Diagnostic
