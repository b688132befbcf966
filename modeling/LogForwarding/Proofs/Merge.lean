import LogForwarding.Api.Patch
import LogForwarding.Proofs.Dictionary

/-!
What stands under a key of an object after a merge patch.
-/

namespace LogForwarding

namespace Json

/-- The members of an object; no other value has any. -/
def members : Json → Dictionary Json
  | .obj members => members
  | _ => []

@[simp] theorem members_obj (d : Dictionary Json) : (Json.obj d).members = d := rfl

theorem merge_obj (changes : List (String × Json)) (value : Json) :
    merge (.obj changes) value = .obj (mergeMembers changes value.members) := by
  cases value <;> simp [merge, members]

theorem merge_of_ne_obj {change : Json} (hobj : ∀ changes, change ≠ .obj changes) (value : Json) :
    merge change value = change := by
  cases change with
  | obj changes => exact absurd rfl (hobj changes)
  | _ => simp [merge]

theorem mergeMembers_cons_null (key : String) (rest : List (String × Json))
    (d : Dictionary Json) :
    mergeMembers ((key, .null) :: rest) d = mergeMembers rest (d.erase key) := by
  rw [mergeMembers]

theorem mergeMembers_cons_of_ne {key : String} {change : Json} (hchange : change ≠ .null)
    (rest : List (String × Json)) (d : Dictionary Json) :
    mergeMembers ((key, change) :: rest) d =
      mergeMembers rest (d.insert key (merge change ((d.find? key).getD .null))) := by
  rw [mergeMembers]
  exact fun heq => hchange heq

/-- What a patch does not name stays as it was. -/
theorem valuesOf_mergeMembers_of_notMem {changes : List (String × Json)} {key : String}
    (hkey : key ∉ changes.map (·.1)) (d : Dictionary Json) :
    (mergeMembers changes d).valuesOf key = d.valuesOf key := by
  induction changes generalizing d with
  | nil => simp [mergeMembers]
  | cons entry rest ih =>
      obtain ⟨name, change⟩ := entry
      simp only [List.map_cons, List.mem_cons, not_or] at hkey
      have hne : name ≠ key := fun heq => hkey.1 heq.symm
      by_cases hchange : change = .null
      · subst hchange
        rw [mergeMembers_cons_null, ih hkey.2, Dictionary.valuesOf_erase_of_ne hne]
      · rw [mergeMembers_cons_of_ne hchange, ih hkey.2, Dictionary.valuesOf_insert_of_ne hne]

/-- What a patch names as null is gone. -/
theorem valuesOf_mergeMembers_null {changes : List (String × Json)} {key : String}
    (hnodup : (changes.map (·.1)).Nodup) (hmem : (key, Json.null) ∈ changes)
    (d : Dictionary Json) : (mergeMembers changes d).valuesOf key = [] := by
  induction changes generalizing d with
  | nil => simp at hmem
  | cons entry rest ih =>
      obtain ⟨hfresh, hrest⟩ := List.nodup_cons.mp hnodup
      rcases List.mem_cons.mp hmem with rfl | htail
      · rw [mergeMembers_cons_null, valuesOf_mergeMembers_of_notMem hfresh,
          Dictionary.valuesOf_erase_self]
      · obtain ⟨name, change⟩ := entry
        by_cases hchange : change = .null
        · subst hchange
          rw [mergeMembers_cons_null]
          exact ih hrest htail _
        · rw [mergeMembers_cons_of_ne hchange]
          exact ih hrest htail _

/-- What a patch names is merged with what was there; other values of the key were there before. -/
theorem valuesOf_mergeMembers {changes : List (String × Json)} {key : String} {change : Json}
    (hnodup : (changes.map (·.1)).Nodup) (hmem : (key, change) ∈ changes)
    (hchange : change ≠ .null) (d : Dictionary Json) :
    ∃ others, (mergeMembers changes d).valuesOf key =
        merge change ((d.find? key).getD .null) :: others ∧
      ∀ other ∈ others, other ∈ d.valuesOf key := by
  induction changes generalizing d with
  | nil => simp at hmem
  | cons entry rest ih =>
      obtain ⟨hfresh, hrest⟩ := List.nodup_cons.mp hnodup
      rcases List.mem_cons.mp hmem with rfl | htail
      · rw [mergeMembers_cons_of_ne hchange, valuesOf_mergeMembers_of_notMem hfresh]
        exact Dictionary.valuesOf_insert_self _ _ _
      · obtain ⟨name, other⟩ := entry
        have hne : name ≠ key := by
          rintro rfl
          exact hfresh (List.mem_map.mpr ⟨_, htail, rfl⟩)
        -- What the first member of the patch does to another key does not concern this one.
        by_cases hother : other = .null
        · subst hother
          have hrec := ih hrest htail (d.erase name)
          rw [Dictionary.find?_erase, if_neg hne, Dictionary.valuesOf_erase_of_ne hne] at hrec
          rwa [mergeMembers_cons_null]
        · have hrec := ih hrest htail (d.insert name (merge other ((d.find? name).getD .null)))
          rw [Dictionary.find?_insert, if_neg hne, Dictionary.valuesOf_insert_of_ne hne] at hrec
          rwa [mergeMembers_cons_of_ne hother]

end Json

end LogForwarding
