import LogForwarding.Proofs.Merge

/-!
What stands under a key of a value after a patch: a change names what it is about and leaves the
rest alone.
-/

namespace LogForwarding

namespace Json

theorem get?_eq_find? (value : Json) (key : String) :
    value.get? key = Dictionary.find? value.members key := by
  cases value <;> rfl

/-- A merge patch of one member changes no other member. -/
theorem get?_merge (key name : String) (change value : Json) :
    (merge (object [(key, change)]) value).get? name =
      if key = name then
        if change = .null then none else some (merge change ((value.get? key).getD .null))
      else value.get? name := by
  have hobject : object [(key, change)] = .obj [(key, change)] := rfl
  rw [hobject, merge_obj, get?_eq_find?, get?_eq_find?, get?_eq_find?, members_obj]
  by_cases hnull : change = .null
  · rw [hnull, mergeMembers_cons_null, mergeMembers, Dictionary.find?_erase, if_pos rfl]
  · rw [mergeMembers_cons_of_ne hnull, mergeMembers, Dictionary.find?_insert, if_neg hnull]

/-- A change further inside an object is one of the member that lies on the way. -/
theorem changeAt_obj {change : Json → String → Option Json} {members : Dictionary Json}
    {key next : String} {place : List String} {changed : Json}
    (hchange : (Json.obj members).changeAt change (key :: next :: place) = some changed) :
    ∃ member new, members.find? key = some member ∧
      member.changeAt change (next :: place) = some new ∧
      changed = .obj (members.insert key new) := by
  rw [changeAt] at hchange
  · obtain ⟨member, hmember, hrest⟩ := Option.bind_eq_some_iff.mp hchange
    obtain ⟨new, hnew, heq⟩ := Option.bind_eq_some_iff.mp hrest
    exact ⟨member, new, hmember, hnew, (Option.some.inj heq).symm⟩
  · simp

theorem patchAll_test {place : List String} {expected value changed : Json}
    {rest : List PatchOperation}
    (hpatch : patchAll (.test place expected :: rest) value = some changed) :
    patchAll rest value = some changed := by
  rw [patchAll, List.foldlM_cons] at hpatch
  obtain ⟨middle, hmiddle, hrest⟩ := Option.bind_eq_some_iff.mp hpatch
  simp only [patch] at hmiddle
  split at hmiddle
  · cases hmiddle
    exact hrest
  · cases hmiddle

theorem patchAll_singleton (operation : PatchOperation) (value : Json) :
    patchAll [operation] value = patch value operation := by
  simp [patchAll]

/-- A change of a collection that leaves what stands under other keys alone. -/
def Local (change : Json → String → Option Json) : Prop :=
  ∀ {value changed : Json} {key name : String}, change value key = some changed → name ≠ key →
    changed.get? name = value.get? name

theorem local_addTo (new : Json) : Local (addTo new) := by
  intro value changed key name hchange hne
  rw [addTo.eq_def] at hchange
  split at hchange
  · cases hchange
    simp [get?, Dictionary.find?_insert, hne.symm]
  · cases hchange
    rfl
  · obtain ⟨n, -, hn⟩ := Option.bind_eq_some_iff.mp hchange
    split at hn
    · cases hn
      rfl
    · cases hn
  · cases hchange

theorem local_removeFrom : Local removeFrom := by
  intro value changed key name hchange hne
  rw [removeFrom.eq_def] at hchange
  split at hchange
  · split at hchange
    · cases hchange
      simp [get?, Dictionary.find?_erase, hne.symm]
    · cases hchange
  · obtain ⟨n, -, hn⟩ := Option.bind_eq_some_iff.mp hchange
    split at hn
    · cases hn
      rfl
    · cases hn
  · cases hchange

/-- A change at a place leaves what stands beside the way to it alone. -/
theorem Local.get?_changeAt {change : Json → String → Option Json} (hlocal : Local change)
    {value changed : Json} {key name : String} {place : List String}
    (hchange : value.changeAt change (key :: place) = some changed) (hne : name ≠ key) :
    changed.get? name = value.get? name := by
  rcases place with - | ⟨next, place⟩
  · exact hlocal hchange hne
  · cases value with
    | obj members =>
        obtain ⟨member, new, -, -, heq⟩ := changeAt_obj hchange
        rw [heq]
        simp [get?, Dictionary.find?_insert, hne.symm]
    | arr items =>
        simp only [changeAt, Option.bind_eq_bind, Option.bind_eq_some_iff] at hchange
        obtain ⟨n, -, item, -, new, -, heq⟩ := hchange
        rw [← Option.some.inj heq]
        rfl
    | _ => simp [changeAt] at hchange

end Json

end LogForwarding
