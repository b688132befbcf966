import LogForwarding.Dictionary
import Mathlib.Data.List.Sort

/-!
Which values stand under a key after a change of a dictionary.  Nothing here supposes that the keys
are in order or that they differ, for an object that was read from elsewhere may have any members.
What is made by setting one key after the other has its keys in order.
-/

namespace LogForwarding

namespace Dictionary

variable {β : Type}

/-- The values of a key, in their order. -/
def valuesOf (key : String) (d : Dictionary β) : List β :=
  (d.filter fun entry => entry.1 = key).map (·.2)

@[simp] theorem valuesOf_nil (key : String) : valuesOf key ([] : Dictionary β) = [] := rfl

theorem valuesOf_cons (key : String) (entry : String × β) (rest : Dictionary β) :
    valuesOf key (entry :: rest) =
      if entry.1 = key then entry.2 :: valuesOf key rest else valuesOf key rest := by
  by_cases hkey : entry.1 = key <;> simp [valuesOf, hkey]

theorem mem_valuesOf {key : String} {value : β} {d : Dictionary β} :
    value ∈ valuesOf key d ↔ (key, value) ∈ d := by
  simp only [valuesOf, List.mem_map, List.mem_filter, decide_eq_true_eq]
  constructor
  · rintro ⟨⟨name, found⟩, ⟨hmem, rfl⟩, rfl⟩
    exact hmem
  · intro hmem
    exact ⟨(key, value), ⟨hmem, rfl⟩, rfl⟩

theorem find?_eq_head?_valuesOf (d : Dictionary β) (key : String) :
    find? d key = (valuesOf key d).head? := by
  simp [find?, valuesOf, List.head?_filter]

theorem valuesOf_insert_of_ne {key other : String} (hne : key ≠ other) (value : β)
    (d : Dictionary β) : valuesOf other (insert key value d) = valuesOf other d := by
  induction d with
  | nil => simp [insert, valuesOf_cons, hne]
  | cons entry rest ih =>
      obtain ⟨name, found⟩ := entry
      rw [insert]
      split
      · simp [valuesOf_cons, hne]
      · split
        · rename_i heq
          subst heq
          simp [valuesOf_cons, hne]
        · rw [valuesOf_cons, valuesOf_cons, ih]

/-- The value that was set comes first, and behind it only values that were there before. -/
theorem valuesOf_insert_self (key : String) (value : β) (d : Dictionary β) :
    ∃ others, valuesOf key (insert key value d) = value :: others ∧
      ∀ other ∈ others, other ∈ valuesOf key d := by
  induction d with
  | nil => exact ⟨[], by simp [insert, valuesOf_cons], by simp⟩
  | cons entry rest ih =>
      obtain ⟨name, found⟩ := entry
      rw [insert]
      split
      · refine ⟨valuesOf key ((name, found) :: rest), ?_, fun other hmem => hmem⟩
        rw [valuesOf_cons, if_pos rfl]
      · split
        · rename_i heq
          subst heq
          refine ⟨valuesOf key rest, by rw [valuesOf_cons, if_pos rfl], ?_⟩
          intro other hmem
          rw [valuesOf_cons, if_pos rfl]
          exact List.mem_cons_of_mem found hmem
        · rename_i hne
          obtain ⟨others, hothers, hold⟩ := ih
          have hname : ¬ name = key := fun heq => hne heq.symm
          refine ⟨others, by rw [valuesOf_cons, if_neg hname, hothers], ?_⟩
          intro other hmem
          rw [valuesOf_cons, if_neg hname]
          exact hold other hmem

theorem valuesOf_erase_of_ne {key other : String} (hne : key ≠ other) (d : Dictionary β) :
    valuesOf other (erase key d) = valuesOf other d := by
  induction d with
  | nil => rfl
  | cons entry rest ih =>
      by_cases hkey : entry.1 = key
      · have hother : ¬ entry.1 = other := fun heq => hne (hkey.symm.trans heq)
        have herase : erase key (entry :: rest) = erase key rest := by simp [erase, hkey]
        rw [herase, ih, valuesOf_cons, if_neg hother]
      · have herase : erase key (entry :: rest) = entry :: erase key rest := by simp [erase, hkey]
        rw [herase, valuesOf_cons, valuesOf_cons, ih]

@[simp] theorem valuesOf_erase_self (key : String) (d : Dictionary β) :
    valuesOf key (erase key d) = [] := by
  simp [valuesOf, erase, List.filter_filter]

/-- To set the value of a new key is to add one entry. -/
theorem insert_perm {key : String} {d : Dictionary β} (hnew : key ∉ keys d) (value : β) :
    (insert key value d).Perm ((key, value) :: d) := by
  induction d with
  | nil => exact List.Perm.refl _
  | cons entry rest ih =>
      obtain ⟨name, found⟩ := entry
      simp only [keys, List.map_cons, List.mem_cons, not_or] at hnew
      rw [insert]
      split
      · exact List.Perm.refl _
      · rw [if_neg hnew.1]
        exact ((ih hnew.2).cons (name, found)).trans (List.Perm.swap _ _ _)

/-- To put in pairs whose keys differ, one after the other, is to add them as entries. -/
theorem foldl_insert_perm {pairs : List (String × β)} (hnodup : (pairs.map (·.1)).Nodup)
    (d : Dictionary β) (hdisjoint : ∀ key ∈ pairs.map (·.1), key ∉ keys d) :
    (pairs.foldl (fun d pair => d.insert pair.1 pair.2) d).Perm (pairs ++ d) := by
  induction pairs generalizing d with
  | nil => exact List.Perm.refl d
  | cons pair rest ih =>
      obtain ⟨hfresh, hrest⟩ := List.nodup_cons.mp hnodup
      have hperm := insert_perm (hdisjoint pair.1 List.mem_cons_self) pair.2
      refine (ih hrest (d.insert pair.1 pair.2) ?_).trans ?_
      · intro key hmem hin
        have hkeys : key ∈ pair.1 :: keys d := (hperm.map (·.1)).mem_iff.mp hin
        rcases List.mem_cons.mp hkeys with rfl | hold
        · exact hfresh hmem
        · exact hdisjoint key (List.mem_cons_of_mem _ hmem) hold
      · exact (hperm.append_left rest).trans List.perm_middle

/-- The entries of a dictionary are the pairs that it was made of, if their keys differ. -/
theorem ofList_perm {pairs : List (String × β)} (hnodup : (pairs.map (·.1)).Nodup) :
    (ofList pairs).Perm pairs := by
  simpa [ofList] using foldl_insert_perm hnodup [] (by simp [keys])

theorem nodup_keys_ofList {pairs : List (String × β)} (hnodup : (pairs.map (·.1)).Nodup) :
    (keys (ofList pairs)).Nodup := by
  have hperm : (keys (ofList pairs)).Perm (pairs.map (·.1)) := (ofList_perm hnodup).map Prod.fst
  exact hperm.nodup_iff.mpr hnodup

theorem mem_ofList {pairs : List (String × β)} (hnodup : (pairs.map (·.1)).Nodup)
    {entry : String × β} : entry ∈ ofList pairs ↔ entry ∈ pairs :=
  (ofList_perm hnodup).mem_iff

theorem valuesOf_of_notMem {key : String} {d : Dictionary β} (hkey : key ∉ keys d) :
    valuesOf key d = [] := by
  rw [List.eq_nil_iff_forall_not_mem]
  intro value hmem
  exact hkey (List.mem_map.mpr ⟨_, mem_valuesOf.mp hmem, rfl⟩)

/-- A key that stands there once has one value. -/
theorem valuesOf_of_mem {key : String} {value : β} {d : Dictionary β} (hnodup : (keys d).Nodup)
    (hmem : (key, value) ∈ d) : valuesOf key d = [value] := by
  induction d with
  | nil => cases hmem
  | cons entry rest ih =>
      obtain ⟨hfresh, hrest⟩ := List.nodup_cons.mp hnodup
      rw [valuesOf_cons]
      rcases List.mem_cons.mp hmem with rfl | hmem
      · rw [if_pos rfl, valuesOf_of_notMem hfresh]
      · rw [if_neg, ih hrest hmem]
        rintro rfl
        exact hfresh (List.mem_map.mpr ⟨_, hmem, rfl⟩)

theorem find?_of_mem {key : String} {value : β} {d : Dictionary β} (hnodup : (keys d).Nodup)
    (hmem : (key, value) ∈ d) : find? d key = some value := by
  rw [find?_eq_head?_valuesOf, valuesOf_of_mem hnodup hmem]
  rfl

theorem find?_eq_none_iff {key : String} {d : Dictionary β} : find? d key = none ↔ key ∉ keys d := by
  rw [find?_eq_head?_valuesOf, List.head?_eq_none_iff]
  refine ⟨fun hnone hkey => ?_, valuesOf_of_notMem⟩
  obtain ⟨⟨name, value⟩, hmem, rfl⟩ := List.mem_map.mp hkey
  have hvalue := mem_valuesOf.mpr hmem
  rw [hnone] at hvalue
  cases hvalue

theorem mem_keys_insert {key name : String} {value : β} {d : Dictionary β} :
    name ∈ keys (insert key value d) ↔ name = key ∨ name ∈ keys d := by
  induction d with
  | nil => simp [insert, keys]
  | cons entry rest ih =>
      simp only [keys] at ih
      simp only [insert, keys]
      grind

theorem ordered_insert {key : String} {value : β} {d : Dictionary β} (hordered : Ordered d) :
    Ordered (insert key value d) := by
  induction d with
  | nil => exact List.pairwise_singleton _ _
  | cons entry rest ih =>
      obtain ⟨name, found⟩ := entry
      obtain ⟨hfirst, hrest⟩ := List.pairwise_cons.mp hordered
      rw [insert]
      split
      case isTrue hbefore =>
        refine List.pairwise_cons.mpr ⟨?_, hordered⟩
        intro other hmem
        rcases List.mem_cons.mp hmem with rfl | hmem
        · exact hbefore
        · exact String.lt_trans hbefore (hfirst other hmem)
      case isFalse hafter =>
        split
        case isTrue heq =>
          subst heq
          exact List.pairwise_cons.mpr ⟨hfirst, hrest⟩
        case isFalse hne =>
          refine List.pairwise_cons.mpr ⟨?_, ih hrest⟩
          intro other hmem
          have hother : other.1 ∈ keys (insert key value rest) := List.mem_map_of_mem hmem
          rcases mem_keys_insert.mp hother with heq | hkey
          · rw [heq]
            grind
          · obtain ⟨entry, hentry, heq⟩ := List.mem_map.mp hkey
            rw [← heq]
            exact hfirst entry hentry

theorem mem_keys_ofList {pairs : List (String × β)} {name : String} :
    name ∈ keys (ofList pairs) ↔ name ∈ pairs.map (·.1) := by
  have hfold (d : Dictionary β) :
      name ∈ keys (pairs.foldl (fun d pair => d.insert pair.1 pair.2) d) ↔
        name ∈ pairs.map (·.1) ∨ name ∈ keys d := by
    induction pairs generalizing d with
    | nil => simp
    | cons pair rest ih => grind [mem_keys_insert]
  simpa [ofList, keys] using hfold []

theorem ordered_ofList (pairs : List (String × β)) : Ordered (ofList pairs) := by
  have hfold (d : Dictionary β) (hordered : Ordered d) :
      Ordered (pairs.foldl (fun d pair => d.insert pair.1 pair.2) d) := by
    induction pairs generalizing d with
    | nil => exact hordered
    | cons pair rest ih => exact ih _ (ordered_insert hordered)
  exact hfold [] List.Pairwise.nil

/-- Dictionaries of the same entries are the same. -/
theorem Ordered.eq_of_perm {d d' : Dictionary β} (hordered : Ordered d) (hordered' : Ordered d')
    (hperm : d.Perm d') : d = d' := by
  refine hperm.eq_of_pairwise ?_ hordered hordered'
  intro entry entry' _ _ hlt hgt
  exact absurd (String.lt_trans hlt hgt) (String.lt_irrefl _)

theorem Ordered.nodup_keys {d : Dictionary β} (hordered : Ordered d) : (d.map (·.1)).Nodup := by
  refine List.pairwise_map.mpr (hordered.imp ?_)
  intro entry entry' hlt heq
  exact absurd (heq ▸ hlt) (String.lt_irrefl _)

/-- A dictionary is the one that its entries make. -/
theorem Ordered.ofList_eq {d : Dictionary β} (hordered : Ordered d) : ofList d = d :=
  (ordered_ofList d).eq_of_perm hordered (ofList_perm hordered.nodup_keys)

/-- A set is known from its members. -/
theorem sortedSet_congr {texts others : List String} (hmem : ∀ text, text ∈ texts ↔ text ∈ others) :
    sortedSet texts = sortedSet others := by
  have hordered (names : List String) : (sortedSet names).Pairwise (· < ·) :=
    List.pairwise_map.mpr (ordered_ofList _)
  have hkeys (names : List String) (name : String) : name ∈ sortedSet names ↔ name ∈ names := by
    rw [sortedSet, mem_keys_ofList]
    simp
  refine (hordered texts).eq_of_mem_iff (hordered others) fun text => ?_
  rw [hkeys, hkeys, hmem]

end Dictionary

end LogForwarding
