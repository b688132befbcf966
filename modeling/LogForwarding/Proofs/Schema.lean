import LogForwarding.Proofs.Merge
import LogForwarding.Schema.Decoder

/-!
When the decoder of a record accepts an object, and what it reads from it.  Each field looks at the
members of its own name only, so a merge patch that names other members does not concern it.  The
position of an item or of an entry only shows when it is refused.
-/

namespace LogForwarding

theorem bind_eq_ok {α β ε : Type} {first : Except ε α} {rest : α → Except ε β} {result : β} :
    (first >>= rest) = .ok result ↔ ∃ middle, first = .ok middle ∧ rest middle = .ok result := by
  cases first with
  | error error =>
      constructor
      · intro hresult
        cases hresult
      · rintro ⟨middle, hmiddle, -⟩
        cases hmiddle
  | ok middle =>
      constructor
      · intro hresult
        exact ⟨middle, rfl, hresult⟩
      · rintro ⟨found, hfound, hresult⟩
        cases hfound
        exact hresult

theorem mapError_eq_ok {α ε ε' : Type} {f : ε → ε'} {outcome : Except ε α} {result : α} :
    outcome.mapError f = .ok result ↔ outcome = .ok result := by
  cases outcome with
  | error error =>
      constructor
      · intro hresult
        cases hresult
      · intro hresult
        cases hresult
  | ok found =>
      constructor
      · intro hresult
        cases hresult
        rfl
      · intro hresult
        cases hresult
        rfl

/-- One thing after the other is well when both are, wherever the first would have failed. -/
theorem mapError_bind_eq_ok {α β γ ε ε' : Type} {f : ε → ε'} {first : Except ε α}
    {others : Except ε' β} {combine : α → β → γ} {result : γ} :
    (do
      let value ← first.mapError f
      let rest ← others
      pure (combine value rest) : Except ε' γ) = .ok result ↔
      ∃ value rest, first = .ok value ∧ others = .ok rest ∧ result = combine value rest := by
  rw [bind_eq_ok]
  constructor
  · rintro ⟨value, hfirst, hrest⟩
    obtain ⟨rest, hothers, hresult⟩ := bind_eq_ok.mp hrest
    cases hresult
    exact ⟨value, rest, mapError_eq_ok.mp hfirst, hothers, rfl⟩
  · rintro ⟨value, rest, hfirst, hothers, rfl⟩
    exact ⟨value, mapError_eq_ok.mpr hfirst, bind_eq_ok.mpr ⟨rest, hothers, rfl⟩⟩

namespace Decoder

variable {α : Type} {item : Decoder α}

theorem items_cons_ok_iff {position : Nat} {value : Json} {rest : List Json} {results : List α} :
    items item position (value :: rest) = .ok results ↔
      ∃ first others, item value = .ok first ∧ items item (position + 1) rest = .ok others ∧
        results = first :: others := by
  rw [items]
  exact mapError_bind_eq_ok

/-- The position of an item only shows in its mismatch. -/
theorem items_ok_iff {position : Nat} {values : List Json} {results : List α} :
    items item position values = .ok results ↔ values.map item = results.map .ok := by
  induction values generalizing position results with
  | nil => cases results <;> simp [items]
  | cons value rest ih =>
      rw [items_cons_ok_iff]
      constructor
      · rintro ⟨first, others, hfirst, hothers, rfl⟩
        rw [List.map_cons, List.map_cons, hfirst, ih.mp hothers]
      · intro hmap
        cases results with
        | nil => cases hmap
        | cons first others =>
            obtain ⟨hfirst, hothers⟩ := List.cons.inj hmap
            exact ⟨first, others, hfirst, ih.mpr hothers, rfl⟩

theorem nullable_of_ne {value : Json} (hvalue : value ≠ .null) :
    nullable item value = (item value).map some := by
  rw [nullable]
  exact fun heq => hvalue heq

theorem nullable_ok {value : Json} {result : α} (hvalue : value ≠ .null)
    (hitem : item value = .ok result) : nullable item value = .ok (some result) := by
  rw [nullable_of_ne hvalue, hitem]
  rfl

theorem text_str (value : String) : text (.str value) = .ok value := rfl

theorem boolean_bool (value : Bool) : boolean (.bool value) = .ok value := rfl

theorem integer_ok {name : String} {low high value : Int} (hlow : low ≤ value)
    (hhigh : value ≤ high) : integer name low high (.int value) = .ok value :=
  if_pos ⟨hlow, hhigh⟩

theorem int64_toInt (number : Int64) : int64 (.int number.toInt) = .ok number := by
  have hlow := number.le_toInt
  have hhigh := number.toInt_lt
  have hbounds : -(UInt64.size / 2 : Int) ≤ number.toInt ∧
      number.toInt ≤ (UInt64.size / 2 : Int) - 1 := by
    simp only [UInt64.size]
    omega
  rw [int64, integer_ok hbounds.1 hbounds.2]
  simp [Except.map]

theorem int32_toInt (number : Int32) : int32 (.int number.toInt) = .ok number := by
  have hlow := number.le_toInt
  have hhigh := number.toInt_lt
  have hbounds : -(UInt32.size / 2 : Int) ≤ number.toInt ∧
      number.toInt ≤ (UInt32.size / 2 : Int) - 1 := by
    simp only [UInt32.size]
    omega
  rw [int32, integer_ok hbounds.1 hbounds.2]
  simp [Except.map]

theorem word32_toNat (number : UInt32) : word32 (.int number.toNat) = .ok number := by
  have hhigh := number.toNat_lt_size
  have hbounds : (0 : Int) ≤ number.toNat ∧ (number.toNat : Int) ≤ (UInt32.size : Int) - 1 := by
    omega
  rw [word32, integer_ok hbounds.1 hbounds.2]
  simp [Except.map]

/-- A list of what can be read back is read back. -/
theorem list_map {toJson : α → Json} (hitem : ∀ result, item (toJson result) = .ok result)
    (results : List α) : list item (.arr (results.map toJson)) = .ok results := by
  rw [list, items_ok_iff, List.map_map]
  exact List.map_congr_left fun result _ => hitem result

theorem entries_cons_ok_iff {position : Nat} {key : String} {value : Json}
    {rest : List (String × Json)} {results : List (String × α)} :
    entries item position ((key, value) :: rest) = .ok results ↔
      ∃ first others, item value = .ok first ∧ entries item (position + 1) rest = .ok others ∧
        results = (key, first) :: others := by
  rw [entries]
  exact mapError_bind_eq_ok

/-- A dictionary without a key is read as what was read before without that key. -/
theorem entries_erase {position : Nat} {members : Dictionary Json} {results : Dictionary α}
    (key : String) (hread : entries item position members = .ok results) (start : Nat) :
    entries item start (members.erase key) = .ok (results.erase key) := by
  induction members generalizing position results start with
  | nil =>
      cases hread
      rfl
  | cons entry rest ih =>
      obtain ⟨name, value⟩ := entry
      obtain ⟨first, others, hfirst, hothers, rfl⟩ := entries_cons_ok_iff.mp hread
      by_cases hname : name = key
      · simpa [Dictionary.erase, hname] using ih hothers start
      · have hrest := ih hothers (start + 1)
        simp only [Dictionary.erase, hname, ne_eq, not_false_eq_true, decide_true,
          List.filter_cons_of_pos]
        exact entries_cons_ok_iff.mpr ⟨first, _, hfirst, hrest, rfl⟩

end Decoder

/-- Those of some members that are present. -/
def Json.present (members : List (String × Option Json)) : List (String × Json) :=
  members.filterMap fun (name, value) => value.map fun v => (name, v)

theorem Json.ofFields_eq (members : List (String × Option Json)) :
    ofFields members = .obj (Dictionary.ofList (present members)) := rfl

namespace Fields

variable {α β : Type}

/-- Members of unknown names are not looked at. -/
class Proper (fields : Fields α) : Prop where
  check_unknown : ∀ key value, key ∉ fields.names → fields.check key value = .ok ()

/-- None of the members is bad. -/
def Accepts (fields : Fields α) (members : Dictionary Json) : Prop :=
  ∀ entry ∈ members, fields.check entry.1 entry.2 = .ok ()

/-- The members are those of a record: none of them is bad and no field is missing. -/
def Reads (fields : Fields α) (members : Dictionary Json) (result : α) : Prop :=
  fields.Accepts members ∧ fields.ofMembers members = .ok result

/-- Every member of a name is of the wanted shape. -/
def Sound (name : String) (item : Decoder α) (members : Dictionary Json) : Prop :=
  ∀ value ∈ members.valuesOf name, ∃ read, item value = .ok read

theorem checkMembers_ok_iff {fields : Fields α} (position : Nat) {members : Dictionary Json} :
    fields.checkMembers false position members = .ok () ↔
      ∀ entry ∈ members, entry.1 ∈ fields.names → fields.check entry.1 entry.2 = .ok () := by
  induction members generalizing position with
  | nil => simp [checkMembers]
  | cons entry rest ih =>
      obtain ⟨key, value⟩ := entry
      have hrest := ih (position + 1)
      rw [List.forall_mem_cons, ← hrest, checkMembers]
      by_cases hmem : key ∈ fields.names
      · rw [if_pos hmem, bind_eq_ok]
        constructor
        · rintro ⟨done, hcheck, hothers⟩
          exact ⟨fun _ => mapError_eq_ok.mp hcheck, hothers⟩
        · rintro ⟨hcheck, hothers⟩
          exact ⟨(), mapError_eq_ok.mpr (hcheck hmem), hothers⟩
      · rw [if_neg hmem]
        constructor
        · intro hothers
          exact ⟨fun hname => absurd hname hmem, hothers⟩
        · rintro ⟨-, hothers⟩
          exact hothers

theorem checkMembers_strict_ok_iff {fields : Fields α} (position : Nat)
    {members : Dictionary Json} :
    fields.checkMembers true position members = .ok () ↔
      ∀ entry ∈ members, entry.1 ∈ fields.names ∧ fields.check entry.1 entry.2 = .ok () := by
  induction members generalizing position with
  | nil => simp [checkMembers]
  | cons entry rest ih =>
      obtain ⟨key, value⟩ := entry
      rw [List.forall_mem_cons, ← ih (position + 1), checkMembers]
      by_cases hmem : key ∈ fields.names
      · rw [if_pos hmem, bind_eq_ok]
        constructor
        · rintro ⟨done, hcheck, hothers⟩
          exact ⟨⟨hmem, mapError_eq_ok.mp hcheck⟩, hothers⟩
        · rintro ⟨⟨-, hcheck⟩, hothers⟩
          exact ⟨(), mapError_eq_ok.mpr hcheck, hothers⟩
      · rw [if_neg hmem, if_pos rfl]
        refine iff_of_false ?_ fun hall => hmem hall.1.1
        intro hrefused
        cases hrefused

theorem checkMembers_ok_iff_accepts {fields : Fields α} [fields.Proper] (position : Nat)
    {members : Dictionary Json} :
    fields.checkMembers false position members = .ok () ↔ fields.Accepts members := by
  rw [checkMembers_ok_iff]
  constructor
  · intro hall entry hmem
    by_cases hname : entry.1 ∈ fields.names
    · exact hall entry hmem hname
    · exact Proper.check_unknown entry.1 entry.2 hname
  · intro haccepts entry hmem _
    exact haccepts entry hmem

theorem decoder_obj_ok_iff {fields : Fields α} [fields.Proper] {type : String}
    {members : Dictionary Json} {result : α} :
    fields.decoder type false (.obj members) = .ok result ↔ fields.Reads members result := by
  rw [Reads, ← checkMembers_ok_iff_accepts 0, decoder, bind_eq_ok]
  constructor
  · rintro ⟨done, hcheck, hmembers⟩
    exact ⟨hcheck, hmembers⟩
  · rintro ⟨hcheck, hmembers⟩
    exact ⟨(), hcheck, hmembers⟩

/-- A decoder that refuses unknown names accepts an object of known names. -/
theorem decoder_strict_ok_iff {fields : Fields α} {type : String} {members : Dictionary Json}
    {result : α} :
    fields.decoder type true (.obj members) = .ok result ↔
      (∀ entry ∈ members, entry.1 ∈ fields.names) ∧ fields.Reads members result := by
  rw [Reads, Accepts, ← and_assoc, ← forall₂_and, ← checkMembers_strict_ok_iff 0, decoder,
    bind_eq_ok]
  constructor
  · rintro ⟨done, hcheck, hmembers⟩
    exact ⟨hcheck, hmembers⟩
  · rintro ⟨hcheck, hmembers⟩
    exact ⟨(), hcheck, hmembers⟩

theorem objectDecoder_ok_iff {fields : Fields α} [fields.Proper] {type : String}
    {value : Json} {result : α} :
    fields.objectDecoder type value = .ok result ↔
      ∃ members, value = .obj members ∧ fields.Reads members result := by
  cases value with
  | obj members =>
      rw [objectDecoder, bind_eq_ok]
      constructor
      · rintro ⟨done, hcheck, hmembers⟩
        exact ⟨members, rfl, (checkMembers_ok_iff_accepts 0).mp hcheck, hmembers⟩
      · rintro ⟨found, hfound, haccepts, hmembers⟩
        cases hfound
        exact ⟨(), (checkMembers_ok_iff_accepts 0).mpr haccepts, hmembers⟩
  | _ => simp [objectDecoder]

/-- What may be null is an object whose members are accepted, or it has no members. -/
theorem accepts_members_of_nullable {fields : Fields α} [fields.Proper] {type : String}
    {value : Json} {result : Option α}
    (hread : Decoder.nullable (fields.decoder type false) value = .ok result) :
    fields.Accepts value.members := by
  cases value with
  | obj members =>
      rw [Decoder.nullable] at hread
      · cases hdecode : fields.decoder type false (.obj members) with
        | ok found => exact (decoder_obj_ok_iff.mp hdecode).1
        | error mismatch => simp [hdecode, Except.map] at hread
      · intro hnull
        cases hnull
  | _ => intro entry hmem; cases hmem

section Combinators

instance {f : α → β} {fields : Fields α} [fields.Proper] : (f <$> fields).Proper where
  check_unknown key value hname := by
    have hrest : key ∉ fields.names := fun hmem => hname (List.mem_append_right _ hmem)
    exact (inferInstance : fields.Proper).check_unknown key value hrest

instance {first : Fields (α → β)} {second : Fields α} [first.Proper] [second.Proper] :
    (first <*> second).Proper where
  check_unknown key value hname := by
    have hleft : key ∉ first.names := fun hmem => hname (List.mem_append_left _ hmem)
    have hright : key ∉ second.names := fun hmem => hname (List.mem_append_right _ hmem)
    show (do first.check key value; second.check key value) = _
    rw [Proper.check_unknown key value hleft, Proper.check_unknown key value hright]
    rfl

variable {members : Dictionary Json}

theorem accepts_map {f : α → β} {fields : Fields α} :
    (f <$> fields).Accepts members ↔ fields.Accepts members :=
  Iff.rfl

theorem accepts_seq {first : Fields (α → β)} {second : Fields α} :
    (first <*> second).Accepts members ↔ first.Accepts members ∧ second.Accepts members := by
  have hcheck : ∀ key value, (first <*> second).check key value = .ok () ↔
      first.check key value = .ok () ∧ second.check key value = .ok () := by
    intro key value
    show (first.check key value >>= fun _ => second.check key value) = _ ↔ _
    rw [bind_eq_ok]
    constructor
    · rintro ⟨done, hfirst, hsecond⟩
      exact ⟨hfirst, hsecond⟩
    · rintro ⟨hfirst, hsecond⟩
      exact ⟨(), hfirst, hsecond⟩
  simp only [Accepts, hcheck]
  constructor
  · intro hall
    exact ⟨fun entry hmem => (hall entry hmem).1, fun entry hmem => (hall entry hmem).2⟩
  · rintro ⟨hfirst, hsecond⟩ entry hmem
    exact ⟨hfirst entry hmem, hsecond entry hmem⟩

theorem reads_map {f : α → β} {fields : Fields α} {result : β} :
    (f <$> fields).Reads members result ↔ ∃ value, fields.Reads members value ∧ result = f value := by
  rw [Reads, accepts_map]
  show _ ∧ (fields.ofMembers members >>= fun value => .ok (f value)) = _ ↔ _
  rw [bind_eq_ok]
  constructor
  · rintro ⟨haccepts, value, hread, heq⟩
    exact ⟨value, ⟨haccepts, hread⟩, (Except.ok.inj heq).symm⟩
  · rintro ⟨value, ⟨haccepts, hread⟩, rfl⟩
    exact ⟨haccepts, value, hread, rfl⟩

theorem reads_seq {first : Fields (α → β)} {second : Fields α} {result : β} :
    (first <*> second).Reads members result ↔
      ∃ make value, first.Reads members make ∧ second.Reads members value ∧ result = make value := by
  rw [Reads, accepts_seq]
  show _ ∧ (first.ofMembers members >>= fun make =>
    second.ofMembers members >>= fun value => .ok (make value)) = _ ↔ _
  rw [bind_eq_ok]
  constructor
  · rintro ⟨⟨hfirst, hsecond⟩, make, hmake, hrest⟩
    obtain ⟨value, hvalue, heq⟩ := bind_eq_ok.mp hrest
    exact ⟨make, value, ⟨hfirst, hmake⟩, ⟨hsecond, hvalue⟩, (Except.ok.inj heq).symm⟩
  · rintro ⟨make, value, ⟨hfirst, hmake⟩, ⟨hsecond, hvalue⟩, rfl⟩
    exact ⟨⟨hfirst, hsecond⟩, make, hmake, bind_eq_ok.mpr ⟨value, hvalue, rfl⟩⟩

end Combinators

section Field

variable {name : String} {item : Decoder α} {absent omitted : Option α}
  {d d' : Dictionary Json} {result : α}

instance : (field name item absent omitted).Proper where
  check_unknown key value hname := by
    have hne : key ≠ name := fun heq => hname (by simp [field, heq])
    simp [field, hne]

instance : (required name item).Proper :=
  inferInstanceAs (field _ _ _ _).Proper

instance : (withDefault name item result).Proper :=
  inferInstanceAs (field _ _ _ _).Proper

instance : (optional name item).Proper :=
  inferInstanceAs (field _ _ _ _).Proper

instance : (optionalMember name item).Proper :=
  inferInstanceAs (field _ _ _ _).Proper

theorem accepts_field : (field name item absent omitted).Accepts d ↔ Sound name item d := by
  constructor
  · intro haccepts value hmem
    have hone := haccepts (name, value) (Dictionary.mem_valuesOf.mp hmem)
    cases hitem : item value with
    | ok read => exact ⟨read, rfl⟩
    | error mismatch => simp [field, hitem, Except.map] at hone
  · rintro hsound ⟨key, found⟩ hmem
    by_cases hname : key = name
    · subst hname
      obtain ⟨read, hread⟩ := hsound found (Dictionary.mem_valuesOf.mpr hmem)
      simp [field, hread, Except.map]
    · simp [field, hname]

/-- A field is read from the first of its members. -/
theorem reads_field :
    (field name item absent omitted).Reads d result ↔
      Sound name item d ∧
        match d.valuesOf name with
        | value :: _ => item value = .ok result
        | [] => absent = some result := by
  have hof : (field name item absent omitted).ofMembers d = .ok result ↔
      match d.valuesOf name with
      | value :: _ => item value = .ok result
      | [] => absent = some result := by
    simp only [field, Dictionary.find?_eq_head?_valuesOf]
    cases d.valuesOf name with
    | cons value rest => simp
    | nil => cases absent <;> simp
  rw [Reads, accepts_field, hof]

/-- A field that is read has no member and may be missing, or is read from its first member. -/
theorem find?_of_reads_field (hreads : (field name item absent omitted).Reads d result) :
    (d.find? name = none ∧ absent = some result) ∨
      ∃ value, d.find? name = some value ∧ item value = .ok result := by
  have hvalues := (reads_field.mp hreads).2
  rw [Dictionary.find?_eq_head?_valuesOf]
  cases hhead : d.valuesOf name with
  | nil =>
      rw [hhead] at hvalues
      exact Or.inl ⟨rfl, hvalues⟩
  | cons value others =>
      rw [hhead] at hvalues
      exact Or.inr ⟨value, rfl, hvalues⟩

/-- A field looks at the members of its name only. -/
theorem reads_congr (hvalues : d.valuesOf name = d'.valuesOf name) :
    (field name item absent omitted).Reads d result ↔
      (field name item absent omitted).Reads d' result := by
  rw [reads_field, reads_field, Sound, Sound, hvalues]

/-- A field whose first member is new is read from it, if the others were there before. -/
theorem reads_of_valuesOf {value : Json} {others : List Json}
    (hvalues : d'.valuesOf name = value :: others) (hitem : item value = .ok result)
    (hothers : ∀ other ∈ others, other ∈ d.valuesOf name) (hsound : Sound name item d) :
    (field name item absent omitted).Reads d' result := by
  rw [reads_field, Sound, hvalues]
  refine ⟨?_, hitem⟩
  intro found hmem
  rcases List.mem_cons.mp hmem with rfl | hold
  · exact ⟨result, hitem⟩
  · exact hsound found (hothers found hold)

/-- A field whose member is set is read from what it is set to. -/
theorem reads_insert {value : Json} (hsound : Sound name item d) (hitem : item value = .ok result) :
    (field name item absent omitted).Reads (d.insert name value) result := by
  obtain ⟨others, hvalues, hothers⟩ := Dictionary.valuesOf_insert_self name value d
  exact reads_of_valuesOf hvalues hitem hothers hsound

theorem reads_insert_of_ne {key : String} (hne : key ≠ name) (value : Json) :
    (field name item absent omitted).Reads (d.insert key value) result ↔
      (field name item absent omitted).Reads d result :=
  reads_congr (Dictionary.valuesOf_insert_of_ne hne value d)

section Object

variable {pairs : List (String × Json)}

/-- A field that an object names is read from what it names. -/
theorem reads_named (hnodup : (pairs.map (·.1)).Nodup) {value : Json} (hmem : (name, value) ∈ pairs)
    (hitem : item value = .ok result) :
    (field name item absent omitted).Reads (Dictionary.ofList pairs) result := by
  have hvalues := Dictionary.valuesOf_of_mem (Dictionary.nodup_keys_ofList hnodup)
    ((Dictionary.mem_ofList hnodup).mpr hmem)
  rw [reads_field, Sound, hvalues]
  refine ⟨?_, hitem⟩
  intro found hfound
  obtain rfl := List.mem_singleton.mp hfound
  exact ⟨result, hitem⟩

/-- A field that an object does not name is read as one that is absent. -/
theorem reads_missing (hkey : name ∉ pairs.map (·.1)) (habsent : absent = some result) :
    (field name item absent omitted).Reads (Dictionary.ofList pairs) result := by
  have hvalues := Dictionary.valuesOf_of_notMem (fun hmem => hkey (Dictionary.mem_keys_ofList.mp hmem))
  rw [reads_field, Sound, hvalues]
  exact ⟨List.forall_mem_nil _, habsent⟩

section Present

variable {members : List (String × Option Json)} (hnodup : (members.map (·.1)).Nodup)

theorem mem_present {value : Json} :
    (name, value) ∈ Json.present members ↔ (name, some value) ∈ members := by
  simp [Json.present]

/-- Every name of an object is one of the names that it may have. -/
theorem present_sublist (members : List (String × Option Json)) :
    ((Json.present members).map (·.1)).Sublist (members.map (·.1)) := by
  induction members with
  | nil => exact List.Sublist.refl _
  | cons entry members ih =>
      obtain ⟨name, value⟩ := entry
      cases value with
      | none => exact ih.cons name
      | some value => exact ih.cons_cons name

include hnodup

theorem reads_given {value : Json} (hmem : (name, some value) ∈ members)
    (hitem : item value = .ok result) :
    (field name item absent omitted).Reads (Dictionary.ofList (Json.present members)) result :=
  reads_named ((present_sublist members).nodup hnodup) (mem_present.mpr hmem) hitem

theorem reads_left_out (hmem : (name, none) ∈ members) (habsent : absent = some result) :
    (field name item absent omitted).Reads (Dictionary.ofList (Json.present members)) result := by
  refine reads_missing ?_ habsent
  intro hname
  obtain ⟨⟨key, value⟩, hvalue, rfl⟩ := List.mem_map.mp hname
  have hsame := List.inj_on_of_nodup_map hnodup hmem (mem_present.mp hvalue) rfl
  cases hsame

/-- What is left out when there is none of it is read back. -/
theorem reads_option {toJson : α → Json} (hnull : ∀ value, toJson value ≠ .null)
    (hitem : ∀ value, item (toJson value) = .ok value) {value : Option α}
    {omitted : Option (Option α)} (hmem : (name, value.map toJson) ∈ members) :
    (field name (Decoder.nullable item) (some none) omitted).Reads
      (Dictionary.ofList (Json.present members)) value := by
  cases value with
  | none => exact reads_left_out hnodup hmem rfl
  | some value =>
      exact reads_given hnodup hmem (Decoder.nullable_ok (hnull value) (hitem value))

omit hnodup in
/-- A record that is written with the names of its fields has no unknown ones. -/
theorem decoder_ofFields_ok_iff {fields : Fields α} {type : String}
    (hnames : fields.names = members.map (·.1)) :
    fields.decoder type true (Json.ofFields members) = .ok result ↔
      fields.Reads (Dictionary.ofList (Json.present members)) result := by
  rw [Json.ofFields_eq, decoder_strict_ok_iff, and_iff_right_iff_imp]
  rintro - ⟨key, value⟩ hmem
  have hkey := Dictionary.mem_keys_ofList.mp (List.mem_map_of_mem (f := Prod.fst) hmem)
  rw [hnames]
  exact (present_sublist members).subset hkey

/-- A list that is left out when it is empty is read back. -/
theorem reads_list {toJson : α → Json} (hitem : ∀ value, item (toJson value) = .ok value)
    {values : List α} {omitted : Option (List α)}
    (hmem : (name, if values.map toJson = [] then none else some (.arr (values.map toJson))) ∈
      members) :
    (field name (Decoder.list item) (some []) omitted).Reads
      (Dictionary.ofList (Json.present members)) values := by
  cases values with
  | nil => exact reads_left_out hnodup hmem rfl
  | cons value rest => exact reads_given hnodup hmem (Decoder.list_map hitem (value :: rest))

end Present

end Object

section Patch

variable {pairs : List (String × Json)} (hnodup : (pairs.map (·.1)).Nodup)

include hnodup

/-- A field that a patch names is read from what the patch makes of it. -/
theorem reads_merged {change : Json} (hmem : (name, change) ∈ pairs) (hchange : change ≠ .null)
    (hsound : Sound name item d)
    (hitem : item (Json.merge change ((d.find? name).getD .null)) = .ok result) :
    (field name item absent omitted).Reads
      (Json.mergeMembers (Dictionary.ofList pairs) d) result := by
  obtain ⟨others, hvalues, hothers⟩ := Json.valuesOf_mergeMembers
    (Dictionary.nodup_keys_ofList hnodup) ((Dictionary.mem_ofList hnodup).mpr hmem) hchange d
  exact reads_of_valuesOf hvalues hitem hothers hsound

/-- A field that a patch sets to something else than an object is read from that. -/
theorem reads_set {change : Json} (hmem : (name, change) ∈ pairs)
    (hsound : Sound name item d) (hitem : item change = .ok result) (hchange : change ≠ .null)
    (hobj : ∀ changes, change ≠ .obj changes) :
    (field name item absent omitted).Reads
      (Json.mergeMembers (Dictionary.ofList pairs) d) result := by
  refine reads_merged hnodup hmem hchange hsound ?_
  rw [Json.merge_of_ne_obj hobj, hitem]

/-- A field that a patch names as null is read as one that is absent. -/
theorem reads_cleared (hmem : (name, Json.null) ∈ pairs) (habsent : absent = some result) :
    (field name item absent omitted).Reads
      (Json.mergeMembers (Dictionary.ofList pairs) d) result := by
  rw [reads_field, Sound, Json.valuesOf_mergeMembers_null (Dictionary.nodup_keys_ofList hnodup)
    ((Dictionary.mem_ofList hnodup).mpr hmem)]
  exact ⟨nofun, habsent⟩

/-- A field that a patch does not name is read as before. -/
theorem reads_unnamed (hkey : name ∉ pairs.map (·.1)) :
    (field name item absent omitted).Reads
        (Json.mergeMembers (Dictionary.ofList pairs) d) result ↔
      (field name item absent omitted).Reads d result := by
  refine reads_congr (Json.valuesOf_mergeMembers_of_notMem ?_ d)
  intro hmem
  obtain ⟨entry, hentry, hname⟩ := List.mem_map.mp hmem
  exact hkey (List.mem_map.mpr ⟨entry, (Dictionary.mem_ofList hnodup).mp hentry, hname⟩)

end Patch

end Field

end Fields

end LogForwarding
