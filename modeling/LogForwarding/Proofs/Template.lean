import LogForwarding.Proofs.Dictionary
import LogForwarding.Template.Basic

/-!
Templates are never at fault: with the members of an object they can always be filled in.  What they
are filled in with is the value of the member that a part names.
-/

namespace LogForwarding

/-- Items that can each be read are read in their order. -/
theorem mapM_map_eq_some {α β γ : Type} {f : α → β} {read : β → Option γ} {value : α → γ}
    {items : List α} (hread : ∀ item ∈ items, read (f item) = some (value item)) :
    (items.map f).mapM read = some (items.map value) := by
  induction items with
  | nil => rfl
  | cons item items ih =>
      have hrest := ih fun other hmem => hread other (List.mem_cons_of_mem item hmem)
      rw [List.map_cons, List.mapM_cons, hread item List.mem_cons_self, hrest]
      rfl

namespace Template

theorem exists_mapM_ok {α β ε : Type} {f : α → Except ε β} {items : List α}
    (hall : ∀ item ∈ items, ∃ result, f item = .ok result) :
    ∃ results, items.mapM f = .ok results := by
  induction items with
  | nil => exact ⟨[], rfl⟩
  | cons item rest ih =>
      obtain ⟨result, hresult⟩ := hall item List.mem_cons_self
      obtain ⟨results, hresults⟩ := ih fun other hmem => hall other (List.mem_cons_of_mem item hmem)
      refine ⟨result :: results, ?_⟩
      rw [List.mapM_cons, hresult, hresults]
      rfl

mutual

theorem exists_fillSegment (template : String) (members : Dictionary Json) (item : Json)
    (segment : Segment) :
    ∃ text, fillSegment template (.obj members) item segment = .ok text := by
  cases segment with
  | text text => exact ⟨text, rfl⟩
  | slot name line column => exact ⟨_, rfl⟩
  | item => exact ⟨_, rfl⟩
  | conditional name body =>
      rw [fillSegment]
      split
      · exact exists_fillSegments template members item body
      · exact ⟨"", rfl⟩
  | repeated name body =>
      have hitems : ∃ texts, (repetitionItems (memberOf (.obj members) name)).mapM
          (fun item => fillSegments template (.obj members) item body) = .ok texts :=
        exists_mapM_ok fun item _ => exists_fillSegments template members item body
      obtain ⟨texts, htexts⟩ := hitems
      refine ⟨String.join texts, ?_⟩
      rw [fillSegment, htexts]
      rfl

theorem exists_fillSegments (template : String) (members : Dictionary Json) (item : Json)
    (segments : List Segment) :
    ∃ text, fillSegments template (.obj members) item segments = .ok text := by
  cases segments with
  | nil => exact ⟨"", rfl⟩
  | cons segment rest =>
      obtain ⟨first, hfirst⟩ := exists_fillSegment template members item segment
      obtain ⟨others, hothers⟩ := exists_fillSegments template members item rest
      refine ⟨first ++ others, ?_⟩
      rw [fillSegments, hfirst, hothers]
      rfl

end

/-- Every template can be filled in with an object. -/
theorem exists_fill (template : Template) (members : List (String × Json)) :
    ∃ text, template.fill (Json.object members) = .ok text :=
  exists_fillSegments template.name (Dictionary.ofList members) .null template.segments

section Parts

variable {template : String} {members : List (String × Json)} {data item : Json}

/-- A member is found by its name. -/
theorem memberOf_object (hnodup : (members.map (·.1)).Nodup) {name : String} {value : Json}
    (hmem : (name, value) ∈ members) : memberOf (Json.object members) name = value := by
  have hfind := Dictionary.find?_of_mem (Dictionary.nodup_keys_ofList hnodup)
    ((Dictionary.mem_ofList hnodup).mpr hmem)
  rw [memberOf, Json.object, Json.get?, hfind, Option.getD_some]

theorem fillSegments_cons {segment : Segment} {rest : List Segment} {first others : String}
    (hfirst : fillSegment template data item segment = .ok first)
    (hrest : fillSegments template data item rest = .ok others) :
    fillSegments template data item (segment :: rest) = .ok (first ++ others) := by
  rw [fillSegments, hfirst, hrest]
  rfl

theorem fillSegment_slot {name value : String} {line column : Nat}
    (hmember : memberOf (Json.object members) name = .str value) :
    fillSegment template (Json.object members) item (.slot name line column) = .ok value := by
  rw [Json.object] at hmember ⊢
  rw [fillSegment, hmember, written]
  rintro items hitems
  cases hitems

/-- A part that is written if there is a text. -/
theorem fillSegment_conditional {name : String} {value : Option String} {body : List Segment}
    {text : String → String} (hmember : memberOf data name = Json.ofOption .str value)
    (hfilled : ∀ found, value = some found → found ≠ "")
    (hbody : ∀ found, memberOf data name = .str found →
      fillSegments template data item body = .ok (text found)) :
    fillSegment template data item (.conditional name body) = .ok (value.elim "" text) := by
  cases value with
  | none =>
      rw [fillSegment, hmember]
      rfl
  | some found =>
      have hholds : holds (memberOf data name) = true := by
        rw [hmember]
        exact decide_eq_true (hfilled found rfl)
      rw [fillSegment, if_pos hholds, hbody found hmember]
      rfl

/-- A part that is written for each of some texts. -/
theorem fillSegment_repeated {name : String} {texts : List String} {body : List Segment}
    {text : String → String} (hmember : memberOf data name = Json.texts texts)
    (hbody : ∀ item, fillSegments template data (.str item) body = .ok (text item)) :
    fillSegment template data item (.repeated name body) = .ok (String.join (texts.map text)) := by
  have hall : (texts.map Json.str).mapM (fun item => fillSegments template data item body) =
      .ok (texts.map text) := by
    rw [List.mapM_map]
    exact (congrArg (fun f => texts.mapM f) (funext hbody)).trans List.mapM_pure
  rw [fillSegment, hmember, Json.texts, repetitionItems, hall]
  rfl

end Parts

end Template

end LogForwarding
