import LogForwarding.Proofs.Yaml.Legible
import LogForwarding.Proofs.Yaml.Scanning
import LogForwarding.Yaml.Scalar

/-!
What becomes of a value that is printed and then read as YAML.
-/

namespace LogForwarding

open Yaml

theorem Yaml.isKept_of_no_separator {text : List Char} (hnone : ∀ c ∈ text, ¬ isSeparator c) :
    isKept text := by
  induction text with
  | nil => rfl
  | cons c rest ih =>
      obtain ⟨hc, hothers⟩ := List.forall_mem_cons.mp hnone
      refine isKept_cons.mpr ⟨?_, fun habsurd => absurd habsurd hc, ?_, ih hothers⟩
      · rintro rfl
        exact hc (by decide)
      · intro _ next hnext
        exact hothers next (List.mem_of_mem_head? hnext)

theorem Yaml.folded?_of_simple {key : String} (hsimple : isSimpleKey key) :
    folded? key = some key :=
  (folded?_eq_iff key).mpr
    (isKept_of_no_separator (isSimpleKey_iff.mp hsimple).1)

namespace Json

mutual

/-- The value that a printed value is read as, if its characters may stand in a stream. -/
def reread? : Json → Option Json
  | .str text => (folded? text).map .str
  | .arr items => (rereadItems? items).map .arr
  | .obj members => (rereadMembers? members).map .obj
  | .null => some .null
  | .bool value => some (.bool value)
  | .int value => some (.int value)
  | .float value => some (.float value)

def rereadItems? : List Json → Option (List Json)
  | [] => some []
  | item :: rest => (reread? item).bind fun value => (rereadItems? rest).map (value :: ·)

/-- The members are read if each key is seen to be one. -/
def rereadMembers? : List (String × Json) → Option (List (String × Json))
  | [] => some []
  | (key, member) :: rest =>
      if isSimpleKey key then
        (reread? member).bind fun value => (rereadMembers? rest).map ((key, value) :: ·)
      else none

end

mutual

/-- How many collections are nested. -/
def nesting : Json → Nat
  | .arr items => 1 + nestingItems items
  | .obj members => 1 + nestingMembers members
  | _ => 0

def nestingItems : List Json → Nat
  | [] => 0
  | item :: rest => max (nesting item) (nestingItems rest)

def nestingMembers : List (String × Json) → Nat
  | [] => 0
  | (_, member) :: rest => max (nesting member) (nestingMembers rest)

end

mutual

/-- A value as readers of JSON build it: integers fit a word, there are only finite numbers, and
the members of an object are in order. -/
def IsProper : Json → Prop
  | .int value => fitsWord value
  | .float value => value.isFinite
  | .arr items => AreProper items
  | .obj members => Dictionary.Ordered members ∧ AreProperMembers members
  | _ => True

def AreProper : List Json → Prop
  | [] => True
  | item :: rest => IsProper item ∧ AreProper rest

def AreProperMembers : List (String × Json) → Prop
  | [] => True
  | (_, member) :: rest => IsProper member ∧ AreProperMembers rest

end

/-- A text whose characters may stand in a stream, or are escaped. -/
def hasAllowed (text : String) : Bool :=
  text.toList.all fun c => c.toNat < 0x20 ∨ isAllowed c

mutual

/-- Nothing in the value is lost or altered when it is printed and then read as YAML. -/
def IsLegible : Json → Prop
  | .str text => hasAllowed text ∧ isKept text.toList
  | .arr items => AreLegible items
  | .obj members => AreLegibleMembers members
  | _ => True

def AreLegible : List Json → Prop
  | [] => True
  | item :: rest => IsLegible item ∧ AreLegible rest

def AreLegibleMembers : List (String × Json) → Prop
  | [] => True
  | (key, member) :: rest =>
      (hasAllowed key ∧ isSimpleKey key) ∧ IsLegible member ∧ AreLegibleMembers rest

end

theorem nestingItems_le_iff {items : List Json} {depth : Nat} :
    nestingItems items ≤ depth ↔ ∀ item ∈ items, item.nesting ≤ depth := by
  induction items with
  | nil => simp [nestingItems]
  | cons item rest ih => rw [nestingItems, Nat.max_le, ih, List.forall_mem_cons]

theorem nestingMembers_le_iff {members : List (String × Json)} {depth : Nat} :
    nestingMembers members ≤ depth ↔ ∀ entry ∈ members, entry.2.nesting ≤ depth := by
  induction members with
  | nil => simp [nestingMembers]
  | cons entry rest ih => rw [nestingMembers, Nat.max_le, ih, List.forall_mem_cons]

end Json

end LogForwarding
