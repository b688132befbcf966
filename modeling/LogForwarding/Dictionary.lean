/-!
Finite maps from text to values, kept as lists in strictly increasing key order.  The order of
texts is the order of their code points, which is also the order of their UTF-8 bytes.
-/

namespace LogForwarding

/-- Key and value pairs in strictly increasing key order. -/
abbrev Dictionary (β : Type) := List (String × β)

namespace Dictionary

variable {β γ : Type}

/-- Every key stands before the keys that follow it. -/
def Ordered (d : Dictionary β) : Prop :=
  d.Pairwise fun a b => a.1 < b.1

def find? (d : Dictionary β) (key : String) : Option β :=
  (List.find? (fun entry => entry.1 = key) d).map (·.2)

def contains (d : Dictionary β) (key : String) : Bool :=
  List.any d fun entry => entry.1 = key

/-- Sets the value of a key, replacing an earlier one. -/
def insert (key : String) (value : β) : Dictionary β → Dictionary β
  | [] => [(key, value)]
  | (k, v) :: rest =>
      if key < k then (key, value) :: (k, v) :: rest
      else if key = k then (key, value) :: rest
      else (k, v) :: insert key value rest

def erase (key : String) (d : Dictionary β) : Dictionary β :=
  d.filter fun entry => entry.1 ≠ key

/-- The dictionary of a list of pairs; of two pairs with one key the later wins. -/
def ofList (pairs : List (String × β)) : Dictionary β :=
  pairs.foldl (fun d pair => d.insert pair.1 pair.2) []

def keys (d : Dictionary β) : List String :=
  d.map (·.1)

/-- The values in the order of their keys. -/
def values (d : Dictionary β) : List β :=
  d.map (·.2)

def mapValues (f : β → γ) (d : Dictionary β) : Dictionary γ :=
  d.map fun entry => (entry.1, f entry.2)

/-- A set of texts: the keys of a dictionary. -/
def sortedSet (texts : List String) : List String :=
  (ofList (texts.map fun text => (text, ()))).keys

@[simp] theorem find?_nil (key : String) : find? ([] : Dictionary β) key = none := rfl

theorem find?_cons (entry : String × β) (rest : Dictionary β) (key : String) :
    find? (entry :: rest) key = if entry.1 = key then some entry.2 else find? rest key := by
  by_cases h : entry.1 = key <;> simp [find?, h]

/-- Looking up after setting: the new value at its key, the old ones elsewhere. -/
theorem find?_insert (d : Dictionary β) (key other : String) (value : β) :
    find? (insert key value d) other = if key = other then some value else find? d other := by
  induction d with
  | nil => simp [insert, find?_cons]
  | cons head tail ih =>
      obtain ⟨k, v⟩ := head
      simp only [insert]
      split
      · simp [find?_cons]
      · split
        · rename_i heq
          subst heq
          by_cases h : key = other <;> simp [find?_cons, h]
        · rename_i hne
          simp only [find?_cons, ih]
          by_cases h : k = other
          · subst h
            simp [hne]
          · simp [h]

/-- Looking up after removing: nothing at the removed key, the old values elsewhere. -/
theorem find?_erase (d : Dictionary β) (key other : String) :
    find? (erase key d) other = if key = other then none else find? d other := by
  induction d with
  | nil => simp [erase]
  | cons head tail ih =>
      by_cases h : head.1 = key
      · have herase : erase key (head :: tail) = erase key tail := by simp [erase, h]
        rw [herase, ih, find?_cons]
        by_cases hk : key = other <;> simp [h, hk]
      · have herase : erase key (head :: tail) = head :: erase key tail := by simp [erase, h]
        rw [herase, find?_cons, find?_cons, ih]
        by_cases hk : key = other
        · subst hk
          simp [h]
        · simp [hk]

end Dictionary

end LogForwarding
