/-!
Insertion-ordered maps with texts as keys. Writing to a key that is present keeps its place.
-/

namespace TreeExport

/-- The entries of a map in order. Of two entries with one key the first counts. -/
abbrev Keyed (α : Type) := List (String × α)

namespace Keyed

variable {α : Type}

def get? (map : Keyed α) (key : String) : Option α :=
  map.lookup key

def has (map : Keyed α) (key : String) : Bool :=
  (map.get? key).isSome

/-- The map with a value at a key, in the key's old place or at the end. -/
def put : Keyed α → String → α → Keyed α
  | [], key, value => [(key, value)]
  | (k, v) :: rest, key, value =>
    if k = key then (k, value) :: rest else (k, v) :: put rest key value

def ofList (entries : List (String × α)) : Keyed α :=
  entries.foldl (fun map entry => map.put entry.1 entry.2) []

def keys (map : Keyed α) : List String :=
  map.map Prod.fst

@[simp] theorem get?_nil (key : String) : get? ([] : Keyed α) key = none := rfl

theorem get?_cons (k key : String) (v : α) (rest : Keyed α) :
    get? ((k, v) :: rest) key = if key = k then some v else get? rest key := by
  by_cases same : key = k
  · simp [get?, same]
  · simp [get?, List.lookup_cons, same, beq_eq_false_iff_ne.mpr same]

/-- A written value is found at its key, and nothing changes at other keys. -/
theorem get?_put (map : Keyed α) (key other : String) (value : α) :
    (map.put key value).get? other = if other = key then some value else map.get? other := by
  induction map with
  | nil => simp [put, get?_cons]
  | cons entry rest ih =>
      obtain ⟨k, v⟩ := entry
      by_cases here : k = key
      · subst here
        simp only [put, if_true, get?_cons]
        split <;> rfl
      · simp only [put, here, if_false, get?_cons, ih]
        split
        · rename_i equal
          subst equal
          simp [here]
        · rfl

end Keyed

end TreeExport
