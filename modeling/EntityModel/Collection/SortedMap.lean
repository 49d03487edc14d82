import EntityModel.Collection.OrderedMap

/-!
# Maps in name order

A map from names to values that lists its entries by increasing name. Names are compared character
by character, which for the bytes of their UTF-8 form gives the same order.
-/

namespace EntityModel

/-- Puts a value in place of the one that has the name, or before the first greater name. -/
def insertSorted {α : Type} (name : String) (value : α) : List (String × α) → List (String × α)
  | [] => [(name, value)]
  | (key, old) :: rest =>
    if key < name then (key, old) :: insertSorted name value rest
    else if key = name then (name, value) :: rest
    else (name, value) :: (key, old) :: rest

theorem mem_insertSorted {α : Type} {name : String} {value : α} {entries : List (String × α)}
    {entry : String × α} (hentry : entry ∈ insertSorted name value entries) :
    entry = (name, value) ∨ entry ∈ entries := by
  induction entries with
  | nil => simpa [insertSorted] using hentry
  | cons head rest ih =>
    obtain ⟨key, old⟩ := head
    simp only [insertSorted] at hentry
    split at hentry
    · rcases List.mem_cons.mp hentry with h | h
      · exact Or.inr (h ▸ List.mem_cons_self)
      · exact (ih h).imp_right (List.mem_cons_of_mem _)
    · split at hentry
      · exact (List.mem_cons.mp hentry).imp_right (List.mem_cons_of_mem _)
      · exact List.mem_cons.mp hentry

theorem lookup_insertSorted {α : Type} (name : String) (value : α) (entries : List (String × α))
    (key : String) : (insertSorted name value entries).lookup key =
      if key = name then some value else entries.lookup key := by
  induction entries with
  | nil =>
    by_cases hkey : key = name
    · simp [insertSorted, hkey]
    · simp [insertSorted, List.lookup_cons, beq_eq_false_iff_ne.mpr hkey, hkey]
  | cons head rest ih =>
    obtain ⟨first, old⟩ := head
    simp only [insertSorted]
    split
    next hlt =>
      by_cases hkey : key = first
      · have hne : first ≠ name := fun heq => String.lt_irrefl name (heq ▸ hlt)
        simp [hkey, hne]
      · simp only [List.lookup_cons, beq_eq_false_iff_ne.mpr hkey, ih]
    next =>
      split
      next heq =>
        by_cases hkey : key = name
        · simp [hkey]
        · have hne : key ≠ first := fun hfirst => hkey (hfirst.trans heq)
          simp [List.lookup_cons, beq_eq_false_iff_ne.mpr hkey, hkey,
            beq_eq_false_iff_ne.mpr hne]
      next =>
        by_cases hkey : key = name
        · simp [hkey]
        · simp only [List.lookup_cons, beq_eq_false_iff_ne.mpr hkey, if_neg hkey]

/-- A map in name order. -/
structure SortedMap (α : Type) where
  entries : List (String × α)
  sorted : entries.Pairwise fun first second => first.1 < second.1

namespace SortedMap

variable {α : Type}

def empty : SortedMap α := ⟨[], List.Pairwise.nil⟩

/-- The names, in increasing order. -/
def keys (map : SortedMap α) : List String := map.entries.map Prod.fst

def size (map : SortedMap α) : Nat := map.entries.length

def find? (map : SortedMap α) (name : String) : Option α := map.entries.lookup name

theorem pairwise_insertSorted (name : String) (value : α) {entries : List (String × α)}
    (hsorted : entries.Pairwise fun first second => first.1 < second.1) :
    (insertSorted name value entries).Pairwise fun first second => first.1 < second.1 := by
  induction entries with
  | nil => simp [insertSorted]
  | cons head rest ih =>
    obtain ⟨key, old⟩ := head
    obtain ⟨hhead, hrest⟩ := List.pairwise_cons.mp hsorted
    simp only [insertSorted]
    split
    · next hlt =>
      refine List.pairwise_cons.mpr ⟨fun entry hentry => ?_, ih hrest⟩
      rcases mem_insertSorted hentry with h | h
      · exact h ▸ hlt
      · exact hhead entry h
    · next hnot =>
      split
      · next heq => exact List.pairwise_cons.mpr ⟨heq ▸ hhead, hrest⟩
      · next hne =>
        have hlt : name < key :=
          Std.lt_of_le_of_ne (String.not_lt.mp hnot) fun heq => hne heq.symm
        refine List.pairwise_cons.mpr ⟨fun entry hentry => ?_, hsorted⟩
        rcases List.mem_cons.mp hentry with h | h
        · exact h ▸ hlt
        · exact String.lt_trans hlt (hhead entry h)

def insert (map : SortedMap α) (name : String) (value : α) : SortedMap α where
  entries := insertSorted name value map.entries
  sorted := pairwise_insertSorted name value map.sorted

/-- The map of a list of entries, of a repeated name the later value. -/
def ofList (entries : List (String × α)) : SortedMap α :=
  entries.foldl (fun map (name, value) => map.insert name value) empty

theorem find?_insert (map : SortedMap α) (name : String) (value : α) (key : String) :
    (map.insert name value).find? key = if key = name then some value else map.find? key :=
  lookup_insertSorted name value map.entries key

theorem find?_foldl_insert (entries : List (String × α)) (map : SortedMap α) (key : String) :
    (entries.foldl (fun map (name, value) => map.insert name value) map).find? key =
      (entries.reverse.lookup key).or (map.find? key) :=
  find?_foldl_of_find?_insert find?_insert entries map key

/-- The last value of a name is kept. -/
theorem find?_ofList (entries : List (String × α)) (key : String) :
    (ofList entries).find? key = entries.reverse.lookup key :=
  (find?_foldl_insert entries empty key).trans (Option.or_none ..)

end SortedMap

end EntityModel
