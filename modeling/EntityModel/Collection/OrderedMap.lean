/-!
# Maps in insertion order

A map from names to values that lists its entries in the order in which their names first came.
Every name occurs once; giving a name a new value keeps its place.
-/

namespace EntityModel

/-- Puts a value in place of the one that has the name, or at the end. -/
def insertEntry {α : Type} (name : String) (value : α) : List (String × α) → List (String × α)
  | [] => [(name, value)]
  | (key, old) :: rest =>
    if key = name then (name, value) :: rest else (key, old) :: insertEntry name value rest

theorem keys_insertEntry {α : Type} (name : String) (value : α) (entries : List (String × α)) :
    (insertEntry name value entries).map Prod.fst =
      if name ∈ entries.map Prod.fst then entries.map Prod.fst
      else entries.map Prod.fst ++ [name] := by
  induction entries with
  | nil => simp [insertEntry]
  | cons head rest ih =>
    obtain ⟨key, old⟩ := head
    by_cases hkey : key = name
    · simp [insertEntry, hkey]
    · have hne : ¬name = key := fun h => hkey h.symm
      simp only [insertEntry, if_neg hkey, List.map_cons, ih, List.mem_cons, hne, false_or]
      split <;> simp

theorem lookup_insertEntry {α : Type} (name : String) (value : α) (entries : List (String × α))
    (key : String) : (insertEntry name value entries).lookup key =
      if key = name then some value else entries.lookup key := by
  induction entries with
  | nil =>
    by_cases hkey : key = name
    · simp [insertEntry, hkey]
    · simp [insertEntry, List.lookup_cons, beq_eq_false_iff_ne.mpr hkey, hkey]
  | cons head rest ih =>
    obtain ⟨first, old⟩ := head
    by_cases hfirst : first = name
    · subst hfirst
      by_cases hkey : key = first
      · simp [insertEntry, hkey]
      · simp [insertEntry, List.lookup_cons, beq_eq_false_iff_ne.mpr hkey, hkey]
    · by_cases hkey : key = first
      · subst hkey
        simp [insertEntry, hfirst]
      · simp only [insertEntry, if_neg hfirst, List.lookup_cons, beq_eq_false_iff_ne.mpr hkey, ih]

/-- An entry with a new name is appended. -/
theorem insertEntry_of_not_mem {α : Type} {name : String} {entries : List (String × α)}
    (hnew : name ∉ entries.map Prod.fst) (value : α) :
    insertEntry name value entries = entries ++ [(name, value)] := by
  induction entries with
  | nil => rfl
  | cons head rest ih =>
    rw [List.map_cons, List.mem_cons, not_or] at hnew
    rw [insertEntry, if_neg (Ne.symm hnew.1), ih hnew.2, List.cons_append]

/-- Where names are distinct, an entry is found by its name. -/
theorem lookup_eq_some_iff_mem {κ α : Type} [BEq κ] [LawfulBEq κ] {entries : List (κ × α)}
    (hnodup : (entries.map Prod.fst).Nodup) {name : κ} {value : α} :
    entries.lookup name = some value ↔ (name, value) ∈ entries := by
  rw [List.lookup_eq_some_iff]
  constructor
  · rintro ⟨front, back, rfl, _⟩
    exact List.mem_append_right front List.mem_cons_self
  · intro hmem
    obtain ⟨front, back, rfl⟩ := List.append_of_mem hmem
    refine ⟨front, back, rfl, fun entry hentry => ?_⟩
    rw [List.map_append, List.nodup_append] at hnodup
    have hne := hnodup.2.2 entry.1 (List.mem_map_of_mem hentry) name (by simp)
    simpa using hne.symm

/-- If inserting gives a name its value and leaves other names alone, then of values that are
inserted one after the other a name has the last. -/
theorem find?_foldl_of_find?_insert {α μ : Type} {insert : μ → String → α → μ}
    {find? : μ → String → Option α}
    (hinsert : ∀ map name value key,
      find? (insert map name value) key = if key = name then some value else find? map key)
    (entries : List (String × α)) (map : μ) (key : String) :
    find? (entries.foldl (fun map (name, value) => insert map name value) map) key =
      (entries.reverse.lookup key).or (find? map key) := by
  induction entries generalizing map with
  | nil => rfl
  | cons head rest ih =>
    obtain ⟨name, value⟩ := head
    rw [List.foldl_cons, ih, List.reverse_cons, List.lookup_append, Option.or_assoc, hinsert]
    by_cases hkey : key = name
    · simp [hkey]
    · simp [hkey, List.lookup_cons, beq_eq_false_iff_ne.mpr hkey]

/-- A map in insertion order. -/
structure OrderedMap (α : Type) where
  entries : List (String × α)
  nodup : (entries.map Prod.fst).Nodup

namespace OrderedMap

variable {α : Type}

def empty : OrderedMap α := ⟨[], List.nodup_nil⟩

/-- The names, in the order in which they first came. -/
def keys (map : OrderedMap α) : List String := map.entries.map Prod.fst

def size (map : OrderedMap α) : Nat := map.entries.length

def find? (map : OrderedMap α) (name : String) : Option α := map.entries.lookup name

def insert (map : OrderedMap α) (name : String) (value : α) : OrderedMap α where
  entries := insertEntry name value map.entries
  nodup := by
    rw [keys_insertEntry]
    split
    · exact map.nodup
    · next hmem =>
      rw [List.nodup_append]
      refine ⟨map.nodup, by simp, ?_⟩
      intro key hkey other hother
      rw [List.mem_singleton] at hother
      subst hother
      exact fun heq => hmem (heq ▸ hkey)

/-- The map of a list of entries, the later value of a repeated name in the place of the earlier
one. -/
def ofList (entries : List (String × α)) : OrderedMap α :=
  entries.foldl (fun map (name, value) => map.insert name value) empty

/-- Changes the value of a name, if it has one. -/
def modify (map : OrderedMap α) (name : String) (change : α → α) : OrderedMap α where
  entries := map.entries.map fun (key, value) => (key, if key = name then change value else value)
  nodup := by
    rw [List.map_map]
    exact map.nodup

theorem find?_eq_some_iff {map : OrderedMap α} {name : String} {value : α} :
    map.find? name = some value ↔ (name, value) ∈ map.entries :=
  lookup_eq_some_iff_mem map.nodup

theorem keys_insert (map : OrderedMap α) (name : String) (value : α) :
    (map.insert name value).keys =
      if name ∈ map.keys then map.keys else map.keys ++ [name] :=
  keys_insertEntry name value map.entries

theorem find?_insert (map : OrderedMap α) (name : String) (value : α) (key : String) :
    (map.insert name value).find? key = if key = name then some value else map.find? key :=
  lookup_insertEntry name value map.entries key

theorem find?_foldl_insert (entries : List (String × α)) (map : OrderedMap α) (key : String) :
    (entries.foldl (fun map (name, value) => map.insert name value) map).find? key =
      (entries.reverse.lookup key).or (map.find? key) :=
  find?_foldl_of_find?_insert find?_insert entries map key

/-- The last value of a name is kept. -/
theorem find?_ofList (entries : List (String × α)) (key : String) :
    (ofList entries).find? key = entries.reverse.lookup key :=
  (find?_foldl_insert entries empty key).trans (Option.or_none ..)

theorem entries_foldl_insert {entries : List (String × α)} {map : OrderedMap α}
    (hnodup : ((map.entries ++ entries).map Prod.fst).Nodup) :
    (entries.foldl (fun map (name, value) => map.insert name value) map).entries =
      map.entries ++ entries := by
  induction entries generalizing map with
  | nil => exact (List.append_nil _).symm
  | cons head rest ih =>
    obtain ⟨name, value⟩ := head
    have hnew : name ∉ map.entries.map Prod.fst := by
      rw [List.map_append, List.nodup_append] at hnodup
      exact fun hmem => hnodup.2.2 name hmem name (by simp) rfl
    have hentries : (map.insert name value).entries = map.entries ++ [(name, value)] :=
      insertEntry_of_not_mem hnew value
    rw [← List.singleton_append, ← List.append_assoc] at hnodup ⊢
    rw [← hentries] at hnodup ⊢
    exact ih hnodup

/-- A map is that of its entries. -/
theorem ofList_entries (map : OrderedMap α) : ofList map.entries = map := by
  have hnodup : ((empty.entries ++ map.entries).map Prod.fst).Nodup := map.nodup
  have hentries : (ofList map.entries).entries = map.entries := entries_foldl_insert hnodup
  cases hlist : ofList map.entries
  cases map
  rw [hlist] at hentries
  congr

theorem keys_modify (map : OrderedMap α) (name : String) (change : α → α) :
    (map.modify name change).keys = map.keys := by
  simp [keys, modify]

end OrderedMap

end EntityModel
