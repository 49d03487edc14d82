import EntityModel.Collection.OrderedMap
import Mathlib.Data.List.Induction

/-!
# Maps in insertion order

A map that is made of a list of entries has the names of the list in the order in which they first
come, each with the value of its last entry (`keys_ofList`, `find?_ofList_of_last`). A map is
determined by its names in their order and by their values.
-/

namespace EntityModel

/-- One more item behind others, each of which is counted once. -/
theorem eraseDups_concat {α : Type} [DecidableEq α] (items : List α) (item : α) :
    (items ++ [item]).eraseDups =
      if item ∈ items then items.eraseDups else items.eraseDups ++ [item] := by
  rw [List.eraseDups_append]
  by_cases hmem : item ∈ items <;> simp [List.removeAll, hmem, List.eraseDups_cons]

/-- Items that are each counted once are distinct. -/
theorem nodup_eraseDups {α : Type} [DecidableEq α] (items : List α) : items.eraseDups.Nodup := by
  induction items using List.reverseRecOn with
  | nil => simp
  | append_singleton items item ih =>
      rw [eraseDups_concat]
      split
      next => exact ih
      next hnew =>
        refine List.nodup_append.mpr ⟨ih, by simp, ?_⟩
        rintro other hother _ hmem rfl
        obtain rfl := List.mem_singleton.mp hmem
        exact hnew (List.mem_eraseDups.mp hother)

namespace OrderedMap

variable {α : Type}

theorem find?_modify (map : OrderedMap α) (name : String) (change : α → α) (key : String) :
    (map.modify name change).find? key =
      if key = name then (map.find? key).map change else map.find? key := by
  unfold find? modify
  dsimp only
  induction map.entries with
  | nil => simp
  | cons entry entries ih =>
      obtain ⟨other, value⟩ := entry
      simp only [List.map_cons, List.lookup_cons, ih]
      by_cases hkey : key = other
      · subst hkey
        by_cases hname : key = name <;> simp [hname]
      · simp [beq_eq_false_iff_ne.mpr hkey]

/-- Maps with the same names in the same order that give each name the same value are equal. -/
theorem eq_of_keys_of_find? {first second : OrderedMap α} (hkeys : first.keys = second.keys)
    (hfind : ∀ key, first.find? key = second.find? key) : first = second := by
  have hentries : first.entries = second.entries := by
    have hlength : first.entries.length = second.entries.length := by
      simpa [keys] using congrArg List.length hkeys
    apply List.ext_getElem hlength
    intro place hfirst hsecond
    have hkey : first.entries[place].1 = second.entries[place].1 := by
      have hat := congrArg (·[place]?) hkeys
      simpa [keys, hfirst, hsecond] using hat
    have hvalue : first.find? first.entries[place].1 = some first.entries[place].2 :=
      find?_eq_some_iff.mpr (List.getElem_mem hfirst)
    have hvalue' : second.find? second.entries[place].1 = some second.entries[place].2 :=
      find?_eq_some_iff.mpr (List.getElem_mem hsecond)
    rw [hfind, hkey, hvalue'] at hvalue
    exact Prod.ext hkey (Option.some.inj hvalue).symm
  cases first
  cases second
  congr

theorem ofList_concat (entries : List (String × α)) (name : String) (value : α) :
    ofList (entries ++ [(name, value)]) = (ofList entries).insert name value := by
  rw [ofList, List.foldl_append]
  rfl

/-- The names stand in the order in which they first come. -/
theorem keys_ofList (entries : List (String × α)) :
    (ofList entries).keys = (entries.map Prod.fst).eraseDups := by
  induction entries using List.reverseRecOn with
  | nil => rfl
  | append_singleton entries entry ih =>
      rw [ofList_concat, keys_insert, ih, List.map_append, List.map_singleton, eraseDups_concat]
      simp only [List.mem_eraseDups]

/-- A name has the value of its last entry. -/
theorem find?_ofList_of_last (front : List (String × α)) {name : String} (value : α)
    {back : List (String × α)} (hlast : name ∉ back.map Prod.fst) :
    (ofList (front ++ (name, value) :: back)).find? name = some value := by
  have hback : back.reverse.lookup name = none := by
    rw [List.lookup_eq_none_iff]
    intro entry hmem
    rw [bne_iff_ne]
    rintro rfl
    exact hlast (List.mem_map_of_mem (List.mem_reverse.mp hmem))
  rw [find?_ofList, List.reverse_append, List.reverse_cons, List.append_assoc,
    List.singleton_append, List.lookup_append, hback, Option.none_or, List.lookup_cons,
    beq_self_eq_true]

end OrderedMap

end EntityModel
