import Mathlib.Data.List.AList

namespace Foundation.Maps

section Lookup
variable {κ β : Type} [DecidableEq κ]

theorem erase_lookup (map : AList fun _ : κ => β) (key other : κ) :
    (map.erase key).lookup other = if other = key then none else map.lookup other := by
  split
  · rename_i same
    rw [same,AList.lookup_erase]
  · rename_i different
    exact AList.lookup_erase_ne different

theorem insert_lookup (map : AList fun _ : κ => β) (key other : κ) (value : β) :
    (map.insert key value).lookup other = if other = key then some value else map.lookup other := by
  split
  · rename_i same
    rw [same,AList.lookup_insert]
  · rename_i different
    exact AList.lookup_insert_ne different

theorem mem_keys_lookup (map : AList fun _ : κ => β) (key : κ) : key ∈ map.keys ↔ ∃ value, map.lookup key = some value := by
  rw [← AList.mem_keys,← AList.lookup_isSome,Option.isSome_iff_exists]

theorem lookup_of_mem {list : List (κ × β)} (distinct : (list.map Prod.fst).Nodup) (member : (key,value) ∈ list) :
    list.lookup key = some value := by
  induction list with
  | nil => cases member
  | cons entry rest ih =>
      obtain ⟨unlike,others⟩ := List.nodup_cons.mp distinct
      rcases List.mem_cons.mp member with rfl | later
      · exact List.lookup_cons_self
      · have other : key ≠ entry.1 := fun same => unlike (same ▸ List.mem_map.mpr ⟨_,later,rfl⟩)
        rw [List.lookup_cons,beq_false_of_ne other]
        exact ih others later

theorem mem_of_lookup {list : List (κ × β)} (found : list.lookup key = some value) : (key,value) ∈ list := by
  obtain ⟨early,late,rfl,_⟩ := List.lookup_eq_some_iff.mp found
  exact List.mem_append_right _ List.mem_cons_self

end Lookup

end Foundation.Maps
