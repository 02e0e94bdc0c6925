import Mathlib.Data.List.Dedup
import Mathlib.Data.List.DropRight

namespace Foundation.Recency

variable {κ : Type}

theorem rtake_append (first second : List κ) (size : Nat) (short : second.length = size ∨ first = [] ∧ second.length ≤ size) :
    (first ++ second).rtake size = second := by
  rw [List.rtake]
  rcases short with full | ⟨rfl,fits⟩
  · rw [List.length_append,full,Nat.add_sub_cancel,List.drop_left]
  · rw [List.nil_append,Nat.sub_eq_zero_of_le fits,List.drop_zero]

variable [DecidableEq κ] {uses : List κ}

-- The keys that were used last, at most `size` of them, in the order of their last
-- uses: of a key that occurs more than once `dedup` keeps the last occurrence.
def recent (size : Nat) (uses : List κ) : List κ := uses.dedup.rtake size

theorem dedup_concat (uses : List κ) (key : κ) : (uses ++ [key]).dedup = uses.dedup.erase key ++ [key] := by
  induction uses with
  | nil => rfl
  | cons first rest ih =>
      by_cases later : first ∈ rest
      · rw [List.cons_append,List.dedup_cons_of_mem (List.mem_append_left _ later),List.dedup_cons_of_mem later,ih]
      · rw [List.dedup_cons_of_notMem later]
        by_cases same : first = key
        · subst same
          rw [List.cons_append,List.dedup_cons_of_mem (by simp),ih,List.erase_cons_head,
            List.erase_of_not_mem (fun member => later (List.mem_dedup.mp member))]
        · rw [List.cons_append,List.dedup_cons_of_notMem (by simp [later,same]),ih,List.erase_cons_tail (by simpa using same),
            List.cons_append]

theorem recent_parts (size : Nat) (uses : List κ) :
    ∃ old, uses.dedup = old ++ recent size uses ∧ old.length = uses.dedup.length - size := by
  refine ⟨uses.dedup.take (uses.dedup.length - size),?_,?_⟩
  · rw [recent,List.rtake,List.take_append_drop]
  · rw [List.length_take]
    omega

theorem recent_nodup (size : Nat) (uses : List κ) : (recent size uses).Nodup :=
  (List.nodup_dedup uses).sublist (List.drop_sublist ..)

theorem recent_length_le (size : Nat) (uses : List κ) : (recent size uses).length ≤ size := by
  rw [recent,List.rtake,List.length_drop]
  omega

theorem recent_full_or_all (parts : uses.dedup = old ++ recent size uses)
    (length : old.length = uses.dedup.length - size) :
    (recent size uses).length = size ∨ old = [] ∧ (recent size uses).length ≤ size := by
  have most := recent_length_le size uses
  rw [parts,List.length_append] at length
  by_cases full : (recent size uses).length = size
  · exact .inl full
  · exact .inr ⟨List.eq_nil_of_length_eq_zero (by omega),most⟩

theorem recent_again (member : key ∈ recent size uses) :
    recent size (uses ++ [key]) = (recent size uses).erase key ++ [key] := by
  obtain ⟨old,parts,length⟩ := recent_parts size uses
  have unique := List.nodup_dedup uses
  rw [parts] at unique
  have elsewhere : key ∉ old := fun inside => (List.nodup_append.mp unique).2.2 key inside key member rfl
  have same : ((recent size uses).erase key ++ [key]).length = (recent size uses).length := by
    rw [List.length_append,List.length_erase_of_mem member,List.length_singleton]
    have some := List.length_pos_of_mem member
    omega
  rw [recent,dedup_concat,parts,List.erase_append_right _ elsewhere,List.append_assoc]
  apply rtake_append
  rw [same]
  exact recent_full_or_all parts length

theorem recent_new (absent : key ∉ recent size uses) (room : (recent size uses).length < size) :
    recent size (uses ++ [key]) = recent size uses ++ [key] := by
  obtain ⟨old,parts,length⟩ := recent_parts size uses
  rcases recent_full_or_all parts length with full | ⟨none,_⟩
  · omega
  · rw [none,List.nil_append] at parts
    rw [recent,dedup_concat,parts,List.erase_of_not_mem absent,← List.nil_append (_ ++ _)]
    refine rtake_append _ _ _ (.inr ⟨rfl,?_⟩)
    rw [List.length_append,List.length_singleton]
    exact room

theorem recent_instead (absent : key ∉ recent size uses) (full : recent size uses = oldest :: rest)
    (taken : (recent size uses).length = size) : recent size (uses ++ [key]) = rest ++ [key] := by
  obtain ⟨old,parts,_⟩ := recent_parts size uses
  have gone : ∃ others, uses.dedup.erase key = others ++ recent size uses := by
    rw [parts]
    by_cases inside : key ∈ old
    · exact ⟨_,List.erase_append_left _ inside⟩
    · exact ⟨old,by rw [List.erase_append_right _ inside,List.erase_of_not_mem absent]⟩
  obtain ⟨others,erased⟩ := gone
  rw [full,List.length_cons] at taken
  rw [recent,dedup_concat,erased,full,← List.singleton_append,← List.append_assoc,List.append_assoc]
  refine rtake_append _ _ _ (.inl ?_)
  rw [List.length_append,List.length_singleton]
  exact taken

end Foundation.Recency
