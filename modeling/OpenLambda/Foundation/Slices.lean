import Mathlib.Data.List.Basic
import Mathlib.Logic.Function.Basic

namespace Foundation.Slices

-- A slice shows the first `len` elements of an array, and an append may write
-- there up to `cap`. Slices that share an array may see one another's appends.
structure Slice where
  array : Nat
  len : Nat
  cap : Nat
  deriving DecidableEq, Repr

structure Heap (α : Type) where
  arrays : Nat → List α
  next : Nat

def Heap.read (h : Heap α) (s : Slice) : List α := (h.arrays s.array).take s.len

def Slice.clip (s : Slice) : Slice := {s with cap := s.len}

-- In place if there is room, else in a new array with `grow` places to spare.
def Heap.append (grow : Nat → Nat) (h : Heap α) (s : Slice) (items : List α) : Slice × Heap α :=
  let total := s.len + items.length
  if total ≤ s.cap then
    (⟨s.array,total,s.cap⟩,
      {h with arrays := Function.update h.arrays s.array (h.read s ++ items ++ (h.arrays s.array).drop total)})
  else (⟨h.next,total,total + grow total⟩,⟨Function.update h.arrays h.next (h.read s ++ items),h.next + 1⟩)

structure Known (h : Heap α) (s : Slice) : Prop where
  allocated : s.array < h.next
  filled : s.len ≤ (h.arrays s.array).length
  room : s.len ≤ s.cap

structure Keeps (base : Nat) (h t : Heap α) : Prop where
  grown : h.next ≤ t.next
  same : ∀ i, i < base → t.arrays i = h.arrays i

def Apart (base : Nat) (s : Slice) : Prop := base ≤ s.array ∨ s.cap = s.len

theorem keeps_refl (base : Nat) (h : Heap α) : Keeps base h h := ⟨Nat.le_refl _,fun _ _ => rfl⟩

theorem keeps_trans {h t u : Heap α} (first : Keeps base h t) (second : Keeps base t u) : Keeps base h u :=
  ⟨Nat.le_trans first.grown second.grown,fun i below => (second.same i below).trans (first.same i below)⟩

theorem keeps_mono {h t : Heap α} (keeps : Keeps base h t) (less : lower ≤ base) : Keeps lower h t :=
  ⟨keeps.grown,fun i below => keeps.same i (Nat.lt_of_lt_of_le below less)⟩

theorem keeps_read {h t : Heap α} (keeps : Keeps base h t) (below : s.array < base) : t.read s = h.read s := by
  unfold Heap.read
  rw [keeps.same s.array below]

theorem keeps_known {h t : Heap α} (keeps : Keeps base h t) (below : s.array < base) (known : Known h s) : Known t s := by
  refine ⟨Nat.lt_of_lt_of_le known.allocated keeps.grown,?_,known.room⟩
  rw [keeps.same s.array below]
  exact known.filled

theorem clip_read (h : Heap α) (s : Slice) : h.read s.clip = h.read s := rfl

theorem clip_known {h : Heap α} (known : Known h s) : Known h s.clip := ⟨known.allocated,known.filled,Nat.le_refl _⟩

theorem clip_apart (base : Nat) (s : Slice) : Apart base s.clip := .inr rfl

theorem read_length {h : Heap α} (known : Known h s) : (h.read s).length = s.len := by
  rw [Heap.read,List.length_take,Nat.min_eq_left known.filled]

theorem append_array (grow : Nat → Nat) (h : Heap α) (s : Slice) (items : List α) :
    ∃ rest, (h.append grow s items).2.arrays (h.append grow s items).1.array = h.read s ++ items ++ rest := by
  unfold Heap.append
  dsimp only
  split
  · exact ⟨_,Function.update_self ..⟩
  · exact ⟨[],by rw [List.append_nil]; exact Function.update_self ..⟩

theorem append_len (grow : Nat → Nat) (h : Heap α) (s : Slice) (items : List α) :
    (h.append grow s items).1.len = s.len + items.length := by
  unfold Heap.append
  dsimp only
  split <;> rfl

theorem append_read {h : Heap α} (grow : Nat → Nat) (known : Known h s) (items : List α) :
    (h.append grow s items).2.read (h.append grow s items).1 = h.read s ++ items := by
  obtain ⟨rest,array⟩ := append_array grow h s items
  have length : (h.read s ++ items).length = s.len + items.length := by rw [List.length_append,read_length known]
  rw [Heap.read,array,append_len,← length,List.take_left]

theorem append_known {h : Heap α} (grow : Nat → Nat) (known : Known h s) (items : List α) :
    Known (h.append grow s items).2 (h.append grow s items).1 := by
  obtain ⟨rest,array⟩ := append_array grow h s items
  refine ⟨?_,?_,?_⟩
  · unfold Heap.append
    dsimp only
    split
    · exact known.allocated
    · exact Nat.lt_succ_self _
  · rw [array,append_len,List.length_append,List.length_append,read_length known]
    exact Nat.le_add_right _ _
  · unfold Heap.append
    dsimp only
    split
    · assumption
    · exact Nat.le_add_right _ _

theorem append_keeps {h : Heap α} (grow : Nat → Nat) (apart : Apart base s) (older : base ≤ h.next) (items : List α) :
    Keeps base h (h.append grow s items).2 := by
  unfold Heap.append
  dsimp only
  split
  · rename_i fits
    refine ⟨Nat.le_refl _,?_⟩
    intro i below
    rcases apart with beyond | full
    · exact Function.update_of_ne (Nat.ne_of_lt (Nat.lt_of_lt_of_le below beyond)) ..
    · -- with no room left only the empty append is made in place
      have none : items = [] := by
        rw [full] at fits
        exact List.eq_nil_of_length_eq_zero (by omega)
      subst none
      rw [List.append_nil,List.length_nil,Nat.add_zero,Heap.read,List.take_append_drop,Function.update_eq_self]
  · exact ⟨Nat.le_succ _,fun i below => Function.update_of_ne (Nat.ne_of_lt (Nat.lt_of_lt_of_le below older)) ..⟩

theorem append_apart {h : Heap α} (grow : Nat → Nat) (apart : Apart base s) (older : base ≤ h.next) (some : items ≠ []) :
    Apart base (h.append grow s items).1 := by
  have more : 0 < items.length := List.length_pos_of_ne_nil some
  unfold Heap.append
  dsimp only
  split
  · rename_i fits
    rcases apart with beyond | full
    · exact .inl beyond
    · omega
  · exact .inl older

end Foundation.Slices
