import Mathlib.Data.List.Basic

namespace Foundation.Trees

inductive LabelTree (α : Type) where
  | node (label : α) (children : List (LabelTree α))

def LabelTree.label : LabelTree α → α
  | .node label _ => label

def LabelTree.children : LabelTree α → List (LabelTree α)
  | .node _ children => children

mutual
def LabelTree.map (f : α → β) : LabelTree α → LabelTree β
  | .node label children => .node (f label) (mapAll f children)

def mapAll (f : α → β) : List (LabelTree α) → List (LabelTree β)
  | [] => []
  | child :: rest => child.map f :: mapAll f rest
end

theorem map_label (f : α → β) (tree : LabelTree α) : (tree.map f).label = f tree.label := by
  cases tree with
  | node label children => rfl

mutual
def LabelTree.labels : LabelTree α → List α
  | .node label children => label :: labelsAll children

def labelsAll : List (LabelTree α) → List α
  | [] => []
  | child :: rest => child.labels ++ labelsAll rest
end

-- A place in a tree: the way down to it, the labels above it, and what hangs
-- there. Two places of a tree with the same way are the same.
structure Place (α : Type) where
  way : List Nat
  above : List α
  here : LabelTree α

def Place.labels (place : Place α) : List α := place.above ++ [place.here.label]

mutual
def walk (way : List Nat) (above : List α) : LabelTree α → List (Place α)
  | .node label children => ⟨way,above,.node label children⟩ :: walkAll way (above ++ [label]) 0 children

def walkAll (way : List Nat) (above : List α) (i : Nat) : List (LabelTree α) → List (Place α)
  | [] => []
  | child :: rest => walk (way ++ [i]) above child ++ walkAll way above (i + 1) rest
end

-- The search goes down where it may and takes the first place from which it
-- cannot go on.
mutual
def seek (keep : α → Bool) (way : List Nat) (above : List α) : LabelTree α → Option (Place α)
  | .node label children =>
      if keep label then
        match seekAny keep way (above ++ [label]) 0 children with
        | some found => some found
        | none => some ⟨way,above,.node label children⟩
      else none

def seekAny (keep : α → Bool) (way : List Nat) (above : List α) (i : Nat) : List (LabelTree α) → Option (Place α)
  | [] => none
  | child :: rest =>
      match seek keep (way ++ [i]) above child with
      | some found => some found
      | none => seekAny keep way above (i + 1) rest
end

def Deepest (keep : α → Bool) (place : Place α) : Prop :=
  (∀ label ∈ place.labels, keep label = true) ∧ ∀ child ∈ place.here.children, keep child.label = false

instance (keep : α → Bool) (place : Place α) : Decidable (Deepest keep place) := inferInstanceAs (Decidable (_ ∧ _))

theorem seek_isSome (keep : α → Bool) (way : List Nat) (above : List α) (tree : LabelTree α) :
    (seek keep way above tree).isSome = keep tree.label := by
  cases tree with
  | node label children =>
      cases kept : keep label with
      | false => simp [seek,kept,LabelTree.label]
      | true =>
          simp only [seek,kept,LabelTree.label,if_true]
          split <;> rfl

theorem seekAny_eq_none {keep : α → Bool} {children : List (LabelTree α)} :
    seekAny keep way above i children = none ↔ ∀ child ∈ children, keep child.label = false := by
  induction children generalizing i with
  | nil => simp [seekAny]
  | cons child rest ih =>
      have first := seek_isSome keep (way ++ [i]) above child
      rw [seekAny]
      cases found : seek keep (way ++ [i]) above child with
      | none =>
          rw [found] at first
          rw [ih,List.forall_mem_cons]
          exact ⟨fun later => ⟨first.symm,later⟩,And.right⟩
      | some place =>
          rw [found] at first
          simp [← first]

mutual
theorem walk_labels (tree : LabelTree α) (member : place ∈ walk way above tree) :
    (∀ label ∈ above, label ∈ place.labels) ∧ tree.label ∈ place.labels := by
  cases tree with
  | node label children =>
      rw [walk,List.mem_cons] at member
      rcases member with rfl | below
      · exact ⟨fun other mem => List.mem_append_left _ mem,List.mem_append_right _ (List.mem_singleton_self _)⟩
      · have inside := walkAll_labels children below
        exact ⟨fun other mem => inside other (List.mem_append_left _ mem),
          inside label (List.mem_append_right _ (List.mem_singleton_self _))⟩

theorem walkAll_labels (children : List (LabelTree α)) (member : place ∈ walkAll way above i children) :
    ∀ label ∈ above, label ∈ place.labels := by
  cases children with
  | nil => cases member
  | cons child rest =>
      rw [walkAll,List.mem_append] at member
      rcases member with first | later
      · exact (walk_labels child first).1
      · exact walkAll_labels rest later
end

mutual
theorem seek_first (keep : α → Bool) (way : List Nat) (tree : LabelTree α) (kept : ∀ label ∈ above, keep label = true) :
    seek keep way above tree = (walk way above tree).find? (fun place => decide (Deepest keep place)) := by
  cases tree with
  | node label children =>
      cases mine : keep label with
      | false =>
          symm
          rw [seek,if_neg (by simp [mine]),List.find?_eq_none]
          intro place member deepest
          have inside := (walk_labels (.node label children) member).2
          have wrong := (of_decide_eq_true deepest).1 label inside
          rw [mine] at wrong
          cases wrong
      | true =>
          have longer : ∀ other ∈ above ++ [label], keep other = true := by
            intro other member
            rcases List.mem_append.mp member with old | new
            · exact kept other old
            · rw [List.mem_singleton.mp new]
              exact mine
          have below := seekAny_first keep way children 0 longer
          rw [seek,if_pos mine,walk,below,List.find?_cons]
          cases found : (walkAll way (above ++ [label]) 0 children).find? (fun place => decide (Deepest keep place)) with
          | none =>
              rw [found] at below
              have deepest : Deepest keep ⟨way,above,.node label children⟩ := ⟨longer,seekAny_eq_none.mp below⟩
              simp [deepest]
          | some place =>
              rw [found] at below
              have shallow : ¬ Deepest keep ⟨way,above,.node label children⟩ := by
                intro deepest
                cases (seekAny_eq_none.mpr deepest.2).symm.trans below
              simp [shallow]

theorem seekAny_first (keep : α → Bool) (way : List Nat) (children : List (LabelTree α)) (i : Nat)
    (kept : ∀ label ∈ above, keep label = true) :
    seekAny keep way above i children =
      (walkAll way above i children).find? (fun place => decide (Deepest keep place)) := by
  cases children with
  | nil => rfl
  | cons child rest =>
      rw [seekAny,walkAll,List.find?_append,seek_first keep (way ++ [i]) child kept,seekAny_first keep way rest (i + 1) kept]
      cases (walk (way ++ [i]) above child).find? (fun place => decide (Deepest keep place)) <;> rfl
end

end Foundation.Trees
