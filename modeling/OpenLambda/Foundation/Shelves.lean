import Mathlib.Data.List.Basic
import Mathlib.Logic.Function.Basic

namespace Foundation.SharedLists

-- Several linked lists share their items: a cell has an identity of its own, so
-- that it can be unlinked without a search, and a map records for each item the
-- list and the cell it is in.
structure Cell (α : Type) where
  key : Nat
  item : α
  deriving DecidableEq, Repr

structure Shelves (κ α : Type) where
  shelf : κ → List (Cell α)
  place : α → Option (κ × Nat)
  fresh : Nat

variable {κ α : Type}

def empty : Shelves κ α := ⟨fun _ => [],fun _ => none,0⟩

variable [DecidableEq κ]

def unlink (s : Shelves κ α) (item : α) : κ → List (Cell α) :=
  match s.place item with
  | some (source,key) => Function.update s.shelf source ((s.shelf source).filter (·.key ≠ key))
  | none => s.shelf

theorem unlink_subset {s : Shelves κ α} (present : cell ∈ unlink s item list) : cell ∈ s.shelf list := by
  cases found : s.place item with
  | none => simpa [unlink,found] using present
  | some location =>
      obtain ⟨source,key⟩ := location
      by_cases same : list = source
      · subst same
        simp only [unlink,found,Function.update_self] at present
        exact List.mem_of_mem_filter present
      · simpa [unlink,found,Function.update_of_ne same] using present

variable [DecidableEq α]

def move (s : Shelves κ α) (item : α) (target : Option κ) : Shelves κ α :=
  match target with
  | some goal =>
      ⟨Function.update (unlink s item) goal (unlink s item goal ++ [⟨s.fresh,item⟩]),
        Function.update s.place item (some (goal,s.fresh)),s.fresh + 1⟩
  | none => ⟨unlink s item,Function.update s.place item none,s.fresh⟩

def recorded (place : Option (κ × Nat)) (item : α) (list : κ) : List (Cell α) :=
  match place with
  | some (here,key) => if list = here then [⟨key,item⟩] else []
  | none => []

structure Shelved (s : Shelves κ α) : Prop where
  bound : ∀ list, ∀ cell ∈ s.shelf list, cell.key < s.fresh
  distinct : ∀ one first two second, first ∈ s.shelf one → second ∈ s.shelf two →
    first.key = second.key → first.item = second.item
  held : ∀ item list, (s.shelf list).filter (·.item = item) = recorded (s.place item) item list

theorem empty_shelved : Shelved (empty : Shelves κ α) :=
  ⟨by simp [empty],by simp [empty],by simp [empty,recorded]⟩

theorem move_place (s : Shelves κ α) (item : α) (target : Option κ) :
    (move s item target).place = Function.update s.place item (target.map fun goal => (goal,s.fresh)) := by
  cases target <;> rfl

theorem Shelved.mem_place {s : Shelves κ α} (valid : Shelved s) (found : s.place item = some (list,key)) :
    ⟨key,item⟩ ∈ s.shelf list := by
  have here := valid.held item list
  simp only [found,recorded,if_true] at here
  have member : (⟨key,item⟩ : Cell α) ∈ (s.shelf list).filter (·.item = item) := by simp [here]
  exact List.mem_of_mem_filter member

theorem unlink_self {s : Shelves κ α} (valid : Shelved s) (item : α) (list : κ) :
    (unlink s item list).filter (·.item = item) = [] := by
  have here := valid.held item list
  unfold unlink
  cases found : s.place item with
  | none => simpa [found,recorded] using here
  | some location =>
      obtain ⟨other,key⟩ := location
      by_cases same : list = other
      · subst same
        simp only [found,recorded,if_true] at here
        simp only [Function.update_self]
        rw [List.filter_comm,here]
        simp
      · simp only [found,recorded,same,if_false] at here
        simpa [Function.update_of_ne same] using here

theorem unlink_other {s : Shelves κ α} (valid : Shelved s) (different : other ≠ item) (list : κ) :
    (unlink s item list).filter (·.item = other) = (s.shelf list).filter (·.item = other) := by
  unfold unlink
  cases found : s.place item with
  | none => rfl
  | some location =>
      obtain ⟨source,key⟩ := location
      by_cases same : list = source
      · subst same
        simp only [Function.update_self]
        rw [List.filter_filter]
        apply List.filter_congr
        intro cell present
        -- the removed cell holds `item`, so no cell of `other` has its key
        have keep : cell.item = other → cell.key ≠ key := by
          intro owns equal
          have holder := valid.distinct list cell list ⟨key,item⟩ present (valid.mem_place found) equal
          exact different (owns.symm.trans holder)
        by_cases owns : cell.item = other <;> simp [owns,keep]
      · simp [Function.update_of_ne same]

theorem move_shelved {s : Shelves κ α} (valid : Shelved s) (item : α) (target : Option κ) :
    Shelved (move s item target) := by
  cases target with
  | none =>
      refine ⟨fun list cell present => valid.bound list cell (unlink_subset present),?_,?_⟩
      · intro one first two second here there same
        exact valid.distinct one first two second (unlink_subset here) (unlink_subset there) same
      · intro other list
        by_cases equal : other = item
        · subst equal
          simpa [move,recorded] using unlink_self valid other list
        · simpa [move,Function.update_of_ne equal,valid.held other list] using unlink_other valid equal list
  | some goal =>
      -- an old cell of the new lists, or the one pushed back
      have cases : ∀ list cell, cell ∈ (move s item (some goal)).shelf list →
          cell ∈ s.shelf list ∨ cell = ⟨s.fresh,item⟩ := by
        intro list cell present
        by_cases same : list = goal
        · subst same
          simp only [move,Function.update_self,List.mem_append,List.mem_singleton] at present
          exact present.imp unlink_subset id
        · simp only [move,Function.update_of_ne same] at present
          exact .inl (unlink_subset present)
      refine ⟨?_,?_,?_⟩
      · intro list cell present
        rcases cases list cell present with old | rfl
        · exact Nat.lt_succ_of_lt (valid.bound list cell old)
        · exact Nat.lt_succ_self _
      · intro one first two second here there same
        rcases cases one first here with old | rfl <;> rcases cases two second there with other | rfl
        · exact valid.distinct one first two second old other same
        · have := valid.bound one first old
          simp only at same
          omega
        · have := valid.bound two second other
          simp only at same
          omega
        · rfl
      · intro other list
        by_cases equal : other = item
        · subst equal
          have gone := unlink_self valid other list
          by_cases same : list = goal
          · subst same
            simp [move,recorded,gone]
          · simp [move,recorded,same,gone]
        · have kept := unlink_other valid equal list
          by_cases same : list = goal
          · subst same
            simp [move,Function.update_of_ne equal,kept,valid.held other list,Ne.symm equal]
          · simp [move,Function.update_of_ne equal,Function.update_of_ne same,kept,valid.held other list]

theorem item_place {s : Shelves κ α} (valid : Shelved s) (member : item ∈ (s.shelf list).map (·.item)) :
    ∃ key, s.place item = some (list,key) := by
  obtain ⟨cell,inside,rfl⟩ := List.mem_map.mp member
  have held : cell ∈ recorded (s.place cell.item) cell.item list := by
    rw [← valid.held]
    exact List.mem_filter.mpr ⟨inside,by simp⟩
  cases found : s.place cell.item with
  | none => simp [found,recorded] at held
  | some location =>
      obtain ⟨source,key⟩ := location
      by_cases same : list = source
      · exact ⟨key,by rw [same]⟩
      · simp [found,recorded,same] at held

theorem shelved_once {s : Shelves κ α} (valid : Shelved s) (one : item ∈ (s.shelf first).map (·.item))
    (two : item ∈ (s.shelf second).map (·.item)) : first = second := by
  obtain ⟨key,here⟩ := item_place valid one
  obtain ⟨other,there⟩ := item_place valid two
  cases here.symm.trans there
  rfl

theorem front_parts {s : Shelves κ α} (valid : Shelved s) (front : s.shelf list = cell :: rest) :
    s.place cell.item = some (list,cell.key) ∧ rest.filter (·.item = cell.item) = [] := by
  have member : cell.item ∈ (s.shelf list).map (·.item) := by simp [front]
  obtain ⟨key,place⟩ := item_place valid member
  have here := valid.held cell.item list
  rw [front,List.filter_cons_of_pos (by simp),place] at here
  simp only [recorded,if_true,List.cons.injEq] at here
  obtain ⟨same,alone⟩ := here
  rw [place,same]
  exact ⟨rfl,alone⟩

theorem front_unlinked {s : Shelves κ α} (valid : Shelved s) (front : s.shelf list = cell :: rest) :
    unlink s cell.item = Function.update s.shelf list rest := by
  obtain ⟨place,alone⟩ := front_parts valid front
  have others : ∀ other ∈ rest, other.key ≠ cell.key := by
    intro other member same
    have owner := valid.distinct list other list cell (by simp [front,member]) (by simp [front]) same
    exact List.not_mem_nil (alone ▸ List.mem_filter.mpr ⟨member,by simp [owner]⟩)
  rw [unlink,place]
  simp only [front]
  rw [List.filter_cons_of_neg (by simp),List.filter_eq_self.mpr (by simpa using others)]

theorem move_front {s : Shelves κ α} (valid : Shelved s) (front : s.shelf list = cell :: rest) (apart : goal ≠ list) :
    (move s cell.item (some goal)).shelf =
      Function.update (Function.update s.shelf list rest) goal (s.shelf goal ++ [⟨s.fresh,cell.item⟩]) := by
  change Function.update (unlink s cell.item) goal (unlink s cell.item goal ++ _) = _
  rw [front_unlinked valid front,Function.update_of_ne apart]

theorem move_length_le (s : Shelves κ α) (item : α) (target : Option κ) (apart : target ≠ some list) :
    ((move s item target).shelf list).length ≤ (s.shelf list).length := by
  have shorter : (unlink s item list).length ≤ (s.shelf list).length := by
    cases found : s.place item with
    | none => simp only [unlink,found,Nat.le_refl]
    | some location =>
        obtain ⟨source,key⟩ := location
        simp only [unlink,found]
        by_cases same : list = source
        · subst same
          rw [Function.update_self]
          exact List.length_filter_le ..
        · exact Nat.le_of_eq (by rw [Function.update_of_ne same])
  cases target with
  | none => exact shorter
  | some goal =>
      change (Function.update (unlink s item) goal _ list).length ≤ _
      rw [Function.update_of_ne (fun same => apart (congrArg some same.symm))]
      exact shorter

end Foundation.SharedLists
