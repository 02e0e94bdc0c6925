import OpenLambda.Foundation.Paths
import Mathlib.Data.List.Nodup

namespace Foundation.FileTrees
open Foundation.Paths

-- A file system without links. A file that is not regular has a mode, and what
-- reading it gives; a file that cannot be opened has an error in place of its content.
mutual
inductive FileTree (β : Type) where
  | file (content : Except String β)
  | special (mode : String) (content : Except String β)
  | folder (entries : FileList β)

inductive FileList (β : Type) where
  | nil
  | cons (name : Part) (tree : FileTree β) (rest : FileList β)
end

inductive Info (β : Type) where
  | folder
  | regular (content : Except String β)
  | special (mode : String) (content : Except String β)

inductive Found (β : Type) where
  | notExist
  | failed (err : String)
  | folder
  | file (content : Except String β)

def FileList.names : FileList β → List Part
  | .nil => []
  | .cons name _ rest => name :: rest.names

mutual
def FileTree.Formed : FileTree β → Prop
  | .file _ | .special _ _ => True
  | .folder entries => entries.Formed

def FileList.Formed : FileList β → Prop
  | .nil => True
  | .cons name tree rest => Plain name ∧ name ∉ rest.names ∧ tree.Formed ∧ rest.Formed
end

-- A walk comes to a directory before what is in it; its paths begin with `way`.
mutual
def FileTree.walk (way : List Part) : FileTree β → List (List Part × Info β)
  | .file content => [(way,.regular content)]
  | .special mode content => [(way,.special mode content)]
  | .folder entries => (way,.folder) :: entries.walk way

def FileList.walk (way : List Part) : FileList β → List (List Part × Info β)
  | .nil => []
  | .cons name tree rest => tree.walk (way ++ [name]) ++ rest.walk way
end

mutual
def FileTree.find : FileTree β → List Part → Found β
  | .file content,[] | .special _ content,[] => .file content
  | .file _,_ :: _ | .special _ _,_ :: _ => .failed "not a directory"
  | .folder _,[] => .folder
  | .folder entries,name :: way => entries.find name way

def FileList.find : FileList β → Part → List Part → Found β
  | .nil,_,_ => .notExist
  | .cons other tree rest,name,way => if other = name then tree.find way else rest.find name way
end

def Info.shown : Info β → Found β
  | .folder => .folder
  | .regular content | .special _ content => .file content

mutual
theorem FileTree.walk_found (way : List Part) (info : Info β) (visited : List Part) : (tree : FileTree β) → tree.Formed →
    (visited,info) ∈ tree.walk way → ∃ rel, visited = way ++ rel ∧ (∀ part ∈ rel, Plain part) ∧ tree.find rel = info.shown
  | .file content,_,member => by
      cases List.mem_singleton.mp member
      exact ⟨[],(List.append_nil _).symm,nofun,rfl⟩
  | .special mode content,_,member => by
      cases List.mem_singleton.mp member
      exact ⟨[],(List.append_nil _).symm,nofun,rfl⟩
  | .folder entries,formed,member => by
      rcases List.mem_cons.mp member with same | later
      · cases same
        exact ⟨[],(List.append_nil _).symm,nofun,rfl⟩
      · obtain ⟨name,rel,rfl,_,plain,found⟩ := FileList.walk_found way info visited entries formed later
        exact ⟨name :: rel,rfl,plain,found⟩

theorem FileList.walk_found (way : List Part) (info : Info β) (visited : List Part) : (entries : FileList β) → entries.Formed →
    (visited,info) ∈ entries.walk way → ∃ name rel, visited = way ++ name :: rel ∧ name ∈ entries.names ∧
      (∀ part ∈ name :: rel, Plain part) ∧ entries.find name rel = info.shown
  | .nil,_,member => by cases member
  | .cons name tree rest,formed,member => by
      obtain ⟨plain,unlike,inner,others⟩ := formed
      rcases List.mem_append.mp member with here | later
      · obtain ⟨rel,rfl,parts,found⟩ := FileTree.walk_found (way ++ [name]) info visited tree inner here
        refine ⟨name,rel,List.append_assoc way [name] rel,List.mem_cons_self,List.forall_mem_cons.mpr ⟨plain,parts⟩,?_⟩
        exact (if_pos rfl).trans found
      · obtain ⟨other,rel,rfl,among,parts,found⟩ := FileList.walk_found way info visited rest others later
        refine ⟨other,rel,rfl,List.mem_cons_of_mem _ among,parts,?_⟩
        exact (if_neg fun same : name = other => unlike (same ▸ among)).trans found
end

mutual
theorem FileTree.found_walk (way rel : List Part) (content : Except String β) : (tree : FileTree β) →
    tree.find rel = .file content → ∃ info, (way ++ rel,info) ∈ tree.walk way ∧ info.shown = .file content
  | .file _,found => by
      cases rel with
      | nil =>
          cases found
          exact ⟨.regular content,by rw [List.append_nil]; exact List.mem_singleton.mpr rfl,rfl⟩
      | cons => cases found
  | .special mode _,found => by
      cases rel with
      | nil =>
          cases found
          exact ⟨.special mode content,by rw [List.append_nil]; exact List.mem_singleton.mpr rfl,rfl⟩
      | cons => cases found
  | .folder entries,found => by
      cases rel with
      | nil => cases found
      | cons name rel =>
          obtain ⟨info,member,shown⟩ := FileList.found_walk way name rel content entries found
          exact ⟨info,List.mem_cons_of_mem _ member,shown⟩

theorem FileList.found_walk (way : List Part) (name : Part) (rel : List Part) (content : Except String β) :
    (entries : FileList β) → entries.find name rel = .file content →
      ∃ info, (way ++ name :: rel,info) ∈ entries.walk way ∧ info.shown = .file content
  | .nil,found => by cases found
  | .cons other tree rest,found => by
      by_cases same : other = name
      · subst same
        obtain ⟨info,member,shown⟩ := FileTree.found_walk (way ++ [other]) rel content tree ((if_pos rfl).symm.trans found)
        rw [List.append_assoc] at member
        exact ⟨info,List.mem_append_left _ member,shown⟩
      · obtain ⟨info,member,shown⟩ := FileList.found_walk way name rel content rest ((if_neg same).symm.trans found)
        exact ⟨info,List.mem_append_right _ member,shown⟩
end

mutual
theorem FileTree.walk_nodup (way : List Part) : (tree : FileTree β) → tree.Formed → ((tree.walk way).map Prod.fst).Nodup
  | .file _,_ | .special _ _,_ => List.nodup_singleton way
  | .folder entries,formed => by
      refine List.nodup_cons.mpr ⟨?_,FileList.walk_nodup way entries formed⟩
      intro member
      obtain ⟨⟨visited,info⟩,inside,same⟩ := List.mem_map.mp member
      obtain ⟨name,rel,longer,_⟩ := FileList.walk_found way info visited entries formed inside
      rw [show visited = way from same] at longer
      have length := congrArg List.length longer
      rw [List.length_append,List.length_cons] at length
      omega

theorem FileList.walk_nodup (way : List Part) : (entries : FileList β) → entries.Formed → ((entries.walk way).map Prod.fst).Nodup
  | .nil,_ => List.nodup_nil
  | .cons name tree rest,formed => by
      obtain ⟨plain,unlike,inner,others⟩ := formed
      rw [FileList.walk,List.map_append,List.nodup_append]
      refine ⟨FileTree.walk_nodup (way ++ [name]) tree inner,FileList.walk_nodup way rest others,?_⟩
      intro first here second there same
      obtain ⟨⟨_,info⟩,inside,rfl⟩ := List.mem_map.mp here
      obtain ⟨⟨_,other⟩,outside,rfl⟩ := List.mem_map.mp there
      obtain ⟨rel,left,_⟩ := FileTree.walk_found (way ++ [name]) info _ tree inner inside
      obtain ⟨brother,way',right,among,_⟩ := FileList.walk_found way other _ rest others outside
      have joint : way ++ ([name] ++ rel) = way ++ brother :: way' := by
        rw [← List.append_assoc,← left,← right]
        exact same
      obtain ⟨rfl,_⟩ := List.cons.inj (List.append_cancel_left joint)
      exact unlike among
end

def Found.content : Found β → Option β
  | .file (.ok content) => some content
  | _ => none

theorem content_file {found : Found β} (content : found.content = some bytes) : found = .file (.ok bytes) := by
  cases found with
  | file there => cases there with
      | error => cases content
      | ok => cases content; rfl
  | _ => cases content

theorem FileList.find_name (name : Part) (err : String) : (entries : FileList β) → entries.find name [] ≠ .failed err
  | .nil => nofun
  | .cons other tree rest => by
      rw [FileList.find]
      split
      · cases tree with
        | file | special | folder => nofun
      · exact FileList.find_name name err rest

end Foundation.FileTrees
