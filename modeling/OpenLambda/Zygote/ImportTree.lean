import OpenLambda.Foundation.Slices
import OpenLambda.Foundation.Trees

namespace OpenLambda.Imports
open Foundation.Slices Foundation.Trees

-- The fields of a node that do not change after init; its children and its parent
-- are those of the tree.
structure ImportCacheNode where
  packages : Slice
  indirectPackages : Slice
  deriving DecidableEq, Repr

structure TreeConf where
  heap : Heap String
  root : LabelTree ImportCacheNode
  known : ∀ n ∈ root.labels, Known heap n.packages

def allPackages (grow : Nat → Nat) (h : Heap String) (node : ImportCacheNode) : Slice × Heap String :=
  h.append grow node.indirectPackages.clip (h.read node.packages)

mutual
def recursiveInit (grow : Nat → Nat) (h : Heap String) (indirectPackages : Slice) :
    LabelTree ImportCacheNode → LabelTree ImportCacheNode × Heap String
  | .node node children =>
      let node := {node with indirectPackages := indirectPackages}
      let (children,h) := initChildren grow h node children
      (.node node children,h)

def initChildren (grow : Nat → Nat) (h : Heap String) (node : ImportCacheNode) :
    List (LabelTree ImportCacheNode) → List (LabelTree ImportCacheNode) × Heap String
  | [] => ([],h)
  | child :: rest =>
      let (all,h) := allPackages grow h node
      let (child,h) := recursiveInit grow h all child
      let (rest,h) := initChildren grow h node rest
      (child :: rest,h)
end

def noPackages (h : Heap String) : Slice × Heap String :=
  (⟨h.next,0,0⟩,⟨Function.update h.arrays h.next [],h.next + 1⟩)

def newImportCache (grow : Nat → Nat) (conf : TreeConf) : Except String (LabelTree ImportCacheNode × Heap String) :=
  if 0 < conf.root.label.packages.len then .error "root node in import cache may not import packages\n"
  else
    let (start,h) := noPackages conf.heap
    .ok (recursiveInit grow h start conf.root)

def wanted (h : Heap String) (packages : List String) (node : ImportCacheNode) : Bool :=
  (h.read node.packages).all fun nodePkg => packages.any fun p => p == nodePkg

-- A node is got by its place. The check at the node and the loop over the children
-- are those of `seek`.
def lookup (h : Heap String) (packages : List String) (root : LabelTree ImportCacheNode) : Option (Place ImportCacheNode) :=
  seek (wanted h packages) [] [] root

theorem wanted_iff : wanted h packages node = true ↔ ∀ pkg ∈ h.read node.packages, pkg ∈ packages := by
  simp [wanted]

-- The indirectPackages of a node are the packages of all its ancestors.
structure Settled (h : Heap String) (above : List ImportCacheNode) (node : ImportCacheNode) : Prop where
  known : ∀ n ∈ above ++ [node], Known h n.packages
  indirect : Known h node.indirectPackages
  gathered : h.read node.indirectPackages = above.flatMap fun n => h.read n.packages

theorem gathered_keeps {h t : Heap String} (keeps : Keeps h.next h t) {nodes : List ImportCacheNode}
    (known : ∀ n ∈ nodes, Known h n.packages) :
    (nodes.flatMap fun n => t.read n.packages) = nodes.flatMap fun n => h.read n.packages := by
  apply List.flatMap_congr
  intro n member
  exact keeps_read keeps (known n member).allocated

theorem settled_keeps {h t : Heap String} (settled : Settled h above node) (keeps : Keeps h.next h t) :
    Settled t above node := by
  refine ⟨?_,?_,?_⟩
  · intro n member
    exact keeps_known keeps (settled.known n member).allocated (settled.known n member)
  · exact keeps_known keeps settled.indirect.allocated settled.indirect
  · have ancestors : ∀ n ∈ above, Known h n.packages :=
      fun n member => settled.known n (List.mem_append_left _ member)
    rw [keeps_read keeps settled.indirect.allocated,gathered_keeps keeps ancestors]
    exact settled.gathered

theorem allPackages_keeps (grow : Nat → Nat) (h : Heap String) (node : ImportCacheNode) :
    Keeps h.next h (allPackages grow h node).2 :=
  append_keeps grow (clip_apart _ _) (Nat.le_refl _) _

theorem allPackages_known {h : Heap String} (grow : Nat → Nat) (known : Known h node.indirectPackages) :
    Known (allPackages grow h node).2 (allPackages grow h node).1 :=
  append_known grow (clip_known known) _

theorem allPackages_read {h : Heap String} (grow : Nat → Nat) (known : Known h node.indirectPackages) :
    (allPackages grow h node).2.read (allPackages grow h node).1 =
      h.read node.indirectPackages ++ h.read node.packages := by
  rw [allPackages,append_read grow (clip_known known),clip_read]

-- By the recursion of recursiveInit: what was settled stays so, since every append
-- to a clipped slice leaves the arrays that there are.
mutual
theorem init_settled {h : Heap String} (grow : Nat → Nat) (way : List Nat) (tree : LabelTree ImportCacheNode)
    {indirectPackages : Slice}
    (known : ∀ n ∈ tree.labels, Known h n.packages) (indirect : Known h indirectPackages)
    (ancestors : ∀ n ∈ above, Known h n.packages)
    (gathered : h.read indirectPackages = above.flatMap fun n => h.read n.packages) :
    Keeps h.next h (recursiveInit grow h indirectPackages tree).2 ∧
      ∀ place ∈ walk way above (recursiveInit grow h indirectPackages tree).1,
        Settled (recursiveInit grow h indirectPackages tree).2 place.above place.here.label := by
  cases tree with
  | node node children =>
      let mine : ImportCacheNode := {node with indirectPackages := indirectPackages}
      have own : Known h mine.packages := known node (by simp [LabelTree.labels])
      have below : ∀ n ∈ labelsAll children, Known h n.packages := by
        intro n member
        exact known n (by simp [LabelTree.labels,member])
      have settled : Settled h above mine := by
        refine ⟨?_,indirect,gathered⟩
        intro n member
        rcases List.mem_append.mp member with old | new
        · exact ancestors n old
        · rw [List.mem_singleton.mp new]
          exact own
      obtain ⟨keeps,inside⟩ := children_settled grow way children 0 below settled
      refine ⟨keeps,?_⟩
      intro place member
      change place ∈ walk way above (.node mine (initChildren grow h mine children).1) at member
      rw [walk,List.mem_cons] at member
      rcases member with rfl | later
      · exact settled_keeps settled keeps
      · exact inside place later

theorem children_settled {h : Heap String} (grow : Nat → Nat) (way : List Nat) (children : List (LabelTree ImportCacheNode))
    (i : Nat) (known : ∀ n ∈ labelsAll children, Known h n.packages) (settled : Settled h above node) :
    Keeps h.next h (initChildren grow h node children).2 ∧
      ∀ place ∈ walkAll way (above ++ [node]) i (initChildren grow h node children).1,
        Settled (initChildren grow h node children).2 place.above place.here.label := by
  cases children with
  | nil => exact ⟨keeps_refl _ _,fun place member => absurd member List.not_mem_nil⟩
  | cons child rest =>
      have first := allPackages_keeps grow h node
      have mine := settled_keeps settled first
      have gathered : (allPackages grow h node).2.read (allPackages grow h node).1 =
          (above ++ [node]).flatMap fun n => (allPackages grow h node).2.read n.packages := by
        rw [allPackages_read grow settled.indirect,gathered_keeps first settled.known,settled.gathered]
        rw [List.flatMap_append,List.flatMap_singleton]
      have knownFirst : ∀ n ∈ labelsAll (child :: rest), Known (allPackages grow h node).2 n.packages :=
        fun n member => keeps_known first (known n member).allocated (known n member)
      obtain ⟨second,inside⟩ := init_settled grow (way ++ [i]) child
        (fun n member => knownFirst n (by simp [labelsAll,member])) (allPackages_known grow settled.indirect) mine.known
        gathered
      generalize child_eq : recursiveInit grow (allPackages grow h node).2 (allPackages grow h node).1 child = made at second inside
      have knownRest : ∀ n ∈ labelsAll rest, Known made.2 n.packages := by
        intro n member
        have before := knownFirst n (by simp [labelsAll,member])
        exact keeps_known second before.allocated before
      obtain ⟨third,later⟩ := children_settled grow way rest (i + 1) knownRest (settled_keeps mine second)
      have whole : initChildren grow h node (child :: rest) =
          (made.1 :: (initChildren grow made.2 node rest).1,(initChildren grow made.2 node rest).2) := by
        simp only [initChildren,child_eq]
      rw [whole]
      refine ⟨?_,?_⟩
      · have older := Nat.le_trans first.grown second.grown
        exact keeps_trans first (keeps_trans (keeps_mono second first.grown) (keeps_mono third older))
      · intro place member
        rw [walkAll,List.mem_append] at member
        rcases member with here | there
        · exact settled_keeps (inside place here) third
        · exact later place there
end

mutual
theorem init_map (grow : Nat → Nat) (h : Heap String) (indirectPackages : Slice) (tree : LabelTree ImportCacheNode) :
    (recursiveInit grow h indirectPackages tree).1.map (·.packages) = tree.map (·.packages) := by
  cases tree with
  | node node children =>
      have below := children_map grow h {node with indirectPackages := indirectPackages} children
      simp only [recursiveInit,LabelTree.map,below]

theorem children_map (grow : Nat → Nat) (h : Heap String) (node : ImportCacheNode)
    (children : List (LabelTree ImportCacheNode)) :
    mapAll (·.packages) (initChildren grow h node children).1 = mapAll (·.packages) children := by
  cases children with
  | nil => rfl
  | cons child rest => simp only [initChildren,mapAll,init_map grow _ _ child,children_map grow _ _ rest]
end

theorem newImportCache_parts (made : newImportCache grow conf = .ok (root,h)) :
    root.map (·.packages) = conf.root.map (·.packages) ∧ h.read root.label.packages = [] ∧
      Keeps conf.heap.next conf.heap h ∧ ∀ place ∈ walk [] [] root, Settled h place.above place.here.label := by
  unfold newImportCache at made
  split at made
  · cases made
  · rename_i bare
    have whole : recursiveInit grow (noPackages conf.heap).2 (noPackages conf.heap).1 conf.root = (root,h) := Except.ok.inj made
    have known := conf.known
    have start : Keeps conf.heap.next conf.heap (noPackages conf.heap).2 :=
      ⟨Nat.le_succ _,fun i below => Function.update_of_ne (Nat.ne_of_lt below) ..⟩
    have none : Known (noPackages conf.heap).2 (noPackages conf.heap).1 := ⟨Nat.lt_succ_self _,Nat.zero_le _,Nat.le_refl _⟩
    obtain ⟨keeps,settled⟩ := init_settled grow [] conf.root
      (fun n member => keeps_known start (known n member).allocated (known n member)) none
      (fun n member => absurd member List.not_mem_nil) rfl
    have shape := init_map grow (noPackages conf.heap).2 (noPackages conf.heap).1 conf.root
    rw [whole] at keeps settled shape
    refine ⟨shape,?_,keeps_trans start (keeps_mono keeps start.grown),settled⟩
    have same := congrArg LabelTree.label shape
    rw [map_label,map_label] at same
    rw [Heap.read,same]
    simp [Nat.eq_zero_of_not_pos bare]

def Usable (grow : Nat → Nat) (h : Heap String) (packages : List String) (place : Place ImportCacheNode) : Prop :=
  (∀ pkg ∈ (allPackages grow h place.here.label).2.read (allPackages grow h place.here.label).1, pkg ∈ packages) ∧
    ∀ child ∈ place.here.children, ∃ pkg ∈ h.read child.label.packages, pkg ∉ packages

theorem settled_allPackages {h : Heap String} (grow : Nat → Nat) (settled : Settled h above node) :
    (allPackages grow h node).2.read (allPackages grow h node).1 = (above ++ [node]).flatMap fun n => h.read n.packages := by
  rw [allPackages_read grow settled.indirect,settled.gathered,List.flatMap_append,List.flatMap_singleton]

theorem usable_iff {h : Heap String} (grow : Nat → Nat) (settled : Settled h place.above place.here.label) :
    Usable grow h packages place ↔ Deepest (wanted h packages) place := by
  unfold Usable Deepest
  apply and_congr
  · rw [settled_allPackages grow settled]
    simp only [List.mem_flatMap,wanted_iff]
    exact ⟨fun all n member pkg own => all pkg ⟨n,member,own⟩,fun all pkg ⟨n,member,own⟩ => all n member pkg own⟩
  · apply forall₂_congr
    intro child _
    rw [← Bool.not_eq_true,wanted_iff]
    simp

theorem lookup_first (h : Heap String) (packages : List String) (root : LabelTree ImportCacheNode) :
    lookup h packages root = (walk [] [] root).find? (fun place => decide (Deepest (wanted h packages) place)) :=
  seek_first (wanted h packages) [] root fun _ member => absurd member List.not_mem_nil

theorem lookup_parts (made : newImportCache grow conf = .ok (root,h)) (found : lookup h packages root = some place) :
    ∀ node ∈ place.labels, Known h node.packages ∧ ∀ pkg ∈ h.read node.packages, pkg ∈ packages := by
  obtain ⟨_,_,_,settled⟩ := newImportCache_parts made
  rw [lookup_first] at found
  have deepest : Deepest (wanted h packages) place := by simpa using List.find?_some found
  intro node member
  exact ⟨(settled place (List.mem_of_find?_eq_some found)).known node member,wanted_iff.mp (deepest.1 node member)⟩

theorem lookup_deepest (made : newImportCache grow conf = .ok (root,h)) (packages : List String) :
    ∃ place before after, lookup h packages root = some place ∧ Usable grow h packages place ∧
      walk [] [] root = before ++ place :: after ∧ (∀ other ∈ before, ¬ Usable grow h packages other) ∧
      (allPackages grow h place.here.label).2.read (allPackages grow h place.here.label).1 =
        place.labels.flatMap fun n => h.read n.packages := by
  obtain ⟨_,bare,_,settled⟩ := newImportCache_parts made
  have first := lookup_first h packages root
  have found := seek_isSome (wanted h packages) [] [] root
  rw [wanted_iff.mpr (by simp [bare])] at found
  obtain ⟨place,here⟩ := Option.isSome_iff_exists.mp found
  rw [lookup,here] at first
  obtain ⟨deepest,before,after,split,none⟩ := List.find?_eq_some_iff_append.mp first.symm
  have member : place ∈ walk [] [] root := by simp [split]
  refine ⟨place,before,after,here,?_,split,?_,settled_allPackages grow (settled place member)⟩
  · exact (usable_iff grow (settled place member)).mpr (of_decide_eq_true deepest)
  · intro other earlier usable
    have inside : other ∈ walk [] [] root := by simp [split,earlier]
    have shallow := none other earlier
    simp [(usable_iff grow (settled other inside)).mp usable] at shallow

def bareNode (packages : Slice) (children : List (LabelTree ImportCacheNode)) : LabelTree ImportCacheNode :=
  .node ⟨packages,⟨0,0,0⟩⟩ children

def scienceConf : TreeConf where
  heap := ⟨fun i => [[],["numpy"],["pandas"]].getD i [],3⟩
  root := bareNode ⟨0,0,0⟩ [bareNode ⟨1,1,4⟩ [bareNode ⟨2,1,1⟩ []],bareNode ⟨1,1,4⟩ []]
  known := by
    intro n member
    simp only [bareNode,LabelTree.labels,labelsAll,List.append_nil,List.cons_append,List.nil_append,List.mem_cons,
      List.not_mem_nil,or_false] at member
    rcases member with rfl | rfl | rfl | rfl
    all_goals exact ⟨by decide,by decide,by decide⟩

def scienceTree : LabelTree ImportCacheNode × Heap String :=
  recursiveInit id (noPackages scienceConf.heap).2 (noPackages scienceConf.heap).1 scienceConf.root

theorem lookup_deepest_science : newImportCache id scienceConf = .ok (scienceTree.1,scienceTree.2) ∧
    ∃ place before after, lookup scienceTree.2 ["pandas","numpy"] scienceTree.1 = some place ∧ place.way = [0,0] ∧
      walk [] [] scienceTree.1 = before ++ place :: after ∧
      ∀ other ∈ before, ¬ Usable id scienceTree.2 ["pandas","numpy"] other := by
  have made : newImportCache id scienceConf = .ok (scienceTree.1,scienceTree.2) := rfl
  obtain ⟨place,before,after,found,_,split,first,_⟩ := lookup_deepest made ["pandas","numpy"]
  have way : (lookup scienceTree.2 ["pandas","numpy"] scienceTree.1).map (·.way) = some [0,0] := by decide +kernel
  rw [found] at way
  exact ⟨made,place,before,after,found,Option.some.inj way,split,first⟩

end OpenLambda.Imports
