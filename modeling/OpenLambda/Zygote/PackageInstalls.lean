import Mathlib.Data.List.Nodup
import OpenLambda.Sandbox.Meta
import OpenLambda.Zygote.ImportTree

namespace OpenLambda.Imports
open Foundation.Slices Foundation.Trees Sandbox

structure PackageMeta where
  deps : List String
  topLevel : List String
  deriving DecidableEq, Repr

-- What the pip-install lambda answers for a package, or the error of the
-- installation; `toLower` is strings.ToLower.
structure Installer where
  toLower : String → String
  pipInstall : String → Except String PackageMeta

def Installer.normalizePkg (inst : Installer) (pkg : String) : String :=
  (inst.toLower pkg).map fun c => if c = '_' then '-' else c

-- sandboxInstall normalizes the dependencies. A package that is installed already
-- has the Meta of its installation.
def Installer.getPkg (inst : Installer) (pkg : String) : Except String PackageMeta :=
  match inst.pipInstall (inst.normalizePkg pkg) with
  | .error err => .error err
  | .ok p => .ok {p with deps := p.deps.map inst.normalizePkg}

def beforePin : List Char → List Char
  | '=' :: '=' :: _ => []
  | c :: rest => c :: beforePin rest
  | [] => []

def nameOf (install : String) : String := String.ofList (beforePin install.toList)

structure Installing where
  heap : Heap String
  installs : Slice
  installSet : List String

def Installing.read (s : Installing) : List String := s.heap.read s.installs

def Installing.push (grow : Nat → Nat) (s : Installing) (dep : String) : Installing :=
  if dep ∈ s.installSet then s
  else
    let (installs,heap) := s.heap.append grow s.installs [dep]
    ⟨heap,installs,dep :: s.installSet⟩

def Installing.start (h : Heap String) (installs : Slice) : Installing :=
  ⟨h,installs.clip,(h.read installs).map nameOf⟩

def Installing.round (inst : Installer) (grow : Nat → Nat) (i : Nat) (s : Installing) : Option (Except String Installing) :=
  s.read[i]?.map fun pkg => (inst.getPkg pkg).map fun p => p.deps.foldl (Installing.push grow) s

-- The loop from the i-th install on. It need not end, if there is no end of
-- packages that depend on others.
def installLoop (inst : Installer) (grow : Nat → Nat) : Nat → Nat → Installing → Option (Except String Installing)
  | 0,_,_ => none
  | fuel + 1,i,s => match s.round inst grow i with
      | none => some (.ok s)
      | some (.error err) => some (.error err)
      | some (.ok next) => installLoop inst grow fuel (i + 1) next

def installRecursive (inst : Installer) (grow : Nat → Nat) (fuel : Nat) (h : Heap String) (installs : Slice) :
    Option (Except String Installing) :=
  installLoop inst grow fuel 0 (.start h installs)

def topLevelMods (inst : Installer) : List String → Except String (List String)
  | [] => .ok []
  | name :: rest => match inst.getPkg name with
      | .error err => .error err
      | .ok pkg => match topLevelMods inst rest with
          | .error err => .error err
          | .ok mods => .ok (pkg.topLevel ++ mods)

-- What createSandboxInNode puts into node.meta. Create puts the files of each of the
-- installs on sys.path, and a Zygote that is forked has the path of its parent.
def nodeMeta (inst : Installer) (grow : Nat → Nat) (fuel : Nat) (h : Heap String) (node : ImportCacheNode) :
    Option (Except String SandboxMeta) :=
  match installRecursive inst grow fuel h node.packages with
  | none => none
  | some (.error err) => some (.error err)
  | some (.ok installed) => match topLevelMods inst (installed.heap.read node.packages) with
      | .error err => some (.error err)
      | .ok mods => some (.ok {SandboxMeta.empty with installs := installed.read,imports := mods})

-- The packages that the given ones need, in the names in which they are reported.
inductive Pulled (inst : Installer) (packages : List String) : String → Prop where
  | named : pkg ∈ packages → Pulled inst packages pkg
  | dep : Pulled inst packages pkg → inst.getPkg pkg = .ok p → dep ∈ p.deps → dep ∉ packages.map nameOf →
      Pulled inst packages dep

structure Gathered (inst : Installer) (packages : List String) (base : Heap String) (i : Nat) (s : Installing)
    (extra : List String) :
    Prop where
  keeps : Keeps base.next base s.heap
  known : Known s.heap s.installs
  apart : Apart base.next s.installs
  read : s.read = packages ++ extra
  inSet : ∀ pkg, pkg ∈ s.installSet ↔ pkg ∈ packages.map nameOf ∨ pkg ∈ extra
  distinct : extra.Nodup
  pulled : ∀ pkg ∈ extra, Pulled inst packages pkg
  seen : ∀ pkg ∈ s.read.take i, ∃ p, inst.getPkg pkg = .ok p ∧ ∀ dep ∈ p.deps, dep ∈ s.installSet

theorem start_gathered {h : Heap String} (inst : Installer) (known : Known h installs) :
    Gathered inst (h.read installs) h 0 (.start h installs) [] where
  keeps := keeps_refl _ _
  known := clip_known known
  apart := clip_apart _ _
  read := (List.append_nil _).symm
  inSet := by simp [Installing.start]
  distinct := List.nodup_nil
  pulled := fun _ member => absurd member List.not_mem_nil
  seen := by simp

theorem push_gathered {s : Installing} (grow : Nat → Nat) (gathered : Gathered inst packages base i s extra)
    (old : i ≤ s.read.length) (source : dep ∉ packages.map nameOf → Pulled inst packages dep) :
    ∃ more, Gathered inst packages base i (s.push grow dep) (extra ++ more) ∧ dep ∈ (s.push grow dep).installSet := by
  unfold Installing.push
  split
  · rename_i present
    exact ⟨[],by rwa [List.append_nil],present⟩
  · rename_i absent
    have outside := mt (gathered.inSet dep).mpr absent
    have longer : (s.heap.append grow s.installs [dep]).2.read (s.heap.append grow s.installs [dep]).1 = s.read ++ [dep] :=
      append_read grow gathered.known [dep]
    refine ⟨[dep],⟨?_,append_known grow gathered.known _,?_,?_,?_,?_,?_,?_⟩,List.mem_cons_self⟩
    · exact keeps_trans gathered.keeps (append_keeps grow gathered.apart gathered.keeps.grown _)
    · exact append_apart grow gathered.apart gathered.keeps.grown (List.cons_ne_nil _ _)
    · change (s.heap.append grow s.installs [dep]).2.read (s.heap.append grow s.installs [dep]).1 = _
      rw [longer,gathered.read,List.append_assoc]
    · intro pkg
      rw [List.mem_cons,gathered.inSet,List.mem_append,List.mem_singleton,or_comm,or_assoc]
    · rw [← List.concat_eq_append]
      exact gathered.distinct.concat (fun member => outside (.inr member))
    · intro pkg member
      rcases List.mem_append.mp member with before | new
      · exact gathered.pulled pkg before
      · rw [List.mem_singleton.mp new]
        exact source (fun named => outside (.inl named))
    · intro pkg member
      change pkg ∈ ((s.heap.append grow s.installs [dep]).2.read (s.heap.append grow s.installs [dep]).1).take i at member
      rw [longer,List.take_append_of_le_length old] at member
      obtain ⟨p,got,deps⟩ := gathered.seen pkg member
      exact ⟨p,got,fun other mem => List.mem_cons_of_mem _ (deps other mem)⟩

theorem gathered_length (gathered : Gathered inst packages base i s extra) :
    s.read.length = packages.length + extra.length := by
  rw [gathered.read,List.length_append]

theorem gathered_more (first : Gathered inst packages base i s extra) (second : Gathered inst packages base j t (extra ++ more))
    (member : pkg ∈ s.installSet) : pkg ∈ t.installSet := by
  rw [second.inSet,List.mem_append]
  rcases (first.inSet pkg).mp member with named | before
  · exact .inl named
  · exact .inr (.inl before)

theorem pushAll_gathered (grow : Nat → Nat) (deps : List String) {s : Installing}
    (gathered : Gathered inst packages base i s extra) (old : i ≤ s.read.length)
    (source : ∀ dep ∈ deps, dep ∉ packages.map nameOf → Pulled inst packages dep) :
    ∃ more, Gathered inst packages base i (deps.foldl (Installing.push grow) s) (extra ++ more) ∧
      ∀ dep ∈ deps, dep ∈ (deps.foldl (Installing.push grow) s).installSet := by
  induction deps generalizing s extra with
  | nil => exact ⟨[],by rwa [List.append_nil],fun _ member => absurd member List.not_mem_nil⟩
  | cons dep rest ih =>
      obtain ⟨first,one,inside⟩ := push_gathered grow gathered old (source dep List.mem_cons_self)
      have older : i ≤ (s.push grow dep).read.length := by
        rw [gathered_length gathered] at old
        rw [gathered_length one,List.length_append]
        omega
      obtain ⟨more,all,later⟩ := ih one older (fun other member => source other (List.mem_cons_of_mem _ member))
      refine ⟨first ++ more,by rwa [← List.append_assoc],?_⟩
      intro other member
      rcases List.mem_cons.mp member with rfl | tail
      · exact gathered_more one all inside
      · exact later other tail

theorem gathered_pulled (gathered : Gathered inst packages base i s extra) (member : pkg ∈ s.read) :
    Pulled inst packages pkg := by
  rw [gathered.read] at member
  rcases List.mem_append.mp member with own | pushed
  · exact .named own
  · exact gathered.pulled pkg pushed

theorem round_none {s : Installing} : s.round inst grow i = none ↔ s.read[i]? = none := Option.map_eq_none_iff

theorem round_error {s : Installing} (failed : s.round inst grow i = some (.error err)) :
    ∃ pkg, s.read[i]? = some pkg ∧ inst.getPkg pkg = .error err := by
  obtain ⟨pkg,here,same⟩ := Option.map_eq_some_iff.mp failed
  cases got : inst.getPkg pkg with
  | error other =>
      rw [got] at same
      cases same
      exact ⟨pkg,here,got⟩
  | ok p =>
      rw [got] at same
      cases same

theorem round_ok {s : Installing} (went : s.round inst grow i = some (.ok next)) :
    ∃ pkg p, s.read[i]? = some pkg ∧ inst.getPkg pkg = .ok p ∧ next = p.deps.foldl (Installing.push grow) s := by
  obtain ⟨pkg,here,same⟩ := Option.map_eq_some_iff.mp went
  cases got : inst.getPkg pkg with
  | error err =>
      rw [got] at same
      cases same
  | ok p =>
      rw [got] at same
      cases same
      exact ⟨pkg,p,here,got,rfl⟩

theorem round_gathered {s : Installing} (gathered : Gathered inst packages base i s extra)
    (went : s.round inst grow i = some (.ok next)) :
    ∃ more, Gathered inst packages base (i + 1) next (extra ++ more) ∧ i < s.read.length := by
  obtain ⟨pkg,p,here,got,rfl⟩ := round_ok went
  obtain ⟨within,same⟩ := List.getElem?_eq_some_iff.mp here
  have pulled : Pulled inst packages pkg := gathered_pulled gathered (List.mem_of_getElem? here)
  obtain ⟨more,all,inside⟩ := pushAll_gathered grow p.deps gathered (Nat.le_of_lt within)
    (fun dep member unnamed => .dep pulled got member unnamed)
  refine ⟨more,{all with seen := ?_},within⟩
  intro other member
  have longer : (p.deps.foldl (Installing.push grow) s).read = s.read ++ more := by
    rw [all.read,gathered.read,List.append_assoc]
  rw [longer,List.take_append_of_le_length within,List.take_succ_eq_append_getElem within,same] at member
  rcases List.mem_append.mp member with before | last
  · apply all.seen other
    rw [longer,List.take_append_of_le_length (Nat.le_of_lt within)]
    exact before
  · rw [List.mem_singleton.mp last]
    exact ⟨p,got,inside⟩

theorem loop_gathered (grow : Nat → Nat) {s : Installing} (gathered : Gathered inst packages base i s extra)
    (returned : installLoop inst grow fuel i s = some (.ok t)) :
    ∃ all, Gathered inst packages base t.read.length t all := by
  induction fuel generalizing i s extra with
  | zero => cases returned
  | succ fuel ih =>
      rw [installLoop] at returned
      split at returned
      · rename_i ended
        cases returned
        refine ⟨extra,{gathered with seen := ?_}⟩
        have beyond : t.read.length ≤ i := List.getElem?_eq_none_iff.mp (round_none.mp ended)
        rw [List.take_length,← List.take_of_length_le beyond]
        exact gathered.seen
      · cases returned
      · rename_i went
        obtain ⟨more,next,_⟩ := round_gathered gathered went
        exact ih next returned

-- With finitely many packages to pull the loop ends: each is pushed once.
theorem loop_ends (grow : Nat → Nat) {s : Installing} {all : List String} (gathered : Gathered inst packages base i s extra)
    (old : i ≤ s.read.length) (within : ∀ pkg, Pulled inst packages pkg → pkg ∈ all)
    (enough : packages.length + all.length < i + fuel) : ∃ result, installLoop inst grow fuel i s = some result := by
  induction fuel generalizing i s extra with
  | zero =>
      have bounded := gathered.distinct.length_le_of_subset fun pkg member => within pkg (gathered.pulled pkg member)
      rw [gathered_length gathered] at old
      omega
  | succ fuel ih =>
      rw [installLoop]
      split
      · exact ⟨.ok s,rfl⟩
      · exact ⟨_,rfl⟩
      · rename_i went
        obtain ⟨more,next,later⟩ := round_gathered gathered went
        refine ih next ?_ (by omega)
        rw [gathered_length gathered] at later
        rw [gathered_length next,List.length_append]
        omega

theorem loop_failed (grow : Nat → Nat) {s : Installing} (gathered : Gathered inst packages base i s extra)
    (returned : installLoop inst grow fuel i s = some (.error err)) :
    ∃ pkg, Pulled inst packages pkg ∧ inst.getPkg pkg = .error err := by
  induction fuel generalizing i s extra with
  | zero => cases returned
  | succ fuel ih =>
      rw [installLoop] at returned
      split at returned
      · cases returned
      · rename_i failed
        cases returned
        obtain ⟨pkg,here,got⟩ := round_error failed
        exact ⟨pkg,gathered_pulled gathered (List.mem_of_getElem? here),got⟩
      · rename_i went
        obtain ⟨more,next,_⟩ := round_gathered gathered went
        exact ih next returned

theorem installRecursive_parts {h : Heap String} (known : Known h installs)
    (returned : installRecursive inst grow fuel h installs = some (.ok t)) :
    Keeps h.next h t.heap ∧ (∀ pkg, pkg ∈ t.read ↔ Pulled inst (h.read installs) pkg) ∧
      ∀ pkg ∈ t.read, ∃ p, inst.getPkg pkg = .ok p := by
  obtain ⟨extra,all⟩ := loop_gathered grow (start_gathered inst known) returned
  have seen := all.seen
  rw [List.take_length] at seen
  refine ⟨all.keeps,?_,?_⟩
  · intro pkg
    refine ⟨gathered_pulled all,?_⟩
    intro pulled
    induction pulled with
    | named member =>
        rw [all.read]
        exact List.mem_append_left _ member
    | dep _ got member unnamed ih =>
        obtain ⟨p,same,inside⟩ := seen _ ih
        cases got.symm.trans same
        rw [all.read]
        rcases (all.inSet _).mp (inside _ member) with named | pushed
        · exact absurd named unnamed
        · exact List.mem_append_right _ pushed
  · intro pkg member
    obtain ⟨p,got,_⟩ := seen pkg member
    exact ⟨p,got⟩

def Installable (inst : Installer) (packages : List String) : Prop :=
  (∃ all : List String, ∀ pkg, Pulled inst packages pkg → pkg ∈ all) ∧
    ∀ pkg, Pulled inst packages pkg → ∃ p, inst.getPkg pkg = .ok p

theorem installRecursive_ends {h : Heap String} (grow : Nat → Nat) {all : List String} (known : Known h installs)
    (within : ∀ pkg, Pulled inst (h.read installs) pkg → pkg ∈ all) :
    ∃ result, installRecursive inst grow ((h.read installs).length + all.length + 1) h installs = some result :=
  loop_ends grow (start_gathered inst known) (Nat.zero_le _) within (by omega)

theorem installRecursive_returns {h : Heap String} (grow : Nat → Nat) (known : Known h installs) :
    (∃ fuel t, installRecursive inst grow fuel h installs = some (.ok t)) ↔ Installable inst (h.read installs) := by
  constructor
  · rintro ⟨fuel,t,returned⟩
    obtain ⟨_,exact,got⟩ := installRecursive_parts known returned
    exact ⟨⟨t.read,fun pkg => (exact pkg).mpr⟩,fun pkg pulled => got pkg ((exact pkg).mpr pulled)⟩
  · rintro ⟨⟨all,within⟩,fine⟩
    obtain ⟨result,returned⟩ := installRecursive_ends grow known within
    refine ⟨(h.read installs).length + all.length + 1,?_⟩
    cases result with
    | ok t => exact ⟨t,returned⟩
    | error err =>
        obtain ⟨pkg,pulled,failed⟩ := loop_failed grow (start_gathered inst known) returned
        obtain ⟨p,got⟩ := fine pkg pulled
        cases failed.symm.trans got

theorem topLevelMods_returns (fine : ∀ name ∈ names, ∃ p, inst.getPkg name = .ok p) :
    ∃ mods, topLevelMods inst names = .ok mods := by
  induction names with
  | nil => exact ⟨[],rfl⟩
  | cons name rest ih =>
      obtain ⟨p,got⟩ := fine name List.mem_cons_self
      obtain ⟨mods,later⟩ := ih fun other member => fine other (List.mem_cons_of_mem _ member)
      exact ⟨p.topLevel ++ mods,by simp only [topLevelMods,got,later]⟩

theorem nodeMeta_parts (made : nodeMeta inst grow fuel h node = some (.ok sandboxMeta)) :
    ∃ t, installRecursive inst grow fuel h node.packages = some (.ok t) ∧ sandboxMeta.installs = t.read := by
  unfold nodeMeta at made
  split at made
  · cases made
  · cases made
  · rename_i t returned
    split at made
    · cases made
    · cases made
      exact ⟨t,returned,rfl⟩

theorem nodeMeta_returns {h : Heap String} (grow : Nat → Nat) (known : Known h node.packages)
    (installable : Installable inst (h.read node.packages)) :
    ∃ fuel sandboxMeta, nodeMeta inst grow fuel h node = some (.ok sandboxMeta) := by
  obtain ⟨fuel,t,returned⟩ := (installRecursive_returns grow known).mpr installable
  obtain ⟨keeps,_,_⟩ := installRecursive_parts known returned
  have same : t.heap.read node.packages = h.read node.packages := keeps_read keeps known.allocated
  have named : ∀ name ∈ h.read node.packages, ∃ p, inst.getPkg name = .ok p := fun name member =>
    installable.2 name (.named member)
  obtain ⟨mods,listed⟩ := topLevelMods_returns named
  refine ⟨fuel,{SandboxMeta.empty with installs := t.read,imports := mods},?_⟩
  simp only [nodeMeta,returned,same,listed]

theorem zygote_packages_wanted (inst : Installer) (made : newImportCache grow conf = .ok (root,h))
    (found : lookup h packages root = some place) :
    (∀ node ∈ place.labels, ∀ fuel sandboxMeta, nodeMeta inst grow fuel h node = some (.ok sandboxMeta) →
      ∀ pkg ∈ sandboxMeta.installs, pkg ∈ packages) ↔
    ∀ node ∈ place.labels, Installable inst (h.read node.packages) →
      ∀ pkg p, Pulled inst (h.read node.packages) pkg → inst.getPkg pkg = .ok p →
        ∀ dep ∈ p.deps, dep ∉ (h.read node.packages).map nameOf → dep ∈ packages := by
  have way := lookup_parts made found
  constructor
  · intro within node member installable pkg p pulled got dep reported unnamed
    obtain ⟨known,_⟩ := way node member
    obtain ⟨fuel,sandboxMeta,created⟩ := nodeMeta_returns grow known installable
    obtain ⟨t,returned,same⟩ := nodeMeta_parts created
    apply within node member fuel sandboxMeta created dep
    rw [same,(installRecursive_parts known returned).2.1]
    exact .dep pulled got reported unnamed
  · intro within node member fuel sandboxMeta created pkg installed
    obtain ⟨known,own⟩ := way node member
    obtain ⟨t,returned,same⟩ := nodeMeta_parts created
    have installable := (installRecursive_returns grow known).mp ⟨fuel,t,returned⟩
    rw [same,(installRecursive_parts known returned).2.1] at installed
    cases installed with
    | named listed => exact own pkg listed
    | dep pulled got reported unnamed => exact within node member installable _ _ pulled got pkg reported unnamed

def pinnedConf : TreeConf where
  heap := ⟨fun i => [[],["flask==2.0"]].getD i [],2⟩
  root := bareNode ⟨0,0,0⟩ [bareNode ⟨1,1,1⟩ []]
  known := by
    intro n member
    simp only [bareNode,LabelTree.labels,labelsAll,List.append_nil,List.mem_cons,List.not_mem_nil,or_false] at member
    rcases member with rfl | rfl
    all_goals exact ⟨by decide,by decide,by decide⟩

def pinnedTree : LabelTree ImportCacheNode × Heap String :=
  recursiveInit id (noPackages pinnedConf.heap).2 (noPackages pinnedConf.heap).1 pinnedConf.root

def flaskInstaller : Installer where
  toLower := String.toLower
  pipInstall := fun pkg => .ok ⟨if pkg = "flask==2.0" then ["Werkzeug"] else [],[]⟩

theorem flask_deps (got : flaskInstaller.getPkg pkg = .ok p) (reported : dep ∈ p.deps) : dep = "werkzeug" := by
  unfold Installer.getPkg at got
  cases got
  have named : flaskInstaller.normalizePkg "Werkzeug" = "werkzeug" := by decide +kernel
  change dep ∈ (if flaskInstaller.normalizePkg pkg = "flask==2.0" then ["Werkzeug"] else []).map _ at reported
  split at reported
  · rwa [List.map_singleton,named,List.mem_singleton] at reported
  · cases reported

theorem zygote_packages_wanted_unpinned :
    ∃ place, lookup pinnedTree.2 ["flask==2.0","werkzeug"] pinnedTree.1 = some place ∧ place.way = [0] ∧
      ∀ node ∈ place.labels, ∀ fuel sandboxMeta, nodeMeta flaskInstaller id fuel pinnedTree.2 node = some (.ok sandboxMeta) →
        ∀ pkg ∈ sandboxMeta.installs, pkg ∈ ["flask==2.0","werkzeug"] := by
  have made : newImportCache id pinnedConf = .ok (pinnedTree.1,pinnedTree.2) := rfl
  have seen : (lookup pinnedTree.2 ["flask==2.0","werkzeug"] pinnedTree.1).map (·.way) = some [0] := by decide +kernel
  obtain ⟨place,found,way⟩ := Option.map_eq_some_iff.mp seen
  refine ⟨place,found,way,(zygote_packages_wanted flaskInstaller made found).mpr ?_⟩
  intro node _ _ pkg p _ got dep reported _
  rw [flask_deps got reported]
  decide

theorem zygote_with_other_version :
    newImportCache id pinnedConf = .ok (pinnedTree.1,pinnedTree.2) ∧
    ∃ place, lookup pinnedTree.2 ["flask==2.0","werkzeug==2.0"] pinnedTree.1 = some place ∧
      ∃ node ∈ place.labels, ∃ sandboxMeta, nodeMeta flaskInstaller id 3 pinnedTree.2 node = some (.ok sandboxMeta) ∧
        ∃ pkg ∈ sandboxMeta.installs, pkg ∉ ["flask==2.0","werkzeug==2.0"] := by
  have seen : (lookup pinnedTree.2 ["flask==2.0","werkzeug==2.0"] pinnedTree.1).map
      (fun place => nodeMeta flaskInstaller id 3 pinnedTree.2 place.here.label) =
        some (some (.ok ⟨.python,0,0,["flask==2.0","werkzeug"],[]⟩)) := by decide +kernel
  obtain ⟨place,found,created⟩ := Option.map_eq_some_iff.mp seen
  refine ⟨rfl,place,found,place.here.label,?_,_,created,"werkzeug",?_,?_⟩
  · exact List.mem_append_right _ (List.mem_singleton_self _)
  · decide
  · decide

end OpenLambda.Imports
