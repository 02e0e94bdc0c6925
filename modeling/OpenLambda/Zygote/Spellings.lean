import OpenLambda.Packages.Normalization
import OpenLambda.Zygote.InstallClosure

namespace OpenLambda.Imports
open Foundation.Slices

section Normalized

variable {inst : Installer} {lower : Char → Char} (lowers : LowerCase inst.toLower lower)
include lowers

theorem beforePin_map (text : List Char) :
    beforePin (text.map (normalizeChar lower)) = (beforePin text).map (normalizeChar lower) := by
  have sign : ∀ c, normalizeChar lower c = '=' ↔ c = '=' :=
    normalizeChar_sign lowers (by decide) (by decide) (by decide)
  fun_induction beforePin text with
  | case1 rest =>
      have equals : normalizeChar lower '=' = '=' := (sign '=').mpr rfl
      simp only [List.map_cons,equals,beforePin,List.map_nil]
  | case2 c rest other ih =>
      rw [List.map_cons,List.map_cons,← ih]
      apply beforePin.eq_2
      intro more first second
      cases rest with
      | nil => cases second
      | cons next rest =>
          rw [List.map_cons,List.cons.injEq] at second
          exact other rest ((sign c).mp first)
            (by rw [(sign next).mp second.1])
  | case3 => rfl

theorem nameOf_normalize (pkg : String) : nameOf (inst.normalizePkg pkg) = inst.normalizePkg (nameOf pkg) := by
  apply String.toList_injective
  rw [normalizePkg_map lowers,normalizePkg_map lowers]
  simp only [nameOf,String.toList_map,String.toList_ofList]
  exact beforePin_map lowers pkg.toList

theorem getPkg_normalize (pkg : String) : inst.getPkg (inst.normalizePkg pkg) = inst.getPkg pkg := by
  unfold Installer.getPkg
  rw [normalizePkg_again lowers]

theorem deps_normalized (got : inst.getPkg pkg = .ok p) (reported : dep ∈ p.deps) : inst.normalizePkg dep = dep := by
  unfold Installer.getPkg at got
  split at got
  · cases got
  · cases got
    obtain ⟨raw,_,rfl⟩ := List.mem_map.mp reported
    exact normalizePkg_again lowers raw

end Normalized

def Installer.distribution (inst : Installer) (install : String) : String := inst.normalizePkg (nameOf install)

-- No package that is pulled depends on a distribution that the list has under
-- another spelling only.
def SpellingsKnown (inst : Installer) (packages : List String) : Prop :=
  ∀ pkg p dep, Pulled inst packages pkg → inst.getPkg pkg = .ok p → dep ∈ p.deps →
    dep ∈ packages.map inst.distribution → dep ∈ packages.map nameOf

structure Alike (inst : Installer) (packages : List String) (s u : Installing) (extra : List String) : Prop where
  known : Known s.heap s.installs ∧ Known u.heap u.installs
  read : s.read = packages ++ extra
  other : u.read = packages.map inst.normalizePkg ++ extra
  inSet : ∀ pkg, pkg ∈ s.installSet ↔ pkg ∈ packages.map nameOf ∨ pkg ∈ extra
  otherSet : ∀ pkg, pkg ∈ u.installSet ↔ pkg ∈ packages.map inst.distribution ∨ pkg ∈ extra
  normal : ∀ pkg ∈ extra, inst.normalizePkg pkg = pkg
  pulled : ∀ pkg ∈ extra, Pulled inst packages pkg

theorem names_normalized {inst : Installer} (lowers : LowerCase inst.toLower lower) (packages : List String) :
    (packages.map inst.normalizePkg).map nameOf = packages.map inst.distribution := by
  rw [List.map_map]
  exact List.map_congr_left fun pkg _ => nameOf_normalize lowers pkg

theorem alike_read (alike : Alike inst packages s u extra) : u.read = s.read.map inst.normalizePkg := by
  rw [alike.read,alike.other,List.map_append]
  congr 1
  exact (List.map_congr_left alike.normal).trans (List.map_id _) |>.symm

theorem start_alike {h k : Heap String} (lowers : LowerCase inst.toLower lower) (known : Known h installs)
    (knownOther : Known k normalized) (same : k.read normalized = (h.read installs).map inst.normalizePkg) :
    Alike inst (h.read installs) (.start h installs) (.start k normalized) [] := by
  refine ⟨⟨clip_known known,clip_known knownOther⟩,(List.append_nil _).symm,?_,?_,?_,?_,?_⟩
  · rw [List.append_nil,← same]
    rfl
  · simp [Installing.start]
  · intro pkg
    rw [← names_normalized lowers,← same]
    simp [Installing.start]
  · exact fun _ member => absurd member List.not_mem_nil
  · exact fun _ member => absurd member List.not_mem_nil

theorem push_alike (grow grows : Nat → Nat) (alike : Alike inst packages s u extra) (normal : inst.normalizePkg dep = dep)
    (agree : dep ∈ packages.map nameOf ↔ dep ∈ packages.map inst.distribution)
    (source : dep ∉ packages.map nameOf → Pulled inst packages dep) :
    ∃ more, Alike inst packages (s.push grow dep) (u.push grows dep) (extra ++ more) := by
  have both : dep ∈ s.installSet ↔ dep ∈ u.installSet := by rw [alike.inSet,alike.otherSet,agree]
  by_cases present : dep ∈ s.installSet
  · refine ⟨[],?_⟩
    rw [Installing.push,if_pos present,Installing.push,if_pos (both.mp present),List.append_nil]
    exact alike
  · obtain ⟨read,set,known⟩ := push_read grow alike.known.1 present
    obtain ⟨other,otherSet,knownOther⟩ := push_read grows alike.known.2 (mt both.mpr present)
    have unnamed : dep ∉ packages.map nameOf := fun named => present ((alike.inSet dep).mpr (.inl named))
    refine ⟨[dep],⟨known,knownOther⟩,?_,?_,?_,?_,?_,?_⟩
    · rw [read,alike.read,List.append_assoc]
    · rw [other,alike.other,List.append_assoc]
    · intro pkg
      rw [set,List.mem_cons,alike.inSet,List.mem_append,List.mem_singleton,or_comm,or_assoc]
    · intro pkg
      rw [otherSet,List.mem_cons,alike.otherSet,List.mem_append,List.mem_singleton,or_comm,or_assoc]
    · intro pkg member
      rcases List.mem_append.mp member with before | new
      · exact alike.normal pkg before
      · rw [List.mem_singleton.mp new]
        exact normal
    · intro pkg member
      rcases List.mem_append.mp member with before | new
      · exact alike.pulled pkg before
      · rw [List.mem_singleton.mp new]
        exact source unnamed

theorem agree_of_known (lowers : LowerCase inst.toLower lower) (spellings : SpellingsKnown inst packages)
    (pulled : Pulled inst packages pkg) (got : inst.getPkg pkg = .ok p) (reported : dep ∈ p.deps) :
    dep ∈ packages.map nameOf ↔ dep ∈ packages.map inst.distribution := by
  refine ⟨?_,spellings pkg p dep pulled got reported⟩
  intro named
  obtain ⟨install,member,rfl⟩ := List.mem_map.mp named
  exact List.mem_map.mpr ⟨install,member,deps_normalized lowers got reported⟩

theorem pushAll_alike (grow grows : Nat → Nat) (lowers : LowerCase inst.toLower lower)
    (spellings : SpellingsKnown inst packages) (pulled : Pulled inst packages pkg) (got : inst.getPkg pkg = .ok p)
    (deps : List String) (inside : ∀ dep ∈ deps, dep ∈ p.deps) (alike : Alike inst packages s u extra) :
    ∃ more, Alike inst packages (deps.foldl (Installing.push grow) s) (deps.foldl (Installing.push grows) u)
      (extra ++ more) := by
  induction deps generalizing s u extra with
  | nil => exact ⟨[],by rwa [List.append_nil]⟩
  | cons dep rest ih =>
      have reported := inside dep List.mem_cons_self
      obtain ⟨first,one⟩ := push_alike grow grows alike (deps_normalized lowers got reported)
        (agree_of_known lowers spellings pulled got reported) (fun unnamed => .dep pulled got reported unnamed)
      obtain ⟨more,all⟩ := ih (fun other member => inside other (List.mem_cons_of_mem _ member)) one
      exact ⟨first ++ more,by rwa [← List.append_assoc]⟩

theorem alike_pulled (alike : Alike inst packages s u extra) (member : pkg ∈ s.read) : Pulled inst packages pkg := by
  rw [alike.read] at member
  rcases List.mem_append.mp member with own | pushed
  · exact .named own
  · exact alike.pulled pkg pushed

theorem loop_alike (grow grows : Nat → Nat) (lowers : LowerCase inst.toLower lower)
    (spellings : SpellingsKnown inst packages) (alike : Alike inst packages s u extra)
    (returned : installLoop inst grow fuel i s = some (.ok t)) :
    ∃ v all, installLoop inst grows fuel i u = some (.ok v) ∧ Alike inst packages t v all := by
  induction fuel generalizing i s u extra with
  | zero => cases returned
  | succ fuel ih =>
      have same : u.read[i]? = s.read[i]?.map inst.normalizePkg := by rw [alike_read alike,List.getElem?_map]
      rw [installLoop] at returned
      split at returned
      · rename_i ended
        cases returned
        have stops : u.round inst grows i = none := by
          rw [round_none,same,round_none.mp ended]
          rfl
        exact ⟨u,extra,by rw [installLoop,stops],alike⟩
      · cases returned
      · rename_i next went
        obtain ⟨pkg,p,here,got,rfl⟩ := round_ok went
        have pulled := alike_pulled alike (List.mem_of_getElem? here)
        obtain ⟨more,both⟩ := pushAll_alike grow grows lowers spellings pulled got p.deps (fun _ member => member) alike
        have goes : u.round inst grows i = some (.ok (p.deps.foldl (Installing.push grows) u)) := by
          rw [Installing.round,same,here]
          simp only [Option.map_some,getPkg_normalize lowers,got,Except.map]
        rw [installLoop,goes]
        exact ih both returned

structure Unnamed (packages : List String) (s : Installing) : Prop where
  known : Known s.heap s.installs
  inSet : ∀ name ∈ packages.map nameOf, name ∈ s.installSet
  appended : ∃ extra, s.read = packages ++ extra ∧ ∀ pkg ∈ extra, pkg ∉ packages.map nameOf

theorem push_unnamed (grow : Nat → Nat) (unnamed : Unnamed packages s) (dep : String) :
    Unnamed packages (s.push grow dep) := by
  by_cases present : dep ∈ s.installSet
  · rw [Installing.push,if_pos present]
    exact unnamed
  · obtain ⟨read,set,known⟩ := push_read grow unnamed.known present
    obtain ⟨extra,whole,fresh⟩ := unnamed.appended
    refine ⟨known,?_,extra ++ [dep],?_,?_⟩
    · intro name member
      rw [set]
      exact List.mem_cons_of_mem _ (unnamed.inSet name member)
    · rw [read,whole,List.append_assoc]
    · intro pkg member
      rcases List.mem_append.mp member with before | new
      · exact fresh pkg before
      · rw [List.mem_singleton.mp new]
        exact fun named => present (unnamed.inSet dep named)

theorem returned_unnamed {h : Heap String} (known : Known h installs)
    (returned : installRecursive inst grow fuel h installs = some (.ok t)) : Unnamed (h.read installs) t := by
  obtain ⟨rounds,i,ran⟩ := loop_rounds returned
  refine rounds_preserve (Unnamed (h.read installs)) (fun _ _ _ dep _ _ unnamed => push_unnamed grow unnamed dep) ?_ ran
  exact ⟨clip_known known,fun _ member => member,[],(List.append_nil _).symm,fun _ member => absurd member List.not_mem_nil⟩

theorem spelling_commutes {h k : Heap String} (grows : Nat → Nat) (lowers : LowerCase inst.toLower lower)
    (named : DepsNamed inst) (known : Known h installs) (knownOther : Known k normalized)
    (same : k.read normalized = (h.read installs).map inst.normalizePkg)
    (returned : installRecursive inst grow fuel h installs = some (.ok t)) :
    ((∃ fuel u, installRecursive inst grows fuel k normalized = some (.ok u) ∧ u.read = t.read.map inst.normalizePkg) ∧
      (((h.read installs).map inst.distribution).Nodup → (t.read.map inst.distribution).Nodup)) ↔
    SpellingsKnown inst (h.read installs) := by
  obtain ⟨extra,gathered⟩ := loop_gathered grow (start_gathered inst known) returned
  constructor
  · rintro ⟨⟨fuel,u,again,commutes⟩,_⟩ pkg p dep pulled got reported spelled
    by_contra unnamed
    -- dep is appended here, but the normalized list names it
    have listed : pkg ∈ t.read := ((installRecursive_parts known returned).2.1 pkg).mpr pulled
    obtain ⟨q,found,inside⟩ := gathered.seen pkg (by rwa [List.take_length])
    cases found.symm.trans got
    have appended : dep ∈ extra := ((gathered.inSet dep).mp (inside dep reported)).resolve_left unnamed
    obtain ⟨more,whole,fresh⟩ := (returned_unnamed knownOther again).appended
    rw [commutes,gathered.read,List.map_append,same] at whole
    rw [same,names_normalized lowers] at fresh
    have normal : dep ∈ extra.map inst.normalizePkg := List.mem_map.mpr ⟨dep,appended,deps_normalized lowers got reported⟩
    exact fresh dep (List.append_cancel_left whole ▸ normal) spelled
  · intro spellings
    obtain ⟨u,all,again,alike⟩ := loop_alike grow grows lowers spellings (start_alike lowers known knownOther same) returned
    refine ⟨⟨fuel,u,again,alike_read alike⟩,?_⟩
    intro distinct
    rw [← names_normalized lowers,← same] at distinct
    have once := (returned_namesOnce named knownOther distinct again).distinct
    rwa [alike_read alike,names_normalized lowers] at once

def pairInstaller : Installer where
  toLower := String.toLower
  pipInstall := fun pkg => .ok ⟨if pkg = "b" then ["A"] else [],[]⟩

def heapOf (packages : List String) : Heap String := ⟨fun _ => packages,1⟩

theorem pair_deps (got : pairInstaller.getPkg pkg = .ok p) (reported : dep ∈ p.deps) : dep = "a" := by
  unfold Installer.getPkg at got
  cases got
  have first : pairInstaller.normalizePkg "A" = "a" := by decide +kernel
  change dep ∈ (if pairInstaller.normalizePkg pkg = "b" then ["A"] else []).map _ at reported
  split at reported
  · rwa [List.map_singleton,first,List.mem_singleton] at reported
  · cases reported

def returnedList (result : Option (Except String Installing)) : Option (List String) :=
  result.bind fun outcome => outcome.toOption.map Installing.read

theorem returnedList_parts (seen : returnedList result = some list) : ∃ t, result = some (.ok t) ∧ t.read = list := by
  obtain ⟨outcome,rfl,rest⟩ := Option.bind_eq_some_iff.mp seen
  cases outcome with
  | error err => cases rest
  | ok t => exact ⟨t,rfl,Option.some.inj rest⟩

theorem spelling_commutes_pinned :
    ∃ t, installRecursive pairInstaller id 3 (heapOf ["a==1.0","B"]) ⟨0,2,2⟩ = some (.ok t) ∧
      ∃ fuel u, installRecursive pairInstaller id fuel (heapOf ["a==1.0","b"]) ⟨0,2,2⟩ = some (.ok u) ∧
        u.read = t.read.map pairInstaller.normalizePkg := by
  have named : DepsNamed pairInstaller := by
    intro pkg p got dep reported
    rw [pair_deps got reported]
    decide +kernel
  have known : ∀ first second, Known (heapOf [first,second]) ⟨0,2,2⟩ := fun _ _ =>
    ⟨Nat.zero_lt_one,Nat.le_refl 2,Nat.le_refl 2⟩
  have seen : returnedList (installRecursive pairInstaller id 3 (heapOf ["a==1.0","B"]) ⟨0,2,2⟩) = some ["a==1.0","B"] := by
    decide +kernel
  obtain ⟨t,returned,_⟩ := returnedList_parts seen
  refine ⟨t,returned,?_⟩
  refine ((spelling_commutes id ascii_lowers named (known _ _) (known _ _) (by decide +kernel) returned).mpr ?_).1
  intro pkg p dep _ got reported _
  rw [pair_deps got reported]
  decide +kernel

theorem spelled_twice :
    returnedList (installRecursive pairInstaller id 4 (heapOf ["A","b"]) ⟨0,2,2⟩) = some ["A","b","a"] ∧
    ["A","b"].map pairInstaller.normalizePkg = ["a","b"] ∧
    returnedList (installRecursive pairInstaller id 3 (heapOf ["a","b"]) ⟨0,2,2⟩) = some ["a","b"] ∧
    ["A","b","a"].map pairInstaller.normalizePkg ≠ ["a","b"] := by
  decide +kernel

end OpenLambda.Imports
