import OpenLambda.Foundation.Runs
import OpenLambda.Zygote.PackageInstalls

namespace OpenLambda.Imports
open Foundation.Runs Foundation.Slices

inductive Reachable (inst : Installer) (packages : List String) : String → Prop where
  | listed : pkg ∈ packages → Reachable inst packages pkg
  | dep : Reachable inst packages pkg → inst.getPkg pkg = .ok p → dep ∈ p.deps → Reachable inst packages dep

def DepsNamed (inst : Installer) : Prop := ∀ pkg p, inst.getPkg pkg = .ok p → ∀ dep ∈ p.deps, nameOf dep = dep

-- The loop as a machine, for what holds between its rounds, also of those before an error.
def nextRound (inst : Installer) (grow : Nat → Nat) (vars : Nat × Installing) (_ : Unit) : Option (Nat × Installing) :=
  match vars.2.round inst grow vars.1 with
  | some (.ok next) => some (vars.1 + 1,next)
  | some (.error _) => none
  | none => none

theorem nextRound_parts (went : nextRound inst grow vars action = some after) :
    vars.2.round inst grow vars.1 = some (.ok after.2) := by
  unfold nextRound at went
  split at went
  · rename_i next round
    cases went
    exact round
  · cases went
  · cases went

theorem loop_rounds (returned : installLoop inst grow fuel i s = some (.ok t)) :
    ∃ rounds j, run (nextRound inst grow) (i,s) rounds = some (j,t) := by
  induction fuel generalizing i s with
  | zero => cases returned
  | succ fuel ih =>
      rw [installLoop] at returned
      split at returned
      · cases returned
        exact ⟨[],i,rfl⟩
      · cases returned
      · rename_i next went
        obtain ⟨rounds,j,ran⟩ := ih returned
        have first : nextRound inst grow (i,s) () = some (i + 1,next) := by simp only [nextRound,went]
        exact ⟨() :: rounds,j,by rw [run,first]; exact ran⟩

theorem rounds_preserve (invariant : Installing → Prop)
    (pushed : ∀ s pkg p dep, inst.getPkg pkg = .ok p → dep ∈ p.deps → invariant s → invariant (s.push grow dep))
    (start : invariant s) (ran : run (nextRound inst grow) (i,s) rounds = some (j,t)) : invariant t := by
  refine run_preserves (fun vars => invariant vars.2) ?_ start ran
  intro vars action after holds went
  obtain ⟨pkg,p,_,got,same⟩ := round_ok (nextRound_parts went)
  rw [same]
  exact List.foldlRecOn p.deps _ holds fun s holds dep member => pushed s pkg p dep got member holds

def CallerKept (base : Heap String) (s : Installing) : Prop :=
  Keeps base.next base s.heap ∧ Apart base.next s.installs

theorem push_kept (grow : Nat → Nat) (kept : CallerKept base s) (dep : String) : CallerKept base (s.push grow dep) := by
  unfold Installing.push
  split
  · exact kept
  · exact ⟨keeps_trans kept.1 (append_keeps grow kept.2 kept.1.grown _),
      append_apart grow kept.2 kept.1.grown (List.cons_ne_nil _ _)⟩

theorem rounds_kept {h : Heap String} (ran : run (nextRound inst grow) (0,.start h installs) rounds = some (i,s)) :
    Keeps h.next h s.heap :=
  (rounds_preserve (CallerKept h) (fun _ _ _ dep _ _ kept => push_kept grow kept dep) ⟨keeps_refl _ _,clip_apart _ _⟩ ran).1

structure NamesOnce (s : Installing) : Prop where
  known : Known s.heap s.installs
  inSet : ∀ name, name ∈ s.installSet ↔ name ∈ s.read.map nameOf
  distinct : (s.read.map nameOf).Nodup

theorem push_read {s : Installing} (grow : Nat → Nat) (known : Known s.heap s.installs) (new : dep ∉ s.installSet) :
    (s.push grow dep).read = s.read ++ [dep] ∧ (s.push grow dep).installSet = dep :: s.installSet ∧
      Known (s.push grow dep).heap (s.push grow dep).installs := by
  unfold Installing.push
  rw [if_neg new]
  exact ⟨append_read grow known [dep],rfl,append_known grow known [dep]⟩

theorem push_namesOnce (grow : Nat → Nat) (once : NamesOnce s) (named : nameOf dep = dep) : NamesOnce (s.push grow dep) := by
  by_cases present : dep ∈ s.installSet
  · rw [Installing.push,if_pos present]
    exact once
  · obtain ⟨read,set,known⟩ := push_read grow once.known present
    have names : (s.push grow dep).read.map nameOf = s.read.map nameOf ++ [dep] := by
      rw [read,List.map_append,List.map_singleton,named]
    refine ⟨known,?_,?_⟩
    · intro name
      rw [set,names,List.mem_cons,List.mem_append,List.mem_singleton,once.inSet]
      exact or_comm
    · rw [names,← List.concat_eq_append]
      exact once.distinct.concat (mt (once.inSet dep).mpr present)

theorem start_namesOnce {h : Heap String} (known : Known h installs) (distinct : ((h.read installs).map nameOf).Nodup) :
    NamesOnce (.start h installs) :=
  ⟨clip_known known,fun _ => Iff.rfl,distinct⟩

theorem returned_namesOnce {h : Heap String} (named : DepsNamed inst) (known : Known h installs)
    (distinct : ((h.read installs).map nameOf).Nodup) (returned : installRecursive inst grow fuel h installs = some (.ok t)) :
    NamesOnce t := by
  obtain ⟨rounds,i,ran⟩ := loop_rounds returned
  refine rounds_preserve NamesOnce ?_ (start_namesOnce known distinct) ran
  intro s pkg p dep got member once
  exact push_namesOnce grow once (named pkg p got dep member)

theorem pulled_reachable (pulled : Pulled inst packages pkg) : Reachable inst packages pkg := by
  induction pulled with
  | named member => exact .listed member
  | dep _ got member _ ih => exact .dep ih got member

def SomeFails (inst : Installer) (packages : List String) : Prop :=
  ∃ pkg err, Pulled inst packages pkg ∧ inst.getPkg pkg = .error err

theorem install_closure {h : Heap String} (grow : Nat → Nat) (known : Known h installs) (named : DepsNamed inst)
    (distinct : ((h.read installs).map nameOf).Nodup)
    (finite : ∃ all : List String, ∀ pkg, Reachable inst (h.read installs) pkg → pkg ∈ all) :
    (¬ SomeFails inst (h.read installs) →
      ∃ fuel t appended, installRecursive inst grow fuel h installs = some (.ok t) ∧
        t.read = h.read installs ++ appended ∧ (t.read.map nameOf).Nodup ∧
        (∀ pkg ∈ t.read, ∃ p, inst.getPkg pkg = .ok p ∧ ∀ dep ∈ p.deps, dep ∈ t.read.map nameOf) ∧
        ∀ pkg ∈ appended, Reachable inst (h.read installs) pkg) ∧
    (SomeFails inst (h.read installs) →
      (∃ fuel err, installRecursive inst grow fuel h installs = some (.error err)) ∧
        ∀ fuel t, installRecursive inst grow fuel h installs ≠ some (.ok t)) ∧
    (∀ fuel t, installRecursive inst grow fuel h installs = some (.ok t) → Keeps h.next h t.heap) ∧
    ∀ rounds i s, run (nextRound inst grow) (0,.start h installs) rounds = some (i,s) → Keeps h.next h s.heap := by
  obtain ⟨all,within⟩ := finite
  obtain ⟨result,ended⟩ := installRecursive_ends grow known fun pkg pulled => within pkg (pulled_reachable pulled)
  refine ⟨?_,?_,fun _ _ returned => (installRecursive_parts known returned).1,fun _ _ _ ran => rounds_kept ran⟩
  · intro fine
    cases result with
    | error err =>
        obtain ⟨pkg,pulled,failed⟩ := loop_failed grow (start_gathered inst known) ended
        exact absurd ⟨pkg,err,pulled,failed⟩ fine
    | ok t =>
        obtain ⟨appended,gathered⟩ := loop_gathered grow (start_gathered inst known) ended
        have once := returned_namesOnce named known distinct ended
        refine ⟨_,t,appended,ended,gathered.read,once.distinct,?_,?_⟩
        · intro pkg member
          obtain ⟨p,got,inside⟩ := gathered.seen pkg (by rwa [List.take_length])
          exact ⟨p,got,fun dep reported => (once.inSet dep).mp (inside dep reported)⟩
        · intro pkg member
          exact pulled_reachable (gathered.pulled pkg member)
  · rintro ⟨pkg,err,pulled,failed⟩
    have never : ∀ fuel t, installRecursive inst grow fuel h installs ≠ some (.ok t) := by
      intro fuel t returned
      obtain ⟨_,exact,fine⟩ := installRecursive_parts known returned
      obtain ⟨p,got⟩ := fine pkg ((exact pkg).mpr pulled)
      cases failed.symm.trans got
    refine ⟨?_,never⟩
    cases result with
    | ok t => exact absurd ended (never _ t)
    | error other => exact ⟨_,other,ended⟩

def cyclicInstaller : Installer where
  toLower := String.toLower
  pipInstall := fun pkg => .ok ⟨if pkg = "b" then ["A"] else ["B"],[]⟩

theorem cyclic_deps (got : cyclicInstaller.getPkg pkg = .ok p) (reported : dep ∈ p.deps) : dep = "a" ∨ dep = "b" := by
  unfold Installer.getPkg at got
  cases got
  have first : cyclicInstaller.normalizePkg "A" = "a" := by decide +kernel
  have second : cyclicInstaller.normalizePkg "B" = "b" := by decide +kernel
  change dep ∈ (if cyclicInstaller.normalizePkg pkg = "b" then ["A"] else ["B"]).map _ at reported
  split at reported
  · rw [List.map_singleton,first,List.mem_singleton] at reported
    exact .inl reported
  · rw [List.map_singleton,second,List.mem_singleton] at reported
    exact .inr reported

def pinnedHeap : Heap String := ⟨fun _ => ["a==1.0"],1⟩

theorem install_closure_cyclic :
    ∃ fuel t appended, installRecursive cyclicInstaller id fuel pinnedHeap ⟨0,1,1⟩ = some (.ok t) ∧
      t.read = ["a==1.0"] ++ appended ∧ (t.read.map nameOf).Nodup ∧ "b" ∈ t.read.map nameOf := by
  have named : DepsNamed cyclicInstaller := by
    intro pkg p got dep reported
    rcases cyclic_deps got reported with rfl | rfl
    · decide +kernel
    · decide +kernel
  have finite : ∀ pkg, Reachable cyclicInstaller ["a==1.0"] pkg → pkg ∈ ["a==1.0","a","b"] := by
    intro pkg reachable
    cases reachable with
    | listed member =>
        rw [List.mem_singleton.mp member]
        exact List.mem_cons_self
    | dep _ got reported =>
        rcases cyclic_deps got reported with rfl | rfl
        · decide
        · decide
  have known : Known pinnedHeap ⟨0,1,1⟩ := ⟨by decide,by decide,by decide⟩
  have fine : ¬ SomeFails cyclicInstaller ["a==1.0"] := by
    rintro ⟨pkg,err,_,failed⟩
    cases failed
  obtain ⟨fuel,t,appended,returned,read,distinct,deps,_⟩ :=
    (install_closure id known named (by decide +kernel) ⟨_,finite⟩).1 fine
  refine ⟨fuel,t,appended,returned,read,distinct,?_⟩
  obtain ⟨p,got,inside⟩ := deps "a==1.0" (by rw [read]; exact List.mem_append_left _ (by decide))
  have same : cyclicInstaller.getPkg "a==1.0" = .ok ⟨["b"],[]⟩ := by decide +kernel
  cases same.symm.trans got
  exact inside "b" (by decide)

end OpenLambda.Imports
