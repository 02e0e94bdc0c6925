import OpenLambda.Foundation.Runs
import OpenLambda.Zygote.PackageInstalls

namespace OpenLambda.Packages
open Foundation.Runs Imports

structure Package where
  name : String
  pkgMeta : PackageMeta
  installMutex : Option Nat
  installed : Bool
  deriving DecidableEq, Repr

-- Where a call of GetPkg is. A Package is known by its place in the heap.
inductive Phase where
  | entered (pkg : String)
  | loaded (p : Nat)
  | locking (p : Nat)
  | checking (p : Nat)
  | installing (p : Nat)
  | normalizing (p i : Nat) (reply : PackageMeta)
  | storing (p : Nat)
  | returning (p : Nat) (err : Option String)
  deriving DecidableEq, Repr

def Phase.target : Phase → Option Nat
  | .entered _ => none
  | .loaded p | .locking p | .checking p | .installing p | .normalizing p _ _ | .storing p | .returning p _ => some p

def Phase.locked : Phase → Option Nat
  | .entered _ | .loaded _ | .locking _ => none
  | .checking p | .installing p | .normalizing p _ _ | .storing p | .returning p _ => some p

def Phase.runs : Phase → Option Nat
  | .installing p | .normalizing p _ _ => some p
  | _ => none

inductive PullEvent where
  | started (name : String) (call : Nat)
  | failed (name : String) (call : Nat)
  | succeeded (name : String) (call : Nat) (reply : PackageMeta)
  | returned (name : String) (call p : Nat) (err : Option String)
  deriving DecidableEq, Repr

structure Puller where
  packages : String → Option Nat
  objects : Nat → Package
  next : Nat
  calls : Nat → Option Phase
  log : List PullEvent

def blank (name : String) : Package := ⟨name,⟨[],[]⟩,none,false⟩

def newPuller : Puller := ⟨fun _ => none,fun _ => blank "",0,fun _ => none,[]⟩

def Puller.move (s : Puller) (call p : Nat) (pkg : Package) (phase : Option Phase) (event : Option PullEvent) : Puller :=
  {s with
    objects := Function.update s.objects p pkg
    calls := Function.update s.calls call phase
    log := s.log ++ event.toList}

inductive PullAction where
  | getPkg (call : Nat) (pkg : String)
  | loadOrStore (call : Nat)
  | fastPath (call : Nat)
  | lock (call : Nat)
  | check (call : Nat)
  | installFails (call : Nat) (err : String) (left : PackageMeta)
  | unmarshal (call : Nat) (reply : PackageMeta)
  | normalizeDep (call : Nat)
  | store (call : Nat)
  | unlock (call : Nat)
  deriving DecidableEq, Repr

section Steps

variable (inst : Installer) (s : Puller) (call : Nat)

def getPkg (pkg : String) : Option Puller :=
  if s.calls call = none then some {s with calls := Function.update s.calls call (some (.entered (inst.normalizePkg pkg)))}
  else none

def loadOrStore : Option Puller :=
  match s.calls call with
  | some (.entered name) => match s.packages name with
      | some p => some {s with calls := Function.update s.calls call (some (.loaded p))}
      | none => some {s with
          packages := Function.update s.packages name (some s.next)
          objects := Function.update s.objects s.next (blank name)
          next := s.next + 1
          calls := Function.update s.calls call (some (.loaded s.next))}
  | _ => none

def fastPath : Option Puller :=
  match s.calls call with
  | some (.loaded p) =>
      if (s.objects p).installed then
        some (s.move call p (s.objects p) none (some (.returned (s.objects p).name call p none)))
      else some (s.move call p (s.objects p) (some (.locking p)) none)
  | _ => none

def lock : Option Puller :=
  match s.calls call with
  | some (.locking p) =>
      if (s.objects p).installMutex = none then
        some (s.move call p {s.objects p with installMutex := some call} (some (.checking p)) none)
      else none
  | _ => none

def check : Option Puller :=
  match s.calls call with
  | some (.checking p) =>
      if (s.objects p).installed then some (s.move call p (s.objects p) (some (.returning p none)) none)
      else some (s.move call p (s.objects p) (some (.installing p)) (some (.started (s.objects p).name call)))
  | _ => none

-- sandboxInstall may fail at any time before the reply is decoded, and whatever
-- the decoder has then left in Meta stays there.
def installFails (err : String) (left : PackageMeta) : Option Puller :=
  match s.calls call with
  | some (.installing p) =>
      some (s.move call p {s.objects p with pkgMeta := left} (some (.returning p (some err)))
        (some (.failed (s.objects p).name call)))
  | _ => none

-- The installer replies with both fields, so that its reply replaces all of Meta.
def unmarshal (reply : PackageMeta) : Option Puller :=
  match s.calls call with
  | some (.installing p) => some (s.move call p {s.objects p with pkgMeta := reply} (some (.normalizing p 0 reply)) none)
  | _ => none

def Package.normalizeDep (pkg : Package) (i : Nat) (dep : String) : Package :=
  {pkg with pkgMeta := {pkg.pkgMeta with deps := pkg.pkgMeta.deps.set i (inst.normalizePkg dep)}}

def normalizeDep : Option Puller :=
  match s.calls call with
  | some (.normalizing p i reply) => match (s.objects p).pkgMeta.deps[i]? with
      | some dep => some (s.move call p ((s.objects p).normalizeDep inst i dep) (some (.normalizing p (i + 1) reply)) none)
      | none => some (s.move call p (s.objects p) (some (.storing p)) (some (.succeeded (s.objects p).name call reply)))
  | _ => none

def store : Option Puller :=
  match s.calls call with
  | some (.storing p) => some (s.move call p {s.objects p with installed := true} (some (.returning p none)) none)
  | _ => none

def unlock : Option Puller :=
  match s.calls call with
  | some (.returning p err) =>
      some (s.move call p {s.objects p with installMutex := none} none (some (.returned (s.objects p).name call p err)))
  | _ => none

end Steps

def pullStep (inst : Installer) (s : Puller) : PullAction → Option Puller
  | .getPkg call pkg => getPkg inst s call pkg
  | .loadOrStore call => loadOrStore s call
  | .fastPath call => fastPath s call
  | .lock call => lock s call
  | .check call => check s call
  | .installFails call err left => installFails s call err left
  | .unmarshal call reply => unmarshal s call reply
  | .normalizeDep call => normalizeDep inst s call
  | .store call => store s call
  | .unlock call => unlock s call

section Parts

variable {inst : Installer} {s t : Puller}

theorem getPkg_parts (moved : getPkg inst s call pkg = some t) :
    s.calls call = none ∧
    t = {s with calls := Function.update s.calls call (some (.entered (inst.normalizePkg pkg)))} := by
  unfold getPkg at moved
  split at moved
  · rename_i free
    exact ⟨free,(Option.some.inj moved).symm⟩
  · cases moved

theorem loadOrStore_parts (moved : loadOrStore s call = some t) :
    ∃ name, s.calls call = some (.entered name) ∧
      ((∃ p, s.packages name = some p ∧ t = {s with calls := Function.update s.calls call (some (.loaded p))}) ∨
        s.packages name = none ∧ t = {s with
          packages := Function.update s.packages name (some s.next)
          objects := Function.update s.objects s.next (blank name)
          next := s.next + 1
          calls := Function.update s.calls call (some (.loaded s.next))}) := by
  unfold loadOrStore at moved
  split at moved
  · rename_i name here
    refine ⟨name,here,?_⟩
    split at moved
    · rename_i p known
      exact .inl ⟨p,known,(Option.some.inj moved).symm⟩
    · rename_i unknown
      exact .inr ⟨unknown,(Option.some.inj moved).symm⟩
  · cases moved

theorem fastPath_parts (moved : fastPath s call = some t) :
    ∃ p, s.calls call = some (.loaded p) ∧
      (((s.objects p).installed = true ∧
          t = s.move call p (s.objects p) none (some (.returned (s.objects p).name call p none))) ∨
        t = s.move call p (s.objects p) (some (.locking p)) none) := by
  unfold fastPath at moved
  split at moved
  · rename_i p here
    refine ⟨p,here,?_⟩
    split at moved
    · rename_i ready
      exact .inl ⟨ready,(Option.some.inj moved).symm⟩
    · exact .inr (Option.some.inj moved).symm
  · cases moved

theorem lock_parts (moved : lock s call = some t) :
    ∃ p, s.calls call = some (.locking p) ∧ (s.objects p).installMutex = none ∧
      t = s.move call p {s.objects p with installMutex := some call} (some (.checking p)) none := by
  unfold lock at moved
  split at moved
  · rename_i p here
    split at moved
    · rename_i free
      exact ⟨p,here,free,(Option.some.inj moved).symm⟩
    · cases moved
  · cases moved

theorem check_parts (moved : check s call = some t) :
    ∃ p, s.calls call = some (.checking p) ∧
      (((s.objects p).installed = true ∧ t = s.move call p (s.objects p) (some (.returning p none)) none) ∨
        (s.objects p).installed = false ∧
          t = s.move call p (s.objects p) (some (.installing p)) (some (.started (s.objects p).name call))) := by
  unfold check at moved
  split at moved
  · rename_i p here
    refine ⟨p,here,?_⟩
    split at moved
    · rename_i ready
      exact .inl ⟨ready,(Option.some.inj moved).symm⟩
    · rename_i pending
      exact .inr ⟨Bool.eq_false_iff.mpr pending,(Option.some.inj moved).symm⟩
  · cases moved

theorem installFails_parts (moved : installFails s call err left = some t) :
    ∃ p, s.calls call = some (.installing p) ∧
      t = s.move call p {s.objects p with pkgMeta := left} (some (.returning p (some err)))
        (some (.failed (s.objects p).name call)) := by
  unfold installFails at moved
  split at moved
  · rename_i p here
    exact ⟨p,here,(Option.some.inj moved).symm⟩
  · cases moved

theorem unmarshal_parts (moved : unmarshal s call reply = some t) :
    ∃ p, s.calls call = some (.installing p) ∧
      t = s.move call p {s.objects p with pkgMeta := reply} (some (.normalizing p 0 reply)) none := by
  unfold unmarshal at moved
  split at moved
  · rename_i p here
    exact ⟨p,here,(Option.some.inj moved).symm⟩
  · cases moved

theorem normalizeDep_parts (moved : normalizeDep inst s call = some t) :
    ∃ p i reply, s.calls call = some (.normalizing p i reply) ∧
      ((∃ dep, (s.objects p).pkgMeta.deps[i]? = some dep ∧
          t = s.move call p ((s.objects p).normalizeDep inst i dep) (some (.normalizing p (i + 1) reply)) none) ∨
        (s.objects p).pkgMeta.deps[i]? = none ∧
          t = s.move call p (s.objects p) (some (.storing p)) (some (.succeeded (s.objects p).name call reply))) := by
  unfold normalizeDep at moved
  split at moved
  · rename_i p i reply here
    refine ⟨p,i,reply,here,?_⟩
    split at moved
    · rename_i dep found
      exact .inl ⟨dep,found,(Option.some.inj moved).symm⟩
    · rename_i ended
      exact .inr ⟨ended,(Option.some.inj moved).symm⟩
  · cases moved

theorem store_parts (moved : store s call = some t) :
    ∃ p, s.calls call = some (.storing p) ∧
      t = s.move call p {s.objects p with installed := true} (some (.returning p none)) none := by
  unfold store at moved
  split at moved
  · rename_i p here
    exact ⟨p,here,(Option.some.inj moved).symm⟩
  · cases moved

theorem unlock_parts (moved : unlock s call = some t) :
    ∃ p err, s.calls call = some (.returning p err) ∧
      t = s.move call p {s.objects p with installMutex := none} none
        (some (.returned (s.objects p).name call p err)) := by
  unfold unlock at moved
  split at moved
  · rename_i p err here
    exact ⟨p,err,here,(Option.some.inj moved).symm⟩
  · cases moved

end Parts

end OpenLambda.Packages
