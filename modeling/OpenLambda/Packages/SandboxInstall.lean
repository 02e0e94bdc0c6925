import OpenLambda.Packages.InstallOnce
import OpenLambda.Packages.ScratchDirs

namespace OpenLambda.Packages
open Foundation.Runs Foundation.Paths Imports

-- Where sandboxInstall is. In `target` and `pip` the installer runs pip; in `reply`
-- it looks for dependencies; in `remove` the deferred function runs.
inductive Stage where
  | stat
  | mkdir
  | create (alreadyInstalled : Bool)
  | target
  | pip (written : Nat)
  | reply
  | remove
  | failed
  deriving DecidableEq, Repr

def Stage.removes : Stage → Bool
  | .create _ | .target | .pip _ | .reply => true
  | .stat | .mkdir | .remove | .failed => false

inductive PackageDir where
  | absent
  | made
  | files (names : List String)
  deriving DecidableEq, Repr

inductive InstallAct where
  | stat
  | statFails
  | mkdir
  | mkdirFails
  | create
  | makeTarget
  | writeFile
  | exit
  | fails
  | remove (file : String)
  | rmdir
  | giveUp
  deriving DecidableEq, Repr

-- pip writes the files of a package in their order. RemoveAll may give up at any
-- time, and its error is not looked at.
def installStep (files : List String) (stage : Stage) (dir : PackageDir) : InstallAct → Option (Stage × PackageDir)
  | .stat => if stage = .stat ∧ dir ≠ .absent then some (.create true,dir) else none
  | .statFails => if stage = .stat then some (.mkdir,dir) else none
  | .mkdir => if stage = .mkdir ∧ dir = .absent then some (.create false,.made) else none
  | .mkdirFails => if stage = .mkdir then some (.failed,dir) else none
  | .create => match stage with
      | .create alreadyInstalled => some (if alreadyInstalled then .reply else .target,dir)
      | _ => none
  | .makeTarget => if stage = .target ∧ dir = .made then some (.pip 0,.files []) else none
  | .writeFile => match stage,dir with
      | .pip written,.files names => files[written]?.map fun file => (.pip (written + 1),.files (names ++ [file]))
      | _,_ => none
  | .exit => if stage = .pip files.length then some (.reply,dir) else none
  | .fails => if stage.removes then some (.remove,dir) else none
  | .remove file => match stage,dir with
      | .remove,.files names => some (.remove,.files (names.erase file))
      | _,_ => none
  | .rmdir => match stage,dir with
      | .remove,.files [] => some (.remove,.made)
      | .remove,.made => some (.failed,.absent)
      | _,_ => none
  | .giveUp => if stage = .remove then some (.failed,dir) else none

structure Site where
  puller : Puller
  stages : Nat → Stage
  disk : String → PackageDir

inductive SiteAction where
  | pull (action : PullAction)
  | install (call : Nat) (act : InstallAct)
  | reply (call : Nat) (body : PackageMeta)
  | fail (call : Nat) (err : String) (left : PackageMeta)
  | crash
  deriving DecidableEq, Repr

def outside : PullAction → Bool
  | .installFails _ _ _ | .unmarshal _ _ => false
  | .getPkg _ _ | .loadOrStore _ | .fastPath _ | .lock _ | .check _ | .normalizeDep _ | .store _ | .unlock _ => true

def started (stages : Nat → Stage) : PullAction → Nat → Stage
  | .check call => Function.update stages call .stat
  | _ => stages

section Steps

variable (inst : Installer) (pkgsDir : String) (files : String → List String) (s : Site)

def Site.name (p : Nat) : String := (s.puller.objects p).name

def Site.dir (p : Nat) : PackageDir := s.disk (scratchDir pkgsDir (s.name p))

def pull (action : PullAction) : Option Site :=
  if outside action then
    (pullStep inst s.puller action).map fun puller => {s with puller := puller, stages := started s.stages action}
  else none

def Site.put (call p : Nat) (stage : Stage) (dir : PackageDir) : Site :=
  {s with
    stages := Function.update s.stages call stage
    disk := Function.update s.disk (scratchDir pkgsDir (s.name p)) dir}

def install (call : Nat) (act : InstallAct) : Option Site :=
  match s.puller.calls call with
  | some (.installing p) =>
      (installStep (files (s.name p)) (s.stages call) (s.dir pkgsDir p) act).map fun next =>
        s.put pkgsDir call p next.1 next.2
  | _ => none

def PackageDir.hasFiles : PackageDir → Bool
  | .files _ => true
  | .absent | .made => false

-- The installer lists /host/files, and fails if that is not there.
def reply (call : Nat) (body : PackageMeta) : Option Site :=
  match s.puller.calls call with
  | some (.installing p) =>
      if s.stages call = .reply ∧ (s.dir pkgsDir p).hasFiles then
        (unmarshal s.puller call body).map fun puller => {s with puller := puller}
      else none
  | _ => none

def fail (call : Nat) (err : String) (left : PackageMeta) : Option Site :=
  if s.stages call = .failed then (installFails s.puller call err left).map fun puller => {s with puller := puller}
  else none

-- A worker that dies takes its installers with it. The disk is all that is left.
def crash : Site := {s with puller := newPuller}

def siteStep : SiteAction → Option Site
  | .pull action => pull inst s action
  | .install call act => install pkgsDir files s call act
  | .reply call body => reply pkgsDir s call body
  | .fail call err left => fail s call err left
  | .crash => some (crash s)

end Steps

def fresh (disk : String → PackageDir) : Site := ⟨newPuller,fun _ => .stat,disk⟩

def Complete (files : List String) (dir : PackageDir) : Prop := ∃ names, dir = .files names ∧ ∀ file ∈ files, file ∈ names

def Whole (files : List String) : PackageDir → Prop
  | .absent | .made => True
  | .files names => ∀ file ∈ files, file ∈ names

instance (files : List String) : (dir : PackageDir) → Decidable (Whole files dir)
  | .absent | .made => isTrue trivial
  | .files _ => inferInstanceAs (Decidable (∀ _ ∈ _, _))

-- Packages are asked for by plain names, RemoveAll does not give up halfway, and a
-- worker dies only when none of its packages is there in part.
def undisturbed (inst : Installer) (pkgsDir : String) (files : String → List String) (s : Site) : SiteAction → Bool
  | .pull (.getPkg _ pkg) => Plain (inst.normalizePkg pkg).toList
  | .install call .giveUp =>
      ((s.puller.calls call).bind Phase.runs).all fun p => Whole (files (s.name p)) (s.dir pkgsDir p)
  | .crash => ∀ p, p < s.puller.next → Whole (files (s.name p)) (s.dir pkgsDir p)
  | _ => true

end OpenLambda.Packages
