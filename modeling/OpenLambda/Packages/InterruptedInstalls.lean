import OpenLambda.Packages.SandboxInstall

namespace OpenLambda.Packages
open Foundation.Runs Foundation.Paths Imports

theorem whole_complete (whole : Whole files dir) (listed : dir.hasFiles = true) : Complete files dir := by
  cases dir with
  | absent | made => cases listed
  | files names => exact ⟨names,rfl,whole⟩

def Fitting (files : List String) (dir : PackageDir) : Stage → Prop
  | .stat | .mkdir | .create true | .reply | .failed => Whole files dir
  | .create false | .target => dir = .made
  | .pip written => dir = .files (files.take written)
  | .remove => True

theorem installStep_fitting (fitting : Fitting files dir stage) (kept : act = .giveUp → Whole files dir)
    (moved : installStep files stage dir act = some (next,after)) : Fitting files after next := by
  cases act with
  | stat =>
      simp only [installStep,Option.ite_none_right_eq_some] at moved
      obtain ⟨⟨rfl,_⟩,same⟩ := moved
      cases same
      exact fitting
  | statFails | mkdirFails =>
      simp only [installStep,Option.ite_none_right_eq_some] at moved
      obtain ⟨rfl,same⟩ := moved
      cases same
      exact fitting
  | mkdir =>
      simp only [installStep,Option.ite_none_right_eq_some] at moved
      cases moved.2
      rfl
  | create =>
      cases stage with
      | create alreadyInstalled =>
          cases moved
          cases alreadyInstalled with
          | true | false => exact fitting
      | stat | mkdir | target | pip _ | reply | remove | failed => cases moved
  | makeTarget =>
      simp only [installStep,Option.ite_none_right_eq_some] at moved
      cases moved.2
      rfl
  | writeFile =>
      cases stage with
      | pip written =>
          cases fitting
          obtain ⟨file,found,same⟩ := Option.map_eq_some_iff.mp moved
          cases same
          obtain ⟨less,rfl⟩ := List.getElem?_eq_some_iff.mp found
          exact congrArg PackageDir.files (List.take_succ_eq_append_getElem less).symm
      | stat | mkdir | create _ | target | reply | remove | failed => cases moved
  | exit =>
      simp only [installStep,Option.ite_none_right_eq_some] at moved
      obtain ⟨rfl,same⟩ := moved
      cases same
      cases fitting
      change ∀ file ∈ files, file ∈ files.take files.length
      rw [List.take_length]
      exact fun _ member => member
  | fails =>
      simp only [installStep,Option.ite_none_right_eq_some] at moved
      cases moved.2
      trivial
  | remove file =>
      simp only [installStep] at moved
      split at moved
      · cases moved
        trivial
      · cases moved
  | rmdir =>
      simp only [installStep] at moved
      split at moved
      · cases moved
        trivial
      · cases moved
        trivial
      · cases moved
  | giveUp =>
      simp only [installStep,Option.ite_none_right_eq_some] at moved
      cases moved.2
      exact kept rfl

-- sandboxInstall has succeeded, but installed is not set yet.
def Phase.finishing : Phase → Option Nat
  | .normalizing p _ _ | .storing p => some p
  | _ => none

structure Kept (inst : Installer) (pkgsDir : String) (files : String → List String) (s : Site) : Prop where
  sound : Sound inst s.puller
  entered : ∀ call name, s.puller.calls call = some (.entered name) → Plain name.toList
  plain : ∀ p, p < s.puller.next → Plain (s.name p).toList
  staged : ∀ call p, s.puller.calls call = some (.installing p) →
    Fitting (files (s.name p)) (s.dir pkgsDir p) (s.stages call)
  whole : ∀ name, Plain name.toList → (∀ call p, s.puller.calls call = some (.installing p) → s.name p ≠ name) →
    Whole (files name) (s.disk (scratchDir pkgsDir name))
  finishing : ∀ call p, (s.puller.calls call).bind Phase.finishing = some p → Complete (files (s.name p)) (s.dir pkgsDir p)
  installed : ∀ p, p < s.puller.next → (s.puller.objects p).installed = true →
    Complete (files (s.name p)) (s.dir pkgsDir p)

section Kept

variable {inst : Installer} {pkgsDir : String} {files : String → List String} {s t : Site}

theorem restart_kept (inst : Installer) (stages : Nat → Stage)
    (whole : ∀ name, Plain name.toList → Whole (files name) (disk (scratchDir pkgsDir name))) :
    Kept inst pkgsDir files ⟨newPuller,stages,disk⟩ := by
  refine ⟨newPuller_sound inst,?_,?_,?_,fun name plain _ => whole name plain,?_,?_⟩
  · intro call name known
    cases known
  · intro p below
    cases below
  · intro call p known
    cases known
  · intro call p known
    cases known
  · intro p below
    cases below

structure Advances (s : Site) (pkgsDir : String) (files : String → List String) (call p : Nat) (pkg : Package)
    (phase : Option Phase) (stage : Stage) : Prop where
  below : p < s.puller.next
  name : pkg.name = s.name p
  left : ∀ q, s.puller.calls call = some (.installing q) → q = p ∧ Whole (files (s.name p)) (s.dir pkgsDir p)
  entered : ∀ name, phase ≠ some (.entered name)
  inside : ∀ q, phase = some (.installing q) → q = p ∧ Fitting (files (s.name p)) (s.dir pkgsDir p) stage
  finishing : ∀ q, phase.bind Phase.finishing = some q → q = p ∧ Complete (files (s.name p)) (s.dir pkgsDir p)
  installed : pkg.installed = true → Complete (files (s.name p)) (s.dir pkgsDir p)

theorem move_kept (kept : Kept inst pkgsDir files s) (sound : Sound inst (s.puller.move call p pkg phase event))
    (advances : Advances s pkgsDir files call p pkg phase stage) :
    Kept inst pkgsDir files {s with
      puller := s.puller.move call p pkg phase event
      stages := Function.update s.stages call stage} := by
  have names : ∀ q, (Function.update s.puller.objects p pkg q).name = s.name q := by
    intro q
    by_cases same : q = p
    · rw [same,Function.update_self,advances.name]
    · rw [Function.update_of_ne same]
      rfl
  refine ⟨sound,?_,?_,?_,?_,?_,?_⟩
  · intro other name here
    change Function.update s.puller.calls call phase other = some (.entered name) at here
    by_cases same : other = call
    · rw [same,Function.update_self] at here
      exact absurd here (advances.entered name)
    · rw [Function.update_of_ne same] at here
      exact kept.entered other name here
  · intro q below
    change Plain (Function.update s.puller.objects p pkg q).name.toList
    rw [names]
    exact kept.plain q below
  · intro other q here
    change Function.update s.puller.calls call phase other = some (.installing q) at here
    change Fitting (files (Function.update s.puller.objects p pkg q).name)
      (s.disk (scratchDir pkgsDir (Function.update s.puller.objects p pkg q).name)) (Function.update s.stages call stage other)
    rw [names]
    by_cases same : other = call
    · rw [same,Function.update_self] at here
      obtain ⟨rfl,fitting⟩ := advances.inside q here
      rw [same,Function.update_self]
      exact fitting
    · rw [Function.update_of_ne same] at here ⊢
      exact kept.staged other q here
  · intro name plain idle
    by_cases mine : ∃ q, s.puller.calls call = some (.installing q) ∧ s.name q = name
    · obtain ⟨q,here,rfl⟩ := mine
      obtain ⟨rfl,whole⟩ := advances.left q here
      exact whole
    · refine kept.whole name plain ?_
      intro other q here same
      by_cases own : other = call
      · exact mine ⟨q,own ▸ here,same⟩
      · refine idle other q ?_ ((names q).trans same)
        change Function.update s.puller.calls call phase other = some (.installing q)
        rwa [Function.update_of_ne own]
  · intro other q here
    change (Function.update s.puller.calls call phase other).bind Phase.finishing = some q at here
    change Complete (files (Function.update s.puller.objects p pkg q).name)
      (s.disk (scratchDir pkgsDir (Function.update s.puller.objects p pkg q).name))
    rw [names]
    by_cases same : other = call
    · rw [same,Function.update_self] at here
      obtain ⟨rfl,complete⟩ := advances.finishing q here
      exact complete
    · rw [Function.update_of_ne same] at here
      exact kept.finishing other q here
  · intro q below ready
    change (Function.update s.puller.objects p pkg q).installed = true at ready
    change Complete (files (Function.update s.puller.objects p pkg q).name)
      (s.disk (scratchDir pkgsDir (Function.update s.puller.objects p pkg q).name))
    rw [names]
    by_cases same : q = p
    · rw [same,Function.update_self] at ready
      rw [same]
      exact advances.installed ready
    · rw [Function.update_of_ne same] at ready
      exact kept.installed q below ready

theorem move_stays (kept : Kept inst pkgsDir files s) (sound : Sound inst (s.puller.move call p pkg phase event))
    (advances : Advances s pkgsDir files call p pkg phase (s.stages call)) :
    Kept inst pkgsDir files {s with puller := s.puller.move call p pkg phase event} := by
  have moved := move_kept kept sound advances
  rwa [Function.update_eq_self] at moved

def Phase.idle : Phase → Bool
  | .loaded _ | .locking _ | .checking _ | .returning _ _ => true
  | .entered _ | .installing _ | .normalizing _ _ _ | .storing _ => false

theorem idle_finishing {phase : Phase} (idle : phase.idle = true) : phase.finishing = none := by
  cases phase with
  | loaded _ | locking _ | checking _ | returning _ _ => rfl
  | entered _ | installing _ | normalizing _ _ _ | storing _ => cases idle

theorem advances_idle (kept : Kept inst pkgsDir files s) (here : s.puller.calls call = some before)
    (aim : before.target = some p) (left : before.runs = none ∨ Whole (files (s.name p)) (s.dir pkgsDir p))
    (idle : phase.all Phase.idle = true) (name : pkg.name = s.name p)
    (installed : pkg.installed = true → Complete (files (s.name p)) (s.dir pkgsDir p)) :
    Advances s pkgsDir files call p pkg phase stage := by
  have not : ∀ after, after.idle = false → phase ≠ some after := by
    rintro after busy rfl
    cases idle.symm.trans busy
  refine ⟨kept.sound.target call p (by rw [here]; exact aim),name,?_,fun name => not _ rfl,
    fun q same => absurd same (not _ rfl),?_,installed⟩
  · intro q installing
    cases here.symm.trans installing
    cases aim
    exact ⟨rfl,left.resolve_left (fun none => by cases none)⟩
  · intro q done
    obtain ⟨after,rfl,finishing⟩ := Option.bind_eq_some_iff.mp done
    cases finishing.symm.trans (idle_finishing idle)

theorem recall_kept (kept : Kept inst pkgsDir files s)
    (sound : Sound inst {s.puller with calls := Function.update s.puller.calls call (some phase)})
    (before : (s.puller.calls call).bind Phase.locked = none) (after : phase.locked = none)
    (entered : ∀ name, phase = .entered name → Plain name.toList) :
    Kept inst pkgsDir files {s with puller := {s.puller with calls := Function.update s.puller.calls call (some phase)}} := by
  have same : ∀ other q, Function.update s.puller.calls call (some phase) other = some (.installing q) ↔
      s.puller.calls other = some (.installing q) := by
    intro other q
    by_cases own : other = call
    · rw [own,Function.update_self]
      constructor
      · intro here
        cases here
        cases after
      · intro here
        rw [here] at before
        cases before
    · rw [Function.update_of_ne own]
  refine ⟨sound,?_,kept.plain,?_,?_,?_,kept.installed⟩
  · intro other name here
    change Function.update s.puller.calls call (some phase) other = some (.entered name) at here
    by_cases own : other = call
    · rw [own,Function.update_self] at here
      exact entered name (Option.some.inj here)
    · rw [Function.update_of_ne own] at here
      exact kept.entered other name here
  · intro other q here
    exact kept.staged other q ((same other q).mp here)
  · intro name plain idle
    exact kept.whole name plain fun other q here => idle other q ((same other q).mpr here)
  · intro other q here
    change (Function.update s.puller.calls call (some phase) other).bind Phase.finishing = some q at here
    by_cases own : other = call
    · rw [own,Function.update_self] at here
      cases phase with
      | entered _ | loaded _ | locking _ => cases here
      | checking _ | installing _ | normalizing _ _ _ | storing _ | returning _ _ => cases after
    · rw [Function.update_of_ne own] at here
      exact kept.finishing other q here

theorem finishing_locked {phase : Phase} (finishing : phase.finishing = some p) : phase.locked = some p := by
  cases phase with
  | normalizing _ _ _ | storing _ => exact finishing
  | entered _ | loaded _ | locking _ | checking _ | installing _ | returning _ _ => cases finishing

theorem create_kept (kept : Kept inst pkgsDir files s) (unknown : s.puller.packages name = none) (plain : Plain name.toList) :
    Kept inst pkgsDir files {s with puller := {s.puller with
      packages := Function.update s.puller.packages name (some s.puller.next)
      objects := Function.update s.puller.objects s.puller.next (blank name)
      next := s.puller.next + 1}} := by
  have old : ∀ q, q < s.puller.next → Function.update s.puller.objects s.puller.next (blank name) q = s.puller.objects q :=
    fun q below => Function.update_of_ne (Nat.ne_of_lt below) ..
  have working : ∀ {call q}, s.puller.calls call = some (.installing q) → q < s.puller.next := by
    intro call q here
    exact kept.sound.target call q (by rw [here]; rfl)
  refine ⟨create_sound kept.sound unknown,kept.entered,?_,?_,?_,?_,?_⟩
  · intro q below
    change Plain (Function.update s.puller.objects s.puller.next (blank name) q).name.toList
    rcases Nat.lt_succ_iff_lt_or_eq.mp below with before | rfl
    · rw [old q before]
      exact kept.plain q before
    · rw [Function.update_self]
      exact plain
  · intro call q here
    have same := old q (working here)
    unfold Site.dir Site.name
    dsimp only
    rw [same]
    exact kept.staged call q here
  · intro other plain idle
    refine kept.whole other plain fun call q here => ?_
    have away := idle call q here
    unfold Site.name at away
    dsimp only at away
    rwa [old q (working here)] at away
  · intro call q here
    obtain ⟨phase,now,finishing⟩ := Option.bind_eq_some_iff.mp here
    have mine : (s.puller.calls call).bind Phase.locked = some q := by
      rw [show s.puller.calls call = some phase from now]
      exact finishing_locked finishing
    have same := old q (locked_below kept.sound mine)
    unfold Site.dir Site.name
    dsimp only
    rw [same]
    exact kept.finishing call q here
  · intro q below ready
    unfold Site.dir Site.name
    dsimp only at below ready ⊢
    rcases Nat.lt_succ_iff_lt_or_eq.mp below with before | rfl
    · rw [old q before] at ready ⊢
      exact kept.installed q before ready
    · rw [Function.update_self] at ready
      cases ready

theorem getPkg_kept (kept : Kept inst pkgsDir files s) (plain : Plain (inst.normalizePkg pkg).toList)
    (moved : getPkg inst s.puller call pkg = some puller) : Kept inst pkgsDir files {s with puller := puller} := by
  have sound := getPkg_sound kept.sound moved
  obtain ⟨free,rfl⟩ := getPkg_parts moved
  refine recall_kept kept sound (by rw [free]; rfl) rfl ?_
  intro name same
  cases same
  exact plain

theorem loadOrStore_kept (kept : Kept inst pkgsDir files s) (moved : loadOrStore s.puller call = some puller) :
    Kept inst pkgsDir files {s with puller := puller} := by
  have sound := loadOrStore_sound kept.sound moved
  obtain ⟨name,here,⟨p,known,rfl⟩ | ⟨unknown,rfl⟩⟩ := loadOrStore_parts moved
  · exact recall_kept kept sound (by rw [here]; rfl) rfl (fun _ same => by cases same)
  · have created := create_kept kept unknown (kept.entered call name here)
    exact recall_kept created sound (by rw [here]; rfl) rfl (fun _ same => by cases same)

theorem fastPath_kept (kept : Kept inst pkgsDir files s) (moved : fastPath s.puller call = some puller) :
    Kept inst pkgsDir files {s with puller := puller} := by
  have sound := fastPath_sound kept.sound moved
  obtain ⟨p,here,moves⟩ := fastPath_parts moved
  have installed := kept.installed p (kept.sound.target call p (by rw [here]; rfl))
  rcases moves with ⟨_,rfl⟩ | rfl
  · exact move_stays kept sound (advances_idle kept here rfl (.inl rfl) rfl rfl installed)
  · exact move_stays kept sound (advances_idle kept here rfl (.inl rfl) rfl rfl installed)

theorem lock_kept (kept : Kept inst pkgsDir files s) (moved : lock s.puller call = some puller) :
    Kept inst pkgsDir files {s with puller := puller} := by
  have sound := lock_sound kept.sound moved
  obtain ⟨p,here,_,rfl⟩ := lock_parts moved
  have installed := kept.installed p (kept.sound.target call p (by rw [here]; rfl))
  exact move_stays kept sound (advances_idle kept here rfl (.inl rfl) rfl rfl installed)

theorem checking_whole (kept : Kept inst pkgsDir files s) (here : s.puller.calls call = some (.checking p)) :
    Whole (files (s.name p)) (s.dir pkgsDir p) := by
  have mine : (s.puller.calls call).bind Phase.locked = some p := by rw [here]; rfl
  have below := locked_below kept.sound mine
  apply kept.whole (s.name p) (kept.plain p below)
  intro other q installing same
  have theirs : (s.puller.calls other).bind Phase.locked = some q := by rw [installing]; rfl
  cases same_package kept.sound below (locked_below kept.sound theirs) same
  cases locked_alone kept.sound mine theirs
  cases here.symm.trans installing

theorem check_kept (kept : Kept inst pkgsDir files s) (moved : check s.puller call = some puller) :
    Kept inst pkgsDir files {s with puller := puller, stages := Function.update s.stages call .stat} := by
  have sound := check_sound kept.sound moved
  obtain ⟨p,here,moves⟩ := check_parts moved
  have below : p < s.puller.next := kept.sound.target call p (by rw [here]; rfl)
  have installed := kept.installed p below
  rcases moves with ⟨_,rfl⟩ | ⟨_,rfl⟩
  · exact move_kept kept sound (advances_idle kept here rfl (.inl rfl) rfl rfl installed)
  · refine move_kept kept sound ⟨below,rfl,?_,?_,?_,?_,installed⟩
    · intro q installing
      cases here.symm.trans installing
    · intro name same
      cases same
    · intro q same
      cases same
      exact ⟨rfl,checking_whole kept here⟩
    · intro q same
      cases same

theorem advances_finishing (kept : Kept inst pkgsDir files s) (here : s.puller.calls call = some before)
    (finishing : before.finishing = some p) (after : next.finishing = some p) (name : pkg.name = s.name p) :
    Advances s pkgsDir files call p pkg (some next) stage := by
  have complete := kept.finishing call p (by rw [here]; exact finishing)
  have mine : (s.puller.calls call).bind Phase.locked = some p := by rw [here]; exact finishing_locked finishing
  refine ⟨locked_below kept.sound mine,name,?_,?_,?_,?_,fun _ => complete⟩
  · intro q installing
    cases here.symm.trans installing
    cases finishing
  · rintro name same
    cases same
    cases after
  · rintro q same
    cases same
    cases after
  · intro q same
    exact ⟨Option.some.inj (same.symm.trans after),complete⟩

theorem normalizeDep_kept (kept : Kept inst pkgsDir files s) (moved : normalizeDep inst s.puller call = some puller) :
    Kept inst pkgsDir files {s with puller := puller} := by
  have sound := normalizeDep_sound kept.sound moved
  obtain ⟨p,i,reply,here,⟨dep,_,rfl⟩ | ⟨_,rfl⟩⟩ := normalizeDep_parts moved
  · exact move_stays kept sound (advances_finishing kept here rfl rfl rfl)
  · exact move_stays kept sound (advances_finishing kept here rfl rfl rfl)

theorem store_kept (kept : Kept inst pkgsDir files s) (moved : store s.puller call = some puller) :
    Kept inst pkgsDir files {s with puller := puller} := by
  have sound := store_sound kept.sound moved
  obtain ⟨p,here,rfl⟩ := store_parts moved
  have complete := kept.finishing call p (by rw [here]; rfl)
  exact move_stays kept sound (advances_idle kept here rfl (.inl rfl) rfl rfl (fun _ => complete))

theorem unlock_kept (kept : Kept inst pkgsDir files s) (moved : unlock s.puller call = some puller) :
    Kept inst pkgsDir files {s with puller := puller} := by
  have sound := unlock_sound kept.sound moved
  obtain ⟨p,err,here,rfl⟩ := unlock_parts moved
  have installed := kept.installed p (kept.sound.target call p (by rw [here]; rfl))
  exact move_stays kept sound (advances_idle kept here rfl (.inl rfl) rfl rfl installed)

theorem pull_kept (kept : Kept inst pkgsDir files s) (guarded : undisturbed inst pkgsDir files s (.pull action) = true)
    (moved : pull inst s action = some t) : Kept inst pkgsDir files t := by
  unfold pull at moved
  split at moved
  · rename_i inside
    obtain ⟨puller,stepped,rfl⟩ := Option.map_eq_some_iff.mp moved
    cases action with
    | getPkg call pkg => exact getPkg_kept kept (of_decide_eq_true guarded) stepped
    | loadOrStore call => exact loadOrStore_kept kept stepped
    | fastPath call => exact fastPath_kept kept stepped
    | lock call => exact lock_kept kept stepped
    | check call => exact check_kept kept stepped
    | installFails call err left => cases inside
    | unmarshal call reply => cases inside
    | normalizeDep call => exact normalizeDep_kept kept stepped
    | store call => exact store_kept kept stepped
    | unlock call => exact unlock_kept kept stepped
  · cases moved

theorem reply_kept (kept : Kept inst pkgsDir files s) (moved : reply pkgsDir s call body = some t) :
    Kept inst pkgsDir files t := by
  unfold reply at moved
  split at moved
  · rename_i p here
    split at moved
    · rename_i ready
      obtain ⟨puller,stepped,rfl⟩ := Option.map_eq_some_iff.mp moved
      have sound := unmarshal_sound kept.sound stepped
      have below : p < s.puller.next := kept.sound.target call p (by rw [here]; rfl)
      have fitting := kept.staged call p here
      rw [ready.1] at fitting
      obtain ⟨q,same,rfl⟩ := unmarshal_parts stepped
      cases here.symm.trans same
      refine move_stays kept sound ⟨below,rfl,?_,?_,?_,?_,kept.installed p below⟩
      · intro q installing
        cases here.symm.trans installing
        exact ⟨rfl,fitting⟩
      · intro name same
        cases same
      · intro q same
        cases same
      · intro q same
        cases same
        exact ⟨rfl,whole_complete fitting ready.2⟩
    · cases moved
  · cases moved

theorem fail_kept (kept : Kept inst pkgsDir files s) (moved : fail s call err left = some t) : Kept inst pkgsDir files t := by
  unfold fail at moved
  split at moved
  · rename_i failed
    obtain ⟨puller,stepped,rfl⟩ := Option.map_eq_some_iff.mp moved
    have sound := installFails_sound kept.sound stepped
    obtain ⟨p,here,rfl⟩ := installFails_parts stepped
    have installed := kept.installed p (kept.sound.target call p (by rw [here]; rfl))
    have fitting := kept.staged call p here
    rw [failed] at fitting
    exact move_stays kept sound (advances_idle kept here rfl (.inr fitting) rfl rfl installed)
  · cases moved

theorem put_same (s : Site) : (s.put pkgsDir call p stage dir).dir pkgsDir p = dir := by
  simp only [Site.put,Site.dir,Site.name,Function.update_self]

theorem put_apart (kept : Kept inst pkgsDir files s) (below : p < s.puller.next) (plain : Plain name.toList)
    (different : name ≠ s.name p) :
    (s.put pkgsDir call p stage dir).disk (scratchDir pkgsDir name) = s.disk (scratchDir pkgsDir name) := by
  have apart := plain_distinct pkgsDir plain (kept.plain p below) different
  simp only [Site.put,Function.update_of_ne apart]

theorem put_other (kept : Kept inst pkgsDir files s) (below : p < s.puller.next) (under : q < s.puller.next)
    (different : q ≠ p) : (s.put pkgsDir call p stage dir).dir pkgsDir q = s.dir pkgsDir q :=
  put_apart kept below (kept.plain q under) (mt (same_package kept.sound below under) different)

theorem put_kept (kept : Kept inst pkgsDir files s) (here : s.puller.calls call = some (.installing p))
    (fitting : Fitting (files (s.name p)) dir stage) : Kept inst pkgsDir files (s.put pkgsDir call p stage dir) := by
  have mine : (s.puller.calls call).bind Phase.locked = some p := by rw [here]; rfl
  have below := locked_below kept.sound mine
  refine ⟨kept.sound,kept.entered,kept.plain,?_,?_,?_,?_⟩
  · intro other q installing
    have theirs : (s.puller.calls other).bind Phase.locked = some q := by
      rw [show s.puller.calls other = some (.installing q) from installing]
      rfl
    by_cases own : q = p
    · subst own
      cases locked_alone kept.sound mine theirs
      rw [put_same,show (s.put pkgsDir call q stage dir).stages call = stage from Function.update_self ..]
      exact fitting
    · have different : other ≠ call := by
        rintro rfl
        cases here.symm.trans installing
        exact own rfl
      rw [put_other kept below (locked_below kept.sound theirs) own,
        show (s.put pkgsDir call p stage dir).stages other = s.stages other from Function.update_of_ne different ..]
      exact kept.staged other q installing
  · intro name plain idle
    rw [put_apart kept below plain (Ne.symm (idle call p here))]
    exact kept.whole name plain idle
  · intro other q finishing
    obtain ⟨phase,now,done⟩ := Option.bind_eq_some_iff.mp finishing
    have theirs : (s.puller.calls other).bind Phase.locked = some q := by
      rw [show s.puller.calls other = some phase from now]
      exact finishing_locked done
    have different : q ≠ p := by
      rintro rfl
      cases locked_alone kept.sound mine theirs
      cases here.symm.trans now
      cases done
    rw [put_other kept below (locked_below kept.sound theirs) different]
    exact kept.finishing other q finishing
  · intro q under ready
    have different : q ≠ p := by
      rintro rfl
      cases ready.symm.trans (holder_agrees kept.sound here rfl).1
    rw [put_other kept below under different]
    exact kept.installed q under ready

theorem install_kept (kept : Kept inst pkgsDir files s) (guarded : undisturbed inst pkgsDir files s (.install call act) = true)
    (moved : install pkgsDir files s call act = some t) : Kept inst pkgsDir files t := by
  unfold install at moved
  split at moved
  · rename_i p here
    obtain ⟨⟨stage,dir⟩,stepped,rfl⟩ := Option.map_eq_some_iff.mp moved
    refine put_kept kept here (installStep_fitting (kept.staged call p here) ?_ stepped)
    rintro rfl
    simp only [undisturbed,here,Option.bind_some,Phase.runs,Option.all_some,decide_eq_true_eq] at guarded
    exact guarded
  · cases moved

theorem crash_kept (kept : Kept inst pkgsDir files s) (guarded : undisturbed inst pkgsDir files s .crash = true) :
    Kept inst pkgsDir files (crash s) := by
  have known := of_decide_eq_true guarded
  apply restart_kept
  intro name plain
  by_cases busy : ∃ call p, s.puller.calls call = some (.installing p) ∧ s.name p = name
  · obtain ⟨call,p,here,rfl⟩ := busy
    exact known p (kept.sound.target call p (by rw [here]; rfl))
  · exact kept.whole name plain fun call p here same => busy ⟨call,p,here,same⟩

theorem siteStep_kept (kept : Kept inst pkgsDir files s) (guarded : undisturbed inst pkgsDir files s action = true)
    (moved : siteStep inst pkgsDir files s action = some t) : Kept inst pkgsDir files t := by
  cases action with
  | pull action => exact pull_kept kept guarded moved
  | install call act => exact install_kept kept guarded moved
  | reply call body => exact reply_kept kept moved
  | fail call err left => exact fail_kept kept moved
  | crash =>
      cases moved
      exact crash_kept kept guarded

theorem reached_kept (whole : ∀ name, Plain name.toList → Whole (files name) (disk (scratchDir pkgsDir name)))
    (meets : Meets (siteStep inst pkgsDir files) (fun s action => undisturbed inst pkgsDir files s action = true) (fresh disk) actions)
    (ran : run (siteStep inst pkgsDir files) (fresh disk) actions = some s) : Kept inst pkgsDir files s :=
  run_preserves_guarded (Kept inst pkgsDir files) (fun _ _ _ => siteStep_kept) (restart_kept inst _ whole) meets ran

end Kept

theorem returned_complete (whole : ∀ name, Plain name.toList → Whole (files name) (disk (scratchDir pkgsDir name)))
    (meets : Meets (siteStep inst pkgsDir files) (fun s action => undisturbed inst pkgsDir files s action = true) (fresh disk) actions)
    (ran : run (siteStep inst pkgsDir files) (fresh disk) actions = some s) (returned : .returned name call p none ∈ s.puller.log) :
    Complete (files name) (s.disk (scratchDir pkgsDir name)) := by
  have kept := reached_kept whole meets ran
  obtain ⟨known,ready⟩ := kept.sound.returned name call p returned
  obtain ⟨below,same⟩ := kept.sound.named name p known
  rw [← same]
  exact kept.installed p below ready

def enters (call : Nat) : List SiteAction :=
  [.pull (.getPkg call "six"),.pull (.loadOrStore call),.pull (.fastPath call),.pull (.lock call),.pull (.check call)]

def returns (call : Nat) : List SiteAction :=
  [.reply call ⟨[],["six"]⟩,.pull (.normalizeDep call),.pull (.store call),.pull (.unlock call)]

def writes (call n : Nat) : List SiteAction :=
  .install call .statFails :: .install call .mkdir :: .install call .create :: .install call .makeTarget ::
    List.replicate n (.install call .writeFile)

def finds (call : Nat) : List SiteAction := [.install call .stat,.install call .create]

def sixFiles (_ : String) : List String := ["six.py","METADATA"]

def restarted : List SiteAction :=
  enters 0 ++ writes 0 2 ++ SiteAction.install 0 .exit :: returns 0 ++ SiteAction.crash :: enters 1 ++ finds 1 ++ returns 1

theorem returned_complete_restarted :
    ∃ s, run (siteStep flaskInstaller "/pkgs" sixFiles) (fresh fun _ => .absent) restarted = some s ∧
      .returned "six" 1 0 none ∈ s.puller.log ∧ Complete (sixFiles "six") (s.disk (scratchDir "/pkgs" "six")) := by
  have seen : (run (siteStep flaskInstaller "/pkgs" sixFiles) (fresh fun _ => .absent) restarted).any
      (fun s => decide (PullEvent.returned "six" 1 0 none ∈ s.puller.log)) = true := by decide +kernel
  obtain ⟨s,ran,member⟩ := run_seen seen
  refine ⟨s,ran,member,returned_complete ?_ (by decide +kernel) ran member⟩
  exact fun _ _ => trivial

-- The worker dies when one of two files is written.
def interrupted : List SiteAction :=
  enters 0 ++ writes 0 1 ++ SiteAction.crash :: enters 1 ++ finds 1 ++ returns 1

theorem interrupted_returned :
    (run (siteStep flaskInstaller "/pkgs" sixFiles) (fresh fun _ => .absent) interrupted).any (fun s =>
      decide (PullEvent.returned "six" 1 0 none ∈ s.puller.log) &&
      decide (s.disk (scratchDir "/pkgs" "six") = .files ["six.py"])) = true ∧
    ¬Complete (sixFiles "six") (.files ["six.py"]) := by
  refine ⟨by decide +kernel,?_⟩
  rintro ⟨names,same,all⟩
  cases same
  exact absurd (all "METADATA" (by decide)) (by decide)

end OpenLambda.Packages
