import OpenLambda.Packages.GetPkg

namespace OpenLambda.Packages
open Foundation.Runs Imports

def PullEvent.success (name : String) : PullEvent → Option PackageMeta
  | .succeeded other _ reply => if other = name then some reply else none
  | _ => none

def successes (log : List PullEvent) (name : String) : List PackageMeta := log.filterMap (PullEvent.success name)

def halfway (inst : Installer) (reply : PackageMeta) (i : Nat) : PackageMeta :=
  {reply with deps := (reply.deps.take i).map inst.normalizePkg ++ reply.deps.drop i}

def normalized (inst : Installer) (reply : PackageMeta) : PackageMeta :=
  {reply with deps := reply.deps.map inst.normalizePkg}

def Installed (inst : Installer) (pkg : Package) (won : List PackageMeta) : Prop :=
  ∃ reply, won = [reply] ∧ pkg.pkgMeta = normalized inst reply

-- What a package is like while its mutex is held by a call in some phase.
def Agrees (inst : Installer) (pkg : Package) (won : List PackageMeta) : Option Phase → Prop
  | some (.installing _) => pkg.installed = false ∧ won = []
  | some (.normalizing _ i reply) =>
      pkg.installed = false ∧ won = [] ∧ i ≤ reply.deps.length ∧ pkg.pkgMeta = halfway inst reply i
  | some (.storing _) => pkg.installed = false ∧ Installed inst pkg won
  | some (.returning _ none) => pkg.installed = true ∧ Installed inst pkg won
  | _ => (pkg.installed = false ∧ won = []) ∨ (pkg.installed = true ∧ Installed inst pkg won)

def Puller.holder (s : Puller) (p : Nat) : Option Phase := (s.objects p).installMutex.bind s.calls

structure Sound (inst : Installer) (s : Puller) : Prop where
  named : ∀ name p, s.packages name = some p → p < s.next ∧ (s.objects p).name = name
  stored : ∀ p, p < s.next → s.packages (s.objects p).name = some p
  target : ∀ call p, (s.calls call).bind Phase.target = some p → p < s.next
  lock : ∀ call p, (s.calls call).bind Phase.locked = some p ↔ (s.objects p).installMutex = some call
  agrees : ∀ p, p < s.next → Agrees inst (s.objects p) (successes s.log (s.objects p).name) (s.holder p)
  unknown : ∀ name, s.packages name = none → successes s.log name = []
  returned : ∀ name call p, .returned name call p none ∈ s.log → s.packages name = some p ∧ (s.objects p).installed = true
  order : ∀ early name call, early ++ [.started name call] <+: s.log → successes early name = []

theorem newPuller_sound (inst : Installer) : Sound inst newPuller := by
  refine ⟨?_,?_,?_,?_,?_,?_,?_,?_⟩
  · intro name p known
    cases known
  · intro p below
    cases below
  · intro call p known
    cases known
  · intro call p
    simp [newPuller,blank]
  · intro p below
    cases below
  · intro name _
    rfl
  · intro name call p member
    cases member
  · intro early name call ahead
    simp [newPuller] at ahead

def Fits (log : List PullEvent) (p : Nat) (pkg : Package) : PullEvent → Prop
  | .started name _ => successes log name = []
  | .failed _ _ => True
  | .succeeded name _ _ => name = pkg.name
  | .returned name _ q err => name = pkg.name ∧ q = p ∧ (err = none → pkg.installed = true)

theorem successes_append (log more : List PullEvent) (name : String) :
    successes (log ++ more) name = successes log name ++ successes more name := List.filterMap_append

theorem successes_other {event : Option PullEvent} (fits : ∀ e ∈ event, Fits log p pkg e) (different : name ≠ pkg.name) :
    successes (log ++ event.toList) name = successes log name := by
  rw [successes_append]
  cases event with
  | none => exact List.append_nil _
  | some e =>
      have none : PullEvent.success name e = none := by
        cases e with
        | succeeded other _ reply =>
            have same : other = pkg.name := fits _ rfl
            exact if_neg fun equal => different (equal.symm.trans same)
        | started _ _ | failed _ _ | returned _ _ _ _ => rfl
      simp [successes,none]

structure Moves (inst : Installer) (s : Puller) (call p : Nat) (pkg : Package) (phase : Option Phase)
    (event : Option PullEvent) : Prop where
  below : p < s.next
  name : pkg.name = (s.objects p).name
  own : ∀ q, (s.calls call).bind Phase.locked = some q → q = p
  aim : ∀ q, phase.bind Phase.target = some q → q = p
  mutex : ∀ other, pkg.installMutex = some other ↔
    if other = call then phase.bind Phase.locked = some p else (s.objects p).installMutex = some other
  kept : (s.objects p).installed = true → pkg.installed = true
  agrees : Agrees inst pkg (successes (s.log ++ event.toList) pkg.name)
    (pkg.installMutex.bind (Function.update s.calls call phase))
  fits : ∀ e ∈ event, Fits s.log p pkg e

theorem locked_target {phase : Phase} (locked : phase.locked = some p) : phase.target = some p := by
  cases phase with
  | entered _ | loaded _ | locking _ => cases locked
  | checking _ | installing _ | normalizing _ _ _ | storing _ | returning _ _ => exact locked

theorem move_order {event : Option PullEvent} (order : ∀ early name call, early ++ [.started name call] <+: log → successes early name = [])
    (fits : ∀ e ∈ event, Fits log p pkg e) (ahead : early ++ [.started name call] <+: log ++ event.toList) :
    successes early name = [] := by
  cases event with
  | none =>
      rw [Option.toList_none,List.append_nil] at ahead
      exact order early name call ahead
  | some e =>
      rcases List.prefix_concat_iff.mp ahead with whole | before
      · obtain ⟨rfl,last⟩ := List.append_inj' whole rfl
        cases last
        exact fits _ rfl
      · exact order early name call before

theorem move_sound (sound : Sound inst s) (moves : Moves inst s call p pkg phase event) :
    Sound inst (s.move call p pkg phase event) := by
  have names : ∀ q, (Function.update s.objects p pkg q).name = (s.objects q).name := by
    intro q
    by_cases same : q = p
    · rw [same,Function.update_self,moves.name]
    · rw [Function.update_of_ne same]
  have kept : ∀ q, (s.objects q).installed = true → (Function.update s.objects p pkg q).installed = true := by
    intro q yes
    by_cases same : q = p
    · subst same
      rw [Function.update_self]
      exact moves.kept yes
    · rwa [Function.update_of_ne same]
  refine ⟨?_,?_,?_,?_,?_,?_,?_,?_⟩
  · intro name q known
    obtain ⟨below,same⟩ := sound.named name q known
    exact ⟨below,(names q).trans same⟩
  · intro q below
    change s.packages (Function.update s.objects p pkg q).name = some q
    rw [names q]
    exact sound.stored q below
  · intro other q aimed
    change (Function.update s.calls call phase other).bind Phase.target = some q at aimed
    by_cases same : other = call
    · rw [same,Function.update_self] at aimed
      rw [moves.aim q aimed]
      exact moves.below
    · rw [Function.update_of_ne same] at aimed
      exact sound.target other q aimed
  · intro other q
    change (Function.update s.calls call phase other).bind Phase.locked = some q ↔
      (Function.update s.objects p pkg q).installMutex = some other
    have only : ∀ q, phase.bind Phase.locked = some q → q = p := by
      intro q locked
      obtain ⟨here,known,locked⟩ := Option.bind_eq_some_iff.mp locked
      exact moves.aim q (by rw [known]; exact locked_target locked)
    by_cases here : q = p
    · subst here
      rw [Function.update_self,moves.mutex]
      by_cases same : other = call
      · rw [same,Function.update_self,if_pos rfl]
      · rw [Function.update_of_ne same,if_neg same]
        exact sound.lock other q
    · rw [Function.update_of_ne here,← sound.lock]
      by_cases same : other = call
      · rw [same,Function.update_self]
        exact ⟨fun locked => absurd (only q locked) here,fun locked => absurd (moves.own q locked) here⟩
      · rw [Function.update_of_ne same]
  · intro q below
    change Agrees inst (Function.update s.objects p pkg q) (successes (s.log ++ event.toList) (Function.update s.objects p pkg q).name)
      ((Function.update s.objects p pkg q).installMutex.bind (Function.update s.calls call phase))
    by_cases here : q = p
    · rw [here,Function.update_self]
      exact moves.agrees
    · have apart : (s.objects q).name ≠ pkg.name := by
        intro same
        have one := sound.stored q below
        rw [same,moves.name,sound.stored p moves.below] at one
        exact here (Option.some.inj one).symm
      have phases : (s.objects q).installMutex.bind (Function.update s.calls call phase) = s.holder q := by
        cases mutex : (s.objects q).installMutex with
        | none => simp [Puller.holder,mutex]
        | some other =>
            have different : other ≠ call := by
              rintro rfl
              exact here (moves.own q ((sound.lock other q).mpr mutex))
            simp [Puller.holder,mutex,Function.update_of_ne different]
      rw [Function.update_of_ne here,phases,successes_other moves.fits apart]
      exact sound.agrees q below
  · intro name unknown
    have other : name ≠ pkg.name := by
      rintro rfl
      have known := sound.stored p moves.below
      rw [← moves.name] at known
      cases known.symm.trans unknown
    change successes (s.log ++ event.toList) name = []
    rw [successes_other moves.fits other]
    exact sound.unknown name unknown
  · intro name other q member
    rcases List.mem_append.mp member with before | new
    · obtain ⟨known,yes⟩ := sound.returned name other q before
      exact ⟨known,kept q yes⟩
    · cases event with
      | none => cases new
      | some e =>
          rw [Option.toList_some,List.mem_singleton] at new
          subst new
          obtain ⟨same,rfl,yes⟩ := moves.fits _ rfl
          refine ⟨?_,?_⟩
          · rw [same,moves.name]
            exact sound.stored q moves.below
          · change (Function.update s.objects q pkg q).installed = true
            rw [Function.update_self]
            exact yes rfl
  · intro early name other ahead
    exact move_order sound.order moves.fits ahead

theorem moves_outside (sound : Sound inst s) (here : s.calls call = some before) (aim : before.target = some p)
    (free : before.locked = none) (goal : ∀ after ∈ phase, after.target = some p ∧ after.locked = none)
    (quiet : ∀ name, successes (s.log ++ event.toList) name = successes s.log name)
    (fits : ∀ e ∈ event, Fits s.log p (s.objects p) e) : Moves inst s call p (s.objects p) phase event := by
  have below : p < s.next := sound.target call p (by rw [here]; exact aim)
  have unlocked : (s.calls call).bind Phase.locked = none := by rw [here]; exact free
  have other : (s.objects p).installMutex ≠ some call := fun mutex => by
    rw [← sound.lock,unlocked] at mutex
    cases mutex
  have left : phase.bind Phase.locked = none := by
    cases phase with
    | none => rfl
    | some after => exact (goal after rfl).2
  refine ⟨below,rfl,?_,?_,?_,id,?_,fits⟩
  · intro q locked
    rw [unlocked] at locked
    cases locked
  · intro q aimed
    obtain ⟨after,rfl,target⟩ := Option.bind_eq_some_iff.mp aimed
    exact Option.some.inj (target.symm.trans (goal after rfl).1)
  · intro someone
    split
    · rename_i same
      rw [same,left]
      exact ⟨fun mutex => absurd mutex other,fun locked => by cases locked⟩
    · exact Iff.rfl
  · have phases : (s.objects p).installMutex.bind (Function.update s.calls call phase) = s.holder p := by
      cases mutex : (s.objects p).installMutex with
      | none => simp [Puller.holder,mutex]
      | some someone =>
          have different : someone ≠ call := fun same => other (same ▸ mutex)
          simp [Puller.holder,mutex,Function.update_of_ne different]
    rw [quiet,phases]
    exact sound.agrees p below

theorem moves_inside (sound : Sound inst s) (here : s.calls call = some before) (locked : before.locked = some p)
    (goal : after.locked = some p) (name : pkg.name = (s.objects p).name)
    (mutex : pkg.installMutex = (s.objects p).installMutex) (kept : (s.objects p).installed = true → pkg.installed = true)
    (agrees : Agrees inst pkg (successes (s.log ++ event.toList) pkg.name) (some after))
    (fits : ∀ e ∈ event, Fits s.log p pkg e) : Moves inst s call p pkg (some after) event := by
  have mine : (s.calls call).bind Phase.locked = some p := by rw [here]; exact locked
  have holds : (s.objects p).installMutex = some call := (sound.lock call p).mp mine
  refine ⟨sound.target call p (by rw [here]; exact locked_target locked),name,?_,?_,?_,kept,?_,fits⟩
  · intro q other
    exact Option.some.inj (other.symm.trans mine)
  · intro q aimed
    exact Option.some.inj (aimed.symm.trans (locked_target goal))
  · intro someone
    rw [mutex]
    split
    · rename_i same
      rw [same]
      exact ⟨fun _ => goal,fun _ => holds⟩
    · exact Iff.rfl
  · rw [mutex,holds,Option.bind_some,Function.update_self]
    exact agrees

theorem holder_agrees (sound : Sound inst s) (here : s.calls call = some phase) (locked : phase.locked = some p) :
    Agrees inst (s.objects p) (successes s.log (s.objects p).name) (some phase) := by
  have mine : (s.calls call).bind Phase.locked = some p := by rw [here]; exact locked
  have holds := (sound.lock call p).mp mine
  have below : p < s.next := sound.target call p (by rw [here]; exact locked_target locked)
  have agrees := sound.agrees p below
  rwa [Puller.holder,holds,Option.bind_some,here] at agrees

theorem halfway_next (inst : Installer) {pkg : Package} (half : pkg.pkgMeta = halfway inst reply i)
    (here : pkg.pkgMeta.deps[i]? = some dep) (within : i ≤ reply.deps.length) :
    i + 1 ≤ reply.deps.length ∧ (pkg.normalizeDep inst i dep).pkgMeta = halfway inst reply (i + 1) := by
  have front : ((reply.deps.take i).map inst.normalizePkg).length = i := by
    rw [List.length_map,List.length_take,Nat.min_eq_left within]
  have next : reply.deps[i]? = some dep := by
    rw [half,halfway,List.getElem?_append_right (by omega),front,Nat.sub_self,List.getElem?_drop] at here
    exact here
  obtain ⟨less,value⟩ := List.getElem?_eq_some_iff.mp next
  refine ⟨less,?_⟩
  change ({pkg.pkgMeta with deps := pkg.pkgMeta.deps.set i (inst.normalizePkg dep)} : PackageMeta) = _
  rw [half]
  unfold halfway
  rw [List.set_append_right _ _ (by omega),front,Nat.sub_self,List.drop_eq_getElem_cons less,List.set_cons_zero,
    List.take_succ_eq_append_getElem less,List.map_append,List.append_assoc,value]
  rfl

theorem halfway_done (inst : Installer) (here : (halfway inst reply i).deps[i]? = none) (within : i ≤ reply.deps.length) :
    halfway inst reply i = normalized inst reply := by
  have size : (halfway inst reply i).deps.length = reply.deps.length := by
    simp only [halfway,List.length_append,List.length_map,List.length_take,List.length_drop]
    omega
  have all : i = reply.deps.length := by
    have beyond := List.getElem?_eq_none_iff.mp here
    omega
  rw [halfway,normalized,all,List.take_length,List.drop_length,List.append_nil]

theorem recall_sound (sound : Sound inst s) (before : (s.calls call).bind Phase.locked = none)
    (after : phase.locked = none) (aim : ∀ q, phase.target = some q → q < s.next) :
    Sound inst {s with calls := Function.update s.calls call (some phase)} := by
  have locks : ∀ other, (Function.update s.calls call (some phase) other).bind Phase.locked =
      (s.calls other).bind Phase.locked := by
    intro other
    by_cases same : other = call
    · rw [same,Function.update_self,before]
      exact after
    · rw [Function.update_of_ne same]
  refine ⟨sound.named,sound.stored,?_,?_,?_,sound.unknown,sound.returned,sound.order⟩
  · intro other q aimed
    change (Function.update s.calls call (some phase) other).bind Phase.target = some q at aimed
    by_cases same : other = call
    · rw [same,Function.update_self] at aimed
      exact aim q aimed
    · rw [Function.update_of_ne same] at aimed
      exact sound.target other q aimed
  · intro other q
    change (Function.update s.calls call (some phase) other).bind Phase.locked = some q ↔ _
    rw [locks]
    exact sound.lock other q
  · intro q below
    have phases : (s.objects q).installMutex.bind (Function.update s.calls call (some phase)) = s.holder q := by
      cases mutex : (s.objects q).installMutex with
      | none => simp [Puller.holder,mutex]
      | some other =>
          have different : other ≠ call := by
            rintro rfl
            rw [← sound.lock,before] at mutex
            cases mutex
          simp [Puller.holder,mutex,Function.update_of_ne different]
    change Agrees inst _ _ ((s.objects q).installMutex.bind (Function.update s.calls call (some phase)))
    rw [phases]
    exact sound.agrees q below

theorem create_sound (sound : Sound inst s) (unknown : s.packages name = none) :
    Sound inst {s with
      packages := Function.update s.packages name (some s.next)
      objects := Function.update s.objects s.next (blank name)
      next := s.next + 1} := by
  have old : ∀ q, q < s.next → Function.update s.objects s.next (blank name) q = s.objects q :=
    fun q below => Function.update_of_ne (Nat.ne_of_lt below) ..
  have apart : ∀ q, q < s.next → (s.objects q).name ≠ name := by
    rintro q below rfl
    cases (sound.stored q below).symm.trans unknown
  have fresh : ∀ other, (s.calls other).bind Phase.locked ≠ some s.next := by
    intro other locked
    obtain ⟨phase,here,locked⟩ := Option.bind_eq_some_iff.mp locked
    exact Nat.lt_irrefl _ (sound.target other s.next (by rw [here]; exact locked_target locked))
  refine ⟨?_,?_,?_,?_,?_,?_,?_,sound.order⟩
  · intro other p known
    change Function.update s.packages name (some s.next) other = some p at known
    change p < s.next + 1 ∧ (Function.update s.objects s.next (blank name) p).name = other
    by_cases same : other = name
    · rw [same,Function.update_self] at known
      cases known
      rw [Function.update_self]
      exact ⟨Nat.lt_succ_self _,same.symm⟩
    · rw [Function.update_of_ne same] at known
      obtain ⟨below,called⟩ := sound.named other p known
      rw [old p below]
      exact ⟨Nat.lt_succ_of_lt below,called⟩
  · intro p below
    change Function.update s.packages name (some s.next) (Function.update s.objects s.next (blank name) p).name = some p
    rcases Nat.lt_succ_iff_lt_or_eq.mp below with before | rfl
    · rw [old p before,Function.update_of_ne (apart p before)]
      exact sound.stored p before
    · rw [Function.update_self]
      exact Function.update_self ..
  · intro call p aimed
    exact Nat.lt_succ_of_lt (sound.target call p aimed)
  · intro other q
    change _ ↔ (Function.update s.objects s.next (blank name) q).installMutex = some other
    by_cases new : q = s.next
    · rw [new,Function.update_self]
      exact ⟨fun locked => absurd locked (fresh other),fun locked => by cases locked⟩
    · rw [Function.update_of_ne new]
      exact sound.lock other q
  · intro p below
    change Agrees inst (Function.update s.objects s.next (blank name) p)
      (successes s.log (Function.update s.objects s.next (blank name) p).name)
      ((Function.update s.objects s.next (blank name) p).installMutex.bind s.calls)
    rcases Nat.lt_succ_iff_lt_or_eq.mp below with before | rfl
    · rw [old p before]
      exact sound.agrees p before
    · rw [Function.update_self]
      exact .inl ⟨rfl,sound.unknown name unknown⟩
  · intro other missing
    apply sound.unknown other
    change Function.update s.packages name (some s.next) other = none at missing
    by_cases same : other = name
    · rw [same,Function.update_self] at missing
      cases missing
    · rwa [Function.update_of_ne same] at missing
  · intro other call p member
    obtain ⟨known,ready⟩ := sound.returned other call p member
    have different : other ≠ name := by
      rintro rfl
      cases known.symm.trans unknown
    change Function.update s.packages name (some s.next) other = some p ∧
      (Function.update s.objects s.next (blank name) p).installed = true
    rw [Function.update_of_ne different,old p (sound.named other p known).1]
    exact ⟨known,ready⟩

theorem getPkg_sound (sound : Sound inst s) (moved : getPkg inst s call pkg = some t) : Sound inst t := by
  obtain ⟨free,rfl⟩ := getPkg_parts moved
  exact recall_sound sound (by rw [free]; rfl) rfl (fun _ aimed => by cases aimed)

theorem loadOrStore_sound (sound : Sound inst s) (moved : loadOrStore s call = some t) : Sound inst t := by
  obtain ⟨name,here,⟨p,known,rfl⟩ | ⟨unknown,rfl⟩⟩ := loadOrStore_parts moved
  · refine recall_sound sound (by rw [here]; rfl) rfl ?_
    intro q aimed
    cases aimed
    exact (sound.named name p known).1
  · refine recall_sound (create_sound sound unknown) (by rw [here]; rfl) rfl ?_
    intro q aimed
    cases aimed
    exact Nat.lt_succ_self _

theorem fastPath_sound (sound : Sound inst s) (moved : fastPath s call = some t) : Sound inst t := by
  obtain ⟨p,here,⟨ready,rfl⟩ | rfl⟩ := fastPath_parts moved
  · refine move_sound sound (moves_outside sound here rfl rfl (fun _ member => by cases member) ?_ ?_)
    · intro name
      rw [successes_append]
      exact List.append_nil _
    · intro e member
      cases member
      exact ⟨rfl,rfl,fun _ => ready⟩
  · refine move_sound sound (moves_outside sound here rfl rfl ?_ ?_ (fun _ member => by cases member))
    · intro after member
      cases member
      exact ⟨rfl,rfl⟩
    · intro name
      rw [Option.toList_none,List.append_nil]

theorem lock_sound (sound : Sound inst s) (moved : lock s call = some t) : Sound inst t := by
  obtain ⟨p,here,free,rfl⟩ := lock_parts moved
  have below : p < s.next := sound.target call p (by rw [here]; rfl)
  have agrees := sound.agrees p below
  rw [Puller.holder,free] at agrees
  refine move_sound sound ⟨below,rfl,?_,?_,?_,id,?_,fun _ member => by cases member⟩
  · intro q locked
    rw [here] at locked
    cases locked
  · intro q aimed
    exact (Option.some.inj aimed).symm
  · intro other
    rw [free]
    split
    · rename_i same
      rw [same]
      exact ⟨fun _ => rfl,fun _ => rfl⟩
    · rename_i different
      exact ⟨fun mine => absurd (Option.some.inj mine).symm different,fun locked => by cases locked⟩
  · rw [Option.toList_none,List.append_nil,Option.bind_some,Function.update_self]
    exact agrees

theorem check_sound (sound : Sound inst s) (moved : check s call = some t) : Sound inst t := by
  obtain ⟨p,here,⟨ready,rfl⟩ | ⟨pending,rfl⟩⟩ := check_parts moved
  · have agrees := holder_agrees sound here rfl
    refine move_sound sound (moves_inside sound here rfl rfl rfl rfl id ?_ (fun _ member => by cases member))
    rw [Option.toList_none,List.append_nil]
    rcases agrees with ⟨fresh,_⟩ | done
    · cases ready.symm.trans fresh
    · exact done
  · have fresh : (s.objects p).installed = false ∧ successes s.log (s.objects p).name = [] := by
      rcases holder_agrees sound here rfl with fresh | ⟨ready,_⟩
      · exact fresh
      · cases ready.symm.trans pending
    refine move_sound sound (moves_inside sound here rfl rfl rfl rfl id ?_ ?_)
    · rw [successes_append]
      exact ⟨fresh.1,by rw [fresh.2]; rfl⟩
    · intro e member
      cases member
      exact fresh.2

theorem installFails_sound (sound : Sound inst s) (moved : installFails s call err left = some t) : Sound inst t := by
  obtain ⟨p,here,rfl⟩ := installFails_parts moved
  obtain ⟨pending,none⟩ := holder_agrees sound here rfl
  refine move_sound sound (moves_inside sound here rfl rfl rfl rfl id ?_ ?_)
  · rw [successes_append]
    exact .inl ⟨pending,by change successes s.log (s.objects p).name ++ [] = []; rw [none]; rfl⟩
  · intro e member
    cases member
    trivial

theorem unmarshal_sound (sound : Sound inst s) (moved : unmarshal s call reply = some t) : Sound inst t := by
  obtain ⟨p,here,rfl⟩ := unmarshal_parts moved
  obtain ⟨pending,none⟩ := holder_agrees sound here rfl
  refine move_sound sound (moves_inside sound here rfl rfl rfl rfl id ?_ (fun _ member => by cases member))
  rw [Option.toList_none,List.append_nil]
  exact ⟨pending,none,Nat.zero_le _,rfl⟩

theorem normalizeDep_sound (sound : Sound inst s) (moved : normalizeDep inst s call = some t) : Sound inst t := by
  obtain ⟨p,i,reply,here,⟨dep,found,rfl⟩ | ⟨ended,rfl⟩⟩ := normalizeDep_parts moved
  · obtain ⟨pending,none,within,half⟩ := holder_agrees sound here rfl
    obtain ⟨less,more⟩ := halfway_next inst half found within
    refine move_sound sound (moves_inside sound here rfl rfl rfl rfl id ?_ (fun _ member => by cases member))
    rw [Option.toList_none,List.append_nil]
    exact ⟨pending,none,less,more⟩
  · obtain ⟨pending,none,within,half⟩ := holder_agrees sound here rfl
    rw [half] at ended
    refine move_sound sound (moves_inside sound here rfl rfl rfl rfl id ?_ ?_)
    · refine ⟨pending,reply,?_,half.trans (halfway_done inst ended within)⟩
      rw [successes_append,none]
      simp [successes,PullEvent.success]
    · intro e member
      cases member
      rfl

theorem store_sound (sound : Sound inst s) (moved : store s call = some t) : Sound inst t := by
  obtain ⟨p,here,rfl⟩ := store_parts moved
  obtain ⟨_,done⟩ := holder_agrees sound here rfl
  refine move_sound sound (moves_inside sound here rfl rfl rfl rfl (fun _ => rfl) ?_ (fun _ member => by cases member))
  rw [Option.toList_none,List.append_nil]
  exact ⟨rfl,done⟩

theorem unlock_sound (sound : Sound inst s) (moved : unlock s call = some t) : Sound inst t := by
  obtain ⟨p,err,here,rfl⟩ := unlock_parts moved
  have mine : (s.calls call).bind Phase.locked = some p := by rw [here]; rfl
  have holds := (sound.lock call p).mp mine
  have agrees := holder_agrees sound here rfl
  have ready : err = none → (s.objects p).installed = true := by
    rintro rfl
    exact agrees.1
  have settled : ((s.objects p).installed = false ∧ successes s.log (s.objects p).name = []) ∨
      ((s.objects p).installed = true ∧ Installed inst (s.objects p) (successes s.log (s.objects p).name)) := by
    cases err with
    | none => exact .inr agrees
    | some err => exact agrees
  refine move_sound sound ⟨sound.target call p (by rw [here]; rfl),rfl,?_,?_,?_,id,?_,?_⟩
  · intro q locked
    exact Option.some.inj (locked.symm.trans mine)
  · intro q aimed
    cases aimed
  · intro other
    rw [holds]
    split
    · exact ⟨(fun locked => by cases locked),(fun locked => by cases locked)⟩
    · rename_i different
      exact ⟨(fun locked => by cases locked),fun mine => absurd (Option.some.inj mine).symm different⟩
  · have quiet : successes (s.log ++ [.returned (s.objects p).name call p err]) (s.objects p).name =
        successes s.log (s.objects p).name := by
      rw [successes_append]
      exact List.append_nil _
    rw [Option.toList_some,quiet]
    exact settled
  · intro e member
    cases member
    exact ⟨rfl,rfl,ready⟩

theorem pullStep_sound (inst : Installer) (s : Puller) (action : PullAction) (t : Puller) (sound : Sound inst s)
    (moved : pullStep inst s action = some t) : Sound inst t := by
  cases action with
  | getPkg call pkg => exact getPkg_sound sound moved
  | loadOrStore call => exact loadOrStore_sound sound moved
  | fastPath call => exact fastPath_sound sound moved
  | lock call => exact lock_sound sound moved
  | check call => exact check_sound sound moved
  | installFails call err left => exact installFails_sound sound moved
  | unmarshal call reply => exact unmarshal_sound sound moved
  | normalizeDep call => exact normalizeDep_sound sound moved
  | store call => exact store_sound sound moved
  | unlock call => exact unlock_sound sound moved

theorem reached_sound (ran : run (pullStep inst) newPuller actions = some s) : Sound inst s :=
  run_preserves (Sound inst) (pullStep_sound inst) (newPuller_sound inst) ran

def Puller.installs (s : Puller) (call : Nat) (name : String) : Prop :=
  ∃ p, (s.calls call).bind Phase.runs = some p ∧ (s.objects p).name = name

theorem runs_locked {phase : Phase} (runs : phase.runs = some p) : phase.locked = some p := by
  cases phase with
  | installing _ | normalizing _ _ _ => exact runs
  | entered _ | loaded _ | locking _ | checking _ | storing _ | returning _ _ => cases runs

theorem locked_below {s : Puller} (sound : Sound inst s) (locked : (s.calls call).bind Phase.locked = some p) : p < s.next := by
  obtain ⟨phase,here,locked⟩ := Option.bind_eq_some_iff.mp locked
  exact sound.target call p (by rw [here]; exact locked_target locked)

theorem locked_alone {s : Puller} (sound : Sound inst s) (first : (s.calls one).bind Phase.locked = some p)
    (second : (s.calls two).bind Phase.locked = some p) : one = two :=
  Option.some.inj (((sound.lock one p).mp first).symm.trans ((sound.lock two p).mp second))

theorem same_package {s : Puller} (sound : Sound inst s) (first : p < s.next) (second : q < s.next)
    (same : (s.objects q).name = (s.objects p).name) : q = p := by
  have one := sound.stored q second
  rw [same,sound.stored p first] at one
  exact (Option.some.inj one).symm

theorem runs_alone (sound : Sound inst s) (first : s.installs one name) (second : s.installs two name) : one = two := by
  have held : ∀ call, s.installs call name → ∃ p, (s.calls call).bind Phase.locked = some p ∧ (s.objects p).name = name := by
    rintro call ⟨p,runs,same⟩
    obtain ⟨phase,here,runs⟩ := Option.bind_eq_some_iff.mp runs
    exact ⟨p,by rw [here]; exact runs_locked runs,same⟩
  obtain ⟨p,mine,called⟩ := held one first
  obtain ⟨q,theirs,named⟩ := held two second
  cases same_package sound (locked_below sound mine) (locked_below sound theirs) (named.trans called.symm)
  exact locked_alone sound mine theirs

theorem agrees_settled (agrees : Agrees inst pkg won phase) : (pkg.installed = true → Installed inst pkg won) ∧
    (won = [] → pkg.installed = false) := by
  have early : pkg.installed = false → (pkg.installed = true → Installed inst pkg won) ∧ (won = [] → pkg.installed = false) := by
    intro pending
    refine ⟨?_,fun _ => pending⟩
    intro ready
    cases ready.symm.trans pending
  have both : (pkg.installed = false ∧ won = []) ∨ (pkg.installed = true ∧ Installed inst pkg won) →
      (pkg.installed = true → Installed inst pkg won) ∧ (won = [] → pkg.installed = false) := by
    rintro (⟨pending,_⟩ | ⟨ready,reply,one,same⟩)
    · exact early pending
    · refine ⟨fun _ => ⟨reply,one,same⟩,?_⟩
      intro none
      cases one.symm.trans none
  cases phase with
  | none => exact both agrees
  | some phase =>
      cases phase with
      | entered _ | loaded _ | locking _ | checking _ => exact both agrees
      | installing _ | normalizing _ _ _ | storing _ => exact early agrees.1
      | returning _ err =>
          cases err with
          | none => exact both (.inr agrees)
          | some err => exact both agrees

theorem check_starts (inst : Installer) {s : Puller} (here : s.calls call = some (.checking p)) (pending : (s.objects p).installed = false) :
    ∃ t, pullStep inst s (.check call) = some t ∧ t.installs call (s.objects p).name := by
  refine ⟨s.move call p (s.objects p) (some (.installing p)) (some (.started (s.objects p).name call)),?_,p,?_,?_⟩
  · simp only [pullStep,check,here,pending,Bool.false_eq_true,if_false]
  · change (Function.update s.calls call (some (.installing p)) call).bind Phase.runs = some p
    rw [Function.update_self]
    rfl
  · change (Function.update s.objects p (s.objects p) p).name = _
    rw [Function.update_self]

def attempt (call : Nat) (pkg : String) : List PullAction :=
  [.getPkg call pkg,.loadOrStore call,.fastPath call,.lock call,.check call]

theorem attempt_starts {s : Puller} (unused : s.calls call = none) (known : s.packages (inst.normalizePkg pkg) = some p)
    (pending : (s.objects p).installed = false) (free : (s.objects p).installMutex = none) :
    ∃ t, run (pullStep inst) s (attempt call pkg) = some t ∧ t.installs call (s.objects p).name := by
  let entered : Puller := {s with calls := Function.update s.calls call (some (.entered (inst.normalizePkg pkg)))}
  let loaded : Puller := {entered with calls := Function.update entered.calls call (some (.loaded p))}
  let waiting := loaded.move call p (s.objects p) (some (.locking p)) none
  let holding := waiting.move call p {s.objects p with installMutex := some call} (some (.checking p)) none
  have first : pullStep inst s (.getPkg call pkg) = some entered := if_pos unused
  have second : pullStep inst entered (.loadOrStore call) = some loaded := by
    simp [pullStep,loadOrStore,entered,loaded,known]
  have third : pullStep inst loaded (.fastPath call) = some waiting := by
    simp [pullStep,fastPath,entered,loaded,waiting,pending]
  have fourth : pullStep inst waiting (.lock call) = some holding := by
    simp [pullStep,lock,Puller.move,waiting,holding,free]
  have here : holding.calls call = some (.checking p) := Function.update_self ..
  have same : holding.objects p = {s.objects p with installMutex := some call} := Function.update_self ..
  obtain ⟨t,last,runs⟩ := check_starts inst here (by rw [same]; exact pending)
  rw [same] at runs
  refine ⟨t,?_,runs⟩
  simp only [run,attempt,first,second,third,fourth,last,Option.bind_some]

theorem installed_once (ran : run (pullStep inst) newPuller actions = some s) :
    (∀ one two name, s.installs one name → s.installs two name → one = two) ∧
    (∀ early name call, early ++ [.started name call] <+: s.log → successes early name = []) ∧
    (∀ name call p, .returned name call p none ∈ s.log →
      s.packages name = some p ∧ ∃ reply, successes s.log name = [reply] ∧ (s.objects p).pkgMeta = normalized inst reply) ∧
    ∀ name p, s.packages name = some p → successes s.log name = [] →
      (s.objects p).installed = false ∧
      (∀ call, s.calls call = some (.checking p) → ∃ t, pullStep inst s (.check call) = some t ∧ t.installs call name) ∧
      ∀ call pkg, s.calls call = none → inst.normalizePkg pkg = name → (s.objects p).installMutex = none →
        ∃ t, run (pullStep inst) s (attempt call pkg) = some t ∧ t.installs call name := by
  have sound := reached_sound ran
  refine ⟨fun one two name => runs_alone sound,sound.order,?_,?_⟩
  · intro name call p member
    obtain ⟨known,ready⟩ := sound.returned name call p member
    obtain ⟨below,same⟩ := sound.named name p known
    obtain ⟨reply,one,final⟩ := (agrees_settled (sound.agrees p below)).1 ready
    rw [same] at one
    exact ⟨known,reply,one,final⟩
  · intro name p known none
    obtain ⟨below,same⟩ := sound.named name p known
    rw [← same] at none
    have pending := (agrees_settled (sound.agrees p below)).2 none
    refine ⟨pending,?_,?_⟩
    · intro call here
      obtain ⟨t,moved,runs⟩ := check_starts inst here pending
      exact ⟨t,moved,same ▸ runs⟩
    · intro call pkg unused spelled free
      obtain ⟨t,moved,runs⟩ := attempt_starts unused (spelled ▸ known) pending free
      exact ⟨t,moved,same ▸ runs⟩

def bothEntered : Puller :=
  {newPuller with calls := Function.update (Function.update newPuller.calls 0 (some (.entered "flask"))) 1 (some (.entered "flask"))}

def twoCalls : List PullAction :=
  [.loadOrStore 0,.loadOrStore 1,.fastPath 1,.fastPath 0,.lock 0,.check 0,.installFails 0 "timeout" ⟨["half"],[]⟩,.unlock 0,
    .lock 1,.check 1,.unmarshal 1 ⟨[],["flask"]⟩,.normalizeDep 1,.store 1,.unlock 1]

theorem both_entered : run (pullStep flaskInstaller) newPuller [.getPkg 0 "Flask",.getPkg 1 "FLASK"] = some bothEntered := by
  have first : flaskInstaller.normalizePkg "Flask" = "flask" := by decide +kernel
  have second : flaskInstaller.normalizePkg "FLASK" = "flask" := by decide +kernel
  simp [run,pullStep,getPkg,first,second,newPuller,bothEntered]

theorem installed_once_second :
    ∃ s, run (pullStep flaskInstaller) newPuller ([.getPkg 0 "Flask",.getPkg 1 "FLASK"] ++ twoCalls) = some s ∧
      .returned "flask" 1 0 none ∈ s.log ∧
      s.packages "flask" = some 0 ∧ ∃ reply, successes s.log "flask" = [reply] ∧
        (s.objects 0).pkgMeta = normalized flaskInstaller reply := by
  have seen : (run (pullStep flaskInstaller) bothEntered twoCalls).any
      (fun s => decide (PullEvent.returned "flask" 1 0 none ∈ s.log)) = true := by decide +kernel
  obtain ⟨s,later,member⟩ := run_seen seen
  have ran := run_trans both_entered later
  exact ⟨s,ran,member,(installed_once ran).2.2.1 "flask" 1 0 member⟩

end OpenLambda.Packages
