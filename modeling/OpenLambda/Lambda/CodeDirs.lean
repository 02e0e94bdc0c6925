import OpenLambda.Lambda.CodeSwitch
import OpenLambda.Lambda.HandlerPuller

namespace OpenLambda.Lambda
open Foundation.Runs

-- A function with its HandlerPuller. `asked` is the time pullHandlerIfStale read
-- before its call of Pull; `puller.removed` are all directories removed by any of
-- the two.
structure Site (β : Type) where
  func : System
  puller : Puller β
  asked : Nat

def Site.init : Site β := ⟨OpenLambda.Lambda.init,Puller.init,0⟩

def stale (conf : Conf) (s : System) : Bool := !s.lastPull.any fun last => decide ((s.now : Int) - last < conf.cacheNs)

inductive SiteAction (β : Type) where
  | task (action : Action)
  | puller (action : PullAction β)
  | settle (parsed : Except String FunctionMeta) (install env : Option String)

def Site.moved (s : Site β) (t : System) : Site β :=
  {s with func := t,puller := s.puller.removeAll (t.removed.drop s.func.removed.length)}

-- A pull that need not ask the HandlerPuller is one step of Task.
def Site.task (conf : Conf) (s : Site β) (action : Action) : Option (Site β) :=
  match action with
  | .pull _ => if stale conf s.func then none else (step conf s.func action).map s.moved
  | _ => (step conf s.func action).map s.moved

def Site.call (conf : Conf) (reg : Registry) (s : Site β) : Option (Site β) :=
  match s.func.pc,s.puller.pc with
  | .pulling _,.idle =>
      if stale conf s.func then some {s with puller := s.puller.call reg,asked := s.func.now} else none
  | _,_ => none

def Site.settle (conf : Conf) (s : Site β) (parsed : Except String FunctionMeta) (install env : Option String) :
    Option (Site β) :=
  match s.func.pc,s.puller.pc with
  | .pulling req,.returned result =>
      let t := {{s.func with now := s.asked}.pull conf req ⟨result,parsed,install,env⟩ with now := s.func.now}
      let next := s.moved t
      let puller := if t.resets = s.func.resets then next.puller else next.puller.reset
      some {next with puller := {puller with pc := .idle}}
  | _,_ => none

def siteStep (conf : Conf) (reg : Registry) (s : Site β) (action : SiteAction β) : Option (Site β) :=
  if s.func.fault ≠ none then none
  else match action with
    | .task action => s.task conf action
    | .puller .call => s.call conf reg
    | .puller .reset => none
    | .puller action => (pullStep reg s.puller action).map fun p => {s with puller := p}
    | .settle parsed install env => s.settle conf parsed install env

inductive SiteTurn (conf : Conf) (reg : Registry) (s : Site β) : SiteAction β → Site β → Prop where
  | task : (∀ pulled, action ≠ .pull pulled) → step conf s.func action = some t →
      SiteTurn conf reg s (.task action) (s.moved t)
  | skipped : s.func.pc = .pulling req →
      SiteTurn conf reg s (.task (.pull pulled)) {s with func := {s.func with pc := .checking req s.func.codeDir}}
  | called : PullTurn reg s.puller .call p →
      SiteTurn conf reg s (.puller .call) {s with puller := p,asked := s.func.now}
  | puller : PullTurn reg s.puller action p → action ≠ .call → action ≠ .reset →
      SiteTurn conf reg s (.puller action) {s with puller := p}
  | kept : s.func.pc = .pulling req → s.puller.pc = .returned result →
      SiteTurn conf reg s (.settle parsed install env)
        {s with func := {s.func with pc := .checking req s.func.codeDir},puller := {s.puller with pc := .idle}}
  | failed : s.func.pc = .pulling req → s.puller.pc = .returned result →
      SiteTurn conf reg s (.settle parsed install env)
        {s with
          func := {s.func.write ⟨req.id,500,err ++ "\n"⟩ with pc := .signalling req false}
          puller := {s.puller with pc := .idle}}
  | dirtied : s.func.pc = .pulling req → s.puller.pc = .returned (.ok dir) → dir ≠ s.func.codeDir →
      (Pulled.mk (.ok dir) (.ok config) install env).prepareErr config = some err →
      SiteTurn conf reg s (.settle (.ok config) install env) {s with
        func := {s.func.write ⟨req.id,500,err ++ "\n"⟩ with
          removed := s.func.removed ++ [dir]
          resets := if config.python then s.func.resets + 1 else s.func.resets
          pc := .signalling req false}
        puller := {s.puller.removeAll [dir] with
          dirCache := if config.python then none else s.puller.dirCache
          pc := .idle}}
  | switched : s.func.pc = .pulling req → s.puller.pc = .returned (.ok dir) → dir ≠ s.func.codeDir →
      SiteTurn conf reg s (.settle (.ok config) install env) {s with
        func := {s.func with
          funcMeta := some config
          codeDir := dir
          lastPull := some s.asked
          pc := .checking req s.func.codeDir}
        puller := {s.puller with pc := .idle}}

@[simp] theorem removeAll_nil (p : Puller β) : p.removeAll [] = p := by
  simp [Puller.removeAll]

@[simp] theorem moved_same (s : Site β) (t : System) (same : t.removed = s.func.removed) : s.moved t = {s with func := t} := by
  simp [Site.moved,same]

theorem settle_turn {s : Site β} (moved : s.settle conf parsed install env = some t) :
    SiteTurn conf reg s (.settle parsed install env) t := by
  unfold Site.settle at moved
  split at moved
  · rename_i req result here back
    cases moved
    have asked : {s.func with now := s.asked}.pc = .pulling req := here
    have turn : Turn conf {s.func with now := s.asked} (.pull ⟨result,parsed,install,env⟩) _ := pull_turn asked
    generalize {s.func with now := s.asked}.pull conf req ⟨result,parsed,install,env⟩ = u at turn
    cases turn with
    | pullKept there =>
        cases here.symm.trans there
        simpa using SiteTurn.kept here back
    | pullFailed there =>
        cases here.symm.trans there
        simpa [System.write] using SiteTurn.failed here back
    | @pullDirtied _ dir err _ config there pulledDir different parse failed =>
        cases here.symm.trans there
        cases pulledDir
        cases parse
        have dirtied : SiteTurn conf reg s (.settle (.ok config) install env) _ := .dirtied here back different failed
        cases python : config.python with
        | true => simpa [System.write,Site.moved,Puller.reset,python] using dirtied
        | false => simpa [System.write,Site.moved,Puller.removeAll,python] using dirtied
    | pullSwitched there pulledDir different parse prepared =>
        cases here.symm.trans there
        cases pulledDir
        cases parse
        simpa using SiteTurn.switched here back different
  · cases moved

theorem fresh_turn {s : Site β} (fresh : stale conf s.func = false) (moved : step conf s.func (.pull pulled) = some t) :
    SiteTurn conf reg s (.task (.pull pulled)) (s.moved t) := by
  have kept : pullHandlerIfStale conf s.func pulled = (s.func,none) := by
    unfold pullHandlerIfStale
    rw [if_pos (by simpa [stale] using fresh)]
  simp only [step] at moved
  split at moved
  · cases moved
  · split at moved
    · rename_i req here
      cases moved
      simpa [System.pull,kept] using SiteTurn.skipped here
    · cases moved

theorem task_turn {s : Site β} (moved : s.task conf action = some t) : SiteTurn conf reg s (.task action) t := by
  unfold Site.task at moved
  split at moved
  · split at moved
    · cases moved
    · rename_i fresh
      obtain ⟨u,stepped,rfl⟩ := Option.map_eq_some_iff.mp moved
      exact fresh_turn (by simpa using fresh) stepped
  · rename_i other
    obtain ⟨u,stepped,rfl⟩ := Option.map_eq_some_iff.mp moved
    exact .task other stepped

theorem siteStep_turn {s : Site β} (moved : siteStep conf reg s action = some t) : SiteTurn conf reg s action t := by
  unfold siteStep at moved
  split at moved
  · cases moved
  · split at moved
    · exact task_turn moved
    · unfold Site.call at moved
      split at moved
      · rename_i idle
        split at moved
        · cases moved
          exact .called (pullStep_turn (by simp [pullStep,idle,PullPc.calling]))
        · cases moved
      · cases moved
    · cases moved
    · rename_i notCall notReset
      obtain ⟨p,stepped,rfl⟩ := Option.map_eq_some_iff.mp moved
      exact .puller (pullStep_turn stepped) notCall notReset
    · exact settle_turn moved

def TaskPc.Retires (codeDir dir : String) : TaskPc → Prop
  | .checking _ old => old = dir ∧ dir ≠ "" ∧ dir ≠ codeDir
  | .switching _ old _ | .queueKill _ old _ _ | .queueCode _ old => old = dir
  | _ => False

def TaskPc.switches : TaskPc → Bool
  | .checking _ _ | .switching _ _ _ | .queueKill _ _ _ _ | .queueCode _ _ => true
  | _ => false

def System.Retiring (s : System) (dir : String) : Prop := .path dir ∈ s.cleanupChan ∨ s.pc.Retires s.codeDir dir

theorem retiring_queued {s t : System} (queue : t.cleanupChan = s.cleanupChan) (outside : t.pc.switches = false)
    (retiring : t.Retiring dir) : s.Retiring dir := by
  rcases retiring with queued | old
  · exact .inl (queue ▸ queued)
  · cases here : t.pc <;> rw [here] at outside old <;> first | exact old.elim | cases outside

theorem kept_removed {s t : System} (same : t.removed = s.removed) :
    ∀ dir ∈ t.removed.drop s.removed.length, s.Retiring dir := by
  rw [same,List.drop_length]
  exact nofun

-- Only the cleanup task removes directories outside a pull, and only those that
-- a code switch has retired.
theorem turn_dirs (turn : Turn conf s action t) (other : ∀ pulled, action ≠ .pull pulled) :
    t.codeDir = s.codeDir ∧ (∀ dir ∈ t.removed.drop s.removed.length, s.Retiring dir) ∧
      ∀ dir, t.Retiring dir → s.Retiring dir := by
  cases turn with
  | pullKept | pullFailed | pullDirtied | pullSwitched => exact absurd rfl (other _)
  | @removed rest dir idle queue =>
      refine ⟨rfl,?_,?_⟩
      · intro old member
        have same : old = dir := by simpa using member
        exact .inl (by simp [queue,same])
      · rintro old (queued | left)
        · exact .inl (by rw [queue]; exact List.mem_cons_of_mem _ queued)
        · exact .inr left
  | awaited idle queue =>
      refine ⟨rfl,kept_removed rfl,?_⟩
      rintro old (queued | left)
      · exact .inl (by rw [queue]; exact List.mem_cons_of_mem _ queued)
      · exact .inr left
  | queued message =>
      refine ⟨rfl,kept_removed rfl,?_⟩
      rintro old (queued | left)
      · rcases List.mem_append.mp queued with before | new
        · exact .inl before
        · refine .inr ?_
          cases here : s.pc <;> rw [here] at message <;> cases message <;> cases List.mem_singleton.mp new
          rfl
      · refine .inr ?_
        cases here : s.pc <;> rw [here] at message <;> cases message <;> first | exact left | exact left.elim
  | scaledDown =>
      refine ⟨rfl,kept_removed rfl,?_⟩
      rintro old (queued | left)
      · refine .inl ?_
        simpa [System.adjusted] using queued
      · exact left.elim
  | checkSwitch here known allowed first different =>
      refine ⟨rfl,kept_removed rfl,?_⟩
      rintro old (queued | rfl)
      · exact .inl queued
      · exact .inr (by rw [here]; exact ⟨rfl,first,different⟩)
  | switchKill here | switchEnd here =>
      refine ⟨rfl,kept_removed rfl,?_⟩
      rintro old (queued | rfl)
      · exact .inl queued
      · exact .inr (by rw [here]; rfl)
  | timer here =>
      refine ⟨rfl,kept_removed rfl,fun dir => retiring_queued rfl ?_⟩
      dsimp only
      split <;> rfl
  | @signalled req scale here =>
      refine ⟨rfl,kept_removed rfl,fun dir => retiring_queued rfl ?_⟩
      cases scale <;> rfl
  | invoked | refused | ticked | checkPanicked | askedKill | taken | acted | reported | grabbed | idled | acked =>
      exact ⟨rfl,kept_removed rfl,fun _ => id⟩
  | received | checkKept | checkRefused | dyingKill | dyingEnd | dispatched | overflowed | finished | limited | grown
  | growPanicked | shrunk | balanced | takenKill | exited =>
      exact ⟨rfl,kept_removed rfl,fun dir => retiring_queued rfl rfl⟩

theorem localStep_unfinished (moved : localStep zygotes fresh l action = some out) : l.pc ≠ .stopped := by
  intro stopped
  cases localStep_turn moved with
  | tookKill here | unpaused here | unpauseFailed here | zygoteCreated here | zygoteFailed here | created here
  | createFailed here | tripped here | settled here | discarded here | sawKill here | sawNone here | paused here
  | pauseFailed here | pausePanicked here | destroyed here => cases here.symm.trans stopped

theorem put_unfinished (s : System) (i : Nat) (l : LambdaInstance) (busy : (s.inst i).pc ≠ .stopped)
    (later : ((s.put i l).inst j).pc ≠ .stopped) : (s.inst j).pc ≠ .stopped := by
  by_cases equal : j = i
  · rw [equal]
    exact busy
  · simpa [System.put,equal] using later

theorem sentKill_pc (s : System) (i j : Nat) : ((s.sentKill i).inst j).pc = (s.inst j).pc := by
  by_cases equal : j = i
  · rw [equal]
    simp [System.sentKill,System.put]
  · simp [System.sentKill,System.put,equal]

theorem turn_unfinished (turn : Turn conf s action t) (born : i < s.nextInst) (later : (t.inst i).pc ≠ .stopped) :
    (s.inst i).pc ≠ .stopped := by
  cases turn with
  | @switchKill _ _ j | @dyingKill j | @shrunk _ j =>
      rw [← sentKill_pc s j i]
      exact later
  | grown =>
      have different : i ≠ s.nextInst := Nat.ne_of_lt born
      simpa [System.adjusted,System.put,different] using later
  | acted _ stepped => exact put_unfinished s _ _ (localStep_unfinished stepped) later
  | taken _ here | reported _ here | grabbed _ here | idled _ here | acked _ here =>
      exact put_unfinished s _ _ (by simp [here]) later
  | _ => exact later

theorem turn_born (turn : Turn conf s action t) (born : i < t.nextInst) :
    i < s.nextInst ∨ action = .scale ∧ s.nextInst < t.nextInst ∧ (t.inst i).codeDir = s.codeDir := by
  cases turn with
  | grown =>
      have more : i < s.nextInst + 1 := born
      rcases Nat.lt_succ_iff_lt_or_eq.mp more with old | rfl
      · exact .inl old
      · exact .inr ⟨rfl,Nat.lt_succ_self _,by simp [System.adjusted,System.put,newLambdaInstance]⟩
  | _ => exact .inl born

def Site.Known (s : Site β) (dir : String) : Prop :=
  dir = s.func.codeDir ∨ (∃ i, i < s.func.nextInst ∧ (s.func.inst i).codeDir = dir) ∨ dir ∈ s.puller.removed ∨
    ∃ entry, s.puller.dirCache = some entry ∧ entry.path = dir

def PullPc.dir : PullPc β → Option String
  | .making _ _ dir | .extracting _ _ dir => some dir
  | _ => none

def Site.cachesCode (s : Site β) : Prop := ∃ entry, s.puller.dirCache = some entry ∧ entry.path = s.func.codeDir

-- `code` is why a directory that Task retires is gone already: f.codeDir is left
-- only for a newer entry of the cache, and putCache removed the older one.
structure Housed (reg : Registry) (s : Site β) : Prop where
  made : ∀ dir, s.Known dir → dir = "" ∨ s.puller.Made reg dir
  fresh : ∀ dir, s.puller.pc.dir = some dir → s.puller.Made reg dir ∧ ¬ s.Known dir
  back : ∀ dir, s.puller.pc = .returned (.ok dir) → ∃ entry, s.puller.dirCache = some entry ∧ entry.path = dir
  code : s.func.codeDir = "" ∨ s.func.codeDir ∈ s.puller.removed ∨ s.cachesCode
  retiring : ∀ dir, s.func.Retiring dir → dir ∈ s.puller.removed
  shared : ∀ i, i < s.func.nextInst → ∀ entry, s.puller.dirCache = some entry → (s.func.inst i).codeDir = entry.path →
    entry.path = s.func.codeDir
  unfinished : ∀ i, i < s.func.nextInst → (s.func.inst i).pc ≠ .stopped → (s.func.inst i).codeDir ∉ s.puller.removed
  entry : ∀ entry, s.puller.dirCache = some entry → entry.path ∉ s.puller.removed

theorem init_housed (reg : Registry) : Housed reg (Site.init : Site β) where
  made := by
    rintro dir (code | ⟨i,born,_⟩ | gone | ⟨entry,cached,_⟩)
    · exact .inl code
    · cases born
    · cases gone
    · cases cached
  fresh := nofun
  back := nofun
  code := .inl rfl
  retiring := by
    rintro dir (queued | old)
    · cases queued
    · exact old.elim
  shared := nofun
  unfinished := nofun
  entry := nofun

theorem moved_housed {s : Site β} (housed : Housed reg s) (t : System)
    (gone : ∀ dir ∈ t.removed.drop s.func.removed.length, dir ∈ s.puller.removed) (code : t.codeDir = s.func.codeDir)
    (retiring : ∀ dir, t.Retiring dir → dir ∈ s.puller.removed)
    (insts : ∀ i, i < t.nextInst → (t.inst i).codeDir = s.func.codeDir ∧ s.cachesCode ∨
      i < s.func.nextInst ∧ (t.inst i).codeDir = (s.func.inst i).codeDir ∧
        ((t.inst i).pc ≠ .stopped → (s.func.inst i).pc ≠ .stopped)) : Housed reg (s.moved t) := by
  have removed : ∀ dir, dir ∈ (s.moved t).puller.removed ↔ dir ∈ s.puller.removed := by
    intro dir
    refine ⟨fun member => ?_,fun member => List.mem_append_left _ member⟩
    exact (List.mem_append.mp member).elim id (gone dir)
  have known : ∀ dir, (s.moved t).Known dir → s.Known dir := by
    rintro dir (same | ⟨i,born,same⟩ | member | cached)
    · exact .inl (same.trans code)
    · rcases insts i born with ⟨new,_⟩ | ⟨old,kept,_⟩
      · exact .inl (same.symm.trans new)
      · exact .inr (.inl ⟨i,old,kept.symm.trans same⟩)
    · exact .inr (.inr (.inl ((removed dir).mp member)))
    · exact .inr (.inr (.inr cached))
  constructor
  · exact fun dir there => housed.made dir (known dir there)
  · exact fun dir here => ⟨(housed.fresh dir here).1,fun there => (housed.fresh dir here).2 (known dir there)⟩
  · exact housed.back
  · change t.codeDir = "" ∨ t.codeDir ∈ _ ∨ _
    rw [removed,Site.cachesCode,show (s.moved t).func.codeDir = s.func.codeDir from code,code]
    exact housed.code
  · exact fun dir old => (removed dir).mpr (retiring dir old)
  · intro i born entry cached same
    change entry.path = t.codeDir
    rcases insts i born with ⟨new,_⟩ | ⟨old,kept,_⟩
    · rw [← same,code]
      exact new
    · rw [code]
      exact housed.shared i old entry cached (kept.symm.trans same)
  · intro i born unfinished
    change (t.inst i).codeDir ∉ _
    rw [removed]
    rcases insts i born with ⟨new,entry,cached,same⟩ | ⟨old,kept,before⟩
    · rw [new,← same]
      exact housed.entry entry cached
    · rw [kept]
      exact housed.unfinished i old (before unfinished)
  · intro entry cached
    rw [removed]
    exact housed.entry entry cached

theorem puller_housed {s : Site β} (housed : Housed reg s) (p : Puller β) (asked : Nat)
    (cache : p.dirCache = s.puller.dirCache) (removed : p.removed = s.puller.removed)
    (later : s.puller.nextDirId ≤ p.nextDirId)
    (fresh : ∀ dir, p.pc.dir = some dir → s.puller.pc.dir = some dir ∨ p.Made reg dir ∧ ¬ s.Known dir)
    (back : ∀ dir, p.pc = .returned (.ok dir) → ∃ entry, s.puller.dirCache = some entry ∧ entry.path = dir) :
    Housed reg {s with puller := p,asked := asked} := by
  have known : ∀ dir, Site.Known {s with puller := p,asked := asked} dir ↔ s.Known dir := by
    intro dir
    unfold Site.Known
    rw [cache,removed]
  constructor
  · exact fun dir there => (housed.made dir ((known dir).mp there)).imp id fun made => made_later made later
  · intro dir here
    rw [known]
    rcases fresh dir here with old | new
    · exact ⟨made_later (housed.fresh dir old).1 later,(housed.fresh dir old).2⟩
    · exact new
  · rw [cache]
    exact back
  · rw [Site.cachesCode,removed,cache]
    exact housed.code
  · rw [removed]
    exact housed.retiring
  · rw [cache]
    exact housed.shared
  · rw [removed]
    exact housed.unfinished
  · rw [removed,cache]
    exact housed.entry

theorem next_unknown {s : Site β} (housed : Housed reg s) : ¬ s.Known (reg.dir (s.puller.nextDirId + 1)) := by
  intro known
  rcases housed.made _ known with empty | ⟨id,below,same⟩
  · exact dir_nonempty reg _ empty
  · have equal := dir_injective reg same
    omega

theorem extract_housed {s : Site β} (housed : Housed reg s) (here : s.puller.pc = .extracting attrs content dir)
    (calm : ∀ entry, s.puller.dirCache = some entry → ∀ i, i < s.func.nextInst → (s.func.inst i).codeDir = entry.path →
      (s.func.inst i).pc = .stopped) :
    Housed reg {s with puller := s.puller.store attrs content dir} := by
  obtain ⟨made,unknown⟩ := housed.fresh dir (by rw [here]; rfl)
  have other : ∀ entry, s.puller.dirCache = some entry → entry.path ≠ dir :=
    fun entry cached same => unknown (.inr (.inr (.inr ⟨entry,cached,same⟩)))
  rw [store_eq s.puller _ _ _ other]
  have removed : ∀ old, old ∈ s.puller.removed ++ (s.puller.dirCache.map (·.path)).toList ↔
      old ∈ s.puller.removed ∨ ∃ entry, s.puller.dirCache = some entry ∧ entry.path = old := by
    intro old
    simp
  constructor
  · rintro old (code | inst | gone | ⟨entry,cached,rfl⟩)
    · exact housed.made old (.inl code)
    · exact housed.made old (.inr (.inl inst))
    · rcases (removed old).mp gone with before | cached
      · exact housed.made old (.inr (.inr (.inl before)))
      · exact housed.made old (.inr (.inr (.inr cached)))
    · cases cached
      exact .inr made
  · nofun
  · intro back same
    cases same
    exact ⟨_,rfl,rfl⟩
  · rcases housed.code with empty | gone | cached
    · exact .inl empty
    · exact .inr (.inl ((removed _).mpr (.inl gone)))
    · exact .inr (.inl ((removed _).mpr (.inr cached)))
  · exact fun old retiring => (removed old).mpr (.inl (housed.retiring old retiring))
  · intro i born entry cached same
    cases cached
    exact absurd (.inr (.inl ⟨i,born,same⟩)) unknown
  · intro i born unfinished gone
    rcases (removed _).mp gone with before | ⟨entry,cached,same⟩
    · exact housed.unfinished i born unfinished before
    · exact unfinished (calm entry cached i born same.symm)
  · intro entry cached gone
    cases cached
    rcases (removed _).mp gone with before | old
    · exact unknown (.inr (.inr (.inl before)))
    · exact unknown (.inr (.inr (.inr old)))

theorem pullTurn_housed {s : Site β} (housed : Housed reg s) (turn : PullTurn reg s.puller action p) (asked : Nat)
    (kept : action ≠ .reset) (stored : action ≠ .extract none) : Housed reg {s with puller := p,asked := asked} := by
  cases turn with
  | reset => exact absurd rfl kept
  | extracted => exact absurd rfl stored
  | uploaded | deleted => exact puller_housed housed _ asked rfl rfl (Nat.le_refl _) (fun _ => .inl) housed.back
  | otherDir => exact puller_housed housed _ asked rfl rfl (Nat.le_succ _) (fun _ => .inl) housed.back
  | refused | called | missed | untagged | read | failed =>
      exact puller_housed housed _ asked rfl rfl (Nat.le_refl _) nofun nofun
  | hit here present cached same =>
      refine puller_housed housed _ asked rfl rfl (Nat.le_refl _) nofun ?_
      intro dir back
      cases back
      exact ⟨_,cached,rfl⟩
  | copied here =>
      refine puller_housed housed _ asked rfl rfl (Nat.le_succ _) ?_ nofun
      intro dir new
      cases new
      exact .inr ⟨⟨_,Nat.le_refl _,rfl⟩,next_unknown housed⟩
  | made here =>
      refine puller_housed housed _ asked rfl rfl (Nat.le_refl _) ?_ nofun
      intro dir same
      exact .inl (by rw [here]; exact same)

theorem dirtied_housed {s : Site β} (housed : Housed reg s) (back : s.puller.pc = .returned (.ok dir))
    (different : dir ≠ s.func.codeDir) (t : System) (code : t.codeDir = s.func.codeDir)
    (queue : t.cleanupChan = s.func.cleanupChan) (outside : t.pc.switches = false) (inst : t.inst = s.func.inst)
    (next : t.nextInst = s.func.nextInst) :
    Housed reg {s with func := t,puller := {s.puller.removeAll [dir] with dirCache := none,pc := .idle}} := by
  obtain ⟨entry,cached,rfl⟩ := housed.back dir back
  have known : ∀ old, Site.Known {s with
      func := t,puller := {s.puller.removeAll [entry.path] with dirCache := none,pc := .idle}} old → s.Known old := by
    rintro old (same | ⟨i,born,same⟩ | gone | ⟨other,found,_⟩)
    · exact .inl (same.trans code)
    · exact .inr (.inl ⟨i,next ▸ born,by rw [← same,inst]⟩)
    · rcases List.mem_append.mp gone with before | new
      · exact .inr (.inr (.inl before))
      · exact .inr (.inr (.inr ⟨entry,cached,(List.mem_singleton.mp new).symm⟩))
    · cases found
  constructor
  · exact fun old there => housed.made old (known old there)
  · nofun
  · nofun
  · change t.codeDir = "" ∨ t.codeDir ∈ _ ∨ _
    rw [code]
    rcases housed.code with empty | gone | ⟨other,found,same⟩
    · exact .inl empty
    · exact .inr (.inl (List.mem_append_left _ gone))
    · cases cached.symm.trans found
      exact absurd same different
  · exact fun old retiring => List.mem_append_left _ (housed.retiring old (retiring_queued queue outside retiring))
  · nofun
  · intro i born unfinished gone
    dsimp only at born unfinished gone
    rw [inst] at unfinished gone
    rw [next] at born
    rcases List.mem_append.mp gone with before | new
    · exact housed.unfinished i born unfinished before
    · exact different (housed.shared i born entry cached (List.mem_singleton.mp new))
  · nofun

theorem switched_housed {s : Site β} (housed : Housed reg s) (back : s.puller.pc = .returned (.ok dir))
    (different : dir ≠ s.func.codeDir) (t : System) (code : t.codeDir = dir)
    (queue : t.cleanupChan = s.func.cleanupChan) (pc : t.pc = .checking req s.func.codeDir) (inst : t.inst = s.func.inst)
    (next : t.nextInst = s.func.nextInst) : Housed reg {s with func := t,puller := {s.puller with pc := .idle}} := by
  obtain ⟨entry,cached,rfl⟩ := housed.back dir back
  constructor
  · rintro old (same | ⟨i,born,same⟩ | known)
    · exact housed.made old (.inr (.inr (.inr ⟨entry,cached,(same.trans code).symm⟩)))
    · exact housed.made old (.inr (.inl ⟨i,next ▸ born,by rw [← same,inst]⟩))
    · exact housed.made old (.inr (.inr known))
  · nofun
  · nofun
  · exact .inr (.inr ⟨entry,cached,code.symm⟩)
  · rintro old (queued | left)
    · exact housed.retiring old (.inl (queue ▸ queued))
    · -- the directory left behind is not the one in the cache
      dsimp only at left
      rw [pc] at left
      obtain ⟨rfl,first,_⟩ := left
      rcases housed.code with empty | gone | ⟨other,found,same⟩
      · exact absurd empty first
      · exact gone
      · cases cached.symm.trans found
        exact absurd same different
  · intro i born other found same
    cases cached.symm.trans found
    exact code.symm
  · intro i born unfinished
    dsimp only at born unfinished ⊢
    rw [inst] at unfinished ⊢
    exact housed.unfinished i (next ▸ born) unfinished
  · exact housed.entry

def Site.released (s : Site β) (dir : String) : Bool :=
  (List.range s.func.nextInst).all fun i => decide ((s.func.inst i).codeDir ≠ dir ∨ (s.func.inst i).pc = .stopped)

-- The steps that nothing in the code orders after the last use of a directory:
-- putCache, the failure of a pull that leaves its directory in the cache, and
-- the start of an instance after a pull that failed behind its download.
def calm (conf : Conf) (s : Site β) : SiteAction β → Bool
  | .puller (.extract none) => s.puller.dirCache.all fun old => s.released old.path
  | .settle (.ok config) install env => match s.puller.pc with
      | .returned (.ok dir) =>
          decide (dir = s.func.codeDir) || config.python ||
            ((Pulled.mk (.ok dir) (.ok config) install env).prepareErr config).isNone
      | _ => true
  | .task .scale =>
      (s.puller.dirCache.any fun entry => decide (entry.path = s.func.codeDir)) ||
        !(step conf s.func .scale).any fun t => decide (s.func.nextInst < t.nextInst)
  | _ => true

theorem calm_store {s : Site β} (met : calm conf s (.puller (.extract none)) = true)
    (cached : s.puller.dirCache = some entry) (born : i < s.func.nextInst) (uses : (s.func.inst i).codeDir = entry.path) :
    (s.func.inst i).pc = .stopped := by
  have released : s.released entry.path = true := by simpa [calm,cached] using met
  have either := List.all_eq_true.mp released i (List.mem_range.mpr born)
  rcases of_decide_eq_true either with other | stopped
  · exact absurd uses other
  · exact stopped

theorem calm_start {s : Site β} (met : calm conf s (.task .scale) = true) (moved : step conf s.func .scale = some t)
    (more : s.func.nextInst < t.nextInst) : s.cachesCode := by
  simp only [calm,moved,Option.any_some,more,decide_true,Bool.not_true,Bool.or_false] at met
  cases cached : s.puller.dirCache with
  | none => simp [cached] at met
  | some entry => exact ⟨entry,cached,by simpa [cached] using met⟩

theorem task_housed {s : Site β} (housed : Housed reg s) (met : calm conf s (.task action) = true)
    (other : ∀ pulled, action ≠ .pull pulled) (moved : step conf s.func action = some t) : Housed reg (s.moved t) := by
  have turn := (step_turn moved).2
  obtain ⟨code,gone,retiring⟩ := turn_dirs turn other
  refine moved_housed housed t (fun dir member => housed.retiring dir (gone dir member)) code
    (fun dir old => housed.retiring dir (retiring dir old)) ?_
  intro i born
  rcases turn_born turn born with old | ⟨rfl,more,new⟩
  · exact .inr ⟨old,(turn_kept turn old).codeDir,turn_unfinished turn old⟩
  · exact .inl ⟨new,calm_start met moved more⟩

theorem passed_housed {s : Site β} (housed : Housed reg s) (t : System) (removed : t.removed = s.func.removed)
    (code : t.codeDir = s.func.codeDir) (retiring : ∀ dir, t.Retiring dir → s.func.Retiring dir)
    (inst : t.inst = s.func.inst) (next : t.nextInst = s.func.nextInst) : Housed reg {s with func := t} := by
  rw [← moved_same s t removed]
  refine moved_housed housed t (by simp [removed]) code (fun dir old => housed.retiring dir (retiring dir old)) ?_
  intro i born
  exact .inr ⟨next ▸ born,by rw [inst],by rw [inst]; exact id⟩

theorem checking_retiring {s : System}
    (retiring : System.Retiring {s with pc := .checking req s.codeDir} dir) : s.Retiring dir := by
  rcases retiring with queued | ⟨rfl,_,different⟩
  · exact .inl queued
  · exact absurd rfl different

theorem siteTurn_housed {s : Site β} (housed : Housed reg s) (met : calm conf s action = true)
    (turn : SiteTurn conf reg s action t) : Housed reg t := by
  cases turn with
  | task other moved => exact task_housed housed met other moved
  | skipped here => exact passed_housed housed _ rfl rfl (fun _ => checking_retiring) rfl rfl
  | called turn => exact pullTurn_housed housed turn _ nofun nofun
  | @puller action p turn notCall notReset =>
      by_cases storing : action = .extract none
      · subst action
        cases turn with
        | extracted here => exact extract_housed housed here fun _ cached _ => calm_store met cached
        | failed => exact puller_housed housed _ _ rfl rfl (Nat.le_refl _) nofun nofun
      · exact pullTurn_housed housed turn s.asked notReset storing
  | kept here back =>
      have idle := puller_housed housed {s.puller with pc := .idle} s.asked rfl rfl (Nat.le_refl _) nofun nofun
      exact passed_housed idle _ rfl rfl (fun _ => checking_retiring) rfl rfl
  | failed here back =>
      have idle := puller_housed housed {s.puller with pc := .idle} s.asked rfl rfl (Nat.le_refl _) nofun nofun
      exact passed_housed idle _ rfl rfl (fun _ => retiring_queued rfl rfl) rfl rfl
  | @dirtied req dir config install env err here back different failed =>
      have python : config.python = true := by simpa [calm,back,different,failed] using met
      rw [python]
      exact dirtied_housed housed back different _ rfl rfl rfl rfl rfl
  | switched here back different => exact switched_housed housed back different _ rfl rfl rfl rfl rfl

theorem codeDirs_outlive {s : Site β}
    (meets : Meets (siteStep conf reg) (fun s action => calm conf s action) Site.init actions)
    (ran : run (siteStep conf reg) Site.init actions = some s) :
    (∀ i, i < s.func.nextInst → (s.func.inst i).pc ≠ .stopped → (s.func.inst i).codeDir ∉ s.puller.removed) ∧
      ∀ entry, s.puller.dirCache = some entry → entry.path ∉ s.puller.removed := by
  have housed : Housed reg s := run_preserves_guarded (Housed reg)
    (fun _ _ _ housed met moved => siteTurn_housed housed met (siteStep_turn moved)) (init_housed reg) meets ran
  exact ⟨housed.unfinished,housed.entry⟩

def requestsVersion (method : String) (version : Nat) : List (SiteAction String) :=
  [.puller (.upload ⟨version,"handler"⟩),.task (.invoke method),.task .receive,.puller .call,.puller (.attributes none),
    .puller (.read none),.puller (.copy none),.puller (.mkdir none),.puller (.extract none),
    .settle (.ok (codeMeta .native true ["GET"])) none none,.task .check]

def unusedUpdate : List (SiteAction String) :=
  requestsVersion "POST" 1 ++ [.task .signal] ++ requestsVersion "GET" 2 ++
    [.task .kill,.task .queue,.task .dispatch,.task .scale,.task .cleanup]

theorem codeDirs_outlive_update :
    ∃ s, run (siteStep ⟨false,0⟩ echo) Site.init unusedUpdate = some s ∧
      s.puller.removed = ["/worker/code/1001-echo","/worker/code/1001-echo"] ∧
      (s.func.inst 0).codeDir = "/worker/code/1002-echo" ∧ (s.func.inst 0).codeDir ∉ s.puller.removed := by
  have meets : Meets (siteStep ⟨false,0⟩ echo) (fun s action => calm ⟨false,0⟩ s action) Site.init unusedUpdate := by
    decide +kernel
  have seen : (run (siteStep ⟨false,0⟩ echo) Site.init unusedUpdate).map
      (fun s => (s.puller.removed,(s.func.inst 0).codeDir,s.func.nextInst,(s.func.inst 0).pc)) =
        some (["/worker/code/1001-echo","/worker/code/1001-echo"],"/worker/code/1002-echo",1,.waiting) := by
    decide +kernel
  obtain ⟨s,ran,facts⟩ := Option.map_eq_some_iff.mp seen
  simp only [Prod.mk.injEq] at facts
  obtain ⟨removed,code,one,waiting⟩ := facts
  have kept := (codeDirs_outlive meets ran).1 0 (by omega) (by rw [waiting]; nofun)
  exact ⟨s,ran,removed,code,kept⟩

def usedUpdate : List (SiteAction String) :=
  requestsVersion "GET" 1 ++ [.task .dispatch,.task .scale] ++ (requestsVersion "GET" 2).dropLast.dropLast

theorem codeDir_removed :
    ∃ s, run (siteStep ⟨false,0⟩ echo) Site.init usedUpdate = some s ∧ 0 ∈ s.func.instances ∧
      (s.func.inst 0).pc = .waiting ∧ (s.func.inst 0).killed = false ∧ (s.func.inst 0).codeDir ∈ s.puller.removed := by
  have seen : (run (siteStep ⟨false,0⟩ echo) Site.init usedUpdate).map
      (fun s => (s.func.instances,(s.func.inst 0).pc,(s.func.inst 0).killed,s.puller.removed,(s.func.inst 0).codeDir)) =
        some ([0],.waiting,false,["/worker/code/1001-echo"],"/worker/code/1001-echo") := by decide +kernel
  obtain ⟨s,ran,facts⟩ := Option.map_eq_some_iff.mp seen
  simp only [Prod.mk.injEq] at facts
  obtain ⟨instances,waiting,alive,removed,code⟩ := facts
  exact ⟨s,ran,by simp [instances],waiting,alive,by simp [removed,code]⟩

end OpenLambda.Lambda
