import OpenLambda.Lambda.CodeDirs

namespace OpenLambda.Lambda
open Foundation.Runs

def TaskPc.rests : TaskPc → Bool
  | .selecting | .pulling _ | .checking _ _ | .signalling _ false => true
  | _ => false

def TaskPc.sends : TaskPc → Bool
  | .switching _ _ _ | .queueKill _ _ _ _ | .queueCode _ _ | .dispatching _ => true
  | _ => false

def TaskPc.shrinks : TaskPc → Bool
  | .queueScaled _ _ _ => true
  | _ => false

-- Requests are sent only with code at hand, and every scaling step leaves an
-- instance or the timer.
structure Woken (s : System) : Prop where
  fetched : s.funcMeta ≠ none → s.codeDir ≠ ""
  sent : 0 < s.outstandingReqs → s.funcMeta ≠ none
  sends : s.pc.sends = true → s.funcMeta ≠ none
  shrinks : s.pc.shrinks = true → s.instances ≠ []
  rests : s.pc.rests = true → 0 < s.outstandingReqs → s.instances ≠ [] ∨ s.timeout ≠ none

theorem init_woken : Woken init := by
  constructor <;> simp [init,TaskPc.sends,TaskPc.shrinks]

theorem desired_pos (outstandingReqs avg : Int) : 1 ≤ desiredInstances outstandingReqs avg := by
  unfold desiredInstances
  omega

theorem desired_le (outstandingReqs avg : Int) : desiredInstances outstandingReqs avg ≤ max 1 outstandingReqs := by
  unfold desiredInstances
  omega

theorem enough_instances {instances : List Nat} (enough : 1 ≤ (instances.length : Int)) : instances ≠ [] := by
  rintro rfl
  simp at enough

theorem woken_same {s t : System} (woken : Woken s) (code : t.codeDir = s.codeDir) (config : t.funcMeta = s.funcMeta)
    (outstanding : t.outstandingReqs ≤ s.outstandingReqs) (instances : t.instances = s.instances)
    (timeout : t.timeout = s.timeout) (sends : t.pc.sends = true → s.funcMeta ≠ none)
    (shrinks : t.pc.shrinks = true → s.pc.shrinks = true) (rests : t.pc.rests = true → s.pc.rests = true) : Woken t where
  fetched := by rw [code,config]; exact woken.fetched
  sent := by
    intro some
    rw [config]
    exact woken.sent (Int.lt_of_lt_of_le some outstanding)
  sends := by rw [config]; exact sends
  shrinks := by
    intro shrinking
    rw [instances]
    exact woken.shrinks (shrinks shrinking)
  rests := by
    intro resting some
    rw [instances,timeout]
    exact woken.rests (rests resting) (Int.lt_of_lt_of_le some outstanding)

theorem woken_scaled {s t : System} (woken : Woken s) (code : t.codeDir = s.codeDir) (config : t.funcMeta = s.funcMeta)
    (outstanding : t.outstandingReqs = s.outstandingReqs) (here : t.pc = .selecting)
    (left : t.instances ≠ [] ∨ t.timeout ≠ none) : Woken t where
  fetched := by rw [code,config]; exact woken.fetched
  sent := by rw [config,outstanding]; exact woken.sent
  sends := by rw [here]; nofun
  shrinks := by rw [here]; nofun
  rests := fun _ _ => left

theorem timer_woken (woken : Woken s) :
    Woken {s with timeout := none,pc := if s.codeDir = "" then .selecting else .scaling} := by
  refine ⟨woken.fetched,woken.sent,?_,?_,?_⟩
  · dsimp only
    split <;> nofun
  · dsimp only
    split <;> nofun
  · intro resting some
    dsimp only at resting
    split at resting
    · rename_i unfetched
      exact absurd unfetched (woken.fetched (woken.sent some))
    · cases resting

theorem limited_woken (woken : Woken s) (last : Nat) :
    Woken {s with
      timeout := if desiredInstances s.outstandingReqs s.execMs.avg ≠ s.instances.length then some (last + adjustFreq)
        else s.timeout
      pc := .selecting} := by
  refine woken_scaled woken rfl rfl rfl rfl ?_
  dsimp only
  split
  · exact .inr nofun
  · rename_i same
    have positive := desired_pos s.outstandingReqs s.execMs.avg
    exact .inl (enough_instances (by omega))

theorem turn_woken (woken : Woken s) (turn : Turn conf s action t)
    (named : ∀ pulled, action = .pull pulled → pulled.codeDir ≠ .ok "") : Woken t := by
  have away : ∀ {p : Prop}, false = true → p := fun wrong => absurd wrong Bool.false_ne_true
  cases turn with
  | timer => exact timer_woken woken
  | pullSwitched here pulledDir =>
      refine ⟨fun _ empty => named _ rfl (by rw [pulledDir]; exact congrArg _ empty),fun _ => Option.some_ne_none _,away,away,?_⟩
      intro _ some
      exact woken.rests (by rw [here]; rfl) some
  | dispatched here =>
      have known := woken.sends (by rw [here]; rfl)
      exact ⟨woken.fetched,fun _ => known,away,away,away⟩
  | limited => exact limited_woken woken _
  | grown here few fetched known => exact woken_scaled woken rfl rfl rfl rfl (.inl (by simp [System.adjusted]))
  | growPanicked here few =>
      refine woken_scaled woken rfl rfl rfl rfl (.inr ?_)
      simp [System.adjusted,Int.ne_of_lt few]
  | @shrunk front i here many last =>
      refine ⟨woken.fetched,woken.sent,away,?_,away⟩
      intro _
      have positive := desired_pos s.outstandingReqs s.execMs.avg
      have enough : 1 ≤ (front.length : Int) := by
        rw [last,List.length_append,List.length_singleton] at many
        omega
      exact enough_instances enough
  | balanced here same =>
      have enough : 1 ≤ (s.instances.length : Int) := same ▸ desired_pos s.outstandingReqs s.execMs.avg
      exact woken_scaled woken rfl rfl rfl rfl (.inl (enough_instances enough))
  | scaledDown here =>
      have left := woken.shrinks (by rw [here]; rfl)
      exact woken_scaled woken rfl rfl rfl rfl (.inl left)
  | @signalled req scale here =>
      refine woken_same woken rfl rfl (Int.le_refl _) rfl rfl ?_ ?_ ?_
      · cases scale <;> exact away
      · cases scale <;> exact away
      · cases scale with
        | true => exact away
        | false => exact fun _ => by rw [here]; rfl
  | checkSwitch here known | checkKept here known =>
      exact woken_same woken rfl rfl (Int.le_refl _) rfl rfl (fun _ => by simp [known]) away away
  | queued message =>
      have sends : s.pc.sends = true → s.funcMeta ≠ none := woken.sends
      refine woken_same woken rfl rfl (Int.le_refl _) rfl rfl ?_ ?_ ?_ <;>
        cases here : s.pc <;> rw [here] at message <;> cases message <;>
          first | exact fun _ => sends (by rw [here]; rfl) | exact away
  | switchKill here =>
      exact woken_same woken rfl rfl (Int.le_refl _) rfl rfl (fun _ => woken.sends (by rw [here]; rfl)) away away
  | switchEnd here =>
      have known := woken.sends (by rw [here]; rfl)
      exact ⟨woken.fetched,woken.sent,fun _ => known,away,away⟩
  | finished here =>
      exact woken_same woken rfl rfl (Int.sub_le_self _ (by decide)) rfl rfl away away away
  | received here | pullKept here | pullFailed here | pullDirtied here | checkRefused here =>
      exact woken_same woken rfl rfl (Int.le_refl _) rfl rfl away away (fun _ => by rw [here]; rfl)
  | overflowed | takenKill | exited | dyingKill | dyingEnd =>
      exact woken_same woken rfl rfl (Int.le_refl _) rfl rfl away away away
  | invoked | refused | ticked | checkPanicked | askedKill | removed | awaited | taken | acted | reported | grabbed
  | idled | acked => exact woken_same woken rfl rfl (Int.le_refl _) rfl rfl woken.sends id id

-- The names that dirMaker gives out are not empty, so Pull returns none that is.
structure Named (p : Puller β) : Prop where
  entry : ∀ entry, p.dirCache = some entry → entry.path ≠ ""
  dir : ∀ dir, p.pc.dir = some dir → dir ≠ ""
  back : ∀ dir, p.pc = .returned (.ok dir) → dir ≠ ""

theorem init_named : Named (Puller.init : Puller β) := by
  constructor <;> simp [Puller.init,PullPc.dir]

theorem pullTurn_named {p : Puller β} (named : Named p) (turn : PullTurn reg p action q) : Named q := by
  cases turn with
  | uploaded | deleted | otherDir => exact {named with}
  | reset => exact {named with entry := nofun}
  | refused | called | missed | untagged | read | failed => exact ⟨named.entry,nofun,nofun⟩
  | hit here present cached =>
      refine ⟨named.entry,nofun,?_⟩
      intro dir back
      cases back
      exact named.entry _ cached
  | copied here =>
      refine ⟨named.entry,?_,nofun⟩
      intro dir new
      cases new
      exact dir_nonempty reg _
  | made here => exact ⟨named.entry,fun dir same => named.dir dir (by rw [here]; exact same),nofun⟩
  | @extracted attrs content dir here =>
      have nonempty := named.dir dir (by rw [here]; rfl)
      refine ⟨?_,nofun,?_⟩
      · intro entry cached
        cases cached
        exact nonempty
      · intro back same
        cases same
        exact nonempty

theorem siteTurn_named {s : Site β} (named : Named s.puller) (turn : SiteTurn conf reg s action t) : Named t.puller := by
  cases turn with
  | task | skipped => exact {named with}
  | called turn | puller turn => exact pullTurn_named named turn
  | kept | failed | switched => exact ⟨named.entry,nofun,nofun⟩
  | @dirtied req dir config =>
      refine ⟨?_,nofun,nofun⟩
      cases config.python with
      | true => nofun
      | false => exact named.entry

theorem siteTurn_woken {s : Site β} (woken : Woken s.func) (named : Named s.puller) (turn : SiteTurn conf reg s action t) :
    Woken t.func := by
  cases turn with
  | task other moved => exact turn_woken woken (step_turn moved).2 fun pulled same => absurd same (other pulled)
  | called | puller => exact woken
  | skipped here | kept here | failed here | dirtied here =>
      exact woken_same woken rfl rfl (Int.le_refl _) rfl rfl nofun nofun (fun _ => by rw [here]; rfl)
  | switched here back different =>
      refine ⟨fun _ => named.back _ back,fun _ => nofun,nofun,nofun,?_⟩
      intro _ some
      exact woken.rests (by rw [here]; rfl) some

theorem turn_count (turn : Turn conf s action t) :
    t.instances.length ≤ s.instances.length ∨ (t.instances.length : Int) ≤ max 1 s.outstandingReqs := by
  cases turn with
  | switchEnd => exact .inl (Nat.zero_le _)
  | grown here few =>
      have bound := desired_le s.outstandingReqs s.execMs.avg
      refine .inr ?_
      simp only [System.adjusted,List.length_append,List.length_singleton]
      omega
  | shrunk here many last => exact .inl (by simp [last])
  | _ => exact .inl (Nat.le_refl _)

theorem siteTurn_count {s : Site β} (turn : SiteTurn conf reg s action t) :
    t.func.instances.length ≤ s.func.instances.length ∨ (t.func.instances.length : Int) ≤ max 1 s.func.outstandingReqs := by
  cases turn with
  | task other moved => exact turn_count (step_turn moved).2
  | _ => exact .inl (Nat.le_refl _)

def System.blocked (s : System) : Bool :=
  decide (s.fault = none ∧ s.pc = .selecting ∧ s.funcChan = [] ∧ s.doneChan = [] ∧ s.killChan = 0) &&
    s.timeout.all fun due => decide (s.now < due)

theorem blocked_parts {s : System} (blocked : s.blocked = true) :
    s.pc = .selecting ∧ ∀ due, s.timeout = some due → s.now < due := by
  obtain ⟨quiet,unfired⟩ := Bool.and_eq_true_iff.mp blocked
  refine ⟨(of_decide_eq_true quiet).2.1,?_⟩
  intro due set
  simpa [set] using unfired

theorem work_has_instance_or_timer {s : Site β} (ran : run (siteStep conf reg) Site.init actions = some s) :
    (s.func.blocked = true → 0 < s.func.outstandingReqs → s.func.instances ≠ [] ∨
      ∃ due, s.func.timeout = some due ∧ s.func.now < due ∧ s.func.codeDir ≠ "") ∧
    (∀ peak, (∀ early t, early <+: actions → run (siteStep conf reg) Site.init early = some t →
      t.func.outstandingReqs ≤ peak) → (s.func.instances.length : Int) ≤ max 1 peak) ∧
    ∀ t, siteStep conf reg s (.task .scale) = some t → t.func.instances.length < s.func.instances.length →
      t.func.instances ≠ [] := by
  have both : Woken s.func ∧ Named s.puller := by
    refine run_preserves (fun s : Site β => Woken s.func ∧ Named s.puller) ?_ ⟨init_woken,init_named⟩ ran
    rintro s action t ⟨woken,named⟩ moved
    have turn := siteStep_turn moved
    exact ⟨siteTurn_woken woken named turn,siteTurn_named named turn⟩
  refine ⟨?_,?_,?_⟩
  · intro blocked some
    obtain ⟨here,unfired⟩ := blocked_parts blocked
    rcases both.1.rests (by rw [here]; rfl) some with instances | armed
    · exact .inl instances
    · obtain ⟨due,set⟩ := Option.ne_none_iff_exists'.mp armed
      exact .inr ⟨due,set,unfired due set,both.1.fetched (both.1.sent some)⟩
  · intro peak visited
    have start : ((Site.init : Site β).func.instances.length : Int) ≤ max 1 peak := by
      change 0 ≤ max 1 peak
      omega
    refine run_preserves_guarded (fun s : Site β => (s.func.instances.length : Int) ≤ max 1 peak) ?_ start
      (meets_of_visited visited) ran
    intro s action t few below moved
    rcases siteTurn_count (siteStep_turn moved) with fewer | capped <;> omega
  · intro t moved fewer
    cases siteStep_turn moved with
    | task other stepped =>
        have woken := turn_woken both.1 (step_turn stepped).2 nofun
        have turn := (step_turn stepped).2
        change _ < _ at fewer
        cases turn with
        | shrunk => exact woken.shrinks rfl
        | limited | growPanicked | balanced => exact absurd fewer (Nat.lt_irrefl _)
        | grown => exact absurd fewer (by simp [Site.moved,System.adjusted])

def switchedEarly : List (SiteAction String) :=
  requestsVersion "GET" 1 ++ [.task .dispatch,.task .scale] ++ requestsVersion "GET" 2 ++
    [.task .kill,.task .queue,.task .kill,.task .queue,.task .dispatch,.task .scale]

theorem work_has_timer :
    ∃ s, run (siteStep ⟨false,0⟩ echo) Site.init switchedEarly = some s ∧ s.func.outstandingReqs = 2 ∧
      s.func.instances = [] ∧ ∃ due, s.func.timeout = some due ∧ s.func.now < due := by
  have seen : (run (siteStep ⟨false,0⟩ echo) Site.init switchedEarly).map
      (fun s => (s.func.blocked,s.func.outstandingReqs,s.func.instances)) = some (true,2,[]) := by decide +kernel
  obtain ⟨s,ran,facts⟩ := Option.map_eq_some_iff.mp seen
  simp only [Prod.mk.injEq] at facts
  obtain ⟨blocked,two,instances⟩ := facts
  rcases (work_has_instance_or_timer ran).1 blocked (by rw [two]; decide) with some | ⟨due,set,later,_⟩
  · exact absurd instances some
  · exact ⟨s,ran,two,instances,due,set,later⟩

end OpenLambda.Lambda
