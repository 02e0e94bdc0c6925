import OpenLambda.Boss.UpdateCounts
import OpenLambda.Boss.WorkerHands
import OpenLambda.Foundation.Tally

namespace OpenLambda.Boss
open Foundation.Runs Foundation.Hands Foundation.Tally

def WorkerPool.scalingWorker (s : WorkerPool) (count : Int) : Int := if s.cap < count then s.cap else count

def Action.actor : Action → Option Nat
  | .go i | .choose i _ => some i
  | _ => none

def acting (i : Nat) (s : WorkerPool) (action : Action) : Option WorkerPool :=
  if action.actor = some i then step s action else none

structure Returned (first : List Nat) (i : Nat) (t : WorkerPool) : Prop where
  finished : (t.go i).pc = .done
  received : t.queue <:+ first

def WorkerPool.counts (s : WorkerPool) : Counts where
  target := s.target
  starting := s.len .starting
  running := s.len .running
  cleaning := s.len .cleaning
  destroying := s.len .destroying
  queue := s.queue.length

theorem len_tally (s : WorkerPool) (state : WorkerState) :
    s.len state = tally s.nextId fun w => if (s.worker w).maps state then 1 else 0 := by
  unfold WorkerPool.len
  induction s.nextId with
  | zero => rfl
  | succ n ih =>
      rw [tally_succ,← ih,List.range_succ,List.countP_append,Int.natCast_add]
      simp [List.countP_cons]

theorem len_put {s : WorkerPool} (known : w < s.nextId) (x : Worker) (state : WorkerState) : (s.put w x).len state =
    s.len state - (if (s.worker w).maps state then 1 else 0) + if x.maps state then 1 else 0 := by
  rw [len_tally,len_tally]
  exact tally_update known s.worker x fun _ x => if x.maps state then 1 else 0

theorem len_nonneg (s : WorkerPool) (state : WorkerState) : 0 ≤ s.len state := Int.natCast_nonneg _

theorem len_pos_iff (s : WorkerPool) (state : WorkerState) :
    0 < s.len state ↔ ∃ w, w < s.nextId ∧ (s.worker w).maps state = true := by
  unfold WorkerPool.len
  rw [Int.natCast_pos,List.countP_pos_iff]
  simp only [List.mem_range]

structure Course (first : List Nat) (i : Nat) (s : WorkerPool) : Prop where
  sound : s.fault = none
  free : s.lock = none
  born : i < s.nextGo
  dealt : Dealt s
  apart : ∀ w, (s.worker w).maps .running = true → (s.worker w).maps .cleaning = false
  received : s.queue <:+ first
  recovers : ∀ w toBeRecover due, (s.go i).pc = .recovering w toBeRecover due → (s.worker w).maps .cleaning = true
  steady : s.counts.Steady (s.go i)

theorem known_of_maps {s : WorkerPool} (dealt : Dealt s) (present : (s.worker w).maps state = true) : w < s.nextId := by
  apply Classical.byContradiction
  intro beyond
  cases present.symm.trans ((dealt.fresh w (Nat.not_lt.mp beyond)).2 state)

theorem len_shift {s : WorkerPool} (known : w < s.nextId) (source : (s.worker w).maps before = true)
    (target : (s.worker w).maps after = false) (state : WorkerState) :
    (s.put w ((s.worker w).shift before after)).len state =
      s.len state + if state = after then 1 else if state = before then -1 else 0 := by
  rw [len_put known]
  change _ - _ + (if (if state = after then true else if state = before then false else (s.worker w).maps state) = true
    then 1 else 0) = _
  by_cases new : state = after
  · subst new
    simp [target]
  · by_cases old : state = before
    · subst old
      simp only [if_neg new,if_pos source,if_true,Bool.false_eq_true,if_false]
      omega
    · simp only [if_neg new,if_neg old]
      omega

theorem counts_clean {s : WorkerPool} (known : w < s.nextId) (running : (s.worker w).maps .running = true)
    (cleaning : (s.worker w).maps .cleaning = false) (i left : Nat) : (s.cleanWorker i w left).counts =
    {s.counts with running := s.counts.running - 1,cleaning := s.counts.cleaning + 1} := by
  have len : ∀ state, (s.cleanWorker i w left).len state = _ := len_shift known running cleaning
  simp only [WorkerPool.counts,len]
  rfl

theorem counts_recover {s : WorkerPool} (known : w < s.nextId) (running : (s.worker w).maps .running = false)
    (cleaning : (s.worker w).maps .cleaning = true) (i : Nat) (toBeRecover : Int) (due : List Nat) :
    (s.recoverWorker i w toBeRecover due).counts =
    {s.counts with running := s.counts.running + 1,cleaning := s.counts.cleaning - 1} := by
  have len : ∀ state, (s.recoverWorker i w toBeRecover due).len state = _ := len_shift known cleaning running
  simp only [WorkerPool.counts,len]
  rfl

theorem acting_parts (moved : acting i s action = some t) : action.actor = some i ∧ Turn s action t := by
  unfold acting at moved
  split at moved
  · rename_i own
    exact ⟨own,(step_turn moved).2⟩
  · cases moved

theorem go_at (s : WorkerPool) (i : Nat) (pc : Pc) : (s.at i pc).go i = ⟨pc,(s.go i).stack⟩ := Function.update_self i _ s.go

theorem go_back (s : WorkerPool) (i : Nat) : (s.back i).go i = resumed (s.go i).stack := by
  refine (Function.update_self i _ s.go).trans ?_
  cases (s.go i).stack with
  | nil => rfl
  | cons => rfl

theorem go_clean {s : WorkerPool} (born : i < s.nextGo) (w left : Nat) :
    (s.cleanWorker i w left).go i = ⟨.taking left,(s.go i).stack⟩ :=
  (Function.update_of_ne (Nat.ne_of_lt born) _ _).trans (go_at _ i (.taking left))

theorem go_recover (s : WorkerPool) (i w : Nat) (toBeRecover : Int) (due : List Nat) :
    (s.recoverWorker i w toBeRecover due).go i = ⟨.sizing,(toBeRecover,due) :: (s.go i).stack⟩ :=
  Function.update_self i _ _

theorem not_cleaning {s : WorkerPool} (dealt : Dealt s) (here : (s.go i).pc = .cleaning w left) :
    (s.worker w).maps .running = true ∧ (s.worker w).maps .cleaning = false := by
  have carried : (s.go i).pc.carries = some (w,.running) := congrArg Pc.carries here
  have hand : s.hands i = some w := congrArg (Option.map Prod.fst) carried
  have present := (held_known dealt hand).2
  refine ⟨dealt.carried i w .running carried,Bool.eq_false_iff.mpr ?_⟩
  exact fun cleaning => present (.inr (.inl cleaning))

theorem none_due {s : WorkerPool} (none : ∀ w ∈ s.due Option.none, (s.worker w).maps .cleaning = false) :
    s.len .cleaning = 0 := by
  apply Classical.byContradiction
  intro some
  have positive : 0 < s.len .cleaning := lt_of_le_of_ne (len_nonneg s .cleaning) (Ne.symm some)
  obtain ⟨w,known,cleaning⟩ := (len_pos_iff s .cleaning).mp positive
  have produced : w ∈ s.due Option.none := List.mem_filter.mpr ⟨List.mem_range.mpr known,cleaning⟩
  cases cleaning.symm.trans (none w produced)

-- No worker is started: the cleaned and the recovered ones stay in the cluster.
theorem never_short (course : Course first i s) (start : (s.go i).pc = .comparing size) : ¬0 < s.target - size := by
  have stage := course.steady.stage
  rw [start] at stage
  have fits : s.target ≤ size := stage ▸ course.steady.fits
  omega

theorem move_tick (course : Course first i s) (move : Move s i t) : Tick s.counts (s.go i) t.counts (t.go i) := by
  have stage := course.steady.stage
  have here : ∀ {pc}, (s.go i).pc = pc → s.go i = ⟨pc,(s.go i).stack⟩ := fun same => by rw [← same]
  cases move with
  | sized start =>
      rw [go_at,here start]
      exact .sized
  | short start more => exact absurd more (never_short course start)
  | enough start less =>
      rw [go_at,here start]
      exact .enough
  | excess start more =>
      rw [go_at,here start]
      exact .excess more
  | noExcess start none =>
      rw [go_at,here start]
      exact .noExcess none
  | allCleaned start =>
      rw [go_at,here start]
      exact .allCleaned
  | @took left w rest start queue =>
      have length : s.counts.queue = rest.length + 1 := congrArg List.length queue
      change Tick s.counts (s.go i) {s.counts with queue := rest.length} ((s.at i (.cleaning w left)).go i)
      rw [go_at,here start]
      exact .took length
  | cleaned start =>
      obtain ⟨running,cleaning⟩ := not_cleaning course.dealt start
      rw [counts_clean (known_of_maps course.dealt running) running cleaning,go_clean course.born,here start]
      exact .cleaned
  | lack start more =>
      rw [go_at,here start]
      exact .lack more
  | noLack start none =>
      rw [go_back,here start]
      exact .noLack none
  | @allRecovered toBeRecover due start ended =>
      rw [go_back,here start]
      refine .allRecovered ?_
      rintro rfl
      exact ended.imp_right none_due
  | recovered start =>
      have cleaning := course.recovers _ _ _ start
      have running : (s.worker _).maps .running = false :=
        Bool.eq_false_iff.mpr fun both => Bool.false_ne_true ((course.apart _ both).symm.trans cleaning)
      have known := known_of_maps course.dealt cleaning
      rw [counts_recover known running cleaning,go_recover,here start]
      exact .recovered ((len_pos_iff s .cleaning).mpr ⟨_,known,cleaning⟩)
  | received _ start | requeued _ start | _ start =>
      rw [start] at stage
      exact stage.elim

theorem shift_apart {s : WorkerPool} (apart : ∀ w, (s.worker w).maps .running = true → (s.worker w).maps .cleaning = false)
    (w : Nat) (before after : WorkerState) (swap : before = .running ∧ after = .cleaning ∨ before = .cleaning ∧ after = .running)
    (v : Nat) (running : ((s.put w ((s.worker w).shift before after)).worker v).maps .running = true) :
    ((s.put w ((s.worker w).shift before after)).worker v).maps .cleaning = false := by
  rw [put_worker] at running ⊢
  split
  · rename_i same
    rw [if_pos same] at running
    rcases swap with ⟨rfl,rfl⟩ | ⟨rfl,rfl⟩
    · cases running
    · rfl
  · rename_i other
    rw [if_neg other] at running
    exact apart v running

theorem resumed_pc (stack : List (Int × List Nat)) (w : Nat) (toBeRecover : Int) (due : List Nat) :
    (resumed stack).pc ≠ .recovering w toBeRecover due := by
  cases stack with
  | nil => nofun
  | cons => nofun

theorem move_course (course : Course first i s) (move : Move s i t) : Course first i t := by
  have dealt := move_dealt course.dealt move
  have born := Nat.lt_of_lt_of_le course.born (move_nextGo move)
  have steady := tick_steady course.steady (move_tick course move)
  have stage := course.steady.stage
  have elsewhere : ∀ {t : WorkerPool} {g}, t.go i = g → (∀ w toBeRecover due, g.pc ≠ .recovering w toBeRecover due) →
      ∀ w toBeRecover due, (t.go i).pc = .recovering w toBeRecover due → (t.worker w).maps .cleaning = true :=
    fun same other w toBeRecover due there => absurd (same ▸ there) (other w toBeRecover due)
  cases move with
  | sized | enough | excess | noExcess | allCleaned | lack =>
      exact {course with born,dealt,steady,recovers := elsewhere (go_at s i _) nofun}
  | short start more => exact absurd more (never_short course start)
  | noLack | allRecovered =>
      exact {course with born,dealt,steady,recovers := elsewhere (go_back s i) (resumed_pc _)}
  | @took left w rest start queue =>
      exact {course with
        born,dealt,steady
        received := (List.IsSuffix.trans ⟨[w],queue.symm⟩ course.received)
        recovers := elsewhere (go_at s i _) nofun}
  | @cleaned w left start =>
      exact {course with
        born,dealt,steady
        apart := shift_apart course.apart w .running .cleaning (.inl ⟨rfl,rfl⟩)
        recovers := elsewhere (go_clean course.born w left) nofun}
  | @recovered w toBeRecover due start =>
      exact {course with
        born,dealt,steady
        apart := shift_apart course.apart w .cleaning .running (.inr ⟨rfl,rfl⟩)
        recovers := elsewhere (go_recover s i w toBeRecover due) nofun}
  | received _ start | requeued _ start | _ start =>
      rw [start] at stage
      exact stage.elim

theorem choose_tick (course : Course first i s) (here : (s.go i).pc = .choosing toBeRecover due) (more : 0 < toBeRecover)
    (cleaning : (s.worker w).maps .cleaning = true) (rest : List Nat) :
    Tick s.counts (s.go i) s.counts ⟨.recovering w toBeRecover rest,(s.go i).stack⟩ := by
  have start : s.go i = ⟨.choosing toBeRecover due,(s.go i).stack⟩ := by rw [← here]
  rw [start]
  exact .chose more ((len_pos_iff s .cleaning).mpr ⟨w,known_of_maps course.dealt cleaning,cleaning⟩)

theorem acting_course (course : Course first i s) (moved : acting i s action = some t) :
    Course first i t ∧ Tick s.counts (s.go i) t.counts (t.go i) := by
  obtain ⟨own,turn⟩ := acting_parts moved
  have dealt := turn_dealt course.dealt turn
  cases turn with
  | setTarget | runLambda | getWorker | failed => cases own
  | moved known free move =>
      cases own
      exact ⟨move_course course move,move_tick course move⟩
  | @chose i toBeRecover due w known free here more cleaning =>
      cases own
      have tick := choose_tick course here more cleaning ((s.due due).erase w)
      rw [← go_at] at tick
      refine ⟨{course with dealt,recovers := ?_,steady := tick_steady course.steady tick},tick⟩
      intro v budget rest there
      rw [go_at] at there
      cases there
      exact cleaning

theorem acting_go (sound : s.fault = none) (free : s.lock = none) (born : i < s.nextGo) :
    acting i s (.go i) = s.advance i := by
  have own : (Action.go i).actor = some i := rfl
  unfold acting step
  rw [if_pos own,if_neg (not_not_intro sound)]
  exact if_pos ⟨born,.inl free⟩

theorem acting_advance (moved : acting i s (.go i) = some t) : s.advance i = some t := by
  have own : (Action.go i).actor = some i := rfl
  unfold acting step at moved
  rw [if_pos own] at moved
  split at moved
  · cases moved
  · dsimp only at moved
    split at moved
    · exact moved
    · cases moved

theorem acting_choose (course : Course first i s) (here : (s.go i).pc = .choosing toBeRecover due) (more : 0 < toBeRecover)
    (cleaning : (s.worker w).maps .cleaning = true) :
    acting i s (.choose i w) = some (s.at i (.recovering w toBeRecover ((s.due due).erase w))) := by
  have own : (Action.choose i w).actor = some i := rfl
  unfold acting step
  rw [if_pos own,if_neg (not_not_intro course.sound)]
  dsimp only
  rw [if_pos course.born]
  unfold WorkerPool.choose
  rw [here]
  exact if_pos ⟨course.free,more,cleaning⟩

theorem acting_sole (moved : acting i s action = some t) (outside : ∀ toBeRecover due, (s.go i).pc ≠ .choosing toBeRecover due) :
    action = .go i := by
  obtain ⟨own,turn⟩ := acting_parts moved
  cases turn with
  | setTarget | runLambda | getWorker | failed => cases own
  | moved => cases own; rfl
  | chose _ _ here => cases own; exact absurd here (outside _ _)

theorem acting_none (outside : ∀ toBeRecover due, (s.go i).pc ≠ .choosing toBeRecover due) (none : s.advance i = none)
    (action : Action) : acting i s action = Option.none := by
  apply Option.eq_none_iff_forall_ne_some.mpr
  intro t moved
  cases acting_sole moved outside
  cases none.symm.trans (acting_advance moved)

theorem empty_stuck {s : WorkerPool} (here : (s.go i).pc = .taking (left + 1)) (empty : s.queue = []) (action : Action) :
    acting i s action = none := by
  refine acting_none ?_ ?_ action
  · rw [here]
    exact nofun
  · unfold WorkerPool.advance
    rw [here]
    dsimp only
    rw [empty]

theorem acting_on (course : Course first i s) (busy : (s.go i).pc ≠ .done)
    (fed : ∀ left, (s.go i).pc = .taking (left + 1) → s.queue ≠ [])
    (loop : ∀ toBeRecover due, (s.go i).pc = .choosing toBeRecover due → toBeRecover ≤ 0 ∨ s.len .cleaning = 0) :
    ∃ t, acting i s (.go i) = some t := by
  have stage := course.steady.stage
  rw [acting_go course.sound course.free course.born]
  unfold WorkerPool.advance
  cases here : (s.go i).pc with
  | sizing | comparing | counting | cleaning | lacking | recovering => exact ⟨_,rfl⟩
  | done => exact absurd here busy
  | taking left =>
      cases left with
      | zero => exact ⟨_,rfl⟩
      | succ left =>
          obtain ⟨w,rest,queue⟩ := List.exists_cons_of_ne_nil (fed left here)
          dsimp only
          rw [queue]
          exact ⟨_,rfl⟩
  | choosing toBeRecover due =>
      have ended : toBeRecover ≤ 0 ∨ (s.due due).all (fun w => !(s.worker w).maps .cleaning) = true := by
        refine (loop toBeRecover due here).imp_right ?_
        intro none
        refine List.all_eq_true.mpr ?_
        intro w _
        rw [Bool.not_eq_true']
        apply Bool.eq_false_iff.mpr
        intro cleaning
        have some := (len_pos_iff s .cleaning).mpr ⟨w,known_of_maps course.dealt cleaning,cleaning⟩
        omega
      exact ⟨_,if_pos ended⟩
  | _ =>
      rw [here] at stage
      exact stage.elim

theorem demand_nonneg {c : Counts} (steady : c.Steady g) : 0 ≤ c.demand g := by
  have stack := load_nonneg steady.budgets
  have pairs := pairs_nonneg c.short
  unfold Counts.demand
  split
  · split <;> omega
  · split <;> omega
  · omega

theorem safe_fed (course : Course first i s) (safe : s.counts.gap (s.go i) ≤ 0 ∨ ¬s.counts.Over)
    (here : (s.go i).pc = .taking (left + 1)) : s.queue ≠ [] := by
  intro empty
  have starting := course.steady.starting
  have cleaning := course.steady.cleaning
  have demand := demand_nonneg course.steady
  have stage := course.steady.stage
  rw [here] at stage
  simp only [Counts.Stage] at stage
  have queue : s.counts.queue = 0 := congrArg List.length empty
  rcases safe with gap | under
  · unfold Counts.gap Counts.room at gap
    rw [here,queue] at gap
    simp only [Pc.inHand] at gap
    omega
  · simp only [Counts.Over,Counts.short] at under stage
    omega

theorem over_kept {c d : Counts} (tick : Tick c g d h) : d.Over ↔ c.Over := by
  obtain ⟨target,both⟩ := tick_kept tick
  unfold Counts.Over
  rw [target,both]

theorem course_returns (course : Course first i s) (safe : s.counts.gap (s.go i) ≤ 0 ∨ ¬s.counts.Over) :
    Inevitable (acting i) (Returned first i) s := by
  refine inevitable_of_rank (fun s => Course first i s ∧ (s.counts.gap (s.go i) ≤ 0 ∨ ¬s.counts.Over))
    (fun s => s.counts.rank (s.go i)) lex_founded ?_ ?_ s ⟨course,safe⟩
  · rintro s ⟨course,safe⟩
    by_cases done : (s.go i).pc = .done
    · exact .inl ⟨done,course.received⟩
    · refine .inr ?_
      by_cases loop : ∃ toBeRecover due, (s.go i).pc = .choosing toBeRecover due ∧ 0 < toBeRecover ∧ 0 < s.len .cleaning
      · obtain ⟨toBeRecover,due,here,more,some⟩ := loop
        obtain ⟨w,_,cleaning⟩ := (len_pos_iff s .cleaning).mp some
        exact ⟨_,_,acting_choose course here more cleaning⟩
      · have ended : ∀ toBeRecover due, (s.go i).pc = .choosing toBeRecover due → toBeRecover ≤ 0 ∨ s.len .cleaning = 0 := by
          intro toBeRecover due here
          have cleaning := len_nonneg s .cleaning
          have spent : ¬(0 < toBeRecover ∧ 0 < s.len .cleaning) := fun both => loop ⟨toBeRecover,due,here,both⟩
          omega
        exact ⟨_,acting_on course done (fun _ here => safe_fed course safe here) ended⟩
  · rintro s action t ⟨course,safe⟩ moved
    obtain ⟨next,tick⟩ := acting_course course moved
    refine ⟨⟨next,?_⟩,tick_falls course.steady tick⟩
    by_cases excess : s.counts.Over
    · refine .inl ?_
      have gap := safe.resolve_right (not_not_intro excess)
      exact Int.le_trans (tick_gap course.steady excess tick).1 gap
    · exact .inr fun later => excess ((over_kept tick).mp later)

theorem over_busy (course : Course first i s) (excess : s.counts.Over) (gap : 0 < s.counts.gap (s.go i)) :
    (s.go i).pc ≠ .done := by
  intro done
  have starting := course.steady.starting
  have more := over_short excess
  have stage := course.steady.stage
  rw [done] at stage
  simp only [Counts.Stage] at stage
  unfold Counts.gap Counts.demand Counts.room at gap
  rw [course.steady.ended done,done] at gap
  simp only [load,Pc.inHand] at gap
  rw [pairs_none (by omega)] at gap
  omega

theorem over_cleaning (course : Course first i s) (excess : s.counts.Over) (here : (s.go i).pc = .choosing toBeRecover due) :
    ∃ w, (s.worker w).maps .cleaning = true := by
  have starting := course.steady.starting
  have more := over_short excess
  have stage := course.steady.stage
  rw [here] at stage
  have some : 0 < s.counts.cleaning := by
    cases due with
    | none =>
        simp only [Counts.Stage] at stage
        omega
    | some =>
        simp only [Counts.Stage] at stage
        omega
  obtain ⟨w,_,cleaning⟩ := (len_pos_iff s .cleaning).mp some
  exact ⟨w,cleaning⟩

-- Without it, the loops that are never left early empty the queue.
theorem course_blocks (course : Course first i s) (excess : s.counts.Over) (gap : 0 < s.counts.gap (s.go i)) :
    ¬Inevitable (acting i) (Returned first i) s := by
  refine not_inevitable (fun s => Course first i s ∧ s.counts.Over ∧ 0 < s.counts.gap (s.go i)) ?_ ?_ ⟨course,excess,gap⟩
  · rintro s ⟨course,excess,gap⟩ returned
    exact over_busy course excess gap returned.finished
  · rintro s ⟨course,excess,gap⟩
    have keeps : ∀ {action t}, acting i s action = some t → Patient (s.go i) (t.go i) →
        ∃ action t, acting i s action = some t ∧ Course first i t ∧ t.counts.Over ∧ 0 < t.counts.gap (t.go i) := by
      intro action t moved patient
      obtain ⟨next,tick⟩ := acting_course course moved
      refine ⟨action,t,moved,next,(over_kept tick).mpr excess,?_⟩
      rwa [(tick_gap course.steady excess tick).2 patient]
    by_cases loop : ∃ toBeRecover due, (s.go i).pc = .choosing toBeRecover due ∧ 0 < toBeRecover
    · obtain ⟨toBeRecover,due,here,more⟩ := loop
      obtain ⟨w,cleaning⟩ := over_cleaning course excess here
      refine .inr (keeps (acting_choose course here more cleaning) ?_)
      intro other range same
      cases here.symm.trans same
      rw [go_at]
      exact .inr ⟨w,_,rfl⟩
    · have ended : ∀ toBeRecover due, (s.go i).pc = .choosing toBeRecover due → toBeRecover ≤ 0 :=
        fun toBeRecover due here => Int.not_lt.mp fun more => loop ⟨toBeRecover,due,here,more⟩
      by_cases fed : ∀ left, (s.go i).pc = .taking (left + 1) → s.queue ≠ []
      · obtain ⟨t,moved⟩ := acting_on course (over_busy course excess gap) fed fun _ _ here => .inl (ended _ _ here)
        exact .inr (keeps moved fun _ _ here => .inl (ended _ _ here))
      · simp only [not_forall,not_not] at fed
        obtain ⟨left,here,empty⟩ := fed
        exact .inl (empty_stuck here empty)

def Pc.sole : Pc → Bool
  | .choosing _ _ | .done => false
  | _ => true

theorem inevitable_sole (here : s.go i = ⟨pc,stack⟩) (sole : pc.sole = true) (moved : acting i s (.go i) = some t) :
    Inevitable (acting i) (Returned first i) s ↔ Inevitable (acting i) (Returned first i) t := by
  have outside : ∀ toBeRecover due, (s.go i).pc ≠ .choosing toBeRecover due := by
    intro toBeRecover due same
    cases (congrArg Goroutine.pc here).symm.trans same
    cases sole
  constructor
  · intro reaches
    cases reaches with
    | now returned =>
        cases (congrArg Goroutine.pc here).symm.trans returned.finished
        cases sole
    | later moves each => exact each _ t moved
  · intro reaches
    refine .later ⟨_,t,moved⟩ ?_
    intro action u other
    cases acting_sole other outside
    cases moved.symm.trans other
    exact reaches

theorem go_started {s : WorkerPool} (born : i < s.nextGo) (left : Nat) :
    (s.startNewWorker i left).go i = ⟨.starting left,(s.go i).stack⟩ :=
  (Function.update_of_ne (Nat.ne_of_lt born) _ _).trans (go_at _ i (.starting left))

theorem starting_returns {s : WorkerPool} (left : Nat) (sound : s.fault = none) (free : s.lock = none) (born : i < s.nextGo)
    (received : s.queue <:+ first) (here : s.go i = ⟨.starting left,[]⟩) : Inevitable (acting i) (Returned first i) s := by
  induction left generalizing s with
  | zero =>
      have moved : acting i s (.go i) = some (s.back i) := by
        rw [acting_go sound free born,WorkerPool.advance,here]
      refine (inevitable_sole here rfl moved).mpr (.now ⟨?_,received⟩)
      rw [go_back,here]
      rfl
  | succ left ih =>
      have moved : acting i s (.go i) = some (s.startNewWorker i left) := by
        rw [acting_go sound free born,WorkerPool.advance,here]
      refine (inevitable_sole here rfl moved).mpr (ih sound free (Nat.lt_succ_of_lt born) received ?_)
      rw [go_started born,here]

theorem sizing_returns {s : WorkerPool} (sound : s.fault = none) (free : s.lock = none) (born : i < s.nextGo)
    (received : s.queue <:+ first) (here : s.go i = ⟨.sizing,[]⟩) (short : s.size < s.target) :
    Inevitable (acting i) (Returned first i) s := by
  have sized : acting i s (.go i) = some (s.at i (.comparing s.size)) := by
    rw [acting_go sound free born,WorkerPool.advance,here]
  refine (inevitable_sole here rfl sized).mpr ?_
  let t := s.at i (.comparing s.size)
  have now : t.go i = ⟨.comparing s.size,[]⟩ := by rw [go_at,here]
  have compared : acting i t (.go i) = some (t.at i (.starting (s.target - s.size).toNat)) := by
    rw [acting_go (s := t) sound free born,WorkerPool.advance,now]
    exact congrArg (fun pc => some (t.at i pc)) (if_pos (Int.sub_pos_of_lt short))
  refine (inevitable_sole now rfl compared).mpr ?_
  refine starting_returns (s.target - s.size).toNat sound free born received ?_
  rw [go_at,now]

def Settles (s : WorkerPool) (target : Int) : Prop :=
  s.lock = none ∧ 0 ≤ target ∧ (s.len .running + s.len .cleaning ≤ target ∨
    pairs (target - s.len .starting - s.len .running) ≤ s.len .starting + s.len .running)

instance (s : WorkerPool) (target : Int) : Decidable (Settles s target) :=
  inferInstanceAs (Decidable (s.lock = none ∧ 0 ≤ target ∧ (s.len .running + s.len .cleaning ≤ target ∨
    pairs (target - s.len .starting - s.len .running) ≤ s.len .starting + s.len .running)))

theorem queue_length {s : WorkerPool} (dealt : Dealt s) (queued : ∀ w, (s.worker w).maps .running = true → w ∈ s.queue) :
    (s.queue.length : Int) = s.len .running := by
  unfold WorkerPool.len
  rw [List.countP_eq_length_filter]
  refine congrArg Nat.cast (List.Perm.length_eq ?_)
  refine (List.perm_ext_iff_of_nodup dealt.custody.distinct (List.nodup_range.filter _)).mpr ?_
  intro w
  rw [List.mem_filter,List.mem_range]
  constructor
  · intro member
    have running := dealt.queued w member
    exact ⟨known_of_maps dealt running,running⟩
  · exact fun both => queued w both.2

theorem queued_apart {s : WorkerPool} (dealt : Dealt s) (queued : ∀ w, (s.worker w).maps .running = true → w ∈ s.queue)
    (w : Nat) (running : (s.worker w).maps .running = true) : (s.worker w).maps .cleaning = false := by
  apply Bool.eq_false_iff.mpr
  intro cleaning
  exact (dealt.retired w (.inr (.inl cleaning))).1 (queued w running)

def WorkerPool.targeted (s : WorkerPool) (target : Int) : WorkerPool :=
  {s.spawn (.settingTarget target) with target := target}.at s.nextGo .sizing

theorem go_targeted (s : WorkerPool) (target : Int) : (s.targeted target).go s.nextGo = ⟨.sizing,[]⟩ := by
  refine (go_at _ s.nextGo .sizing).trans ?_
  exact congrArg (fun g => Goroutine.mk .sizing g.stack) (Function.update_self s.nextGo _ s.go)

theorem go_spawned (s : WorkerPool) (pc : Pc) : (s.spawn pc).go s.nextGo = ⟨pc,[]⟩ := Function.update_self s.nextGo _ s.go

theorem acting_targeted {s : WorkerPool} (sound : s.fault = none) (free : s.lock = none) (target : Int) :
    acting s.nextGo (s.spawn (.settingTarget target)) (.go s.nextGo) = some (s.targeted target) := by
  rw [acting_go (s := s.spawn (.settingTarget target)) sound free (Nat.lt_succ_self _),WorkerPool.advance,go_spawned]
  rfl

theorem locked_stuck {s : WorkerPool} (held : s.lock ≠ none) (target : Int) (action : Action) :
    acting s.nextGo (s.spawn (.settingTarget target)) action = none := by
  apply Option.eq_none_iff_forall_ne_some.mpr
  intro t moved
  have here := go_spawned s (.settingTarget target)
  cases acting_sole moved (by rw [here]; exact nofun)
  obtain ⟨_,turn⟩ := acting_parts moved
  cases turn with
  | moved known free move =>
      rw [here] at free
      rcases free with free | outside
      · exact held free
      · cases outside

theorem targeted_course (dealt : Dealt s) (queued : ∀ w, (s.worker w).maps .running = true → w ∈ s.queue)
    (sound : s.fault = none) (free : s.lock = none) (target : Int) (fits : target ≤ s.size) :
    Course s.queue s.nextGo (s.targeted target) where
  sound := sound
  free := free
  born := Nat.lt_succ_self _
  dealt := by
    have called : Dealt (s.spawn (.settingTarget target)) := turn_dealt dealt .setTarget
    exact move_dealt called (.targeted (congrArg Goroutine.pc (go_spawned s _)))
  apart := fun w => queued_apart dealt queued w
  received := List.suffix_rfl
  recovers := by
    rw [go_targeted]
    exact nofun
  steady := by
    rw [go_targeted]
    exact ⟨len_nonneg s .starting,len_nonneg s .cleaning,fits,nofun,nofun,trivial⟩

theorem settles_iff (dealt : Dealt s) (queued : ∀ w, (s.worker w).maps .running = true → w ∈ s.queue)
    (free : s.lock = none) (target : Int) : Settles s target ↔
      (s.targeted target).counts.gap ⟨.sizing,[]⟩ ≤ 0 ∨ ¬(s.targeted target).counts.Over := by
  have starting := len_nonneg s .starting
  have running := len_nonneg s .running
  have cleaning := len_nonneg s .cleaning
  have length := queue_length dealt queued
  have short : (s.targeted target).counts.short = target - s.len .starting - s.len .running := rfl
  have excess : (s.targeted target).counts.Over ↔ target < s.len .running + s.len .cleaning := Iff.rfl
  have gap : (s.targeted target).counts.gap ⟨.sizing,[]⟩ = 0 + pairs (target - s.len .starting - s.len .running) -
      (s.len .starting + min (target - s.len .starting - s.len .running) 0 + s.queue.length + 0) := rfl
  have positive := pairs_nonneg (target - s.len .starting - s.len .running)
  have none : target - s.len .starting - s.len .running ≤ 0 → pairs (target - s.len .starting - s.len .running) = 0 :=
    pairs_none
  unfold Settles
  rw [excess,gap,length]
  constructor
  · rintro ⟨_,above,_⟩
    omega
  · intro safe
    exact ⟨free,by omega,by omega⟩

theorem target_returns (ran : run step (newWorkerPool cap) actions = some s)
    (queued : ∀ w, (s.worker w).maps .running = true → w ∈ s.queue) (count : Int)
    (called : step s (.setTarget (s.scalingWorker count)) = some t) :
    Inevitable (acting s.nextGo) (Returned s.queue s.nextGo) t ↔ Settles s (s.scalingWorker count) := by
  have dealt := reached_dealt ran
  obtain ⟨sound,turn⟩ := step_turn called
  cases turn
  have here := go_spawned s (.settingTarget (s.scalingWorker count))
  by_cases free : s.lock = none
  · rw [inevitable_sole here rfl (acting_targeted sound free _)]
    by_cases fits : s.scalingWorker count ≤ s.size
    · have course := targeted_course dealt queued sound free _ fits
      have safe := settles_iff dealt queued free (s.scalingWorker count)
      rw [← go_targeted] at safe
      rw [safe]
      refine ⟨?_,course_returns course⟩
      intro reaches
      apply Classical.byContradiction
      intro blocked
      obtain ⟨gap,excess⟩ := not_or.mp blocked
      exact course_blocks course (not_not.mp excess) (Int.not_le.mp gap) reaches
    · -- a larger cluster only grows
      have short := Int.not_le.mp fits
      refine iff_of_true (sizing_returns sound free (Nat.lt_succ_self _) List.suffix_rfl (go_targeted s _) short) ?_
      have starting := len_nonneg s .starting
      have running := len_nonneg s .running
      have cleaning := len_nonneg s .cleaning
      have destroying := len_nonneg s .destroying
      unfold WorkerPool.size at short
      exact ⟨free,by omega,.inl (by omega)⟩
  · refine iff_of_false ?_ fun settles => free settles.1
    refine not_inevitable (fun t => t = _) ?_ ?_ rfl
    · rintro t rfl returned
      cases (congrArg Goroutine.pc here).symm.trans returned.finished
    · rintro t rfl
      exact .inl (locked_stuck free _)

def oneRunning : List Action := .setTarget 1 :: goes 0 5 ++ goes 1 9

theorem target_returns_none : ∃ s t, run step (newWorkerPool 1) oneRunning = some s ∧
    step s (.setTarget 0) = some t ∧ s.queue = [1] ∧ Inevitable (acting 2) (Returned [1] 2) t := by
  refine ⟨_,_,rfl,rfl,rfl,?_⟩
  have ran : run step (newWorkerPool 1) oneRunning = some _ := rfl
  refine (target_returns ran ?_ 0 rfl).mpr (by decide +kernel)
  intro w running
  have known : w < 2 := known_of_maps (reached_dealt ran) running
  have either : w = 0 ∨ w = 1 := by omega
  rcases either with rfl | rfl
  · cases running
  · exact List.mem_singleton.mpr rfl

theorem returned_final (s : WorkerPool) (action : Action) (returned : Returned first i s) : acting i s action = none := by
  refine acting_none ?_ ?_ action
  · rw [returned.finished]
    exact nofun
  · rw [WorkerPool.advance,returned.finished]

theorem empty_blocks (actions : List Action)
    (seen : (run (acting i) s actions).any (fun t => decide ((t.go i).pc = .taking 1 ∧ t.queue = [])) = true) :
    ¬Inevitable (acting i) (Returned first i) s := by
  intro reaches
  obtain ⟨t,ran,here,empty⟩ := run_seen seen
  cases inevitable_run returned_final reaches ran with
  | now returned => cases here.symm.trans returned.finished
  | later moves each =>
      obtain ⟨action,u,moved⟩ := moves
      cases (empty_stuck here empty action).symm.trans moved

def threeCleaning : List Action := .setTarget 3 :: goes 0 7 ++ goes 1 9 ++ goes 2 9 ++ goes 3 9 ++ .setTarget 0 :: goes 4 15

def asked : List Action :=
  goes 8 5 ++ .choose 8 1 :: goes 8 5 ++ .choose 8 2 :: goes 8 6 ++ .choose 8 3 :: goes 8 4

theorem target_blocks : (∃ s t, run step (newWorkerPool 3) threeCleaning = some s ∧
      (∀ w, (s.worker w).maps .running = true → w ∈ s.queue) ∧ s.lock = none ∧
      step s (.setTarget (s.scalingWorker 2)) = some t ∧ ¬Inevitable (acting s.nextGo) (Returned s.queue s.nextGo) t) ∧
    ∃ t, step (newWorkerPool 1) (.setTarget ((newWorkerPool 1).scalingWorker (-1))) = some t ∧
      ¬Inevitable (acting 0) (Returned [] 0) t := by
  constructor
  · refine ⟨_,_,rfl,?_,rfl,rfl,empty_blocks asked (by decide +kernel)⟩
    have ran : run step (newWorkerPool 3) threeCleaning = some _ := rfl
    intro w running
    have known : w < 4 := known_of_maps (reached_dealt ran) running
    have either : w = 0 ∨ w = 1 ∨ w = 2 ∨ w = 3 := by omega
    rcases either with rfl | rfl | rfl | rfl <;> cases running
  · exact ⟨_,rfl,empty_blocks (goes 0 4) (by decide +kernel)⟩

end OpenLambda.Boss
