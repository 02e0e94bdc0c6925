import OpenLambda.Sandbox.SockRefs

namespace OpenLambda.SockContainer

def Box.released (b : Box) : Prop := b.cgReleased = 1 ∧ b.memReleased = 1 ∧ b.rootReleased = 1

def Box.touched (b : Box) : Prop := b.cgReleased ≠ 0 ∨ b.memReleased ≠ 0 ∨ b.rootReleased ≠ 0

theorem releases_parts {b : Box} (releases : Releases b) :
    (b.cgReleased ≤ 1 ∧ b.memReleased ≤ 1 ∧ b.rootReleased ≤ 1 ∧ b.exitCalls ≤ 1 ∧ 0 ≤ b.cgRefCount) ∧
      (b.touched → b.cgRefCount = 0) ∧ (b.exitCalls ≠ 0 → b.released) := by
  unfold Releases at releases
  unfold Box.touched Box.released
  split at releases
  · simp only [Box.intact] at releases
    omega
  · omega
  · omega
  · omega
  · omega
  · omega
  · simp only [Box.intact,Box.spent] at releases
    split at releases <;> omega

end OpenLambda.SockContainer

namespace OpenLambda.SockSystem
open Foundation.Runs Foundation.Tally SafeWrapper SandboxEventType SockContainer

theorem zero_parts {s : System} (family : Family conf s) (within : p < s.nextId) (zero : (s.box p).cgRefCount = 0) :
    (s.box p).destroyed = true ∧ ∀ c, c < s.nextId → (s.box c).heldOn p = 0 := by
  have low := family.low within
  have refs := family.refs p within
  have positive : ∀ i, i < s.nextId → 0 ≤ (s.box i).heldOn p := fun i _ => heldOn_nonneg _ _
  have own : 0 ≤ (s.box p).floor := by
    unfold Box.floor
    cases (s.box p).destroyed <;> split <;> simp
  refine ⟨?_,?_⟩
  · cases destroyed : (s.box p).destroyed with
    | true => rfl
    | false =>
        simp only [Box.floor,destroyed,cond_false] at low
        split at low <;> omega
  · intro c inside
    have bound := le_tally positive inside
    have held := positive c inside
    simp only [Box.spare] at refs
    omega

theorem heldOn_zero {b : Box} (free : b.heldOn p = 0) (forked : b.forkedFrom p) : b.exitCalls ≠ 0 := by
  intro none
  simp only [Box.heldOn,forked,none,true_and,if_true] at free
  split at free <;> omega

theorem touched_parts {s : System} (family : Family conf s) (within : p < s.nextId) (touched : (s.box p).touched) :
    (s.box p).destroyed = true ∧ ∀ c, c < s.nextId → (s.box c).forkedFrom p → (s.box c).released := by
  obtain ⟨destroyed,free⟩ := zero_parts family within ((releases_parts (family.ok p within).releases).2.1 touched)
  refine ⟨destroyed,fun c inside forked => ?_⟩
  exact (releases_parts (family.ok c inside).releases).2.2 (heldOn_zero (free c inside) forked)

def Counted (s : System) : Prop := ∀ text, s.fault ≠ some (.fork text) ∧ s.fault ≠ some (.decCgRefCount text)

theorem localStep_counted {b : Box} (ok : BoxOK conf b) (low : b.floor ≤ b.cgRefCount) (step : LocalStep conf b out) :
    ∀ text, out.fault ≠ some (.fork text) ∧ out.fault ≠ some (.decCgRefCount text) := by
  intro text
  cases step with
  | decRef here => simp [(decCgRefCount_ok ok here low).2.1]
  | _ => simp

theorem answer_fault (s : System) (a : MemPool.Answer Client) : (s.answer a).fault = s.fault := by
  unfold System.answer
  split <;> rfl

theorem moves_counted {s t : System} (family : Family conf s) (counted : Counted s) (move : Moves conf s action t) :
    Counted t := by
  cases move with
  | act within moved _ => exact localStep_counted (family.ok _ within) (family.low within) moved
  | forkEntered within here made idle ran =>
      obtain ⟨alive,rfl⟩ := forkEnter_parts ran
      have order := (family.older _ _ within made).1
      have positive := (alive_count family (by omega) idle alive).2
      intro text
      simp only
      rw [if_neg (by omega)]
      simp
  | memReleased | memGranted => intro text; rw [answer_fault]; exact counted text
  | decide _ ran =>
      obtain ⟨tasks,last,next,started⟩ := start_parts _ _
      rw [started]
      exact counted
  | memPanic | updatePanic | decidePanic => intro text; simp
  | _ => exact counted

theorem reached_counted (ran : run (step conf) (init conf) actions = some s) : Counted s :=
  (reached_invariant (fun s => Family conf s ∧ Counted s)
    (fun _ _ _ valid move => ⟨moves_family valid.1 move,moves_counted valid.1 valid.2 move⟩)
    ⟨init_family conf,by intro text; simp [init]⟩ ran).2

theorem sock_release_safe (ran : run (step conf) (init conf) actions = some s) :
    (∀ i, i < s.nextId →
      ((s.box i).cgReleased ≤ 1 ∧ (s.box i).memReleased ≤ 1 ∧ (s.box i).rootReleased ≤ 1 ∧ (s.box i).exitCalls ≤ 1 ∧
        0 ≤ (s.box i).cgRefCount) ∧
      ((s.box i).touched →
        (s.box i).destroyed = true ∧ ∀ c, c < s.nextId → (s.box c).forkedFrom i → (s.box c).released)) ∧
    (∀ p child usageMB next, p < s.nextId → (s.box p).op = .idle →
      (s.box p).forkEnter child usageMB = .ok next → 0 < (s.box p).cgRefCount) ∧
    (∀ text, s.fault ≠ some (.fork text) ∧ s.fault ≠ some (.decCgRefCount text)) := by
  have family := reached_family ran
  refine ⟨fun i within => ⟨?_,?_⟩,?_,reached_counted ran⟩
  · exact (releases_parts (family.ok i within).releases).1
  · exact touched_parts family within
  · intro p child usageMB next within idle entered
    exact (alive_count family within idle (forkEnter_parts entered).1).2

def zygoteOutlived : List Action :=
  [.create none 0] ++ bornFresh 0 ++ [.create (some 0) 0] ++ forkBegins 1 ++ forkEnds 1 ++ destroyed 0 ++ [.act 0 .finish] ++
    destroyed 1 ++ released 1 ++ [.exitCall 1,.act 0 .decRef] ++ released 0 ++ [.exitReturn 0,.act 1 .finish]

theorem sock_release_safe_zygote : ∃ s, run (step smallConf) (init smallConf) zygoteOutlived = some s ∧
    (s.box 0).touched ∧ (s.box 0).destroyed = true ∧ (s.box 1).forkedFrom 0 ∧ (s.box 1).released := by
  have seen : (run (step smallConf) (init smallConf) zygoteOutlived).map
      (fun s => (s.nextId,(s.box 0).cgReleased,(s.box 1).parent)) = some (2,1,some 0) := by decide +kernel
  obtain ⟨s,ran,facts⟩ := Option.map_eq_some_iff.mp seen
  simp only [Prod.mk.injEq] at facts
  obtain ⟨two,released,child⟩ := facts
  have touched : (s.box 0).touched := .inl (by omega)
  obtain ⟨gone,children⟩ := ((sock_release_safe ran).1 0 (by omega)).2 touched
  exact ⟨s,ran,touched,gone,.inr child,children 1 (by omega) (.inr child)⟩

-- A whole call of fork, seen from the parent. No other step of the parent comes
-- between its two parts, which share the mutex.
def forkCall (p : Box) (child usageMB : Nat) (err : Option String) : Box × Option String :=
  match p.forkEnter child usageMB with
  | .error text => (p,some text)
  | .ok entered => ((entered.forkLeave err).1,err)

-- The children forked from `p` that have not reported their exit.
def System.livingChildren (s : System) (p : Nat) : Int :=
  tally s.nextId fun c => if (s.box c).forkedFrom p ∧ (s.box c).exitCalls = 0 then 1 else 0

-- The reference a fork or a childExit in progress has in its hands.
def inFlight (b : Box) : Int :=
  match b.op with
  | .forking _ | .decRef (.childExit _) => 1
  | _ => 0

def forkInFlight (b : Box) : Int :=
  match b.op with
  | .forking _ => 1
  | _ => 0

theorem forks_in_flight {s : System} (family : Family conf s) (within : p < s.nextId) :
    tally s.nextId (fun c => if (s.box c).op = .forkWait ∧ (s.box c).createParent = some p then 1 else 0) =
      forkInFlight (s.box p) := by
  unfold forkInFlight
  split
  · rename_i child busy
    obtain ⟨inside,waits,made⟩ := family.forking p child within busy
    refine (tally_congr fun c bound => if_congr ⟨?_,?_⟩ rfl rfl).trans (tally_single inside 1)
    · rintro ⟨other,born⟩
      have same := family.forkWait c p bound other born
      rw [busy] at same
      cases same
      rfl
    · rintro rfl
      exact ⟨waits,made⟩
  · rename_i free
    refine (tally_congr fun c bound => if_neg ?_).trans (tally_none s.nextId)
    rintro ⟨waits,born⟩
    exact free c (family.forkWait c p bound waits born)

theorem inFlight_parts (b : Box) : b.floor + forkInFlight b = (if b.destroyed then 0 else 1) + inFlight b := by
  unfold inFlight forkInFlight Box.floor
  cases b.op with
  | decRef after => cases after <;> cases b.destroyed <;> rfl
  | _ => cases b.destroyed <;> rfl

-- Where every reference is: with the container, its living children, the call
-- in progress, or lost to forks that failed after taking it.
theorem count_parts {s : System} (family : Family conf s) (within : p < s.nextId) :
    (s.box p).cgRefCount =
      (if (s.box p).destroyed then 0 else 1) + s.livingChildren p + inFlight (s.box p) + (s.box p).forkLeaks := by
  have refs := family.refs p within
  have hands := inFlight_parts (s.box p)
  unfold Box.heldOn at refs
  rw [tally_add,forks_in_flight family within,Box.spare] at refs
  rw [System.livingChildren]
  omega

theorem spent_of_zero {b : Box} (ok : BoxOK conf b) (zero : b.cgRefCount = 0) (quiet : b.op = .idle ∨ b.op = .discarded) :
    b.released := by
  have releases := ok.releases
  rcases quiet with here | here
  all_goals
    simp only [Releases,here] at releases
    rcases releases with ⟨positive,_⟩ | ⟨_,cg,mem,root,_⟩
    · omega
    · exact ⟨cg,mem,root⟩

-- The schedule lets no fork fail once it has taken its reference.
def forksClean (_ : System) (action : Action) : Prop := ∀ id err, action ≠ .forkLeave id (some err)

def Action.leavesWell : Action → Bool
  | .forkLeave _ (some _) => false
  | _ => true

theorem update_leaks {box : Nat → Box} {id : Nat} {b : Box} (clean : ∀ i, (box i).forkLeaks = 0)
    (kept : b.forkLeaks = 0) (i : Nat) : (Function.update box id b i).forkLeaks = 0 := by
  by_cases equal : i = id
  · rw [equal,Function.update_self,kept]
  · rw [Function.update_of_ne equal,clean i]

theorem answer_leaks {s : System} (clean : ∀ i, (s.box i).forkLeaks = 0) (a : MemPool.Answer Client) (i : Nat) :
    ((s.answer a).box i).forkLeaks = 0 := by
  obtain ⟨_,box | ⟨id,box⟩⟩ := answer_box s a
  · rw [box,clean i]
  · rw [box]
    exact update_leaks clean ((resume_quiet _).leaks.trans (clean id)) i

theorem moves_leaks {s t : System} (family : Family conf s) (clean : ∀ i, (s.box i).forkLeaks = 0)
    (guard : forksClean s action) (move : Moves conf s action t) : ∀ i, (t.box i).forkLeaks = 0 := by
  cases move with
  | create known => exact update_leaks clean rfl
  | act within moved _ =>
      exact update_leaks clean ((localStep_quiet (family.ok _ within) (family.low within) moved).leaks.trans (clean _))
  | memSend | forkRefused => exact update_leaks clean (clean _)
  | memReleased | memGranted => refine answer_leaks ?_ _; exact clean
  | forkEntered within here made idle ran =>
      obtain ⟨_,rfl⟩ := forkEnter_parts ran
      exact update_leaks (update_leaks clean (clean _)) (clean _)
  | forkFailed late => exact absurd late (guard _ _)
  | forkDone | exitCall | exitReturn => exact update_leaks (update_leaks clean (clean _)) (clean _)
  | decide _ ran =>
      obtain ⟨tasks,last,next,started⟩ := start_parts _ _
      rw [started]
      exact clean
  | _ => exact clean

theorem reached_leaks (meets : Meets (step conf) forksClean (init conf) actions)
    (ran : run (step conf) (init conf) actions = some s) : Family conf s ∧ ∀ i, (s.box i).forkLeaks = 0 := by
  refine run_preserves_guarded (fun s => Family conf s ∧ ∀ i, (s.box i).forkLeaks = 0) ?_
    ⟨init_family conf,fun _ => rfl⟩ meets ran
  intro s action t valid guard moved
  have move := (step_moves moved).2
  exact ⟨moves_family valid.1 move,moves_leaks valid.1 valid.2 guard move⟩

theorem forkCall_unchanged_iff (p : Box) (child usageMB : Nat) (err : String) :
    ((forkCall p child usageMB (some err)).1.cgRefCount = p.cgRefCount ∧
        (forkCall p child usageMB (some err)).1.children = p.children) ↔
      ∃ text, p.forkEnter child usageMB = .error text := by
  unfold forkCall
  cases entered : p.forkEnter child usageMB with
  | error text => simp
  | ok next =>
      obtain ⟨_,rfl⟩ := forkEnter_parts entered
      simp [Box.forkLeave,Box.unlock]

theorem fork_leaves_parent (conf : Conf) (parent : Box) (child usageMB : Nat) (err : String) :
    (((forkCall parent child usageMB (some err)).1.cgRefCount = parent.cgRefCount ∧
        (forkCall parent child usageMB (some err)).1.children = parent.children) ↔
      ∃ text, parent.forkEnter child usageMB = .error text) ∧
    ∀ actions s, Meets (step conf) forksClean (init conf) actions →
      run (step conf) (init conf) actions = some s → ∀ p, p < s.nextId →
        (s.box p).cgRefCount = (if (s.box p).destroyed then 0 else 1) + s.livingChildren p + inFlight (s.box p) ∧
        (inFlight (s.box p) = 0 → (s.box p).cgRefCount = (if (s.box p).destroyed then 0 else 1) + s.livingChildren p) ∧
        ((s.box p).destroyed = true → s.livingChildren p = 0 → (s.box p).op = .idle ∨ (s.box p).op = .discarded →
          (s.box p).memReleased = 1) := by
  refine ⟨forkCall_unchanged_iff parent child usageMB err,?_⟩
  intro actions s meets ran p within
  obtain ⟨family,clean⟩ := reached_leaks meets ran
  have count := count_parts family within
  rw [clean p] at count
  have settled : inFlight (s.box p) = 0 →
      (s.box p).cgRefCount = (if (s.box p).destroyed then 0 else 1) + s.livingChildren p := by
    intro none
    simpa [none] using count
  refine ⟨by simpa using count,settled,?_⟩
  intro gone childless quiet
  have grounded : inFlight (s.box p) = 0 := by
    rcases quiet with here | here <;> simp [inFlight,here]
  have zero : (s.box p).cgRefCount = 0 := by simpa [gone,childless] using settled grounded
  exact (spent_of_zero (family.ok p within) zero quiet).2.1

theorem fork_leaves_parent_zygote : ∃ s, run (step smallConf) (init smallConf) zygoteOutlived = some s ∧
    (s.box 0).destroyed = true ∧ (s.box 0).cgRefCount = 0 ∧ (s.box 0).memReleased = 1 := by
  have seen : (run (step smallConf) (init smallConf) zygoteOutlived).map
      (fun s => (s.nextId,(s.box 0).destroyed,(s.box 0).op,s.livingChildren 0)) = some (2,true,.idle,0) := by decide +kernel
  obtain ⟨s,ran,facts⟩ := Option.map_eq_some_iff.mp seen
  simp only [Prod.mk.injEq] at facts
  obtain ⟨two,gone,idle,childless⟩ := facts
  have clean : zygoteOutlived.all Action.leavesWell = true := by decide +kernel
  have meets : Meets (step smallConf) forksClean (init smallConf) zygoteOutlived := by
    refine meets_of_forall ?_ _
    intro action member _ id err late
    have passed := List.all_eq_true.mp clean action member
    rw [late] at passed
    cases passed
  have parts := (fork_leaves_parent smallConf (s.box 0) 1 0 forkFailed).2 zygoteOutlived s meets ran 0 (by omega)
  have grounded : inFlight (s.box 0) = 0 := by simp [inFlight,idle]
  have count := parts.2.1 grounded
  rw [gone,childless] at count
  exact ⟨s,ran,gone,count,parts.2.2 gone childless (.inl idle)⟩

def forkFailsLate : List Action :=
  [.forkLeave 1 (some "forkRequest failed"),.act 1 (.freeze none),.act 1 .decRef] ++ released 1 ++ [.act 1 .finish]

def zygoteLost : List Action :=
  [.create none 0] ++ bornFresh 0 ++ [.create (some 0) 0] ++ forkBegins 1 ++ forkFailsLate

-- Before the call the zygote counts 1 and has no children. Afterwards it counts
-- 2 and lists the dead child, and when it is destroyed in turn its 50 MB stay
-- with it for good: nothing is left to be done on any container.
theorem fork_leaves_reference :
    ((run (step smallConf) (init smallConf) ([.create none 0] ++ bornFresh 0)).map
      fun s => ((s.box 0).cgRefCount,(s.box 0).children)) = some (1,[]) ∧
    ((run (step smallConf) (init smallConf) zygoteLost).map
      fun s => ((s.box 1).safe.dead,(s.box 0).cgRefCount,(s.box 0).children,s.livingChildren 0)) =
        some (some (explicitlyKilled newSafeSandbox (createError forkFailed)),2,[1],0) ∧
    ((run (step smallConf) (init smallConf) (zygoteLost ++ destroyed 0 ++ [.act 0 .finish])).map
      fun s => ((s.box 0).op,(s.box 0).destroyed,(s.box 0).cgRefCount,(s.box 0).memReleased,s.livingChildren 0,
        s.pool.availableMB)) = some (.idle,true,1,0,0,450) := by
  decide +kernel

end OpenLambda.SockSystem
