import OpenLambda.Foundation.Runs
import OpenLambda.Sandbox.Evictor

namespace OpenLambda.Evictor
open Foundation.Runs Foundation.SharedLists SafeWrapper SandboxEventType

-- What Run does: the events in the order in which they come, and doEvictions with
-- whatever the memory is at that time. An event that panics ends it.
inductive Turn where
  | event (evType : SandboxEventType) (sb : Nat)
  | evict (memLimitMB totalMB availableMB : Int)
  deriving DecidableEq, Repr

def turn (e : SOCKEvictor) : Turn → Option SOCKEvictor
  | .event evType sb => (updateState e evType sb).toOption
  | .evict memLimitMB totalMB availableMB => (doEvictions memLimitMB totalMB availableMB e).toOption.map (·.1)

def SOCKEvictor.queue (e : SOCKEvictor) (queue : Queue) : List Nat := (e.lists.shelf queue).map (·.item)

def freeGoal (memLimitMB totalMB : Int) : Int :=
  1 + ((totalMB.tdiv memLimitMB - 2) * freeSandboxesPercentGoal).tdiv 100

def idleCount (memLimitMB totalMB availableMB : Int) (e : SOCKEvictor) : Int :=
  min (min (max 0 (freeGoal memLimitMB totalMB - availableMB.tdiv memLimitMB))
    (concurrentEvictions - (e.queue .evicting).length)) (e.queue .prio0).length

def forced (memLimitMB availableMB : Int) (e : SOCKEvictor) : List Nat :=
  if availableMB < memLimitMB ∧ e.queue .prio0 = [] ∧ e.queue .evicting = [] then (e.queue .prio1).take 1 else []

structure Taken (e next : SOCKEvictor) (source : Queue) (gone : List Nat) : Prop where
  shelved : Shelved next.lists
  front : e.queue source = gone ++ next.queue source
  evicting : next.queue .evicting = e.queue .evicting ++ gone
  others : ∀ queue, queue ≠ source → queue ≠ .evicting → next.queue queue = e.queue queue

theorem evictFront_none (e : SOCKEvictor) (queue : Queue) : evictFront e queue = none ↔ e.queue queue = [] := by
  unfold evictFront SOCKEvictor.queue
  cases e.lists.shelf queue <;> simp

theorem evictFront_taken {e : SOCKEvictor} (shelved : Shelved e.lists) (apart : source ≠ .evicting)
    (ran : evictFront e source = some (next,sb)) : Taken e next source [sb] := by
  unfold evictFront at ran
  split at ran
  · cases ran
  · rename_i front rest waiting
    cases ran
    have moved := move_front shelved waiting (Ne.symm apart)
    refine ⟨move_shelved shelved front.item (some .evicting),?_,?_,?_⟩
    · simp only [SOCKEvictor.queue,moved,waiting,Function.update_of_ne apart,Function.update_self]
      rfl
    · simp only [SOCKEvictor.queue,moved,Function.update_self,List.map_append]
      rfl
    · intro queue different still
      simp only [SOCKEvictor.queue,moved,Function.update_of_ne still,Function.update_of_ne different]

theorem taken_nothing {e : SOCKEvictor} (shelved : Shelved e.lists) (source : Queue) : Taken e e source [] :=
  ⟨shelved,rfl,(List.append_nil _).symm,fun _ _ _ => rfl⟩

theorem taken_trans (first : Taken e middle source gone) (second : Taken middle next source more) :
    Taken e next source (gone ++ more) := by
  refine ⟨second.shelved,?_,?_,?_⟩
  · rw [first.front,second.front,List.append_assoc]
  · rw [second.evicting,first.evicting,List.append_assoc]
  · intro queue different still
    rw [second.others queue different still,first.others queue different still]

theorem evictIdle_taken (count : Nat) {e : SOCKEvictor} (shelved : Shelved e.lists) :
    Taken e (evictIdle count e).1 .prio0 (evictIdle count e).2 ∧
      (evictIdle count e).2.length = min count (e.queue .prio0).length := by
  induction count generalizing e with
  | zero => exact ⟨taken_nothing shelved .prio0,(Nat.zero_min _).symm⟩
  | succ count ih =>
      cases front : evictFront e .prio0 with
      | none =>
          simp only [evictIdle,front,(evictFront_none e .prio0).mp front]
          exact ⟨taken_nothing shelved .prio0,(Nat.min_zero _).symm⟩
      | some result =>
          obtain ⟨middle,sb⟩ := result
          have one := evictFront_taken shelved (by decide) front
          obtain ⟨later,size⟩ := ih one.shelved
          simp only [evictIdle,front]
          refine ⟨taken_trans one later,?_⟩
          rw [one.front,List.length_cons,size,List.length_append]
          simp only [List.length_singleton]
          omega

theorem taken_length (taken : Taken e next source gone) :
    (next.queue .evicting).length = (e.queue .evicting).length + gone.length := by
  rw [taken.evicting,List.length_append]

theorem queue_length (e : SOCKEvictor) (queue : Queue) : (e.lists.shelf queue).length = (e.queue queue).length := by
  rw [SOCKEvictor.queue,List.length_map]

structure Evicted (p : Plan) (e calm next : SOCKEvictor) (idle running : List Nat) : Prop where
  first : Taken e calm .prio0 idle
  count : idle.length = min p.evictCount.toNat (e.queue .prio0).length
  second : Taken calm next .prio1 running
  choice : running = if p.freeSandboxes ≤ 0 ∧ calm.queue .evicting = [] then (calm.queue .prio1).take 1 else []

def tasksOf (idle running : List Nat) : List (Nat × Bool) :=
  idle.map (fun sb => (sb,false)) ++ running.map (fun sb => (sb,true))

theorem doEvictions_parts {e : SOCKEvictor} (shelved : Shelved e.lists)
    (ran : doEvictions memLimitMB totalMB availableMB e = .ok (next,tasks)) :
    ∃ calm idle running, tasks = tasksOf idle running ∧
      Evicted (plan memLimitMB totalMB availableMB (e.queue .evicting).length) e calm next idle running := by
  unfold doEvictions at ran
  split at ran
  · cases ran
  rw [queue_length] at ran
  generalize plan memLimitMB totalMB availableMB (e.queue .evicting).length = p at ran ⊢
  obtain ⟨taken,size⟩ := evictIdle_taken p.evictCount.toNat shelved
  have still : ((evictIdle p.evictCount.toNat e).1.lists.shelf .evicting).length = 0 ↔
      (evictIdle p.evictCount.toNat e).1.queue .evicting = [] := by rw [queue_length,List.length_eq_zero_iff]
  refine ⟨(evictIdle p.evictCount.toNat e).1,(evictIdle p.evictCount.toNat e).2,?_⟩
  dsimp only at ran
  split at ran
  · rename_i low
    rw [still] at low
    cases front : evictFront (evictIdle p.evictCount.toNat e).1 .prio1 with
    | none =>
        rw [front] at ran
        cases ran
        refine ⟨[],by simp [tasksOf],taken,size,taken_nothing taken.shelved .prio1,?_⟩
        rw [(evictFront_none _ .prio1).mp front,List.take_nil,ite_self]
    | some result =>
        obtain ⟨last,sb⟩ := result
        rw [front] at ran
        cases ran
        have one := evictFront_taken taken.shelved (by decide) front
        refine ⟨[sb],rfl,taken,size,one,?_⟩
        rw [if_pos low,one.front]
        rfl
  · rename_i enough
    rw [still] at enough
    cases ran
    exact ⟨[],by simp [tasksOf],taken,size,taken_nothing taken.shelved .prio1,by rw [if_neg enough]⟩

def Within (e : SOCKEvictor) : Prop := Shelved e.lists ∧ (e.queue .evicting).length ≤ concurrentEvictions

theorem prioQueue_ne (prio : Int) : prioQueue prio ≠ .evicting := by
  unfold prioQueue
  split
  · decide
  · split <;> decide

theorem updateState_lists (ran : updateState e evType sb = .ok next) :
    ∃ target, target ≠ some .evicting ∧ next.lists = move e.lists sb target := by
  unfold updateState at ran
  dsimp only at ran
  split at ran
  · cases ran
  · split at ran
    · cases ran
    · split at ran
      · cases ran
        exact ⟨none,by decide,rfl⟩
      · cases ran
        exact ⟨some (prioQueue _),fun same => prioQueue_ne _ (Option.some.inj same),rfl⟩

theorem updateState_within (within : Within e) (ran : updateState e evType sb = .ok next) : Within next := by
  obtain ⟨target,apart,lists⟩ := updateState_lists ran
  refine ⟨lists ▸ move_shelved within.1 sb target,?_⟩
  have shorter := move_length_le e.lists sb target apart
  rw [← lists,queue_length,queue_length] at shorter
  have room := within.2
  omega

theorem plan_count (memLimitMB totalMB availableMB : Int) (len : Nat) :
    (plan memLimitMB totalMB availableMB len).evictCount =
      min (freeGoal memLimitMB totalMB - availableMB.tdiv memLimitMB) (concurrentEvictions - len) := by
  change (if concurrentEvictions - (len : Int) < freeGoal memLimitMB totalMB - availableMB.tdiv memLimitMB then _
    else freeGoal memLimitMB totalMB - availableMB.tdiv memLimitMB) = _
  split <;> omega

theorem doEvictions_within (within : Within e) (ran : doEvictions memLimitMB totalMB availableMB e = .ok (next,tasks)) :
    Within next := by
  obtain ⟨calm,idle,running,_,evicted⟩ := doEvictions_parts within.1 ran
  refine ⟨evicted.second.shelved,?_⟩
  have size := taken_length evicted.first
  have more := taken_length evicted.second
  have count := evicted.count
  have room := within.2
  rw [plan_count] at count
  have one : running.length ≤ 1 ∧ (running ≠ [] → calm.queue .evicting = []) := by
    rw [evicted.choice]
    split
    · rename_i low
      exact ⟨List.length_take_le ..,fun _ => low.2⟩
    · exact ⟨Nat.zero_le _,fun some => absurd rfl some⟩
  by_cases none : running = []
  · rw [none,List.length_nil] at more
    omega
  · rw [one.2 none,List.length_nil] at more
    have cap : concurrentEvictions = 8 := rfl
    omega

theorem turn_within (e : SOCKEvictor) (action : Turn) (next : SOCKEvictor) (within : Within e)
    (moved : turn e action = some next) : Within next := by
  cases action with
  | event evType sb =>
      cases ran : updateState e evType sb with
      | error message => simp [turn,ran,Except.toOption] at moved
      | ok after =>
          simp only [turn,ran,Except.toOption,Option.some.injEq] at moved
          exact moved ▸ updateState_within within ran
  | evict memLimitMB totalMB availableMB =>
      cases ran : doEvictions memLimitMB totalMB availableMB e with
      | error message => simp [turn,ran,Except.toOption] at moved
      | ok result =>
          simp only [turn,ran,Except.toOption,Option.map_some,Option.some.injEq] at moved
          exact moved ▸ doEvictions_within within ran

theorem reached_within (ran : run turn newSOCKEvictor turns = some e) : Within e :=
  run_preserves Within turn_within ⟨empty_shelved,by decide⟩ ran

theorem freeSandboxes_iff (positive : 0 < memLimitMB) (availableMB : Int) :
    availableMB.tdiv memLimitMB ≤ 0 ↔ availableMB < memLimitMB := by
  by_cases nonneg : 0 ≤ availableMB
  · rw [Int.tdiv_eq_ediv_of_nonneg nonneg]
    have least : 1 ≤ availableMB / memLimitMB ↔ 1 * memLimitMB ≤ availableMB := Int.le_ediv_iff_mul_le positive
    omega
  · have opposite : 0 ≤ (-availableMB).tdiv memLimitMB := Int.tdiv_nonneg (by omega) (Int.le_of_lt positive)
    rw [Int.neg_tdiv] at opposite
    omega

theorem freeGoal_pos (positive : 0 < memLimitMB) (large : 2 * memLimitMB ≤ totalMB) : 1 ≤ freeGoal memLimitMB totalMB := by
  have two : 2 ≤ totalMB.tdiv memLimitMB := by
    rw [Int.tdiv_eq_ediv_of_nonneg (by omega)]
    exact (Int.le_ediv_iff_mul_le positive).mpr large
  have more : 0 ≤ ((totalMB.tdiv memLimitMB - 2) * freeSandboxesPercentGoal).tdiv 100 :=
    Int.tdiv_nonneg (Int.mul_nonneg (by omega) (by decide)) (by decide)
  unfold freeGoal
  omega

theorem doEvictions_ok (nonzero : memLimitMB ≠ 0) (totalMB availableMB : Int) (e : SOCKEvictor) :
    ∃ next tasks, doEvictions memLimitMB totalMB availableMB e = .ok (next,tasks) := by
  unfold doEvictions
  rw [if_neg nonzero]
  dsimp only
  split
  · split <;> exact ⟨_,_,rfl⟩
  · exact ⟨_,_,rfl⟩

-- An idle sandbox goes before a running one: with too little memory for one more
-- sandbox the goal asks for at least one eviction.
theorem choice_forced (positive : 0 < memLimitMB) (large : 2 * memLimitMB ≤ totalMB)
    (evicted : Evicted (plan memLimitMB totalMB availableMB (e.queue .evicting).length) e calm next idle running) :
    running = forced memLimitMB availableMB e := by
  have count := evicted.count
  have goal := freeGoal_pos positive large
  rw [plan_count] at count
  rw [evicted.choice,forced,evicted.first.others .prio1 (by decide) (by decide)]
  refine if_congr ?_ rfl rfl
  change availableMB.tdiv memLimitMB ≤ 0 ∧ _ ↔ _
  rw [freeSandboxes_iff positive,evicted.first.evicting,List.append_eq_nil_iff]
  have cap : concurrentEvictions = 8 := rfl
  constructor
  · rintro ⟨low,still,none⟩
    have free := (freeSandboxes_iff positive availableMB).mpr low
    rw [none,still,List.length_nil] at count
    exact ⟨low,List.eq_nil_of_length_eq_zero (by omega),still⟩
  · rintro ⟨low,empty,still⟩
    rw [empty,List.length_nil] at count
    exact ⟨low,still,List.eq_nil_of_length_eq_zero (by omega)⟩

theorem evictions_by_priority (ran : run turn newSOCKEvictor turns = some e) :
    (e.queue .evicting).length ≤ concurrentEvictions ∧
    ∀ memLimitMB totalMB availableMB : Int, 0 < memLimitMB → 2 * memLimitMB ≤ totalMB →
      ∃ next idle, doEvictions memLimitMB totalMB availableMB e =
          .ok (next,tasksOf idle (forced memLimitMB availableMB e)) ∧
        idle <+: e.queue .prio0 ∧ idle.length = idleCount memLimitMB totalMB availableMB e ∧
        next.queue .prio2 = e.queue .prio2 ∧
        ∀ task ∈ tasksOf idle (forced memLimitMB availableMB e), task.1 ∉ e.queue .prio2 := by
  have within := reached_within ran
  refine ⟨within.2,?_⟩
  intro memLimitMB totalMB availableMB positive large
  obtain ⟨next,tasks,done⟩ := doEvictions_ok (Int.ne_of_gt positive) totalMB availableMB e
  obtain ⟨calm,idle,running,rfl,evicted⟩ := doEvictions_parts within.1 done
  have same := choice_forced positive large evicted
  rw [same] at done
  have front : idle <+: e.queue .prio0 := ⟨_,evicted.first.front.symm⟩
  refine ⟨next,idle,done,front,?_,?_,?_⟩
  · have count := evicted.count
    have room := within.2
    rw [plan_count] at count
    unfold idleCount
    omega
  · rw [evicted.second.others .prio2 (by decide) (by decide),evicted.first.others .prio2 (by decide) (by decide)]
  · intro task member high
    have low : task.1 ∈ e.queue .prio0 ∨ task.1 ∈ e.queue .prio1 := by
      rcases List.mem_append.mp member with first | second
      · obtain ⟨sb,here,rfl⟩ := List.mem_map.mp first
        exact .inl (front.subset here)
      · obtain ⟨sb,here,rfl⟩ := List.mem_map.mp second
        unfold forced at here
        split at here
        · exact .inr (List.mem_of_mem_take here)
        · cases here
    rcases low with idle | running
    · cases shelved_once within.1 high idle
    · cases shelved_once within.1 high running

def busyTurns : List Turn :=
  [.event evCreate 1,.event evFork 1,.event evCreate 4,.event evPause 4,.event evCreate 2,.event evPause 2,.event evCreate 3]

theorem evictions_by_priority_busy :
    ∃ e next, run turn newSOCKEvictor busyTurns = some e ∧ e.queue .prio1 = [3] ∧ e.queue .prio2 = [1] ∧
      doEvictions 50 100 0 e = .ok (next,[(4,false)]) := by
  obtain ⟨e,ran,prio0,prio1,prio2,still⟩ : ∃ e, run turn newSOCKEvictor busyTurns = some e ∧
      e.queue .prio0 = [4,2] ∧ e.queue .prio1 = [3] ∧ e.queue .prio2 = [1] ∧ e.queue .evicting = [] :=
    ⟨_,rfl,by decide,by decide,by decide,by decide⟩
  obtain ⟨next,idle,done,front,count,_⟩ := (evictions_by_priority ran).2 50 100 0 (by decide) (by decide)
  rw [prio0] at front
  simp only [idleCount,prio0,still] at count
  have one : idle.length = 1 := by
    have goal : freeGoal 50 100 = 1 := by decide
    rw [goal] at count
    exact Int.ofNat.inj count
  have same : idle = [4] := by
    rw [List.prefix_iff_eq_take.mp front,one]
    rfl
  refine ⟨e,next,ran,prio1,prio2,?_⟩
  rw [done,same]
  simp [tasksOf,forced,prio0]

end OpenLambda.Evictor
