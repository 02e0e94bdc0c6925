import OpenLambda.Boss.WorkerQueue

namespace OpenLambda.Boss
open Foundation.Runs Foundation.Hands

def Pc.holds : Pc → Bool
  | .queueing _ | .opening _ => true
  | _ => false

-- The mutex is held by a starter inside its critical section only, with at most
-- as many workers running as the queue has places.
structure Locked (s : WorkerPool) : Prop where
  held : ∀ i, s.lock = some i → i < s.nextGo ∧ (s.go i).pc.holds = true
  holder : ∀ i, (s.go i).pc.holds = true → s.lock = some i
  room : ∀ i, (s.go i).pc.holds = true → s.len .running ≤ s.cap

theorem new_locked (cap : Nat) : Locked (newWorkerPool cap) := ⟨fun _ => nofun,fun _ => nofun,fun _ => nofun⟩

theorem stock_length (dealt : Dealt s) : (s.stock.length : Int) ≤ s.len .running := by
  unfold WorkerPool.len
  rw [List.countP_eq_length_filter,Int.ofNat_le]
  apply (stock_nodup dealt).length_le_of_subset
  intro w member
  have running := stock_running dealt member
  refine List.mem_filter.mpr ⟨List.mem_range.mpr ?_,running⟩
  apply Nat.lt_of_not_le
  intro beyond
  cases ((dealt.fresh w beyond).2 .running).symm.trans running

theorem queueing_room (dealt : Dealt s) (locked : Locked s) (known : i < s.nextGo) (here : (s.go i).pc = .queueing w) :
    s.queue.length < s.cap := by
  have mine : w ∈ (List.range s.nextGo).filterMap fun i => (s.go i).pc.held :=
    List.mem_filterMap.mpr ⟨i,List.mem_range.mpr known,congrArg Pc.held here⟩
  have held := List.length_pos_of_mem mine
  have total : s.stock.length = s.queue.length + _ := List.length_append
  have stocked := stock_length dealt
  have room := locked.room i (congrArg Pc.holds here)
  omega

theorem at_locked (locked : Locked s) (i : Nat) (pc : Pc) (stack : List (Int × List Nat))
    (same : pc.holds = (s.go i).pc.holds) : Locked {s with go := Function.update s.go i ⟨pc,stack⟩} := by
  have holds : ∀ j, (Function.update s.go i ⟨pc,stack⟩ j).pc.holds = (s.go j).pc.holds := by
    intro j
    rw [Function.update_apply]
    split
    · rename_i mine
      subst j
      exact same
    · rfl
  constructor
  · intro j lock
    exact ⟨(locked.held j lock).1,(holds j).trans (locked.held j lock).2⟩
  · exact fun j now => locked.holder j ((holds j).symm.trans now)
  · exact fun j now => locked.room j ((holds j).symm.trans now)

theorem spawn_locked (locked : Locked s) (pc : Pc) (other : pc.holds = false) : Locked (s.spawn pc) := by
  have holds : ∀ j, ((s.spawn pc).go j).pc.holds = true → (s.go j).pc.holds = true := by
    intro j
    change (Function.update s.go s.nextGo _ j).pc.holds = true → _
    rw [Function.update_apply]
    split
    · exact fun now => nomatch other.symm.trans now
    · exact id
  constructor
  · intro j lock
    obtain ⟨known,now⟩ := locked.held j lock
    refine ⟨Nat.lt_succ_of_lt known,?_⟩
    change (Function.update s.go s.nextGo _ j).pc.holds = true
    rw [Function.update_of_ne (Nat.ne_of_lt known)]
    exact now
  · exact fun j now => locked.holder j (holds j now)
  · exact fun j now => locked.room j (holds j now)

theorem back_locked (locked : Locked s) (other : (s.go i).pc.holds = false) : Locked (s.back i) := by
  unfold WorkerPool.back
  split
  · exact at_locked locked i _ _ other.symm
  · exact at_locked locked i _ _ other.symm

theorem free_locked (locked : Locked s) (free : s.lock = none) (next : Nat) (workers : Nat → Worker) :
    Locked {s with nextId := next,worker := workers} := by
  refine ⟨locked.held,locked.holder,?_⟩
  intro i now
  cases free.symm.trans (locked.holder i now)

theorem put_locked (locked : Locked s) (w : Nat) (x : Worker) (same : x.maps .running = (s.worker w).maps .running) :
    Locked (s.put w x) := by
  refine ⟨locked.held,locked.holder,?_⟩
  intro i now
  have len : (s.put w x).len .running = s.len .running := by
    unfold WorkerPool.len
    congr 2
    funext v
    rw [put_worker]
    split
    · rename_i here
      subst v
      exact same
    · rfl
  rw [len]
  exact locked.room i now

theorem put_len (s : WorkerPool) (w : Nat) (x : Worker) (state : WorkerState) :
    (s.put w x).len state ≤ s.len state + 1 := by
  unfold WorkerPool.len
  rw [List.countP_eq_length_filter,List.countP_eq_length_filter]
  have subset : (List.range s.nextId).filter (fun v => ((s.put w x).worker v).maps state) ⊆
      w :: (List.range s.nextId).filter fun v => (s.worker v).maps state := by
    intro v member
    obtain ⟨known,present⟩ := List.mem_filter.mp member
    rw [put_worker] at present
    split at present
    · rename_i same
      exact List.mem_cons.mpr (.inl same)
    · exact List.mem_cons_of_mem _ (List.mem_filter.mpr ⟨known,present⟩)
  have length := (List.nodup_range.filter _).length_le_of_subset subset
  rw [List.length_cons] at length
  exact Int.ofNat_le.mpr length

-- A drain loop looks for its worker only while the worker is cleaned, and a worker
-- becomes running only while the queue has a place for it.
def released (s : WorkerPool) : Action → Bool
  | .go i => match (s.go i).pc with
      | .looking w => (s.worker w).maps .cleaning
      | .registering _ => decide (s.len .running < s.cap)
      | _ => true
  | _ => true

theorem registered_locked (locked : Locked s) (known : i < s.nextGo) (free : s.lock = none) (fits : s.len .running < s.cap)
    (w : Nat) (x : Worker) : Locked {(s.put w x).at i (.queueing w) with lock := some i} := by
  have nobody : ∀ j, (s.go j).pc.holds = false := by
    intro j
    apply Bool.eq_false_iff.mpr
    intro holds
    cases free.symm.trans (locked.holder j holds)
  refine ⟨?_,?_,?_⟩
  · intro j lock
    cases lock
    refine ⟨known,?_⟩
    simp [WorkerPool.at,WorkerPool.put,Pc.holds]
  · intro j holds
    change (Function.update s.go i _ j).pc.holds = true at holds
    rw [Function.update_apply] at holds
    split at holds
    · rename_i same
      exact congrArg some same.symm
    · cases (nobody j).symm.trans holds
  · intro _ _
    have len := put_len s w x .running
    change (s.put w x).len .running ≤ s.cap
    omega

theorem opened_locked (locked : Locked s) (here : (s.go i).pc = .opening w) (x : Worker) :
    Locked {(s.put w x).at i .sizing with lock := none} := by
  have nobody : ∀ j, (Function.update s.go i ⟨.sizing,(s.go i).stack⟩ j).pc.holds = false := by
    intro j
    rw [Function.update_apply]
    split
    · rfl
    · rename_i other
      apply Bool.eq_false_iff.mpr
      intro holds
      have mine := locked.holder i (congrArg Pc.holds here)
      cases mine.symm.trans (locked.holder j holds)
      exact other rfl
  refine ⟨fun _ => nofun,?_,?_⟩
  · intro j holds
    cases (nobody j).symm.trans holds
  · intro j holds
    cases (nobody j).symm.trans holds

theorem move_locked (locked : Locked s) (known : i < s.nextGo) (free : s.lock = none ∨ (s.go i).pc.locks = false)
    (move : Move s i t) (ok : released s (.go i) = true) : Locked t := by
  have unlocked : (s.go i).pc.locks = true → s.lock = none := by
    intro locks
    rcases free with free | other
    · exact free
    · cases other.symm.trans locks
  cases move with
  | sized here | short here | enough here | excess here | noExcess here | allCleaned here | lack here | busy here
  | drained here | waits here | deleted here | created here | forwarded here =>
      exact at_locked locked i _ _ (congrArg Pc.holds here).symm
  | allStarted here | noLack here | allRecovered here => exact back_locked locked (congrArg Pc.holds here)
  | @targeted target here =>
      have set : Locked {s with target := target} := {locked with}
      exact at_locked set i .sizing (s.go i).stack (congrArg Pc.holds here).symm
  | took here => exact {at_locked locked i (.cleaning _ _) (s.go i).stack (congrArg Pc.holds here).symm with}
  | queued here => exact {at_locked locked i (.opening _) (s.go i).stack (congrArg Pc.holds here).symm with}
  | received run here => exact {at_locked locked i (.requeueing _ run) (s.go i).stack (congrArg Pc.holds here).symm with}
  | @requeued w run here =>
      have next : (if run then Pc.entering w else .done).holds = (s.go i).pc.holds := by
        rw [here]
        cases run <;> rfl
      exact {at_locked locked i _ (s.go i).stack next with}
  | creates here | entered here | left here | deletes here =>
      refine at_locked (put_locked locked _ _ ?_) i _ _ ?_
      · rfl
      · exact (congrArg Pc.holds here).symm
  -- critical sections that end with the step
  | removed here =>
      have freed := free_locked locked (unlocked (congrArg Pc.locks here)) s.nextId
      exact at_locked (freed _) i .sizing (s.go i).stack (congrArg Pc.holds here).symm
  | recovered here =>
      have freed := free_locked locked (unlocked (congrArg Pc.locks here)) s.nextId
      exact at_locked (freed _) i .sizing _ (congrArg Pc.holds here).symm
  | started here =>
      have freed := free_locked locked (unlocked (congrArg Pc.locks here)) (s.nextId + 1)
      refine spawn_locked (at_locked (freed _) i (.starting _) (s.go i).stack ?_) _ ?_
      · exact (congrArg Pc.holds here).symm
      · rfl
  | cleaned here | destroyed here =>
      have freed := free_locked locked (unlocked (congrArg Pc.locks here)) s.nextId
      refine spawn_locked (at_locked (freed _) i _ (s.go i).stack ?_) _ ?_
      · exact (congrArg Pc.holds here).symm
      · rfl
  -- the critical section of a starter
  | registered here =>
      have fits : s.len .running < s.cap := by simpa [released,here] using ok
      exact registered_locked locked known (unlocked (congrArg Pc.locks here)) fits _ _
  | opened here => exact opened_locked locked here _
  | givesUp here recovered => simp [released,here,recovered] at ok

theorem turn_locked (locked : Locked s) (turn : Turn s action t) (ok : released s action = true) : Locked t := by
  cases turn with
  | setTarget | runLambda | getWorker => exact spawn_locked locked _ rfl
  | moved known free move => exact move_locked locked known free move ok
  | chose known free here => exact at_locked locked _ _ _ (congrArg Pc.holds here).symm
  | failed => exact {locked with}

theorem opening_unlocks (sound : s.fault = none) (known : i < s.nextGo) (here : (s.go i).pc = .opening w) :
    ∃ t, run step s [.go i] = some t ∧ t.lock = none := by
  refine ⟨{(s.put w {s.worker w with numTask := 0}).at i .sizing with lock := none},?_,rfl⟩
  simp [run,step,sound,known,Pc.locks,WorkerPool.advance,here]

theorem queueing_unlocks (sound : s.fault = none) (known : i < s.nextGo) (here : (s.go i).pc = .queueing w)
    (room : s.queue.length < s.cap) : ∃ t, run step s [.go i,.go i] = some t ∧ t.lock = none := by
  let middle : WorkerPool := {s.at i (.opening w) with queue := s.queue ++ [w]}
  have sent : run step s [.go i] = some middle := by
    simp [run,step,sound,known,Pc.locks,WorkerPool.advance,here,room,middle]
  have next : (middle.go i).pc = .opening w := by simp [middle,WorkerPool.at]
  obtain ⟨t,opened,unlocked⟩ := opening_unlocks (s := middle) sound known next
  exact ⟨t,run_trans sent opened,unlocked⟩

theorem lock_released (meets : Meets step (fun s action => released s action = true) (newWorkerPool cap) actions)
    (ran : run step (newWorkerPool cap) actions = some s) (i : Nat) (lock : s.lock = some i) :
    (s.go i).pc ≠ .done ∧ (∀ w, (s.go i).pc = .queueing w → s.queue.length < s.cap) ∧
      (s.fault = none → ∃ n t, run step s (goes i n) = some t ∧ t.lock = none) := by
  have both : Dealt s ∧ Locked s := by
    refine run_preserves_guarded (fun s => Dealt s ∧ Locked s) ?_ ⟨new_dealt cap,new_locked cap⟩ meets ran
    rintro s action t ⟨dealt,locked⟩ ok moved
    have turn := (step_turn moved).2
    exact ⟨turn_dealt dealt turn,turn_locked locked turn ok⟩
  obtain ⟨dealt,locked⟩ := both
  obtain ⟨known,holds⟩ := locked.held i lock
  refine ⟨?_,fun w here => queueing_room dealt locked known here,?_⟩
  · intro returned
    rw [returned] at holds
    cases holds
  · intro sound
    cases here : (s.go i).pc with
    | queueing w =>
        obtain ⟨t,later,unlocked⟩ := queueing_unlocks sound known here (queueing_room dealt locked known here)
        exact ⟨2,t,later,unlocked⟩
    | opening w =>
        obtain ⟨t,later,unlocked⟩ := opening_unlocks sound known here
        exact ⟨1,t,later,unlocked⟩
    | _ =>
        rw [here] at holds
        cases holds

def starting : List Action := .setTarget 1 :: goes 0 4 ++ goes 1 3

theorem lock_released_starting : ∃ s, run step (newWorkerPool 1) starting = some s ∧ s.lock = some 1 ∧
    ∃ n t, run step s (goes 1 n) = some t ∧ t.lock = none := by
  have meets : Meets step (fun s action => released s action = true) (newWorkerPool 1) starting := by decide +kernel
  have seen : ∃ s, run step (newWorkerPool 1) starting = some s ∧ s.lock = some 1 ∧ s.fault = none :=
    run_seen (by decide +kernel)
  obtain ⟨s,ran,lock,sound⟩ := seen
  exact ⟨s,ran,lock,(lock_released meets ran 1 lock).2.2 sound⟩

-- The drain loop of a worker that was recovered returns without an Unlock. And
-- after two SetTarget(1) at once the second worker does not fit on the queue.
theorem lock_not_released :
    (∃ s, run step (newWorkerPool 1) (starting ++ goes 1 2 ++ .runLambda :: goes 2 3 ++
        .setTarget 0 :: goes 3 6 ++ goes 4 1 ++ .setTarget 1 :: goes 5 5 ++ .choose 5 1 :: goes 5 1 ++ goes 4 1) = some s ∧
      s.lock = some 4 ∧ (s.go 4).pc = .done) ∧
    (∃ s, run step (newWorkerPool 1) (.setTarget 1 :: .setTarget 1 :: goes 0 1 ++ goes 1 1 ++ goes 0 1 ++
        goes 1 1 ++ goes 0 2 ++ goes 1 2 ++ goes 2 5 ++ goes 3 3) = some s ∧
      s.lock = some 3 ∧ (s.go 3).pc = .queueing 2 ∧ s.queue.length = s.cap) := by
  constructor
  · exact run_seen (by decide +kernel)
  · exact run_seen (by decide +kernel)

end OpenLambda.Boss
