import OpenLambda.Boss.WorkerHands

namespace OpenLambda.Boss
open Foundation.Runs Foundation.Hands

-- A running worker in the hand of a goroutine: received from the queue and
-- neither sent back nor cleaned yet, or on its way to the queue for the first time.
def Pc.held : Pc → Option Nat
  | .queueing w | .cleaning w _ | .requeueing w _ => some w
  | _ => none

def WorkerPool.stock (s : WorkerPool) : List Nat :=
  s.queue ++ (List.range s.nextGo).filterMap fun i => (s.go i).pc.held

theorem held_carries {pc : Pc} (held : pc.held = some w) : pc.carries = some (w,.running) := by
  cases pc <;> cases held <;> rfl

theorem mem_stock {s : WorkerPool} : w ∈ s.stock ↔ w ∈ s.queue ∨ ∃ i, i < s.nextGo ∧ (s.go i).pc.held = some w := by
  simp [WorkerPool.stock]

theorem stock_nodup (dealt : Dealt s) : s.stock.Nodup := by
  refine items_nodup (custody_mono dealt.custody ?_) List.nodup_range
  intro i w held
  rw [WorkerPool.hands,Pc.hand,held_carries held]
  rfl

theorem stock_running (dealt : Dealt s) (member : w ∈ s.stock) : (s.worker w).maps .running = true := by
  rcases mem_stock.mp member with waits | ⟨i,_,held⟩
  · exact dealt.queued w waits
  · exact dealt.carried i w .running (held_carries held)

def Stocked (s : WorkerPool) : Prop := ∀ w, (s.worker w).maps .running = true → w ∈ s.stock

theorem stocked_iff (dealt : Dealt s) :
    Stocked s ↔ ∀ w, s.stock.count w = if (s.worker w).maps .running then 1 else 0 := by
  constructor
  · intro stocked w
    split
    · rename_i running
      exact List.count_eq_one_of_mem (stock_nodup dealt) (stocked w running)
    · rename_i other
      exact List.count_eq_zero.mpr fun member => other (stock_running dealt member)
  · intro count w running
    have once := count w
    rw [if_pos running] at once
    exact List.count_pos_iff.mp (once ▸ Nat.one_pos)

def recovers (s : WorkerPool) : Action → Bool
  | .go i => match (s.go i).pc with
      | .recovering _ _ _ => true
      | _ => false
  | _ => false

theorem goto_stocked (stocked : Stocked s) (g : Goroutine) (known : i < next) (grown : s.nextGo ≤ next)
    (kept : ∀ w, i < s.nextGo → (s.go i).pc.held = some w → (s.worker w).maps .running = true →
      w ∈ s.queue ∨ g.pc.held = some w) : Stocked {s with go := Function.update s.go i g,nextGo := next} := by
  intro w running
  rcases mem_stock.mp (stocked w running) with waits | ⟨j,there,held⟩
  · exact mem_stock.mpr (.inl waits)
  · by_cases same : j = i
    · subst j
      rcases kept w there held running with waits | held
      · exact mem_stock.mpr (.inl waits)
      · exact mem_stock.mpr (.inr ⟨i,known,by simpa using held⟩)
    · exact mem_stock.mpr (.inr ⟨j,Nat.lt_of_lt_of_le there grown,by simpa [same] using held⟩)

theorem at_stocked (stocked : Stocked s) (known : i < s.nextGo) (pc : Pc) (stack : List (Int × List Nat))
    (kept : (s.go i).pc.held = none ∨ (s.go i).pc.held = pc.held) :
    Stocked {s with go := Function.update s.go i ⟨pc,stack⟩} := by
  refine goto_stocked stocked ⟨pc,stack⟩ known (Nat.le_refl _) ?_
  intro w _ held _
  rcases kept with nothing | same
  · cases nothing.symm.trans held
  · exact .inr (same.symm.trans held)

theorem spawn_stocked (stocked : Stocked s) (pc : Pc) : Stocked (s.spawn pc) :=
  goto_stocked stocked ⟨pc,[]⟩ (Nat.lt_succ_self _) (Nat.le_succ _) fun _ beyond => absurd beyond (Nat.lt_irrefl _)

theorem back_stocked (stocked : Stocked s) (known : i < s.nextGo) (nothing : (s.go i).pc.held = none) :
    Stocked (s.back i) := by
  unfold WorkerPool.back
  split
  · exact at_stocked stocked known _ _ (.inl nothing)
  · exact at_stocked stocked known _ _ (.inl nothing)

theorem put_stocked (stocked : Stocked s) (w : Nat) (x : Worker) (running : x.maps .running = true → w ∈ s.stock) :
    Stocked (s.put w x) := by
  intro v now
  rw [put_worker] at now
  split at now
  · rename_i same
    subst v
    exact running now
  · exact stocked v now

theorem enqueue_stocked (stocked : Stocked s) (w : Nat) : Stocked {s with queue := s.queue ++ [w]} := by
  intro v running
  rcases mem_stock.mp (stocked v running) with waits | held
  · exact mem_stock.mpr (.inl (List.mem_append_left _ waits))
  · exact mem_stock.mpr (.inr held)

theorem received_stocked (stocked : Stocked s) (known : i < s.nextGo) (nothing : (s.go i).pc.held = none)
    (queue : s.queue = w :: rest) (takes : pc.held = some w) : Stocked {s.at i pc with queue := rest} := by
  intro v running
  rcases mem_stock.mp (at_stocked stocked known pc (s.go i).stack (.inl nothing) v running) with waits | held
  · change v ∈ s.queue at waits
    rw [queue] at waits
    rcases List.mem_cons.mp waits with rfl | later
    · exact mem_stock.mpr (.inr ⟨i,known,by simpa [WorkerPool.at] using takes⟩)
    · exact mem_stock.mpr (.inl later)
  · exact mem_stock.mpr (.inr held)

theorem sent_stocked (stocked : Stocked s) (known : i < s.nextGo) (here : (s.go i).pc.held = some w) (pc : Pc) :
    Stocked {s.at i pc with queue := s.queue ++ [w]} := by
  refine goto_stocked (enqueue_stocked stocked w) ⟨pc,(s.go i).stack⟩ known (Nat.le_refl _) ?_
  intro v _ held _
  cases here.symm.trans held
  exact .inl (by simp)

theorem registered_stocked (stocked : Stocked s) (known : i < s.nextGo) (here : (s.go i).pc = .registering w) (x : Worker) :
    Stocked ((s.put w x).at i (.queueing w)) := by
  have held := at_stocked stocked known (.queueing w) (s.go i).stack (.inl (congrArg Pc.held here))
  refine put_stocked held w x ?_
  intro _
  exact mem_stock.mpr (.inr ⟨i,known,by simp [Pc.held]⟩)

theorem cleanWorker_stocked (stocked : Stocked s) (known : i < s.nextGo) (here : (s.go i).pc = .cleaning w left) :
    Stocked (s.cleanWorker i w left) := by
  have gone : ((s.worker w).shift .running .cleaning).maps .running = false := rfl
  have put := put_stocked stocked w ((s.worker w).shift .running .cleaning) (fun wrong => by cases gone.symm.trans wrong)
  refine spawn_stocked (goto_stocked put ⟨.taking left,(s.go i).stack⟩ known (Nat.le_refl _) ?_) (.draining w)
  intro v _ held running
  cases (congrArg Pc.held here).symm.trans held
  simp [WorkerPool.put,gone] at running

theorem move_stocked (stocked : Stocked s) (move : Move s i t) (known : i < s.nextGo) (ok : recovers s (.go i) = false) :
    Stocked t := by
  cases move with
  | sized here | short here | enough here | excess here | noExcess here | allCleaned here | lack here | created here
  | busy here | drained here | waits here | deleted here | forwarded here =>
      exact at_stocked stocked known _ _ (.inl (congrArg Pc.held here))
  | targeted here => exact at_stocked stocked known .sizing (s.go i).stack (.inl (congrArg Pc.held here))
  | givesUp here gone => exact at_stocked stocked known .done (s.go i).stack (.inl (congrArg Pc.held here))
  | allStarted here | noLack here | allRecovered here => exact back_stocked stocked known (congrArg Pc.held here)
  -- a worker changes and is where it was
  | creates here | entered here | left here | opened here | deletes here =>
      refine at_stocked (put_stocked stocked _ _ ?_) known _ (s.go i).stack (.inl (congrArg Pc.held here))
      exact stocked _
  | removed here =>
      refine at_stocked (put_stocked stocked _ _ ?_) known _ (s.go i).stack (.inl (congrArg Pc.held here))
      intro running
      exact stocked _ (by simpa using running)
  | destroyed here =>
      refine spawn_stocked (at_stocked (put_stocked stocked _ _ ?_) known .done (s.go i).stack (.inl (congrArg Pc.held here))) _
      intro running
      exact stocked _ (by simpa [Worker.shift] using running)
  | started here =>
      have born : Stocked ({s with nextId := s.nextId + 1}.put s.nextId
          ⟨.starting,fun state => state == WorkerState.starting,0,true,false⟩) := put_stocked stocked _ _ (fun running => Bool.noConfusion running)
      exact spawn_stocked (at_stocked born known _ (s.go i).stack (.inl (congrArg Pc.held here))) _
  | registered here => exact registered_stocked stocked known here _
  | queued here => exact sent_stocked stocked known (congrArg Pc.held here) _
  | requeued run here => exact sent_stocked stocked known (congrArg Pc.held here) _
  | took here queue => exact received_stocked stocked known (congrArg Pc.held here) queue rfl
  | received run here queue => exact received_stocked stocked known (congrArg Pc.held here) queue rfl
  | cleaned here => exact cleanWorker_stocked stocked known here
  | recovered here => simp [recovers,here] at ok

theorem turn_stocked (stocked : Stocked s) (turn : Turn s action t) (ok : recovers s action = false) : Stocked t := by
  cases turn with
  | setTarget | runLambda | getWorker => exact spawn_stocked stocked _
  | moved known free move => exact move_stocked stocked move known ok
  | chose known free here => exact at_stocked stocked known _ _ (.inl (congrArg Pc.held here))
  | failed => exact stocked

theorem recovered_unstocked (dealt : Dealt s) (turn : Turn s action t) (recovering : recovers s action = true) :
    ¬ Stocked t := by
  cases turn with
  | setTarget | runLambda | getWorker | chose | failed => cases recovering
  | @moved i _ known free move =>
      cases move with
      | @recovered w toBeRecover due here =>
          intro stocked
          have running : ((s.recoverWorker i w toBeRecover due).worker w).maps .running = true := by
            simp [WorkerPool.recoverWorker,WorkerPool.put,Worker.shift]
          have gone := dealt.retired w (.inl ⟨_,congrArg Pc.retires here⟩)
          rcases mem_stock.mp (stocked w running) with waits | ⟨j,_,held⟩
          · exact gone.1 waits
          · change (Function.update s.go _ _ j).pc.held = some w at held
            rw [Function.update_apply] at held
            split at held
            · cases held
            · exact free_carried gone j .running (held_carries held)
      | _ => simp_all [recovers]

theorem queue_holds_running (ran : run step (newWorkerPool cap) actions = some s) :
    (∀ early t, early <+: actions → run step (newWorkerPool cap) early = some t →
      ∀ w, t.stock.count w = if (t.worker w).maps .running then 1 else 0) ↔
    Meets step (fun s action => recovers s action = false) (newWorkerPool cap) actions := by
  have new : Stocked (newWorkerPool cap) := fun _ => nofun
  constructor
  · intro counted
    apply meets_iff_visited.mpr
    intro early action t ahead reached
    apply Bool.eq_false_iff.mpr
    intro recovering
    obtain ⟨u,later⟩ := run_early ran ahead
    obtain ⟨middle,before,moved⟩ := run_snoc_parts later
    cases before.symm.trans reached
    refine recovered_unstocked (reached_dealt reached) (step_turn moved).2 recovering ?_
    exact (stocked_iff (reached_dealt later)).mpr (counted _ u ahead later)
  · intro meets early t ahead reached
    apply (stocked_iff (reached_dealt reached)).mp
    exact run_preserves_guarded Stocked (fun _ _ _ stocked ok moved => turn_stocked stocked (step_turn moved).2 ok) new
      (meets_early meets ahead) reached

def dispatching : List Action :=
  .setTarget 1 :: goes 0 4 ++ goes 1 5 ++ .runLambda :: goes 2 1

theorem queue_holds_running_dispatching : ∃ s, run step (newWorkerPool 1) dispatching = some s ∧
    (s.worker 1).maps .running = true ∧ s.queue = [] ∧ s.stock.count 1 = 1 := by
  have meets : Meets step (fun s action => recovers s action = false) (newWorkerPool 1) dispatching := by decide +kernel
  have seen : ∃ s, run step (newWorkerPool 1) dispatching = some s ∧ (s.worker 1).maps .running = true ∧ s.queue = [] :=
    run_seen (by decide +kernel)
  obtain ⟨s,ran,running,empty⟩ := seen
  have count := (queue_holds_running ran).mpr meets dispatching s List.prefix_rfl ran 1
  rw [if_pos running] at count
  exact ⟨s,ran,running,empty,count⟩

-- The worker is cleaned while it runs a task, and the target goes up again before
-- the task ends: updateCluster recovers the worker and nobody puts it on the queue.
theorem recovered_worker_not_queued : ∃ s, run step (newWorkerPool 1)
      (dispatching ++ goes 2 2 ++ .setTarget 0 :: goes 3 6 ++ .setTarget 1 :: goes 5 5 ++ .choose 5 1 :: goes 5 1) = some s ∧
    (s.worker 1).maps .running = true ∧ (s.worker 1).numTask = 1 ∧ s.stock = [] :=
  run_seen (by decide +kernel)

end OpenLambda.Boss
