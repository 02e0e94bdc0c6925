import OpenLambda.Boss.WorkerStates

namespace OpenLambda.Boss
open Foundation.Runs

def WorkerPool.population (s : WorkerPool) : Int := ((List.range s.nextId).countP fun w => (s.worker w).present : Nat)

theorem size_population (placed : Placed s) : s.size = s.population := by
  have split : ∀ ids : List Nat, ids.countP (fun w => (s.worker w).present) =
      ids.countP (fun w => (s.worker w).maps .starting) + ids.countP (fun w => (s.worker w).maps .running) +
        ids.countP (fun w => (s.worker w).maps .cleaning) + ids.countP (fun w => (s.worker w).maps .destroying) := by
    intro ids
    induction ids with
    | nil => rfl
    | cons w rest ih =>
        simp only [List.countP_cons,ih,placed.placed]
        cases (s.worker w).present with
        | false => simp
        | true => cases (s.worker w).state <;> simp <;> omega
  have total := split (List.range s.nextId)
  unfold WorkerPool.size WorkerPool.len WorkerPool.population
  omega

-- An updateCluster between its Size() and its last startNewWorker.
def Pc.scales : Pc → Bool
  | .comparing _ | .starting (_ + 1) => true
  | _ => false

-- startNewWorker runs while no other updateCluster is about to start workers.
def alone (s : WorkerPool) : Action → Bool
  | .go i => match (s.go i).pc with
      | .starting (_ + 1) => (List.range s.nextGo).all fun j => decide (j = i) || !(s.go j).pc.scales
      | _ => true
  | _ => true

def Pc.fits (size peak : Int) : Pc → Prop
  | .comparing seen => size ≤ seen
  | .starting left => size + left ≤ peak
  | _ => True

structure Sized (peak : Int) (s : WorkerPool) : Prop where
  bounded : s.population ≤ peak
  fits : ∀ i, i < s.nextGo → (s.go i).pc.fits s.population peak

theorem fits_mono {pc : Pc} (fits : pc.fits size peak) (less : other ≤ size) : pc.fits other peak := by
  cases pc with
  | comparing seen => exact Int.le_trans less fits
  | starting left => exact Int.le_trans (Int.add_le_add_right less _) fits
  | _ => trivial

theorem at_sized (sized : Sized peak s) (i : Nat) (pc : Pc) (stack : List (Int × List Nat))
    (fits : pc.fits s.population peak) : Sized peak {s with go := Function.update s.go i ⟨pc,stack⟩} := by
  refine ⟨sized.bounded,?_⟩
  intro j known
  change (Function.update s.go i ⟨pc,stack⟩ j).pc.fits s.population peak
  rw [Function.update_apply]
  split
  · exact fits
  · exact sized.fits j known

theorem spawn_sized (sized : Sized peak s) (pc : Pc) (fits : pc.fits s.population peak) : Sized peak (s.spawn pc) := by
  refine ⟨sized.bounded,?_⟩
  intro j known
  change (Function.update s.go s.nextGo ⟨pc,[]⟩ j).pc.fits s.population peak
  rw [Function.update_apply]
  split
  · exact fits
  · rename_i old
    exact sized.fits j (Nat.lt_of_le_of_ne (Nat.le_of_lt_succ known) old)

theorem back_sized (sized : Sized peak s) (i : Nat) : Sized peak (s.back i) := by
  unfold WorkerPool.back
  split
  · exact at_sized sized i _ _ trivial
  · exact at_sized sized i _ _ trivial

theorem put_sized (sized : Sized peak s) (w : Nat) (x : Worker) (less : x.present = true → (s.worker w).present = true) :
    Sized peak (s.put w x) := by
  have fewer : (s.put w x).population ≤ s.population := by
    apply Int.ofNat_le.mpr
    apply List.countP_mono_left
    intro v _
    rw [put_worker]
    split
    · rename_i same
      subst v
      exact less
    · exact id
  exact ⟨Int.le_trans fewer sized.bounded,fun i known => fits_mono (sized.fits i known) fewer⟩

theorem started_population (s : WorkerPool) (i left : Nat) : (s.startNewWorker i left).population = s.population + 1 := by
  let x : Worker := ⟨.starting,fun state => state == WorkerState.starting,0,true,false⟩
  change (((List.range (s.nextId + 1)).countP fun w => (Function.update s.worker s.nextId x w).present : Nat) : Int) = _
  have old : (List.range s.nextId).countP (fun w => (Function.update s.worker s.nextId x w).present) =
      (List.range s.nextId).countP fun w => (s.worker w).present := by
    apply List.countP_congr
    intro w member
    rw [Function.update_of_ne (Nat.ne_of_lt (List.mem_range.mp member))]
  rw [List.range_succ,List.countP_append,old]
  simp [WorkerPool.population,x]

theorem calm_fits {pc : Pc} (calm : pc.scales = false) (bounded : size ≤ peak) : pc.fits size peak := by
  cases pc with
  | comparing => cases calm
  | starting left =>
      cases left with
      | zero => simpa [Pc.fits] using bounded
      | succ => cases calm
  | _ => trivial

theorem startNewWorker_sized (sized : Sized peak s) (known : i < s.nextGo) (here : (s.go i).pc = .starting (left + 1))
    (ok : alone s (.go i) = true) : Sized peak (s.startNewWorker i left) := by
  have others : ∀ j, j < s.nextGo → j ≠ i → (s.go j).pc.scales = false := by
    intro j born other
    have calm : ∀ j, j < s.nextGo → j = i ∨ (s.go j).pc.scales = false := by simpa [alone,here] using ok
    exact (calm j born).resolve_left other
  have mine : s.population + (left + 1 : Nat) ≤ peak := by
    have fits := sized.fits i known
    rw [here] at fits
    exact fits
  have grown := started_population s i left
  have bounded : s.population + 1 ≤ peak := by omega
  constructor
  · rw [grown]
    exact bounded
  · intro j born
    rw [grown]
    change (Function.update (Function.update s.go i _) s.nextGo _ j).pc.fits _ peak
    rw [Function.update_apply]
    split
    · trivial
    · rename_i old
      rw [Function.update_apply]
      split
      · change s.population + 1 + left ≤ peak
        omega
      · rename_i other
        exact calm_fits (others j (Nat.lt_of_le_of_ne (Nat.le_of_lt_succ born) old) other) bounded

theorem move_sized (placed : Placed s) (sized : Sized peak s) (known : i < s.nextGo) (target : s.target ≤ peak)
    (move : Move s i t) (ok : alone s (.go i) = true) : Sized peak t := by
  cases move with
  | enough | excess | noExcess | allCleaned | lack | created | busy | drained | waits | deleted | forwarded =>
      exact at_sized sized i _ _ trivial
  | allStarted | noLack | allRecovered => exact back_sized sized i
  | @targeted target here =>
      have set : Sized peak {s with target := target} := {sized with}
      exact at_sized set i .sizing (s.go i).stack trivial
  | givesUp => exact {at_sized sized i .done (s.go i).stack trivial with}
  | queued => exact {at_sized sized i (.opening _) (s.go i).stack trivial with}
  | took => exact {at_sized sized i (.cleaning _ _) (s.go i).stack trivial with}
  | received run => exact {at_sized sized i (.requeueing _ run) (s.go i).stack trivial with}
  | @requeued w run =>
      have fits : (if run then Pc.entering w else .done).fits s.population peak := by cases run <;> trivial
      exact {at_sized sized i _ (s.go i).stack fits with}
  -- a worker changes
  | creates | entered | left | deletes =>
      refine at_sized (put_sized sized _ _ ?_) i _ _ trivial
      exact id
  | @opened w here =>
      exact {at_sized (put_sized sized w {s.worker w with numTask := 0} id) i .sizing (s.go i).stack trivial with}
  | @registered w here =>
      have shifted := put_sized sized w ((s.worker w).shift .starting .running) id
      exact {at_sized shifted i (.queueing w) (s.go i).stack trivial with}
  | recovered =>
      refine at_sized (put_sized sized _ _ ?_) i .sizing _ trivial
      exact id
  | cleaned | destroyed =>
      refine spawn_sized (at_sized (put_sized sized _ _ ?_) i _ (s.go i).stack ?_) _ ?_
      · exact id
      · trivial
      · trivial
  | removed =>
      refine at_sized (put_sized sized _ _ ?_) i .sizing (s.go i).stack trivial
      exact fun wrong => nomatch wrong
  -- updateCluster scales up
  | sized here =>
      refine at_sized sized i _ _ ?_
      rw [size_population placed]
      exact Int.le_refl _
  | @short size here more =>
      have seen := sized.fits i known
      rw [here] at seen
      change s.population ≤ size at seen
      refine at_sized sized i _ _ ?_
      change s.population + ((s.target - size).toNat : Int) ≤ peak
      omega
  | started here => exact startNewWorker_sized sized known here ok

theorem turn_sized (placed : Placed s) (sized : Sized peak s) (target : s.target ≤ peak) (turn : Turn s action t)
    (ok : alone s action = true) : Sized peak t := by
  cases turn with
  | setTarget | runLambda | getWorker => exact spawn_sized sized _ trivial
  | moved known _ move => exact move_sized placed sized known target move ok
  | chose => exact at_sized sized _ _ _ trivial
  | failed => exact {sized with}

theorem size_within_targets
    (meets : Meets step (fun s action => checked s action = true ∧ alone s action = true) (newWorkerPool cap) actions)
    (ran : run step (newWorkerPool cap) actions = some s)
    (targets : ∀ early t, early <+: actions → run step (newWorkerPool cap) early = some t → t.target ≤ peak) :
    s.size ≤ peak := by
  have start : (0 : Int) ≤ peak := targets [] (newWorkerPool cap) List.nil_prefix rfl
  have kept : Dealt s ∧ Placed s ∧ Sized peak s := by
    refine run_preserves_guarded (fun s => Dealt s ∧ Placed s ∧ Sized peak s) ?_
      ⟨new_dealt cap,new_placed cap,start,fun _ known => absurd known (Nat.not_lt_zero _)⟩
      (meets_and meets (meets_of_visited targets)) ran
    rintro s action t ⟨dealt,placed,sized⟩ ⟨⟨sound,ok⟩,target⟩ moved
    have turn := (step_turn moved).2
    exact ⟨turn_dealt dealt turn,turn_placed dealt placed turn sound,turn_sized placed sized target turn ok⟩
  rw [size_population kept.2.1]
  exact kept.2.2.bounded

def shrunk : List Action :=
  .setTarget 2 :: goes 0 6 ++ goes 1 9 ++ goes 2 9 ++ .setTarget 1 :: goes 3 11

theorem size_within_targets_shrunk : ∃ s, run step (newWorkerPool 2) shrunk = some s ∧ s.target = 1 ∧ s.size ≤ 2 := by
  have meets : Meets step (fun s action => checked s action = true ∧ alone s action = true) (newWorkerPool 2) shrunk := by
    decide +kernel
  have targets : ∀ early ∈ shrunk.inits, ∀ t ∈ run step (newWorkerPool 2) early, t.target ≤ 2 := by decide +kernel
  have seen : ∃ s, run step (newWorkerPool 2) shrunk = some s ∧ s.target = 1 := run_seen (by decide +kernel)
  obtain ⟨s,ran,target⟩ := seen
  refine ⟨s,ran,target,size_within_targets meets ran ?_⟩
  intro early t ahead reached
  exact targets early ((List.mem_inits early shrunk).mpr ahead) t reached

-- Two updateClusters see the empty cluster before either of them starts its worker.
theorem cluster_over_target : ∃ s, run step (newWorkerPool 1)
      (.setTarget 1 :: .setTarget 1 :: goes 0 1 ++ goes 1 1 ++ goes 0 1 ++ goes 1 1 ++ goes 0 2 ++ goes 1 2) = some s ∧
    s.target = 1 ∧ s.size = 2 :=
  run_seen (by decide +kernel)

end OpenLambda.Boss
