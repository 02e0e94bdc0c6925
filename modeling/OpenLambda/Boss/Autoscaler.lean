import OpenLambda.Boss.WorkerPool

namespace OpenLambda.Autoscaler
open Foundation.Runs Boss

def upperBound : Int := 80
def lowerBound : Int := 30

def sumTask (s : WorkerPool) : Int :=
  ((List.range s.nextId).filter fun w => (s.worker w).maps .running).foldl (fun sum w => sum + (s.worker w).numTask) 0

def tasksPerWorker (s : WorkerPool) : Int :=
  let numWorker := s.len .running + s.len .starting
  if 0 < numWorker then (sumTask s).tdiv numWorker else 0

-- The targets that are given to SetTarget, from the target that GetTarget returns.
def scaleUp (cap target load : Int) : List Int :=
  if target < cap ∧ upperBound < load then [target + load.tdiv upperBound] else []

def scaleDown (target load : Int) : Except String (List Int) :=
  if 1 < target ∧ load < lowerBound then
    if load = 0 then .error "integer divide by zero"
    else
      let newTarget := target - lowerBound.tdiv load
      .ok [if newTarget < 1 then 1 else newTarget]
  else .ok []

-- SetTarget of the first part is seen by GetTarget in the second.
def scale (cap target load : Int) : Except String (List Int) :=
  let up := scaleUp cap target load
  (scaleDown (up.getLastD target) load).map (up ++ ·)

def inactivity (target : Int) : List Int := if 1 < target then [1] else []

structure Allowed (cap target load new : Int) : Prop where
  least : 1 ≤ new
  most : new ≤ cap
  larger : target < new → upperBound < load
  smaller : new < target → load < lowerBound

structure Sound (s later : WorkerPool) : Prop where
  total : ∃ sets, scale s.cap s.target (tasksPerWorker s) = .ok sets
  sets : ∀ sets, scale s.cap s.target (tasksPerWorker s) = .ok sets →
    ∀ new ∈ sets, Allowed s.cap s.target (tasksPerWorker s) new
  timeout : ∀ new ∈ inactivity later.target, Allowed later.cap later.target (tasksPerWorker later) new

structure Restrained (s later : WorkerPool) : Prop where
  up : s.target < s.cap → upperBound < tasksPerWorker s → s.target + (tasksPerWorker s).tdiv upperBound ≤ s.cap
  down : 1 < s.target → tasksPerWorker s < -lowerBound ∨ 0 < tasksPerWorker s
  timeout : 1 < later.target → tasksPerWorker later < lowerBound

-- The step down is at least one for a load between the bounds, and a step up for
-- a negative load.
theorem step_down (some : load ≠ 0) (low : load < lowerBound) :
    0 < load ∧ 1 ≤ lowerBound.tdiv load ∨ load < -lowerBound ∧ lowerBound.tdiv load = 0 ∨
      (-lowerBound ≤ load ∧ load < 0) ∧ lowerBound.tdiv load ≤ -1 := by
  have positive : ∀ divisor : Int, 0 < divisor → divisor ≤ lowerBound → 1 ≤ lowerBound.tdiv divisor := by
    intro divisor more within
    rw [Int.tdiv_eq_ediv_of_nonneg (by decide)]
    exact (Int.le_ediv_iff_mul_le more).mpr (by omega)
  by_cases more : 0 < load
  · exact .inl ⟨more,positive load more (Int.le_of_lt low)⟩
  · have opposite : lowerBound.tdiv load = -lowerBound.tdiv (-load) := by rw [Int.tdiv_neg,Int.neg_neg]
    by_cases far : load < -lowerBound
    · refine .inr (.inl ⟨far,?_⟩)
      rw [opposite,Int.tdiv_eq_zero_of_lt (by decide) (by omega)]
      rfl
    · have least := positive (-load) (by omega) (by omega)
      refine .inr (.inr ⟨⟨Int.not_lt.mp far,by omega⟩,?_⟩)
      omega

theorem scaleDown_idle (idle : ¬(1 < target ∧ load < lowerBound)) : scaleDown target load = .ok [] := if_neg idle

theorem scaleDown_zero (more : 1 < target) : scaleDown target 0 = .error "integer divide by zero" := by
  unfold scaleDown
  rw [if_pos ⟨more,by decide⟩,if_pos rfl]

theorem scaleDown_some (more : 1 < target) (low : load < lowerBound) (some : load ≠ 0) : scaleDown target load =
    .ok [if target - lowerBound.tdiv load < 1 then 1 else target - lowerBound.tdiv load] := by
  unfold scaleDown
  rw [if_pos ⟨more,low⟩,if_neg some]

theorem scale_up (up : target < cap ∧ upperBound < load) : scale cap target load = .ok [target + load.tdiv upperBound] := by
  have high : ¬(1 < target + load.tdiv upperBound ∧ load < lowerBound) := by
    have most : lowerBound ≤ upperBound := by decide
    omega
  unfold scale scaleUp
  simp only [if_pos up,List.getLastD_cons,List.getLastD_nil,scaleDown_idle high]
  rfl

theorem scale_other (other : ¬(target < cap ∧ upperBound < load)) : scale cap target load = scaleDown target load := by
  unfold scale scaleUp
  simp only [if_neg other,List.getLastD_nil,List.nil_append]
  cases scaleDown target load with
  | error err => rfl
  | ok sets => rfl

theorem up_sound (low : 1 ≤ target) (up : target < cap ∧ upperBound < load) :
    Allowed cap target load (target + load.tdiv upperBound) ↔ target + load.tdiv upperBound ≤ cap := by
  have bounds : lowerBound < upperBound ∧ 0 < lowerBound := by decide
  have more : 1 ≤ load.tdiv upperBound := by
    rw [Int.tdiv_eq_ediv_of_nonneg (by omega)]
    exact (Int.le_ediv_iff_mul_le (by decide)).mpr (by omega)
  exact ⟨Allowed.most,fun most => ⟨by omega,most,fun _ => up.2,fun less => by omega⟩⟩

theorem down_sound (high : target ≤ cap) (down : 1 < target ∧ load < lowerBound) (some : load ≠ 0) :
    Allowed cap target load (if target - lowerBound.tdiv load < 1 then 1 else target - lowerBound.tdiv load) ↔
      load < -lowerBound ∨ 0 < load := by
  have bounds : lowerBound < upperBound ∧ 0 < lowerBound := by decide
  have steps := step_down some down.2
  constructor
  · intro allowed
    have larger := allowed.larger
    rcases steps with positive | far | near
    · exact .inr positive.1
    · exact .inl far.1
    · rw [if_neg (by omega)] at larger
      omega
  · intro sign
    have nonneg : 0 ≤ lowerBound.tdiv load := by omega
    split
    · exact ⟨by omega,by omega,fun more => by omega,fun _ => down.2⟩
    · exact ⟨by omega,by omega,fun more => by omega,fun _ => down.2⟩

theorem scale_sound (low : 1 ≤ target) (high : target ≤ cap) (load : Int) :
    (∃ sets, scale cap target load = .ok sets ∧ ∀ new ∈ sets, Allowed cap target load new) ↔
      (target < cap → upperBound < load → target + load.tdiv upperBound ≤ cap) ∧
      (1 < target → load < -lowerBound ∨ 0 < load) := by
  have bounds : lowerBound < upperBound ∧ 0 < lowerBound := by decide
  have single : ∀ new, (∃ sets, Except.ok [new] = (.ok sets : Except String (List Int)) ∧
      ∀ set ∈ sets, Allowed cap target load set) ↔ Allowed cap target load new := by
    intro new
    constructor
    · rintro ⟨sets,same,allowed⟩
      cases same
      exact allowed new List.mem_cons_self
    · exact fun allowed => ⟨[new],rfl,List.forall_mem_singleton.mpr allowed⟩
  by_cases up : target < cap ∧ upperBound < load
  · rw [scale_up up,single,up_sound low up]
    exact ⟨fun most => ⟨fun _ _ => most,fun _ => .inr (by omega)⟩,fun ⟨most,_⟩ => most up.1 up.2⟩
  · have within : target < cap → upperBound < load → target + load.tdiv upperBound ≤ cap :=
      fun less above => absurd ⟨less,above⟩ up
    rw [scale_other up]
    by_cases down : 1 < target ∧ load < lowerBound
    · by_cases zero : load = 0
      · subst zero
        rw [scaleDown_zero down.1]
        constructor
        · rintro ⟨sets,same,_⟩
          cases same
        · rintro ⟨_,sign⟩
          have wrong := sign down.1
          omega
      · rw [scaleDown_some down.1 down.2 zero,single,down_sound high down zero]
        exact ⟨fun sign => ⟨within,fun _ => sign⟩,fun ⟨_,sign⟩ => sign down.1⟩
    · rw [scaleDown_idle down]
      refine ⟨fun _ => ⟨within,fun more => ?_⟩,fun _ => ⟨[],rfl,nofun⟩⟩
      omega

theorem inactivity_sound (high : target ≤ cap) (load : Int) :
    (∀ new ∈ inactivity target, Allowed cap target load new) ↔ (1 < target → load < lowerBound) := by
  unfold inactivity
  split
  · rename_i more
    constructor
    · intro allowed _
      exact (allowed 1 List.mem_cons_self).smaller more
    · intro idle new member
      rw [List.mem_singleton.mp member]
      exact ⟨by omega,by omega,fun larger => by omega,fun _ => idle more⟩
  · rename_i one
    exact ⟨fun _ more => absurd more one,fun _ => nofun⟩

theorem scaling_sound {s later : WorkerPool} (low : 1 ≤ s.target) (high : s.target ≤ s.cap)
    (highLater : later.target ≤ later.cap) : Sound s later ↔ Restrained s later := by
  have now := scale_sound low high (tasksPerWorker s)
  have timer := inactivity_sound highLater (tasksPerWorker later)
  constructor
  · rintro ⟨⟨sets,scaled⟩,allowed,timeout⟩
    obtain ⟨up,down⟩ := now.mp ⟨sets,scaled,allowed sets scaled⟩
    exact ⟨up,down,timer.mp timeout⟩
  · rintro ⟨up,down,timeout⟩
    obtain ⟨sets,scaled,allowed⟩ := now.mpr ⟨up,down⟩
    refine ⟨⟨sets,scaled⟩,?_,timer.mpr timeout⟩
    intro other same
    cases scaled.symm.trans same
    exact allowed

def pairOf (target tasks : Int) : WorkerPool :=
  {newWorkerPool 4 with
    target := target
    nextId := 3
    worker := fun w => if w = 1 ∨ w = 2 then ⟨.running,fun state => state == .running,tasks,true,false⟩ else absent}

theorem scaling_sound_pair : tasksPerWorker (pairOf 2 161) = 161 ∧ scale 4 2 161 = .ok [4] ∧
    Sound (pairOf 2 161) (pairOf 4 12) := by
  refine ⟨by decide,rfl,(scaling_sound (by decide) (by decide) (by decide)).mpr ⟨?_,?_,?_⟩⟩
  · decide
  · decide
  · decide

-- Without a request there is a division by zero; with many the target is beyond
-- the cap; and the timer does not look at the load.
theorem scaling_unsound : scale 4 2 (tasksPerWorker (pairOf 2 0)) = .error "integer divide by zero" ∧
    ¬Sound (pairOf 2 0) (pairOf 1 0) ∧
    scale 4 2 (tasksPerWorker (pairOf 2 400)) = .ok [7] ∧ ¬Sound (pairOf 2 400) (pairOf 1 0) ∧
    inactivity 4 = [1] ∧ ¬Sound (pairOf 4 60) (pairOf 4 60) := by
  have idle : scale 4 2 (tasksPerWorker (pairOf 2 0)) = .error "integer divide by zero" := by decide
  have busy : scale 4 2 (tasksPerWorker (pairOf 2 400)) = .ok [7] := by decide
  refine ⟨idle,?_,busy,?_,by decide,?_⟩
  · rintro ⟨⟨sets,scaled⟩,_,_⟩
    cases idle.symm.trans scaled
  · intro sound
    exact absurd (sound.sets [7] busy 7 List.mem_cons_self).most (by decide)
  · intro sound
    exact absurd ((sound.timeout 1 List.mem_cons_self).smaller (by decide)) (by decide)

-- Launch and the loop over Scale, with the timers: there the target keeps to the bounds
-- that were assumed of it above.
inductive Event where
  | scale (load : Int)
  | timeout
  deriving DecidableEq, Repr

def react (cap : Int) (target : Int) : Event → Option Int
  | .scale load => match scale cap target load with
      | .error _ => none
      | .ok sets => some (sets.getLastD target)
  | .timeout => some ((inactivity target).getLastD target)

def Steady (cap target : Int) : Event → Prop
  | .scale load => (target < cap → upperBound < load → target + load.tdiv upperBound ≤ cap) ∧
      (1 < target → load < -lowerBound ∨ 0 < load)
  | .timeout => True

theorem last_bounded {sets : List Int} (all : ∀ new ∈ sets, 1 ≤ new ∧ new ≤ cap) (low : 1 ≤ target)
    (high : target ≤ cap) : 1 ≤ sets.getLastD target ∧ sets.getLastD target ≤ cap := by
  rw [List.getLastD_eq_getLast?]
  cases last : sets.getLast? with
  | none => exact ⟨low,high⟩
  | some new => exact all new (List.mem_of_getLast? last)

theorem targets_bounded (room : 1 ≤ cap) (steady : Meets (react cap) (Steady cap) 1 events)
    (ran : run (react cap) 1 events = some target) : 1 ≤ target ∧ target ≤ cap := by
  refine run_preserves_guarded (fun target => 1 ≤ target ∧ target ≤ cap) ?_ ⟨Int.le_refl 1,room⟩ steady ran
  rintro target event next ⟨low,high⟩ steady moved
  cases event with
  | scale load =>
      obtain ⟨sets,scaled,allowed⟩ := (scale_sound low high load).mpr steady
      simp only [react,scaled] at moved
      cases moved
      exact last_bounded (fun new member => ⟨(allowed new member).least,(allowed new member).most⟩) low high
  | timeout =>
      cases moved
      refine last_bounded ?_ low high
      intro new member
      unfold inactivity at member
      split at member
      · rw [List.mem_singleton.mp member]
        exact ⟨Int.le_refl 1,room⟩
      · cases member

end OpenLambda.Autoscaler
