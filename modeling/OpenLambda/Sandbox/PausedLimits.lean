import OpenLambda.Sandbox.CgroupPool
import OpenLambda.Sandbox.Meta

namespace OpenLambda.PausedLimits
open Common Foundation.Runs

def mb : Int := 1024 * 1024

def getMemUsageMB (usage : Nat) : Int := ((usage : Int) + mb - 1).tdiv mb

-- One sandbox with Downsize_paused_mem on. `limit` is memLimitMB of its cgroup, and
-- `written` whether memory.max has it; `paused` is the flag of the wrapper, `usage`
-- memory.current at the last pause, and `moved` what adjustAvailableMB was called with
-- since Create, summed up.
structure Sandbox where
  limit : Int
  written : Bool
  paused : Bool
  usage : Nat
  moved : Int
  deriving DecidableEq, Repr

-- A negative number is refused by memory.max, and the call panics.
def setMemLimitMB (box : Sandbox) (limit : Int) : Option Sandbox :=
  if limit = box.limit then some box else if limit < 0 then none else some {box with limit := limit,written := true}

def adjustAvailableMB (box : Sandbox) (amount : Int) : Sandbox := {box with moved := box.moved + amount}

-- A new cgroup has no limit, and its memLimitMB is 0.
def fresh : Sandbox := ⟨0,false,false,0,0⟩

def create (confMemMb memLimitMB : Int) : Option Sandbox := setMemLimitMB fresh (orDefault memLimitMB confMemMb)

theorem create_filled (limits : LimitsConfig) (given : OpenLambda.Sandbox.SandboxMeta) :
    create limits.memMb.toInt given.memLimitMB.toInt =
      setMemLimitMB fresh (OpenLambda.Sandbox.fillMetaDefaults limits (some given)).memLimitMB.toInt := by
  rw [create,OpenLambda.Sandbox.filled_memLimitMB]

def started (limit : Int) : Sandbox := ⟨limit,true,false,0,0⟩

def pause (box : Sandbox) (usage : Nat) : Option Sandbox :=
  let oldLimit := box.limit
  let newLimit := getMemUsageMB usage + 1
  if newLimit < oldLimit then
    (setMemLimitMB box newLimit).map fun lowered =>
      {adjustAvailableMB lowered (oldLimit - newLimit) with paused := true,usage := usage}
  else some {box with paused := true,usage := usage}

def unpause (confMemMb : Int) (box : Sandbox) : Option Sandbox :=
  let oldLimit := box.limit
  let newLimit := confMemMb
  (setMemLimitMB (adjustAvailableMB box (oldLimit - newLimit)) newLimit).map fun raised => {raised with paused := false}

inductive Call where
  | pause (usage : Nat)
  | unpause
  deriving DecidableEq, Repr

-- The successful calls. The wrapper makes none on a sandbox that is in the state
-- already. The kernel keeps the usage within what is in memory.max.
def step (confMemMb : Int) (box : Sandbox) : Call → Option Sandbox
  | .pause usage =>
      if box.paused then some box else if box.written && box.limit * mb < usage then none else pause box usage
  | .unpause => if box.paused then unpause confMemMb box else some box

structure OwnLimit (m : Int) (box : Sandbox) : Prop where
  unpaused : box.paused = false → box.limit = m
  enough : box.paused = true → getMemUsageMB box.usage ≤ box.limit
  most : box.paused = true → box.limit ≤ m
  balanced : box.moved = m - box.limit

theorem usage_bounds (usage : Nat) : 0 ≤ getMemUsageMB usage ∧
    ∀ limit, (usage : Int) ≤ limit * mb → getMemUsageMB usage ≤ limit := by
  unfold getMemUsageMB mb
  rw [Int.tdiv_eq_ediv_of_nonneg (by omega)]
  refine ⟨by omega,?_⟩
  intro limit within
  omega

theorem setMemLimitMB_parts (set : setMemLimitMB box limit = some next) :
    next = {box with limit := limit,written := next.written} ∧ (box.written = true → next.written = true) := by
  unfold setMemLimitMB at set
  split at set
  · rename_i same
    cases set
    rw [same]
    exact ⟨rfl,id⟩
  · split at set
    · cases set
    · cases set
      exact ⟨rfl,fun _ => rfl⟩

theorem setMemLimitMB_nonneg (box : Sandbox) (nonneg : 0 ≤ limit) : ∃ written, setMemLimitMB box limit =
    some {box with limit := limit,written := written} := by
  unfold setMemLimitMB
  split
  · rename_i same
    rw [same]
    exact ⟨box.written,rfl⟩
  · exact ⟨true,if_neg (by omega)⟩

theorem pause_parts (lowered : pause box usage = some next) : (box.written = true → next.written = true) ∧ next =
    {box with
      written := next.written
      paused := true
      usage := usage
      limit := min box.limit (getMemUsageMB usage + 1)
      moved := box.moved + (box.limit - min box.limit (getMemUsageMB usage + 1))} := by
  unfold pause at lowered
  dsimp only at lowered
  split at lowered
  · rename_i lower
    obtain ⟨set,same,rfl⟩ := Option.map_eq_some_iff.mp lowered
    obtain ⟨parts,still⟩ := setMemLimitMB_parts same
    rw [Int.min_eq_right (by omega)]
    exact ⟨still,by rw [parts]; rfl⟩
  · rename_i higher
    cases lowered
    rw [Int.min_eq_left (by omega),Int.sub_self,Int.add_zero]
    exact ⟨id,rfl⟩

theorem pause_goes (box : Sandbox) (usage : Nat) : ∃ next, pause box usage = some next := by
  have nonneg := (usage_bounds usage).1
  unfold pause
  dsimp only
  split
  · obtain ⟨written,set⟩ := setMemLimitMB_nonneg box (show 0 ≤ getMemUsageMB usage + 1 by omega)
    rw [set]
    exact ⟨_,rfl⟩
  · exact ⟨_,rfl⟩

theorem unpause_parts (resumed : unpause confMemMb box = some next) : (box.written = true → next.written = true) ∧ next =
    {box with written := next.written,paused := false,limit := confMemMb,moved := box.moved + (box.limit - confMemMb)} := by
  obtain ⟨raised,set,rfl⟩ := Option.map_eq_some_iff.mp resumed
  obtain ⟨parts,still⟩ := setMemLimitMB_parts set
  exact ⟨still,by rw [parts]; rfl⟩

theorem unpause_negative (negative : confMemMb < 0) (nonneg : 0 ≤ box.limit) : unpause confMemMb box = none := by
  have refused : setMemLimitMB (adjustAvailableMB box (box.limit - confMemMb)) confMemMb = none := by
    unfold setMemLimitMB adjustAvailableMB
    rw [if_neg (by dsimp only; omega),if_pos negative]
  unfold unpause
  dsimp only
  rw [refused]
  rfl

theorem unpause_goes (nonneg : 0 ≤ confMemMb) (box : Sandbox) : ∃ next, unpause confMemMb box = some next := by
  obtain ⟨written,set⟩ := setMemLimitMB_nonneg (adjustAvailableMB box (box.limit - confMemMb)) nonneg
  unfold unpause
  dsimp only
  rw [set]
  exact ⟨_,rfl⟩

theorem step_parts (moved : step confMemMb box call = some next) : next = box ∨
    (∃ usage, call = .pause usage ∧ box.paused = false ∧ (box.written = true → (usage : Int) ≤ box.limit * mb) ∧
      pause box usage = some next) ∨
    call = .unpause ∧ box.paused = true ∧ unpause confMemMb box = some next := by
  cases call with
  | pause usage =>
      simp only [step] at moved
      split at moved
      · exact .inl (Option.some.inj moved).symm
      · rename_i running
        split at moved
        · cases moved
        · rename_i within
          refine .inr (.inl ⟨usage,rfl,Bool.eq_false_iff.mpr running,fun written => ?_,moved⟩)
          simpa [written] using within
  | unpause =>
      simp only [step] at moved
      split at moved
      · rename_i paused
        exact .inr (.inr ⟨rfl,paused,moved⟩)
      · exact .inl (Option.some.inj moved).symm

theorem started_own (m : Int) : OwnLimit m (started m) := ⟨fun _ => rfl,nofun,nofun,(Int.sub_self m).symm⟩

theorem step_own (own : OwnLimit m box) (written : box.written = true) (same : m = confMemMb ∨ confMemMb < 0)
    (moved : step confMemMb box call = some next) : OwnLimit m next ∧ next.written = true := by
  have balanced := own.balanced
  rcases step_parts moved with rfl | ⟨usage,rfl,running,within,lowered⟩ | ⟨rfl,paused,resumed⟩
  · exact ⟨own,written⟩
  · have limit := own.unpaused running
    have bounds := (usage_bounds usage).2 _ (within written)
    obtain ⟨still,parts⟩ := pause_parts lowered
    refine ⟨?_,still written⟩
    rw [parts]
    refine ⟨nofun,fun _ => ?_,fun _ => ?_,?_⟩
    · dsimp only
      omega
    · dsimp only
      omega
    · dsimp only
      omega
  · have nonneg : 0 ≤ box.limit := Int.le_trans (usage_bounds box.usage).1 (own.enough paused)
    rcases same with rfl | negative
    · obtain ⟨still,parts⟩ := unpause_parts resumed
      refine ⟨?_,still written⟩
      rw [parts]
      refine ⟨fun _ => rfl,nofun,nofun,?_⟩
      dsimp only
      omega
    · cases (unpause_negative negative nonneg).symm.trans resumed

theorem calls_own (same : m = confMemMb ∨ confMemMb < 0) (ran : run (step confMemMb) (started m) calls = some box) :
    OwnLimit m box :=
  (run_preserves (fun box => OwnLimit m box ∧ box.written = true) (fun _ _ _ own moved => step_own own.1 own.2 same moved)
    ⟨started_own m,rfl⟩ ran).1

-- The wrong limit does not unbalance the pool: it knows whatever the sandbox is left with.
theorem calls_balanced (ran : run (step confMemMb) (started m) calls = some box) : box.moved = m - box.limit := by
  refine run_preserves (fun box => box.moved = m - box.limit) ?_ (started_own m).balanced ran
  intro box call next balanced moved
  rcases step_parts moved with rfl | ⟨usage,rfl,_,_,lowered⟩ | ⟨rfl,_,resumed⟩
  · exact balanced
  · rw [(pause_parts lowered).2]
    dsimp only
    omega
  · rw [(unpause_parts resumed).2]
    dsimp only
    omega

theorem create_parts (created : create confMemMb memLimitMB = some first) :
    orDefault memLimitMB confMemMb = 0 ∧ first = fresh ∨
      0 < orDefault memLimitMB confMemMb ∧ first = started (orDefault memLimitMB confMemMb) := by
  unfold create setMemLimitMB at created
  split at created
  · rename_i none
    exact .inl ⟨none,(Option.some.inj created).symm⟩
  · split at created
    · cases created
    · rename_i given nonneg
      refine .inr ⟨?_,(Option.some.inj created).symm⟩
      change orDefault memLimitMB confMemMb ≠ 0 at given
      omega

theorem filled_zero {memLimitMB confMemMb : Int} (none : orDefault memLimitMB confMemMb = 0) : confMemMb = 0 := by
  unfold orDefault at none
  split at none
  · exact none
  · rename_i given
    exact absurd none given

theorem filled_iff {memLimitMB confMemMb : Int} :
    orDefault memLimitMB confMemMb = confMemMb ↔ memLimitMB = 0 ∨ memLimitMB = confMemMb := by
  unfold orDefault
  split
  · rename_i none
    exact ⟨fun _ => .inl none,fun _ => rfl⟩
  · rename_i given
    exact ⟨.inr,fun same => same.resolve_left given⟩

theorem pause_resume (positive : 0 ≤ m) (nonneg : 0 ≤ confMemMb) : ∃ box,
    run (step confMemMb) (started m) [.pause 0,.unpause] = some box ∧ box.paused = false ∧ box.limit = confMemMb := by
  have within : decide (m * mb < ((0 : Nat) : Int)) = false :=
    decide_eq_false (Int.not_lt.mpr (Int.mul_nonneg positive (by decide)))
  obtain ⟨middle,lowered⟩ := pause_goes (started m) 0
  obtain ⟨last,resumed⟩ := unpause_goes nonneg middle
  have paused : middle.paused = true := by rw [(pause_parts lowered).2]
  have first : step confMemMb (started m) (.pause 0) = some middle := by
    change (if (true && decide (m * mb < ((0 : Nat) : Int))) = true then none else pause (started m) 0) = some middle
    rw [within]
    exact lowered
  have second : step confMemMb middle .unpause = some last := by simpa [step,paused] using resumed
  refine ⟨last,by simp [run,first,second],?_,?_⟩
  · rw [(unpause_parts resumed).2]
  · rw [(unpause_parts resumed).2]

theorem unlimited_pause (confMemMb : Int) :
    ∃ box, run (step confMemMb) fresh [.pause 1048576] = some box ∧ ¬OwnLimit 0 box := by
  refine ⟨{fresh with paused := true,usage := 1048576},?_,?_⟩
  · have kept : step confMemMb fresh (.pause 1048576) = some {fresh with paused := true,usage := 1048576} := rfl
    simp only [run,kept,Option.bind_some]
  · intro own
    exact absurd (own.enough rfl) (by decide)

theorem limit_returns (created : create confMemMb memLimitMB = some first) :
    (∀ calls box, run (step confMemMb) first calls = some box → OwnLimit (orDefault memLimitMB confMemMb) box) ↔
    (memLimitMB = 0 ∨ memLimitMB = confMemMb) ∧ 1 ≤ confMemMb ∨ confMemMb < 0 := by
  rw [← filled_iff]
  rcases create_parts created with ⟨none,rfl⟩ | ⟨positive,rfl⟩
  · rw [none]
    constructor
    · intro own
      obtain ⟨box,ran,lost⟩ := unlimited_pause confMemMb
      exact absurd (own _ box ran) lost
    · intro known
      have zero := filled_zero none
      omega
  · constructor
    · intro own
      by_cases negative : confMemMb < 0
      · exact .inr negative
      · obtain ⟨box,ran,running,limit⟩ := pause_resume (Int.le_of_lt positive) (Int.not_lt.mp negative)
        have same := ((own _ box ran).unpaused running).symm.trans limit
        exact .inl ⟨same,by omega⟩
    · intro known calls box ran
      exact calls_own (known.imp And.left id) ran

theorem limit_returns_user : create 50 0 = some (started 50) ∧
    run (step 50) (started 50) [.pause 10485760,.unpause,.pause 52428800] = some ⟨50,true,true,52428800,0⟩ ∧
    OwnLimit 50 ⟨50,true,true,52428800,0⟩ := by
  have created : create 50 0 = some (started 50) := rfl
  have ran : run (step 50) (started 50) [.pause 10485760,.unpause,.pause 52428800] =
      some ⟨50,true,true,52428800,0⟩ := by decide
  exact ⟨created,ran,(limit_returns created).mpr (.inl ⟨.inl rfl,by decide⟩) _ _ ran⟩

theorem installer_shrinks : create 50 500 = some (started 500) ∧
    run (step 50) (started 500) [.pause 10485760,.unpause] = some ⟨50,true,false,10485760,450⟩ ∧
    ¬OwnLimit 500 ⟨50,true,false,10485760,450⟩ := by
  refine ⟨rfl,by decide,?_⟩
  intro own
  exact absurd (own.unpaused rfl) (by decide)

section Pool

variable {conf : Cgroups.Conf} (downsizes : conf.downsizePausedMem = true)
include downsizes

-- The limit of the sandbox is that of its cgroup in the pool.
theorem step_in_pool (here : (s.container c).stage = .running cg) (same : s.limit cg = box.limit)
    (moved : step conf.memMb box call = some next) : ∃ actions t, run (Cgroups.step conf) s actions = some t ∧
      (t.container c).stage = .running cg ∧ t.limit cg = next.limit := by
  have set : ∀ limit, ((s.setMemLimitMB c cg limit).container c).stage = .running cg ∧
      (s.setMemLimitMB c cg limit).limit cg = limit := by
    intro limit
    simp only [Cgroups.Pool.setMemLimitMB,Function.update_self,and_self]
  rcases step_parts moved with rfl | ⟨usage,rfl,_,_,lowered⟩ | ⟨rfl,_,resumed⟩
  · exact ⟨[],s,rfl,here,same⟩
  · obtain ⟨_,parts⟩ := pause_parts lowered
    rw [parts]
    by_cases lower : getMemUsageMB usage + 1 < s.limit cg
    · refine ⟨[.pause c (getMemUsageMB usage)],s.setMemLimitMB c cg (getMemUsageMB usage + 1),?_,(set _).1,?_⟩
      · simp only [run,Cgroups.step,Cgroups.Pool.pause,here,if_pos (And.intro downsizes lower),Option.bind_some]
      · rw [(set _).2]
        dsimp only
        omega
    · refine ⟨[.pause c (getMemUsageMB usage)],s,?_,here,?_⟩
      · simp only [run,Cgroups.step,Cgroups.Pool.pause,here,if_neg (fun both => lower (And.right both)),
          Option.bind_some]
      · dsimp only
        omega
  · rw [(unpause_parts resumed).2]
    refine ⟨[.unpause c],s.setMemLimitMB c cg conf.memMb,?_,set _⟩
    simp only [run,Cgroups.step,Cgroups.Pool.unpause,here,if_pos downsizes,Option.bind_some]

theorem calls_in_pool (here : (s.container c).stage = .running cg) (same : s.limit cg = box.limit)
    (ran : run (step conf.memMb) box calls = some last) : ∃ actions t, run (Cgroups.step conf) s actions = some t ∧
      (t.container c).stage = .running cg ∧ t.limit cg = last.limit := by
  induction calls generalizing s box with
  | nil =>
      cases ran
      exact ⟨[],s,rfl,here,same⟩
  | cons call rest ih =>
      obtain ⟨next,moved,tail⟩ := run_cons_parts ran
      obtain ⟨early,middle,reached,there,follows⟩ := step_in_pool downsizes here same moved
      obtain ⟨late,t,ended,stays,limit⟩ := ih there follows tail
      exact ⟨early ++ late,t,run_trans reached ended,stays,limit⟩

end Pool

end OpenLambda.PausedLimits
