import OpenLambda.Sandbox.EvictionPolicy
import OpenLambda.Sandbox.MemPool
import OpenLambda.Sandbox.Meta

namespace OpenLambda.Limits
open Common Evictor MemPool Sandbox

inductive Purpose where
  | user
  | installer
  deriving DecidableEq, Repr

-- Lambdas and Zygotes come without limits, an installer with its profile.
def metaLimits (conf : Config) : Purpose → SandboxMeta
  | .user => .empty
  | .installer => {SandboxMeta.empty with memLimitMB := (withDefaults (some conf.installerLimits) (some conf.limits)).memMb}

def requested (conf : Config) (purpose : Purpose) : Int64 :=
  (fillMetaDefaults conf.limits (some (metaLimits conf purpose))).memLimitMB

def freeGoal (conf : Config) : Int64 := 1 + (conf.memPoolMb / conf.limits.memMb - 2) * 20 / 100

structure EvictorDefined (cfg : Config) : Prop where
  divides : ∀ availableMB e, ∃ done, doEvictions cfg.limits.memMb.toInt cfg.memPoolMb.toInt availableMB e = .ok done
  goal : 1 ≤ freeGoal cfg ∧ freeGoal cfg ≤ cfg.memPoolMb / cfg.limits.memMb
  requests : ∀ purpose, 0 ≤ requested cfg purpose ∧ requested cfg purpose ≤ cfg.memPoolMb
  served : ∀ purpose (pool : Pool Nat) client, pool.totalMB = cfg.memPoolMb.toInt →
    ∃ after, receive pool ⟨-(requested cfg purpose).toInt,client⟩ = .ok after

-- Neither record has a limit below zero, the one for users has none of zero, and
-- what checkConf doubles and doEvictions multiplies by 20 does not overflow, or
-- not to where it does harm.
structure LimitsSound (cfg : Config) : Prop where
  user : 1 ≤ cfg.limits.memMb
  installer : 0 ≤ cfg.installerLimits.memMb
  doubled : maxInt cfg.installerLimits.memMb cfg.limits.memMb < 4611686018427387904 ∨
    maxInt cfg.installerLimits.memMb cfg.limits.memMb ≤ cfg.memPoolMb
  percent : 20 * (cfg.memPoolMb.toInt / cfg.limits.memMb.toInt - 2) < 9223372036854775808 ∨
    -100 < (20 * (cfg.memPoolMb.toInt / cfg.limits.memMb.toInt - 2)).bmod 18446744073709551616

theorem maxInt_toInt (x y : Int64) : (maxInt x y).toInt = max x.toInt y.toInt := by
  unfold maxInt
  split
  · rename_i more
    have less := Int64.lt_iff_toInt_lt.mp more
    omega
  · rename_i less
    have more := Int64.le_iff_toInt_le.mp (Int64.not_lt.mp less)
    omega

theorem range (x : Int64) : -9223372036854775808 ≤ x.toInt ∧ x.toInt < 9223372036854775808 :=
  ⟨x.le_toInt,x.toInt_lt⟩

theorem requested_user (cfg : Config) : requested cfg .user = cfg.limits.memMb := rfl

theorem requested_installer (cfg : Config) :
    requested cfg .installer = if cfg.installerLimits.memMb = 0 then cfg.limits.memMb else cfg.installerLimits.memMb := by
  change orDefault (orDefault cfg.installerLimits.memMb cfg.limits.memMb) cfg.limits.memMb = _
  unfold orDefault
  by_cases none : cfg.installerLimits.memMb = 0
  · simp [none]
  · simp [none]

theorem wrap_small (low : -9223372036854775808 ≤ x) (high : x < 9223372036854775808) :
    Int.bmod x 18446744073709551616 = x :=
  Int.bmod_eq_of_le (by omega) (by omega)

theorem hundredth (x : Int) : (0 ≤ x ∧ x.tdiv 100 = x / 100) ∨ (x < 0 ∧ x.tdiv 100 = -(-x / 100)) := by
  by_cases nonneg : 0 ≤ x
  · exact .inl ⟨nonneg,Int.tdiv_eq_ediv_of_nonneg nonneg⟩
  · refine .inr ⟨by omega,?_⟩
    rw [← Int.tdiv_eq_ediv_of_nonneg (by omega),Int.neg_tdiv,Int.neg_neg]

theorem quotient_toInt {cfg : Config} (user : 1 ≤ cfg.limits.memMb.toInt) (pool : 0 ≤ cfg.memPoolMb.toInt) :
    (cfg.memPoolMb / cfg.limits.memMb).toInt = cfg.memPoolMb.toInt / cfg.limits.memMb.toInt := by
  have least : 0 ≤ cfg.memPoolMb.toInt / cfg.limits.memMb.toInt := Int.ediv_nonneg pool (by omega)
  have most : cfg.memPoolMb.toInt / cfg.limits.memMb.toInt ≤ cfg.memPoolMb.toInt := Int.ediv_le_self _ pool
  have bounded := range cfg.memPoolMb
  rw [Int64.toInt_div,Int.tdiv_eq_ediv_of_nonneg pool]
  exact wrap_small (by omega) (by omega)

theorem freeGoal_toInt {cfg : Config} (user : 1 ≤ cfg.limits.memMb.toInt) (pool : 0 ≤ cfg.memPoolMb.toInt) :
    (freeGoal cfg).toInt =
      1 + ((20 * (cfg.memPoolMb.toInt / cfg.limits.memMb.toInt - 2)).bmod 18446744073709551616).tdiv 100 := by
  have quotient := quotient_toInt user pool
  have bounded := range (cfg.memPoolMb / cfg.limits.memMb)
  have least : 0 ≤ cfg.memPoolMb.toInt / cfg.limits.memMb.toInt := Int.ediv_nonneg pool (by omega)
  have less : (cfg.memPoolMb / cfg.limits.memMb - 2).toInt = cfg.memPoolMb.toInt / cfg.limits.memMb.toInt - 2 := by
    rw [Int64.toInt_sub,quotient]
    exact wrap_small (by change _ ≤ _ - 2; omega) (by change _ - 2 < _; omega)
  have product : ((cfg.memPoolMb / cfg.limits.memMb - 2) * 20).toInt =
      (20 * (cfg.memPoolMb.toInt / cfg.limits.memMb.toInt - 2)).bmod 18446744073709551616 := by
    rw [Int64.toInt_mul,less,Int.mul_comm]
    rfl
  have spread := range ((cfg.memPoolMb / cfg.limits.memMb - 2) * 20)
  have part : ((cfg.memPoolMb / cfg.limits.memMb - 2) * 20 / 100).toInt =
      ((cfg.memPoolMb / cfg.limits.memMb - 2) * 20).toInt.tdiv 100 := by
    rw [Int64.toInt_div]
    have cut := hundredth ((cfg.memPoolMb / cfg.limits.memMb - 2) * 20).toInt
    exact wrap_small (by change _ ≤ Int.tdiv _ 100; omega) (by change Int.tdiv _ 100 < _; omega)
  unfold freeGoal
  rw [Int64.toInt_add,part,← product]
  have cut := hundredth ((cfg.memPoolMb / cfg.limits.memMb - 2) * 20).toInt
  exact wrap_small (by change _ ≤ 1 + _; omega) (by change 1 + _ < _; omega)

-- Without an overflow it is the goal of doEvictions.
theorem freeGoal_exact {cfg : Config} (user : 1 ≤ cfg.limits.memMb.toInt) (pool : 0 ≤ cfg.memPoolMb.toInt)
    (fits : 20 * (cfg.memPoolMb.toInt / cfg.limits.memMb.toInt - 2) < 9223372036854775808) :
    (freeGoal cfg).toInt = Evictor.freeGoal cfg.limits.memMb.toInt cfg.memPoolMb.toInt := by
  have least : 0 ≤ cfg.memPoolMb.toInt / cfg.limits.memMb.toInt := Int.ediv_nonneg pool (by omega)
  rw [freeGoal_toInt user pool,wrap_small (by omega) fits,Evictor.freeGoal,Int.tdiv_eq_ediv_of_nonneg pool,Int.mul_comm]
  rfl

theorem goal_iff {cfg : Config} (user : 1 ≤ cfg.limits.memMb.toInt) (pool : cfg.limits.memMb.toInt ≤ cfg.memPoolMb.toInt) :
    (1 ≤ freeGoal cfg ∧ freeGoal cfg ≤ cfg.memPoolMb / cfg.limits.memMb) ↔
      -100 < (20 * (cfg.memPoolMb.toInt / cfg.limits.memMb.toInt - 2)).bmod 18446744073709551616 := by
  have one : 1 ≤ cfg.memPoolMb.toInt / cfg.limits.memMb.toInt := by
    rw [Int.le_ediv_iff_mul_le (by omega)]
    omega
  rw [Int64.le_iff_toInt_le,Int64.le_iff_toInt_le,freeGoal_toInt user (by omega),quotient_toInt user (by omega)]
  change 1 ≤ _ ∧ _ ↔ _
  generalize cfg.memPoolMb.toInt / cfg.limits.memMb.toInt = quotient at one
  have cut := hundredth ((20 * (quotient - 2)).bmod 18446744073709551616)
  by_cases fits : 20 * (quotient - 2) < 9223372036854775808
  · have same := wrap_small (by omega) fits
    omega
  · -- what is left after an overflow is far below the quotient
    have most : (20 * (quotient - 2)).bmod 18446744073709551616 < 9223372036854775808 :=
      Int.bmod_lt (by decide)
    omega

theorem sound_fits (checked : checkConf cfg = none) (sock : cfg.sandbox = "sock") (sound : LimitsSound cfg) :
    max cfg.installerLimits.memMb.toInt cfg.limits.memMb.toInt ≤ cfg.memPoolMb.toInt := by
  have double := Int64.le_iff_toInt_le.mp (checkConf_sock checked sock)
  have user : 1 ≤ cfg.limits.memMb.toInt := Int64.le_iff_toInt_le.mp sound.user
  rw [Int64.toInt_mul,maxInt_toInt] at double
  rcases sound.doubled with small | fits
  · have low := Int64.lt_iff_toInt_lt.mp small
    rw [maxInt_toInt] at low
    change _ < 4611686018427387904 at low
    have same : ((2 : Int64).toInt * max cfg.installerLimits.memMb.toInt cfg.limits.memMb.toInt).bmod (2 ^ 64) =
        2 * max cfg.installerLimits.memMb.toInt cfg.limits.memMb.toInt :=
      wrap_small (by change _ ≤ 2 * _; omega) (by change 2 * _ < _; omega)
    omega
  · have most := Int64.le_iff_toInt_le.mp fits
    rwa [maxInt_toInt] at most

theorem requested_within {cfg : Config} (user : 1 ≤ cfg.limits.memMb.toInt) (installer : 0 ≤ cfg.installerLimits.memMb.toInt)
    (fits : max cfg.installerLimits.memMb.toInt cfg.limits.memMb.toInt ≤ cfg.memPoolMb.toInt) (purpose : Purpose) :
    0 ≤ (requested cfg purpose).toInt ∧ (requested cfg purpose).toInt ≤ cfg.memPoolMb.toInt := by
  cases purpose with
  | user =>
      rw [requested_user]
      omega
  | installer =>
      rw [requested_installer]
      split <;> omega

theorem evictor_defined {host : Host β} (loaded : Loaded host cfg) (sock : cfg.sandbox = "sock") :
    EvictorDefined cfg ↔ LimitsSound cfg := by
  have checked := loaded_checked loaded
  constructor
  · intro defined
    have asked := defined.requests .user
    rw [requested_user] at asked
    have nonneg : 0 ≤ cfg.limits.memMb.toInt := Int64.le_iff_toInt_le.mp asked.1
    have nonzero : cfg.limits.memMb.toInt ≠ 0 := by
      intro zero
      obtain ⟨done,ran⟩ := defined.divides 0 newSOCKEvictor
      rw [doEvictions,if_pos zero] at ran
      cases ran
    have fits : cfg.limits.memMb.toInt ≤ cfg.memPoolMb.toInt := Int64.le_iff_toInt_le.mp asked.2
    have profile := defined.requests .installer
    rw [requested_installer,Int64.le_iff_toInt_le,Int64.le_iff_toInt_le] at profile
    change 0 ≤ _ ∧ _ at profile
    have installer : 0 ≤ cfg.installerLimits.memMb.toInt ∧ cfg.installerLimits.memMb.toInt ≤ cfg.memPoolMb.toInt := by
      split at profile
      · rename_i none
        rw [none]
        change (0 : Int) ≤ 0 ∧ 0 ≤ _
        omega
      · exact profile
    have user : 1 ≤ cfg.limits.memMb.toInt := by omega
    refine ⟨Int64.le_iff_toInt_le.mpr user,Int64.le_iff_toInt_le.mpr installer.1,.inr ?_,.inr ?_⟩
    · rw [Int64.le_iff_toInt_le,maxInt_toInt]
      omega
    · exact (goal_iff user fits).mp defined.goal
  · intro sound
    have user : 1 ≤ cfg.limits.memMb.toInt := Int64.le_iff_toInt_le.mp sound.user
    have installer : 0 ≤ cfg.installerLimits.memMb.toInt := Int64.le_iff_toInt_le.mp sound.installer
    have fits := sound_fits checked sock sound
    have within := requested_within user installer fits
    refine ⟨?_,?_,?_,?_⟩
    · intro availableMB e
      obtain ⟨next,tasks,ran⟩ := doEvictions_ok (Int.ne_of_gt user) cfg.memPoolMb.toInt availableMB e
      exact ⟨(next,tasks),ran⟩
    · refine (goal_iff user (by omega)).mpr ?_
      rcases sound.percent with small | wrapped
      · have least : 0 ≤ cfg.memPoolMb.toInt / cfg.limits.memMb.toInt := Int.ediv_nonneg (by omega) (by omega)
        rw [wrap_small (by omega) small]
        omega
      · exact wrapped
    · intro purpose
      exact ⟨Int64.le_iff_toInt_le.mpr (within purpose).1,Int64.le_iff_toInt_le.mpr (within purpose).2⟩
    · intro purpose pool client total
      have bounds := within purpose
      unfold receive
      rw [if_neg (by rw [total]; dsimp only; omega)]
      split <;> exact ⟨_,rfl⟩

theorem evictor_defined_plain : loadDefaults plainHost "/ol" = .ok plainConfig ∧ EvictorDefined plainConfig := by
  have loaded : loadDefaults plainHost "/ol" = .ok plainConfig := by decide +kernel
  refine ⟨loaded,(evictor_defined (.defaults loaded) rfl).mpr ?_⟩
  exact ⟨by decide,by decide,.inl (by decide),.inl (by decide)⟩

def runtimeOnly : Config := {plainConfig with limits := {LimitsConfig.zero with runtimeSec := 60}}

def templateHost : Host Config :=
  {plainHost with
    readFile := fun _ => .ok {runtimeOnly with workerDir := "",sockBasePath := ""}
    stat := fun path => path = "/ol/template.json"}

theorem evictor_divides_by_zero :
    loadDefaults templateHost "/ol" = .ok runtimeOnly ∧
    loadGlobalConfig (fileHost runtimeOnly) "/ol/worker/config.json" = .ok runtimeOnly ∧ runtimeOnly.sandbox = "sock" ∧
    doEvictions runtimeOnly.limits.memMb.toInt runtimeOnly.memPoolMb.toInt runtimeOnly.memPoolMb.toInt newSOCKEvictor =
      .error "runtime error: integer divide by zero" ∧ ¬ EvictorDefined runtimeOnly := by
  refine ⟨by decide +kernel,by decide +kernel,rfl,rfl,?_⟩
  intro defined
  obtain ⟨done,ran⟩ := defined.divides 0 newSOCKEvictor
  cases ran

end OpenLambda.Limits
