import OpenLambda.Common.Config

namespace OpenLambda.Sandbox
open Common

inductive RuntimeType where
  | python
  | native
  deriving DecidableEq, Repr

structure SandboxMeta where
  runtime : RuntimeType
  memLimitMB : Int64
  cpuPercent : Int64
  installs : List String
  imports : List String
  deriving DecidableEq, Repr

def SandboxMeta.empty : SandboxMeta := ⟨.python,0,0,[],[]⟩

def fillMetaDefaults (limits : LimitsConfig) (given : Option SandboxMeta) : SandboxMeta :=
  let filled := given.getD .empty
  {filled with
    memLimitMB := orDefault filled.memLimitMB limits.memMb
    cpuPercent := orDefault filled.cpuPercent limits.cpuPercent}

-- The models of the sandboxes have their limits as unbounded integers.
theorem filled_memLimitMB (limits : LimitsConfig) (given : SandboxMeta) :
    (fillMetaDefaults limits (some given)).memLimitMB.toInt = orDefault given.memLimitMB.toInt limits.memMb.toInt := by
  change (orDefault given.memLimitMB limits.memMb).toInt = _
  unfold orDefault
  by_cases omitted : given.memLimitMB = 0
  · rw [if_pos omitted,if_pos (by rw [omitted]; rfl)]
  · have given : given.memLimitMB.toInt ≠ 0 := fun zero => omitted (Int64.toInt_inj.mp zero)
    rw [if_neg omitted,if_neg given]

end OpenLambda.Sandbox
