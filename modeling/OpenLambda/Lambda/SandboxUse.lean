import OpenLambda.Foundation.Logs
import OpenLambda.Lambda.Turns

namespace OpenLambda.Lambda
open Foundation.Runs Foundation.Logs

def SandboxCall.sb : SandboxCall → Nat
  | .create sb | .unpause sb _ | .forward sb _ | .pause sb _ | .destroy sb _ => sb

-- The sandboxes that may be alive after a call: a sandbox whose Pause or Unpause
-- failed is dead.
def aliveNext (alive : List Nat) : SandboxCall → List Nat
  | .create sb => alive ++ [sb]
  | .destroy sb _ | .unpause sb (some _) | .pause sb (some _) => alive.filter (· ≠ sb)
  | _ => alive

def alive (calls : List SandboxCall) : List Nat := calls.foldl aliveNext []

def pausedNext (paused : List Nat) : SandboxCall → List Nat
  | .pause sb none => paused ++ [sb]
  | .unpause sb none => paused.filter (· ≠ sb)
  | _ => paused

def paused (calls : List SandboxCall) : List Nat := calls.foldl pausedNext []

def served (sb : Nat) (calls : List SandboxCall) : Nat :=
  calls.countP fun call => match call with
    | .forward other _ => other == sb
    | _ => false

@[simp] theorem alive_snoc (calls : List SandboxCall) (call : SandboxCall) :
    alive (calls ++ [call]) = aliveNext (alive calls) call := by
  simp [alive]

@[simp] theorem paused_snoc (calls : List SandboxCall) (call : SandboxCall) :
    paused (calls ++ [call]) = pausedNext (paused calls) call := by
  simp [paused]

theorem alive_created (member : sb ∈ alive calls) : SandboxCall.create sb ∈ calls := by
  have step : ∀ state call x, x ∈ aliveNext state call → x ∈ state ∨ call = .create x := by
    intro state call x next
    unfold aliveNext at next
    split at next
    · rcases List.mem_append.mp next with older | same
      · exact .inl older
      · exact .inr (by rw [List.mem_singleton.mp same])
    all_goals first
      | exact .inl (List.mem_of_mem_filter next)
      | exact .inl next
  obtain ⟨call,present,rfl⟩ := folded_origin (fun call x => call = .create x) step member
  exact present

theorem paused_bound (bound : ∀ call ∈ calls, SandboxCall.sb call < fresh) (member : sb ∈ paused calls) : sb < fresh := by
  have step : ∀ state call x, x ∈ pausedNext state call → x ∈ state ∨ call.sb = x := by
    intro state call x next
    unfold pausedNext at next
    split at next
    · rcases List.mem_append.mp next with older | same
      · exact .inl older
      · exact .inr (List.mem_singleton.mp same).symm
    · exact .inl (List.mem_of_mem_filter next)
    · exact .inl next
  obtain ⟨call,present,rfl⟩ := folded_origin (fun call x => call.sb = x) step member
  exact bound call present

theorem served_bound (bound : ∀ call ∈ calls, SandboxCall.sb call < fresh) : served fresh calls = 0 := by
  unfold served
  rw [List.countP_eq_zero]
  intro call member
  have below := bound call member
  cases call with
  | forward other req =>
      have different : other ≠ fresh := Nat.ne_of_lt below
      simp [different]
  | _ => simp

def Forwarded (calls : List SandboxCall) : Prop :=
  ∀ before sb req after, calls = before ++ SandboxCall.forward sb req :: after → sb ∈ alive before ∧ sb ∉ paused before

theorem forwarded_snoc (old : Forwarded calls)
    (new : ∀ sb req, call = SandboxCall.forward sb req → sb ∈ alive calls ∧ sb ∉ paused calls) :
    Forwarded (calls ++ [call]) := by
  intro before sb req after split
  rcases snoc_split split with ⟨rfl,same⟩ | ⟨front,earlier⟩
  · exact new sb req same.symm
  · exact old before sb req front earlier

def Pc.released : Pc → Bool
  | .acking _ | .stopped => true
  | _ => false

def Pc.serving : Pc → Bool
  | .forwarding _ | .reporting _ _ | .settling | .checkingKill | .grabbing | .leaving => true
  | _ => false

def Pc.bare (reuse : Bool) : Pc → Bool
  | .creating _ _ | .reporting _ true => true
  | .waiting | .unpausing _ | .checkingKill | .grabbing | .leaving => !reuse
  | _ => false

-- What an instance knows of its sandboxes; those numbered from `fresh` on are
-- not yet created.
structure Tidy (fresh : Nat) (l : LambdaInstance) : Prop where
  bound : ∀ call ∈ l.calls, call.sb < fresh
  alive : alive l.calls = if l.pc.released then [] else l.sb.toList
  awake : l.pc.serving = true → ∀ sb, l.sb = some sb → sb ∉ paused l.calls
  bare : l.pc.bare l.funcMeta.reuseSandbox = true → l.sb = none
  forwarded : Forwarded l.calls
  unserved : l.funcMeta.reuseSandbox = false → ∀ req sb, l.pc = .forwarding req → l.sb = some sb → served sb l.calls = 0
  once : l.funcMeta.reuseSandbox = false → ∀ sb, served sb l.calls ≤ 1
  single : ∀ before, before <+: l.calls → (OpenLambda.Lambda.alive before).length ≤ 1

theorem new_tidy (codeDir : String) (config : FunctionMeta) (fresh : Nat) :
    Tidy fresh (newLambdaInstance codeDir config) := by
  constructor <;> simp [newLambdaInstance,OpenLambda.Lambda.alive,Pc.released,Pc.serving,Forwarded,served]

theorem tidy_later (tidy : Tidy fresh l) (later : fresh ≤ next) : Tidy next l :=
  {tidy with bound := fun call member => Nat.lt_of_lt_of_le (tidy.bound call member) later}

theorem tidy_quiet (tidy : Tidy fresh l) (calls : m.calls = l.calls) (sb : m.sb = l.sb) (config : m.funcMeta = l.funcMeta)
    (released : m.pc.released = l.pc.released) (serving : m.pc.serving = true → l.sb = none ∨ l.pc.serving = true)
    (bare : m.pc.bare l.funcMeta.reuseSandbox = true → l.sb = none)
    (forwarding : ∀ req, m.pc = .forwarding req → l.funcMeta.reuseSandbox = true) : Tidy fresh m where
  bound := by rw [calls]; exact tidy.bound
  alive := by rw [calls,sb,released]; exact tidy.alive
  awake := by
    intro inside z present
    rw [calls]
    rw [sb] at present
    rcases serving inside with gone | before
    · rw [gone] at present
      cases present
    · exact tidy.awake before z present
  bare := by rw [config,sb]; exact bare
  forwarded := by rw [calls]; exact tidy.forwarded
  unserved := by
    intro single req z here present
    rw [config,forwarding req here] at single
    cases single
  once := by rw [calls,config]; exact tidy.once
  single := by rw [calls]; exact tidy.single

@[simp] theorem served_snoc (sb : Nat) (calls : List SandboxCall) (call : SandboxCall) :
    served sb (calls ++ [call]) = served sb calls + match call with
      | .forward other _ => if other = sb then 1 else 0
      | _ => 0 := by
  unfold served
  rw [List.countP_append,List.countP_singleton]
  cases call <;> simp

theorem tidy_call (tidy : Tidy fresh l) (call : SandboxCall) (sb : Option Nat) (pc : Pc) (later : fresh ≤ next)
    (within : call.sb < next) (alive : aliveNext (alive l.calls) call = if pc.released then [] else sb.toList)
    (awake : pc.serving = true → ∀ z, sb = some z → z ∉ pausedNext (paused l.calls) call)
    (bare : pc.bare l.funcMeta.reuseSandbox = true → sb = none)
    (forward : ∀ z req, call = .forward z req → z ∈ OpenLambda.Lambda.alive l.calls ∧ z ∉ paused l.calls ∧
      (l.funcMeta.reuseSandbox = false → served z l.calls = 0))
    (unserved : l.funcMeta.reuseSandbox = false → ∀ req z, pc = .forwarding req → sb = some z →
      served z (l.calls ++ [call]) = 0) :
    Tidy next {l.call call with sb := sb,pc := pc} where
  bound := by
    intro other member
    rcases List.mem_append.mp member with older | new
    · exact Nat.lt_of_lt_of_le (tidy.bound other older) later
    · exact List.mem_singleton.mp new ▸ within
  alive := by
    change OpenLambda.Lambda.alive (l.calls ++ [call]) = _
    rw [alive_snoc]
    exact alive
  awake := by
    change pc.serving = true → ∀ z, sb = some z → z ∉ paused (l.calls ++ [call])
    rw [paused_snoc]
    exact awake
  bare := bare
  forwarded := forwarded_snoc tidy.forwarded fun z req same => ⟨(forward z req same).1,(forward z req same).2.1⟩
  unserved := unserved
  once := by
    intro single z
    change served z (l.calls ++ [call]) ≤ 1
    have before := tidy.once single z
    rw [served_snoc]
    cases call with
    | forward other req =>
        have first := (forward other req rfl).2.2 single
        dsimp only
        split
        · rename_i same
          rw [← same,first]
        · exact before
    | _ => exact before
  single := by
    intro before early
    rcases List.prefix_concat_iff.mp early with rfl | earlier
    · rw [alive_snoc,alive]
      split
      · exact Nat.zero_le 1
      · cases sb <;> simp
    · exact tidy.single before earlier

theorem alive_of (tidy : Tidy fresh l) (kept : l.pc.released = false) (present : l.sb = some sb) :
    alive l.calls = [sb] := by
  rw [tidy.alive,kept,present]
  rfl

theorem alive_none (tidy : Tidy fresh l) (gone : l.sb = none) : alive l.calls = [] := by
  rw [tidy.alive,gone]
  split <;> rfl

theorem alive_within (tidy : Tidy fresh l) (member : sb ∈ alive l.calls) : sb < fresh :=
  tidy.bound _ (alive_created member)

theorem destroySb_tidy (tidy : Tidy fresh l) (reason : String) (sb : Option Nat) (pc : Pc) (kept : l.pc.released = false)
    (gone : pc.released = true ∧ pc.serving = false ∧ (∀ reuse, pc.bare reuse = false) ∨ pc.released = false ∧ sb = none)
    (still : ∀ req, pc ≠ .forwarding req) : Tidy fresh {l.destroySb reason with sb := sb,pc := pc} := by
  have empty : (if pc.released then [] else sb.toList) = [] := by
    rcases gone with ⟨released,_⟩ | ⟨_,none⟩
    · rw [released]
      rfl
    · rw [none]
      split <;> rfl
  have idle : pc.serving = true → ∀ z, sb = some z → z ∉ paused l.calls := by
    intro serving z present
    rcases gone with ⟨_,asleep,_⟩ | ⟨_,none⟩
    · rw [asleep] at serving
      cases serving
    · rw [none] at present
      cases present
  have bare : pc.bare l.funcMeta.reuseSandbox = true → sb = none := by
    intro needed
    rcases gone with ⟨_,_,never⟩ | ⟨_,none⟩
    · rw [never] at needed
      cases needed
    · exact none
  cases present : l.sb with
  | none =>
      have same : l.destroySb reason = l := by simp [LambdaInstance.destroySb,present]
      rw [same]
      exact {tidy with
        alive := (alive_none tidy present).trans empty.symm
        awake := idle
        bare := bare
        unserved := fun _ req _ here => absurd here (still req)}
  | some z =>
      have same : l.destroySb reason = l.call (.destroy z reason) := by simp [LambdaInstance.destroySb,present]
      have one := alive_of tidy kept present
      rw [same]
      have within : z < fresh := alive_within tidy (by simp [one])
      refine tidy_call tidy _ sb pc (Nat.le_refl _) within ?_ idle bare nofun fun _ req _ here => absurd here (still req)
      rw [one,empty]
      simp [aliveNext]

theorem unpaused_tidy (tidy : Tidy fresh l) (here : l.pc = .unpausing req) (present : l.sb = some sb) :
    Tidy fresh {l.call (.unpause sb none) with pc := .forwarding req} := by
  have one := alive_of tidy (by rw [here]; rfl) present
  have within : sb < fresh := alive_within tidy (by simp [one])
  have reused : l.funcMeta.reuseSandbox = true := by
    by_contra single
    have gone := tidy.bare (by simpa [here,Pc.bare] using single)
    rw [present] at gone
    cases gone
  refine tidy_call tidy (.unpause sb none) l.sb _ (Nat.le_refl _) within ?_ ?_ nofun nofun ?_
  · simp [one,present,aliveNext,Pc.released]
  · intro _ z same
    rw [present] at same
    cases same
    simp [pausedNext]
  · intro single
    rw [reused] at single
    cases single

theorem dropped_tidy (tidy : Tidy fresh l) (kept : l.pc.released = false) (present : l.sb = some sb) (call : SandboxCall)
    (failed : call = .unpause sb (some e) ∨ call = .pause sb (some e)) (pc : Pc) (stays : pc.released = false)
    (still : ∀ req, pc ≠ .forwarding req) : Tidy fresh {l.call call with sb := none,pc := pc} := by
  have one := alive_of tidy kept present
  have within : sb < fresh := alive_within tidy (by simp [one])
  refine tidy_call tidy call none pc (Nat.le_refl _) ?_ ?_ nofun (fun _ => rfl) ?_ fun _ req _ here => absurd here (still req)
  · rcases failed with rfl | rfl <;> exact within
  · rcases failed with rfl | rfl <;> simp [one,stays,aliveNext]
  · rcases failed with rfl | rfl <;> nofun

theorem begin_tidy (tidy : Tidy fresh l) (here : l.pc = .creating req tried) : Tidy (fresh + 1) (l.begin fresh req) := by
  have gone : l.sb = none := tidy.bare (by rw [here]; rfl)
  refine tidy_call tidy (.create fresh) (some fresh) _ (Nat.le_succ _) (Nat.lt_succ_self _) ?_ ?_ nofun nofun ?_
  · simp [alive_none tidy gone,aliveNext,Pc.released]
  · intro _ z same member
    cases same
    exact Nat.lt_irrefl _ (paused_bound tidy.bound member)
  · intro _ _ z _ same
    cases same
    simp [served_bound tidy.bound]

theorem sent_tidy (tidy : Tidy fresh l) (here : l.pc = .forwarding req) (present : l.sb = some sb) (done : Invocation) :
    Tidy fresh {l.call (.forward sb req.id) with pc := .reporting done false} := by
  have one := alive_of tidy (by rw [here]; rfl) present
  have awake := tidy.awake (by rw [here]; rfl) sb present
  have within : sb < fresh := alive_within tidy (by simp [one])
  refine tidy_call tidy (.forward sb req.id) l.sb _ (Nat.le_refl _) within ?_ ?_ nofun ?_ nofun
  · simp [one,present,aliveNext,Pc.released]
  · intro _ z same
    rw [present] at same
    cases same
    exact awake
  · intro z other same
    cases same
    exact ⟨by simp [one],awake,fun single => tidy.unserved single req sb here present⟩

theorem roundTrip_tidy (tidy : Tidy fresh l) (here : l.pc = .forwarding req) (present : l.sb = some sb)
    (outcome : RoundTrip) : Tidy fresh (l.roundTrip sb req outcome ms).inst := by
  have sent := sent_tidy tidy here present {req with execMs := if ms = 0 then 1 else ms}
  cases outcome with
  | badRequest err debug =>
      exact tidy_quiet tidy rfl rfl rfl (by rw [here]; rfl) (fun _ => .inr (by rw [here]; rfl)) nofun nofun
  | failed err debug =>
      have destroyed := destroySb_tidy sent "Sandbox's HTTP client returned an error" none
        (.reporting {req with execMs := if ms = 0 then 1 else ms} false) rfl (.inr ⟨rfl,rfl⟩) nofun
      simpa [LambdaInstance.roundTrip,LambdaInstance.destroySb,LambdaInstance.call,present] using destroyed
  | replied status body copyErr => exact sent

theorem paused_tidy (tidy : Tidy fresh l) (here : l.pc = .leaving) (present : l.sb = some sb)
    (reuse : l.funcMeta.reuseSandbox = true) : Tidy fresh {l.call (.pause sb none) with pc := .waiting} := by
  have one := alive_of tidy (by rw [here]; rfl) present
  have within : sb < fresh := alive_within tidy (by simp [one])
  refine tidy_call tidy (.pause sb none) l.sb .waiting (Nat.le_refl _) within ?_ nofun ?_ nofun nofun
  · simp [one,present,aliveNext,Pc.released]
  · intro bare
    rw [reuse] at bare
    cases bare

theorem localStep_tidy (tidy : Tidy fresh l) (moved : localStep zygotes fresh l action = some out) :
    Tidy (fresh + 1) out.inst := by
  cases localStep_turn moved with
  | zygoteCreated here | created here => exact begin_tidy tidy here
  | tookKill here =>
      exact tidy_later (tidy_quiet tidy rfl rfl rfl (by rw [here]; rfl) nofun nofun nofun) (Nat.le_succ _)
  | unpaused here present => exact tidy_later (unpaused_tidy tidy here present) (Nat.le_succ _)
  | unpauseFailed here present =>
      exact tidy_later (dropped_tidy tidy (by rw [here]; rfl) present _ (.inl rfl) _ rfl nofun) (Nat.le_succ _)
  | zygoteFailed here =>
      have gone : l.sb = none := tidy.bare (by rw [here]; rfl)
      exact tidy_later (tidy_quiet tidy rfl rfl rfl (by rw [here]; rfl) nofun (fun _ => gone) nofun) (Nat.le_succ _)
  | createFailed here =>
      have gone : l.sb = none := tidy.bare (by rw [here]; rfl)
      exact tidy_later (tidy_quiet tidy rfl rfl rfl (by rw [here]; rfl) (fun _ => .inl gone) (fun _ => gone) nofun)
        (Nat.le_succ _)
  | tripped here present => exact tidy_later (roundTrip_tidy tidy here present _) (Nat.le_succ _)
  | settled here reuse =>
      refine tidy_later (tidy_quiet tidy rfl rfl rfl (by rw [here]; rfl) (fun _ => .inr (by rw [here]; rfl)) ?_ nofun)
        (Nat.le_succ _)
      intro bare
      rw [reuse] at bare
      cases bare
  | discarded here single =>
      exact tidy_later (destroySb_tidy tidy _ none _ (by rw [here]; rfl) (.inr ⟨rfl,rfl⟩) nofun) (Nat.le_succ _)
  | sawKill here =>
      exact tidy_later (tidy_quiet tidy rfl rfl rfl (by rw [here]; rfl) nofun nofun nofun) (Nat.le_succ _)
  | sawNone here =>
      refine tidy_later (tidy_quiet tidy rfl rfl rfl (by rw [here]; rfl) (fun _ => .inr (by rw [here]; rfl)) ?_ nofun)
        (Nat.le_succ _)
      intro bare
      exact tidy.bare (by rw [here]; exact bare)
  | paused here present reuse => exact tidy_later (paused_tidy tidy here present reuse) (Nat.le_succ _)
  | pauseFailed here present =>
      exact tidy_later (dropped_tidy tidy (by rw [here]; rfl) present _ (.inr rfl) _ rfl nofun) (Nat.le_succ _)
  | pausePanicked => exact tidy_later tidy (Nat.le_succ _)
  | destroyed here =>
      exact tidy_later (destroySb_tidy tidy _ (l.destroySb _).sb _ (by rw [here]; rfl) (.inl ⟨rfl,rfl,fun _ => rfl⟩) nofun)
        (Nat.le_succ _)

theorem accept_tidy (tidy : Tidy fresh l) (here : l.pc = .waiting) (req : Invocation) : Tidy fresh (l.accept req) := by
  unfold LambdaInstance.accept
  split
  · rename_i gone
    exact tidy_quiet tidy rfl rfl rfl (by rw [here]; rfl) nofun (fun _ => gone) nofun
  · refine tidy_quiet tidy rfl rfl rfl (by rw [here]; rfl) nofun ?_ nofun
    intro bare
    exact tidy.bare (by rw [here]; exact bare)

theorem report_tidy (tidy : Tidy fresh l) (here : l.pc = .reporting req failed) : Tidy fresh (l.report req failed) := by
  cases failed with
  | true =>
      have gone : l.sb = none := tidy.bare (by rw [here]; rfl)
      exact tidy_quiet tidy rfl rfl rfl (by rw [here]; rfl) nofun (fun _ => gone) nofun
  | false => exact tidy_quiet tidy rfl rfl rfl (by rw [here]; rfl) (fun _ => .inr (by rw [here]; rfl)) nofun nofun

theorem grab_tidy (tidy : Tidy fresh l) (here : l.pc = .grabbing) (req : Invocation) : Tidy fresh (l.grab req) := by
  unfold LambdaInstance.grab
  split
  · rename_i gone
    exact tidy_quiet tidy rfl rfl rfl (by rw [here]; rfl) nofun (fun _ => gone) nofun
  · rename_i present
    refine tidy_quiet tidy rfl rfl rfl (by rw [here]; rfl) (fun _ => .inr (by rw [here]; rfl)) nofun ?_
    intro _ _
    by_contra single
    exact present (tidy.bare (by simpa [here,Pc.bare] using single))

theorem idle_tidy (tidy : Tidy fresh l) (here : l.pc = .grabbing) :
    Tidy fresh {l with pc := if l.sb = none then .waiting else .leaving} := by
  split
  · rename_i gone
    exact tidy_quiet tidy rfl rfl rfl (by rw [here]; rfl) nofun (fun _ => gone) nofun
  · refine tidy_quiet tidy rfl rfl rfl (by rw [here]; rfl) (fun _ => .inr (by rw [here]; rfl)) ?_ nofun
    intro bare
    exact tidy.bare (by rw [here]; exact bare)

def System.Tidied (s : System) : Prop := ∀ i, Tidy s.nextSb (s.inst i)

theorem put_tidied (tidied : System.Tidied s) (i : Nat) (later : s.nextSb ≤ next) (tidy : Tidy next l) (j : Nat) :
    Tidy next ((s.put i l).inst j) := by
  by_cases equal : j = i
  · subst j
    simpa [System.put] using tidy
  · simpa [System.put,equal] using tidy_later (tidied j) later

theorem sentKill_tidied (tidied : System.Tidied s) (i : Nat) : (s.sentKill i).Tidied :=
  put_tidied tidied i (Nat.le_refl _) {tidied i with}

theorem turn_tidied (turn : Turn conf s action t) (tidied : s.Tidied) : t.Tidied := by
  cases turn with
  | switchKill | dyingKill | shrunk => exact sentKill_tidied tidied _
  | grown here few fetched known => exact put_tidied tidied s.nextInst (Nat.le_refl _) (new_tidy _ _ _)
  | acted _ stepped => exact put_tidied tidied _ (Nat.le_succ _) (localStep_tidy (tidied _) stepped)
  | taken _ here => exact put_tidied tidied _ (Nat.le_refl _) (accept_tidy (tidied _) here _)
  | reported _ here => exact put_tidied tidied _ (Nat.le_refl _) (report_tidy (tidied _) here)
  | grabbed _ here => exact put_tidied tidied _ (Nat.le_refl _) (grab_tidy (tidied _) here _)
  | idled _ here => exact put_tidied tidied _ (Nat.le_refl _) (idle_tidy (tidied _) here)
  | acked _ here =>
      exact put_tidied tidied _ (Nat.le_refl _) (tidy_quiet (tidied _) rfl rfl rfl (by rw [here]; rfl) nofun nofun nofun)
  | _ => exact tidied

theorem localStep_sound (tidy : Tidy fresh l) (moved : localStep zygotes fresh l action = some out) : out.fault = none := by
  cases localStep_turn moved with
  | @tripped _ _ outcome _ _ _ => cases outcome <;> rfl
  | pausePanicked here present single =>
      have gone := tidy.bare (by rw [here,single]; rfl)
      rw [present] at gone
      cases gone
  | _ => rfl

theorem turn_sound (turn : Turn conf s action t) (tidied : s.Tidied) (sound : s.fault = none) :
    t.fault ≠ some "sb should be nil when reuse is disabled" := by
  cases turn with
  | acted _ stepped =>
      dsimp only
      rw [localStep_sound (tidied _) stepped]
      nofun
  | checkPanicked => simp
  | growPanicked _ _ cause =>
      rcases cause with ⟨_,rfl⟩ | ⟨_,rfl⟩
      · simp [System.adjusted]
      · simp [System.adjusted]
  | _ => simp [sound,System.write,System.sentKill,System.put,System.adjusted]

theorem reached_tidied (ran : run (step conf) init actions = some s) :
    s.Tidied ∧ s.fault ≠ some "sb should be nil when reuse is disabled" := by
  refine run_preserves (fun s => s.Tidied ∧ s.fault ≠ some "sb should be nil when reuse is disabled") ?_
    ⟨fun i => new_tidy _ _ _,by simp [init]⟩ ran
  rintro s action t ⟨tidied,_⟩ moved
  obtain ⟨sound,turn⟩ := step_turn moved
  exact ⟨turn_tidied turn tidied,turn_sound turn tidied sound⟩

-- What an instance does with its sandboxes over a whole run: at most one is
-- alive, requests go to one that it created, has unpaused and has not destroyed,
-- none is left when the kill is acknowledged, and without reuse each serves one
-- request at most.
theorem instance_sandboxes (ran : run (step conf) init actions = some s) :
    s.fault ≠ some "sb should be nil when reuse is disabled" ∧ ∀ i,
      (∀ before, before <+: (s.inst i).calls → (alive before).length ≤ 1) ∧
      (∀ before sb req after, (s.inst i).calls = before ++ .forward sb req :: after →
        .create sb ∈ before ∧ sb ∈ alive before ∧ sb ∉ paused before) ∧
      ((s.inst i).pc = .stopped → alive (s.inst i).calls = []) ∧
      ((s.inst i).funcMeta.reuseSandbox = false → ∀ sb, served sb (s.inst i).calls ≤ 1) := by
  obtain ⟨tidied,sound⟩ := reached_tidied ran
  refine ⟨sound,fun i => ⟨(tidied i).single,?_,?_,(tidied i).once⟩⟩
  · intro before sb req after split
    obtain ⟨living,awake⟩ := (tidied i).forwarded before sb req after split
    exact ⟨alive_created living,living,awake⟩
  · intro stopped
    rw [(tidied i).alive,stopped]
    rfl

def servedOnce : List Action :=
  [.invoke "GET",.receive,.pull ⟨.ok "code/1001-f",.ok (codeMeta .native false ["*"]),none,none⟩,.check,.dispatch,.scale,
    .take 0,.act 0 (.create none),.act 0 (.roundTrip (.replied 200 "" none) 1),.report 0,.act 0 .settle,
    .act 0 .checkKill,.grab 0,.askKill,.takeKill,.kill,.queue,.cleanup,.act 0 .takeKill,.act 0 .destroy,.ack 0]

theorem instance_sandboxes_once :
    ∃ s, run (step ⟨false,0⟩) init servedOnce = some s ∧ (s.inst 0).pc = .stopped ∧ alive (s.inst 0).calls = [] ∧
      (s.inst 0).calls.length = 3 ∧ served 0 (s.inst 0).calls ≤ 1 := by
  have seen : (run (step ⟨false,0⟩) init servedOnce).map
      (fun s => ((s.inst 0).pc,(s.inst 0).funcMeta.reuseSandbox,(s.inst 0).calls.length)) =
        some (.stopped,false,3) := by decide +kernel
  obtain ⟨s,ran,facts⟩ := Option.map_eq_some_iff.mp seen
  simp only [Prod.mk.injEq] at facts
  obtain ⟨stopped,single,calls⟩ := facts
  obtain ⟨_,sandboxes⟩ := instance_sandboxes ran
  obtain ⟨_,_,released,once⟩ := sandboxes 0
  exact ⟨s,ran,stopped,released stopped,calls,once single 0⟩

end OpenLambda.Lambda
