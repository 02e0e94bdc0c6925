import OpenLambda.Lambda.Turns

namespace OpenLambda.Lambda
open Foundation.Runs

def Pc.dying : Pc → Bool
  | .killing _ | .acking _ | .stopped => true
  | _ => false

def LambdaInstance.killed (l : LambdaInstance) : Bool := !l.killChan.isEmpty || l.pc.dying

structure Kept (l m : LambdaInstance) : Prop where
  codeDir : m.codeDir = l.codeDir
  killed : l.killed = true → m.killed = true

theorem kept_refl (l : LambdaInstance) : Kept l l := ⟨rfl,id⟩

theorem kept_chan (codeDir : m.codeDir = l.codeDir) (killChan : m.killChan = l.killChan) (alive : l.pc.dying = false) :
    Kept l m := by
  refine ⟨codeDir,?_⟩
  intro killed
  simp only [LambdaInstance.killed,alive,Bool.or_false] at killed
  simp [LambdaInstance.killed,killChan,killed]

theorem kept_dying (codeDir : m.codeDir = l.codeDir) (dying : m.pc.dying = true) : Kept l m :=
  ⟨codeDir,fun _ => by simp [LambdaInstance.killed,dying]⟩

theorem destroySb_chan (l : LambdaInstance) (reason : String) :
    (l.destroySb reason).codeDir = l.codeDir ∧ (l.destroySb reason).killChan = l.killChan := by
  unfold LambdaInstance.destroySb
  split <;> exact ⟨rfl,rfl⟩

theorem roundTrip_kept (l : LambdaInstance) (here : l.pc = .forwarding req) (outcome : RoundTrip) :
    Kept l (l.roundTrip sb req outcome ms).inst := by
  have alive : l.pc.dying = false := by rw [here]; rfl
  cases outcome with
  | failed err debug =>
      obtain ⟨codeDir,killChan⟩ := destroySb_chan {l.call (.forward sb req.id) with
        pc := .reporting {req with execMs := if ms = 0 then 1 else ms} false} "Sandbox's HTTP client returned an error"
      exact kept_chan codeDir killChan alive
  | badRequest err debug => exact kept_chan rfl rfl alive
  | replied status body copyErr => exact kept_chan rfl rfl alive

theorem localStep_kept (moved : localStep zygotes fresh l action = some out) : Kept l out.inst := by
  cases localStep_turn moved with
  | tookKill | sawKill => exact kept_dying rfl rfl
  | destroyed here => exact kept_dying (destroySb_chan l _).1 rfl
  | tripped here present => exact roundTrip_kept l here _
  | discarded here single =>
      obtain ⟨codeDir,killChan⟩ := destroySb_chan l "reuse-sandbox disabled: destroying sandbox after invocation"
      exact kept_chan codeDir killChan (by rw [here]; rfl)
  | pausePanicked => exact kept_refl l
  | unpaused here | unpauseFailed here | zygoteCreated here | zygoteFailed here | created here | createFailed here
  | settled here | sawNone here | paused here | pauseFailed here => exact kept_chan rfl rfl (by rw [here]; rfl)

theorem put_kept (s : System) (i : Nat) (l : LambdaInstance) (kept : Kept (s.inst i) l) (j : Nat) :
    Kept (s.inst j) ((s.put i l).inst j) := by
  by_cases equal : j = i
  · subst j
    simpa [System.put] using kept
  · simpa [System.put,equal] using kept_refl (s.inst j)

theorem sentKill_kept (s : System) (i j : Nat) : Kept (s.inst j) ((s.sentKill i).inst j) :=
  put_kept s i {s.inst i with killChan := (s.inst i).killChan ++ [s.nextToken]}
    ⟨rfl,fun _ => by simp [LambdaInstance.killed]⟩ j

theorem sentKill_killed (s : System) (i : Nat) : ((s.sentKill i).inst i).killed = true := by
  simp [System.sentKill,System.put,LambdaInstance.killed]

theorem turn_kept (turn : Turn conf s action t) (born : i < s.nextInst) : Kept (s.inst i) (t.inst i) := by
  cases turn with
  | switchKill | dyingKill | shrunk => exact sentKill_kept s _ i
  | grown here few fetched known =>
      have different : i ≠ s.nextInst := Nat.ne_of_lt born
      simpa [System.adjusted,System.put,different] using kept_refl (s.inst i)
  | acted _ stepped => exact put_kept s _ _ (localStep_kept stepped) i
  | taken _ here | reported _ here | grabbed _ here | idled _ here =>
      refine put_kept s _ _ ?_ i
      exact kept_chan rfl rfl (by rw [here]; rfl)
  | acked =>
      refine put_kept s _ _ ?_ i
      exact kept_dying rfl rfl
  | _ => exact kept_refl (s.inst i)

-- Which code the instances of f.instances run. After a pull it is that of
-- before until they are replaced; `left` are those not yet killed.
def System.Coded (s : System) : Prop :=
  match s.pc with
  | .checking _ oldCodeDir => ∀ i ∈ s.instances, (s.inst i).codeDir = oldCodeDir
  | .switching _ _ left | .queueKill _ _ left _ => ∀ i ∈ s.instances, i ∉ left → (s.inst i).killed = true
  | .dying _ | .queueDying _ _ | .awaiting | .exited => True
  | _ => ∀ i ∈ s.instances, (s.inst i).codeDir = s.codeDir

structure Current (s : System) : Prop where
  known : ∀ i ∈ s.instances, i < s.nextInst
  spent : ∀ i, i < s.nextInst → i ∉ s.instances → (s.inst i).killed = true
  named : ∀ i, i < s.nextInst → (s.inst i).codeDir ≠ ""
  coded : s.Coded

-- A request whose own pull changed the code is not refused for its method while
-- there are instances.
def prompt (s : System) : Action → Bool
  | .check => match s.pc,s.funcMeta with
      | .checking req oldCodeDir,some config =>
          config.isHTTPMethodAllowed req.method || oldCodeDir == s.codeDir || s.instances.isEmpty
      | _,_ => true
  | _ => true

theorem init_current : Current init := by
  constructor <;> simp [init,System.Coded]

theorem turn_known (current : Current s) (turn : Turn conf s action t) :
    (∀ i ∈ t.instances, i < t.nextInst) ∧ ∀ i, i < t.nextInst → (t.inst i).codeDir ≠ "" := by
  have named : ∀ i, i < s.nextInst → (t.inst i).codeDir ≠ "" := by
    intro i born
    rw [(turn_kept turn born).codeDir]
    exact current.named i born
  cases turn with
  | grown here few fetched known =>
      constructor
      · intro i member
        rcases List.mem_append.mp member with older | new
        · exact Nat.lt_succ_of_lt (current.known i older)
        · exact List.mem_singleton.mp new ▸ Nat.lt_succ_self _
      · intro i born
        rcases Nat.lt_succ_iff_lt_or_eq.mp born with older | rfl
        · exact named i older
        · simpa [System.adjusted,System.put,newLambdaInstance] using fetched
  | shrunk here many whole =>
      refine ⟨?_,named⟩
      intro i member
      exact current.known i (whole ▸ List.mem_append_left _ member)
  | switchEnd => exact ⟨nofun,named⟩
  | _ => exact ⟨current.known,named⟩

theorem turn_spent (current : Current s) (turn : Turn conf s action t) :
    ∀ i, i < t.nextInst → i ∉ t.instances → (t.inst i).killed = true := by
  have kept : ∀ i, i < s.nextInst → i ∉ s.instances → (t.inst i).killed = true :=
    fun i born absent => (turn_kept turn born).killed (current.spent i born absent)
  cases turn with
  | grown here few fetched known =>
      intro i born absent
      rcases Nat.lt_succ_iff_lt_or_eq.mp born with older | rfl
      · exact kept i older fun member => absent (List.mem_append_left _ member)
      · exact absurd (List.mem_append_right _ (List.mem_singleton.mpr rfl)) absent
  | @shrunk front j here many whole =>
      intro i born absent
      by_cases equal : i = j
      · subst i
        exact sentKill_killed s j
      · refine kept i born fun member => ?_
        rw [whole] at member
        rcases List.mem_append.mp member with older | last
        · exact absent older
        · exact equal (List.mem_singleton.mp last)
  | switchEnd here =>
      -- All of them were killed one after another.
      intro i born _
      by_cases member : i ∈ s.instances
      · have coded := current.coded
        rw [System.Coded,here] at coded
        exact coded i member nofun
      · exact kept i born member
  | _ => exact kept

theorem message_coded {pc next : TaskPc} (here : pc.message = some (msg,next)) :
    (∃ req oldCodeDir left token,pc = .queueKill req oldCodeDir left token ∧ next = .switching req oldCodeDir left) ∨
      (∃ req oldCodeDir,pc = .queueCode req oldCodeDir ∧ next = .dispatching req) ∨
      ∃ left token,pc = .queueDying left token ∧ next = .dying left := by
  cases pc <;> simp [TaskPc.message] at here <;> obtain ⟨_,rfl⟩ := here <;> simp

theorem coded_same {s t : System} (coded : s.Coded) (kept : ∀ i ∈ s.instances, Kept (s.inst i) (t.inst i))
    (pc : t.pc = s.pc) (codeDir : t.codeDir = s.codeDir) (instances : t.instances = s.instances) : t.Coded := by
  unfold System.Coded at coded ⊢
  rw [pc,codeDir,instances]
  split at coded
  · exact fun i member => (kept i member).codeDir.trans (coded i member)
  · exact fun i member gone => (kept i member).killed (coded i member gone)
  · exact fun i member gone => (kept i member).killed (coded i member gone)
  all_goals first
    | trivial
    | exact fun i member => (kept i member).codeDir.trans (coded i member)

theorem turn_coded (current : Current s) (met : prompt s action = true) (turn : Turn conf s action t) : t.Coded := by
  have coded := current.coded
  have kept : ∀ i ∈ s.instances, Kept (s.inst i) (t.inst i) := fun i member => turn_kept turn (current.known i member)
  cases turn with
  | timer here =>
      rw [System.Coded,here] at coded
      unfold System.Coded
      dsimp only
      by_cases unfetched : s.codeDir = ""
      · rw [if_pos unfetched]
        exact coded
      · rw [if_neg unfetched]
        exact coded
  | @signalled req scale here =>
      rw [System.Coded,here] at coded
      cases scale <;> exact coded
  | received here | pullKept here | pullFailed here | pullDirtied here | pullSwitched here | dispatched here
  | overflowed here | finished here | limited here | balanced here | growPanicked here | scaledDown here =>
      rw [System.Coded,here] at coded
      exact coded
  | checkPanicked here =>
      rw [System.Coded,here] at coded
      unfold System.Coded
      dsimp only
      rw [here]
      exact coded
  | checkSwitch here => exact fun i member absent => absurd member absent
  | checkKept here config allowed same =>
      rw [System.Coded,here] at coded
      intro i member
      rcases same with unset | same
      · -- There is no instance before there is code.
        exact absurd ((coded i member).trans unset) (current.named i (current.known i member))
      · exact (coded i member).trans same
  | checkRefused here known refused =>
      rw [System.Coded,here] at coded
      simp only [prompt,here,known,refused,Bool.false_or,Bool.or_eq_true,beq_iff_eq,List.isEmpty_iff] at met
      intro i member
      rcases met with same | none
      · exact (coded i member).trans same
      · exact absurd (none ▸ member) List.not_mem_nil
  | @switchKill req oldCodeDir j left here =>
      rw [System.Coded,here] at coded
      intro i member absent
      by_cases equal : i = j
      · subst i
        exact sentKill_killed s j
      · exact (kept i member).killed (coded i member (by simp [equal,absent]))
  | switchEnd => exact nofun
  | queued here =>
      rcases message_coded here with ⟨req,oldCodeDir,left,token,from_,rfl⟩ | ⟨req,oldCodeDir,from_,rfl⟩ | ⟨left,token,from_,rfl⟩
      · rw [System.Coded,from_] at coded
        exact coded
      · rw [System.Coded,from_] at coded
        exact coded
      · trivial
  | grown here few fetched known =>
      rw [System.Coded,here] at coded
      intro i member
      rcases List.mem_append.mp member with older | new
      · exact (kept i older).codeDir.trans (coded i older)
      · rw [List.mem_singleton.mp new]
        simp [System.adjusted,System.put,newLambdaInstance]
  | shrunk here many whole =>
      rw [System.Coded,here] at coded
      intro i member
      have older : i ∈ s.instances := whole ▸ List.mem_append_left _ member
      exact (kept i older).codeDir.trans (coded i older)
  | dyingKill | dyingEnd | takenKill | exited => trivial
  | invoked | refused | ticked | askedKill | removed | awaited | taken | acted | reported | grabbed | idled | acked =>
      exact coded_same coded kept rfl rfl rfl

theorem turn_current (current : Current s) (met : prompt s action = true) (turn : Turn conf s action t) : Current t :=
  ⟨(turn_known current turn).1,turn_spent current turn,(turn_known current turn).2,turn_coded current met turn⟩

theorem dispatch_current (meets : Meets (step conf) (fun s action => prompt s action) init actions)
    (ran : run (step conf) init actions = some s) (sent : step conf s .dispatch = some t) :
    (∀ i ∈ s.instances, (s.inst i).codeDir = s.codeDir) ∧
      ∀ i, i < s.nextInst → (s.inst i).codeDir ≠ s.codeDir ∨ i ∉ s.instances → (s.inst i).killed = true := by
  have current : Current s := run_preserves_guarded Current
    (fun _ _ _ current met moved => turn_current current met (step_turn moved).2) init_current meets ran
  have coded : ∀ i ∈ s.instances, (s.inst i).codeDir = s.codeDir := by
    have coded := current.coded
    cases (step_turn sent).2 with
    | dispatched here | overflowed here =>
        rw [System.Coded,here] at coded
        exact coded
  refine ⟨coded,?_⟩
  intro i born old
  apply current.spent i born
  intro member
  rcases old with older | absent
  · exact older (coded i member)
  · exact absent member

def pullAlways : Conf := ⟨false,0⟩

def requested (method codeDir : String) : List Action :=
  [.invoke method,.receive,.pull ⟨.ok codeDir,.ok (codeMeta .native true ["GET"]),none,none⟩,.check]

def codeSwitched : List Action :=
  requested "GET" "code/1001-f" ++ [.dispatch,.scale] ++ requested "GET" "code/1002-f" ++ [.kill,.queue,.kill,.queue]

theorem dispatch_current_switched :
    ∃ s t, run (step pullAlways) init codeSwitched = some s ∧ step pullAlways s .dispatch = some t ∧
      s.codeDir = "code/1002-f" ∧ (s.inst 0).codeDir = "code/1001-f" ∧ (s.inst 0).killed = true := by
  have meets : Meets (step pullAlways) (fun s action => prompt s action) init codeSwitched := by decide +kernel
  have seen : (run (step pullAlways) init codeSwitched).map
      (fun s => (s.codeDir,(s.inst 0).codeDir,s.nextInst,(step pullAlways s .dispatch).isSome)) =
        some ("code/1002-f","code/1001-f",1,true) := by decide +kernel
  obtain ⟨s,ran,facts⟩ := Option.map_eq_some_iff.mp seen
  simp only [Prod.mk.injEq] at facts
  obtain ⟨new,old,one,moves⟩ := facts
  obtain ⟨t,sent⟩ := Option.isSome_iff_exists.mp moves
  have killed := (dispatch_current meets ran sent).2 0 (by omega) (.inl (by rw [new,old]; decide))
  exact ⟨s,t,ran,sent,new,old,killed⟩

-- The new code is fetched by a request with another method, which is refused
-- before the instances are replaced. The next request finds no new code.
def staleDispatch : List Action :=
  requested "GET" "code/1001-f" ++ [.dispatch,.scale] ++ requested "POST" "code/1002-f" ++ [.signal] ++
    requested "GET" "code/1002-f"

theorem dispatch_stale :
    ∃ s t, run (step pullAlways) init staleDispatch = some s ∧ step pullAlways s .dispatch = some t ∧
      0 ∈ s.instances ∧ s.codeDir = "code/1002-f" ∧ (s.inst 0).codeDir = "code/1001-f" ∧
      (s.inst 0).killed = false := by
  have seen : (run (step pullAlways) init staleDispatch).map
      (fun s => (s.codeDir,(s.inst 0).codeDir,(s.inst 0).killed,s.instances,(step pullAlways s .dispatch).isSome)) =
        some ("code/1002-f","code/1001-f",false,[0],true) := by decide +kernel
  obtain ⟨s,ran,facts⟩ := Option.map_eq_some_iff.mp seen
  simp only [Prod.mk.injEq] at facts
  obtain ⟨new,old,alive,instances,moves⟩ := facts
  obtain ⟨t,sent⟩ := Option.isSome_iff_exists.mp moves
  exact ⟨s,t,ran,sent,by simp [instances],new,old,alive⟩

end OpenLambda.Lambda
