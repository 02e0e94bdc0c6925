import Mathlib.Data.List.Basic
import OpenLambda.Foundation.Runs

namespace OpenLambda.Native
open Foundation.Runs

def text (bytes : List UInt8) : Option String := String.fromUTF8? ⟨bytes.toArray⟩

structure Request where
  id : Nat
  method : String
  body : List UInt8
  deriving DecidableEq, Repr

inductive Status where
  | code (value : Int)
  | signal (number : Nat)
  deriving DecidableEq, Repr

-- A call of the process of f.bin: a write to one of its pipes, or one that leaves
-- /tmp/output with this content, or removes it.
inductive Op where
  | stdout (bytes : List UInt8)
  | stderr (bytes : List UInt8)
  | output (content : Option (List UInt8))
  | other
  deriving DecidableEq, Repr

-- set_result of the bindings: File::create empties the file, write_all fills it.
def setResult (value : List UInt8) : List Op := [.output (some []),.output (some value)]

inductive Program where
  | ends (ops : List Op) (status : Status)
  | endless (op : Nat → Op)

def Program.next : Program → Option (Op × Program)
  | .ends (op :: rest) status => some (op,.ends rest status)
  | .ends [] _ => none
  | .endless op => some (op 0,.endless fun n => op (n + 1))

-- Does a write return after these writes, when nobody reads from the pipe? The
-- system decides; a pipe can block long before it has its capacity in bytes.
structure Pipes where
  stdout : List (List UInt8) → List UInt8 → Bool
  stderr : List (List UInt8) → List UInt8 → Bool

structure Response where
  status : Nat
  body : String
  deriving DecidableEq, Repr

-- `ahead` is what the process has still to do, `out` and `err` what it wrote: the
-- pipes are read when it has ended.
inductive Stage where
  | accepting
  | running (req : Request) (ahead : Program) (out err : List (List UInt8))
  | down

-- `output` is the file /tmp/output of the sandbox. `runs` and `answered` are history:
-- the processes that were started and the responses.
structure Server where
  stage : Stage
  output : Option (List UInt8)
  runs : List (Request × Program)
  answered : List (Request × Response)

def newServer : Server := ⟨.accepting,none,[],[]⟩

-- Command refuses an argument with a zero byte.
def argument (body : List UInt8) : Option String := (text body).filter fun arg => '\x00' ∉ arg.toList

-- `opened` is an error of File::open other than NotFound.
def respond (output : Option (List UInt8)) (opened : Option String) : Status → Option Response
  | .code 0 => match opened,output with
      | some err,_ => some ⟨500,"Got unexpected error: " ++ err⟩
      | none,none => some ⟨200,""⟩
      | none,some content => (text content).map fun body => ⟨200,body⟩
  | .code value => some ⟨500,"Function failed with error_code: " ++ toString value⟩
  | .signal number => some ⟨500,"Function failed with signal: " ++ toString number⟩

-- A panic ends the task that accepts connections, and main with it.
def Server.panic (s : Server) : Server := {s with stage := .down}

def Server.request (s : Server) (req : Request) (spawned : Option Program) : Server :=
  if req.method = "POST" then
    match argument req.body,spawned with
    | some _,some program =>
        {s with stage := .running req program [] [],runs := s.runs ++ [(req,program)]}
    | _,_ => s.panic
  else s.panic

def Server.child (pipes : Pipes) (s : Server) (req : Request) (out err : List (List UInt8)) (ahead : Program) :
    Op → Option Server
  | .stdout bytes => if pipes.stdout out bytes then some {s with stage := .running req ahead (out ++ [bytes]) err} else none
  | .stderr bytes => if pipes.stderr err bytes then some {s with stage := .running req ahead out (err ++ [bytes])} else none
  | .output content => some {s with stage := .running req ahead out err,output := content}
  | .other => some {s with stage := .running req ahead out err}

def Server.reply (s : Server) (req : Request) (status : Status) (out err : List (List UInt8)) (opened : Option String) :
    Server :=
  match respond s.output opened status,text out.flatten,text err.flatten with
  | some response,some _,some _ => {s with stage := .accepting,answered := s.answered ++ [(req,response)]}
  | _,_,_ => s.panic

inductive Action where
  | request (req : Request) (spawned : Option Program)
  | cut
  | child
  | reply (opened : Option String)
  | sigterm

-- A request whose body breaks off ends its connection only.
def step (pipes : Pipes) (s : Server) : Action → Option Server
  | .request req spawned => match s.stage with
      | .accepting => some (s.request req spawned)
      | _ => none
  | .cut => match s.stage with
      | .accepting => some s
      | _ => none
  | .child => match s.stage with
      | .running req program out err => program.next.bind fun (op,ahead) => s.child pipes req out err ahead op
      | _ => none
  | .reply opened => match s.stage with
      | .running req (.ends [] status) out err => some (s.reply req status out err opened)
      | _ => none
  | .sigterm => match s.stage with
      | .down => none
      | _ => some s.panic

theorem next_ends {program : Program} (next : program.next = some (op,.ends rest status)) :
    program = .ends (op :: rest) status := by
  cases program with
  | ends ops ended =>
      cases ops with
      | nil => cases next
      | cons first ops => cases next; rfl
  | endless op => cases next

theorem child_parts (moved : step pipes s .child = some t) : ∃ req program out err op ahead,
    s.stage = .running req program out err ∧ program.next = some (op,ahead) ∧ s.child pipes req out err ahead op = some t := by
  simp only [step] at moved
  split at moved
  · next req program out err here =>
      obtain ⟨⟨op,ahead⟩,next,called⟩ := Option.bind_eq_some_iff.mp moved
      exact ⟨req,program,out,err,op,ahead,here,next,called⟩
  · cases moved

theorem reply_parts (pipes : Pipes) (moved : step pipes s (.reply opened) = some t) : ∃ req status out err,
    s.stage = .running req (.ends [] status) out err ∧ t = s.reply req status out err opened := by
  simp only [step] at moved
  split at moved
  · next req status out err here =>
      cases moved
      exact ⟨req,status,out,err,here,rfl⟩
  · cases moved

def Op.content : Op → Option (Option (List UInt8))
  | .output content => some content
  | _ => none

def result (ops : List Op) : Option (Option (List UInt8)) := (ops.filterMap Op.content).getLast?

def Program.result : Program → Option (Option (List UInt8))
  | .ends ops _ => Native.result ops
  | .endless _ => none

def lastResult (runs : List (Request × Program)) : Option (List UInt8) :=
  (runs.filterMap fun run => run.2.result).getLast?.getD none

theorem result_append (first second : List Op) : result (first ++ second) = (result second).or (result first) := by
  simp only [result,List.filterMap_append,List.getLast?_append]

theorem lastResult_snoc (runs : List (Request × Program)) (req : Request) (program : Program) :
    lastResult (runs ++ [(req,program)]) = program.result.getD (lastResult runs) := by
  cases own : program.result with
  | none => simp [lastResult,own]
  | some content => simp [lastResult,own]

def Fits (runs : List (Request × Program)) (i : Nat) (req : Request) (response : Response) : Prop :=
  ∃ ops status, runs[i]? = some (req,.ends ops status) ∧
    ∃ opened, respond (lastResult (runs.take (i + 1))) opened status = some response

theorem fits_snoc (fits : Fits runs i req response) (more : List (Request × Program)) : Fits (runs ++ more) i req response := by
  obtain ⟨ops,status,found,opened,same⟩ := fits
  have inside : i < runs.length := (List.getElem?_eq_some_iff.mp found).1
  refine ⟨ops,status,by rw [List.getElem?_append_left inside,found],opened,?_⟩
  rw [List.take_append_of_le_length (by omega)]
  exact same

def Stage.Settled (output : Option (List UInt8)) (runs : List (Request × Program)) (answers : Nat) : Stage → Prop
  | .accepting => runs.length = answers ∧ output = lastResult runs
  | .running req ahead _ _ => ∃ before program done, runs = before ++ [(req,program)] ∧ before.length = answers ∧
      (∀ rest status, ahead = .ends rest status → program = .ends (done ++ rest) status) ∧
      output = (result done).getD (lastResult before)
  | .down => True

structure Faithful (s : Server) : Prop where
  answers : ∀ i req response, s.answered[i]? = some (req,response) → Fits s.runs i req response
  stage : s.stage.Settled s.output s.runs s.answered.length

theorem panic_faithful (faithful : Faithful s) : Faithful s.panic := ⟨faithful.answers,trivial⟩

theorem request_faithful (faithful : Faithful s) (here : s.stage = .accepting) (req : Request) (spawned : Option Program) :
    Faithful (s.request req spawned) := by
  unfold Server.request
  split
  · split
    · rename_i program _
      have settled := faithful.stage
      rw [here] at settled
      refine ⟨fun i other response found => fits_snoc (faithful.answers i other response found) _,?_⟩
      exact ⟨s.runs,program,[],rfl,settled.1,fun rest status same => same,settled.2⟩
    · exact panic_faithful faithful
  · exact panic_faithful faithful

theorem child_faithful (faithful : Faithful s) (here : s.stage = .running req program out err)
    (next : program.next = some (op,ahead)) (moved : s.child pipes req out err ahead op = some t) : Faithful t := by
  have settled := faithful.stage
  rw [here] at settled
  obtain ⟨before,whole,done,runs,count,split,file⟩ := settled
  have onward : ∀ rest status, ahead = .ends rest status → whole = .ends ((done ++ [op]) ++ rest) status := by
    intro rest status same
    rw [List.append_assoc,List.singleton_append]
    exact split (op :: rest) status (next_ends (same ▸ next))
  have grown := result_append done [op]
  cases op with
  | stdout bytes | stderr bytes =>
      obtain ⟨_,⟨⟩⟩ := Option.ite_none_right_eq_some.mp moved
      exact ⟨faithful.answers,before,whole,_,runs,count,onward,by rw [grown,file]; rfl⟩
  | output content =>
      cases moved
      exact ⟨faithful.answers,before,whole,_,runs,count,onward,by rw [grown]; rfl⟩
  | other =>
      cases moved
      exact ⟨faithful.answers,before,whole,_,runs,count,onward,by rw [grown,file]; rfl⟩

theorem reply_faithful (faithful : Faithful s) (here : s.stage = .running req (.ends [] status) out err)
    (opened : Option String) : Faithful (s.reply req status out err opened) := by
  have settled := faithful.stage
  rw [here] at settled
  obtain ⟨before,program,done,runs,count,split,file⟩ := settled
  have whole : program = .ends done status := by simpa using split [] status rfl
  have left : s.output = lastResult s.runs := by
    rw [runs,lastResult_snoc,file,whole]
    rfl
  unfold Server.reply
  split
  · rename_i response _ _ replied _ _
    refine ⟨?_,?_,left⟩
    · intro i other answer found
      rcases Nat.lt_or_ge i s.answered.length with earlier | last
      · rw [List.getElem?_append_left earlier] at found
        exact faithful.answers i other answer found
      · rw [List.getElem?_append_right last] at found
        obtain ⟨bound,same⟩ := List.getElem?_eq_some_iff.mp found
        simp only [List.length_singleton] at bound
        simp only [List.getElem_singleton] at same
        cases same
        have place : i = before.length := by omega
        refine ⟨done,status,by rw [runs,place,whole]; simp,opened,?_⟩
        rw [List.take_of_length_le (by rw [runs]; simp; omega),← left]
        exact replied
    · simp [runs,count]
  · exact panic_faithful faithful

theorem step_faithful (faithful : Faithful s) (moved : step pipes s action = some t) : Faithful t := by
  cases action with
  | request req spawned =>
      simp only [step] at moved
      split at moved
      · rename_i here
        cases moved
        exact request_faithful faithful here req spawned
      · cases moved
  | cut =>
      simp only [step] at moved
      split at moved
      · cases moved
        exact faithful
      · cases moved
  | child =>
      obtain ⟨req,program,out,err,op,ahead,here,next,called⟩ := child_parts moved
      exact child_faithful faithful here next called
  | reply opened =>
      obtain ⟨req,status,out,err,here,rfl⟩ := reply_parts _ moved
      exact reply_faithful faithful here opened
  | sigterm =>
      simp only [step] at moved
      split at moved
      · cases moved
      · cases moved
        exact panic_faithful faithful

theorem newServer_faithful : Faithful newServer where
  answers := fun i req response found => by cases found
  stage := ⟨rfl,rfl⟩

theorem reached_faithful (ran : run (step pipes) newServer actions = some s) : Faithful s :=
  run_preserves Faithful (fun _ _ _ => step_faithful) newServer_faithful ran

theorem respond_ok (responded : respond output opened status = some response) (fine : response.status = 200) :
    status = .code 0 ∧ output.elim (some "") text = some response.body := by
  unfold respond at responded
  split at responded
  · split at responded
    · cases responded
      cases fine
    · cases responded
      exact ⟨rfl,rfl⟩
    · rename_i content
      obtain ⟨body,decoded,rfl⟩ := Option.map_eq_some_iff.mp responded
      exact ⟨rfl,decoded⟩
  · cases responded
    cases fine
  · cases responded
    cases fine

-- The runtime leaves the output file between two requests. A function that makes a
-- result is answered with it; one that makes none is answered with the result of
-- the last request before it that made one, whoever sent that.
theorem answered_with_last_result (ran : run (step pipes) newServer actions = some s)
    (found : s.answered[i]? = some (req,response)) (fine : response.status = 200) :
    ∃ ops, s.runs[i]? = some (req,.ends ops (.code 0)) ∧
      (∀ own, result ops = some own → own.elim (some "") text = some response.body) ∧
      (result ops = none → (lastResult (s.runs.take i)).elim (some "") text = some response.body) := by
  obtain ⟨ops,status,ran,opened,responded⟩ := (reached_faithful ran).answers i req response found
  obtain ⟨rfl,body⟩ := respond_ok responded fine
  have taken : s.runs.take (i + 1) = s.runs.take i ++ [(req,.ends ops (.code 0))] := by
    rw [List.take_add_one,ran]
    rfl
  rw [taken,lastResult_snoc,Program.result] at body
  refine ⟨ops,ran,?_,?_⟩
  · intro own made
    rw [made] at body
    exact body
  · intro untouched
    rw [untouched] at body
    exact body

def bounded (cap : Nat) : Pipes :=
  ⟨fun before bytes => decide (before.flatten.length + bytes.length ≤ cap),
    fun before bytes => decide (before.flatten.length + bytes.length ≤ cap)⟩

def twoClients : List Action :=
  [.request ⟨1,"POST",[49]⟩ (some (.ends (setResult [55]) (.code 0))),.child,.child,.reply none,
    .request ⟨2,"POST",[]⟩ (some (.ends [.stdout [72]] (.code 0))),.child,.reply none]

theorem answered_with_last_result_second : ∃ s, run (step (bounded 65536)) newServer twoClients = some s ∧
    s.answered = [(⟨1,"POST",[49]⟩,⟨200,"7"⟩),(⟨2,"POST",[]⟩,⟨200,"7"⟩)] ∧
    ∃ ops, s.runs[1]? = some (⟨2,"POST",[]⟩,.ends ops (.code 0)) ∧
      (∀ own, result ops = some own → own.elim (some "") text = some "7") ∧
      (result ops = none → (lastResult (s.runs.take 1)).elim (some "") text = some "7") := by
  have seen : (run (step (bounded 65536)) newServer twoClients).map (·.answered) =
      some [(⟨1,"POST",[49]⟩,⟨200,"7"⟩),(⟨2,"POST",[]⟩,⟨200,"7"⟩)] := by decide +kernel
  obtain ⟨s,ran,answers⟩ := Option.map_eq_some_iff.mp seen
  exact ⟨s,ran,answers,answered_with_last_result (i := 1) ran (by rw [answers]; rfl) rfl⟩

end OpenLambda.Native
