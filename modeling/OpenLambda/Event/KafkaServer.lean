import OpenLambda.Foundation.Logs
import OpenLambda.Foundation.Numerals
import OpenLambda.Foundation.Runs

namespace OpenLambda.Kafka
open Foundation.Runs Foundation.Logs Foundation.Numerals

structure KafkaRecord where
  topic : String
  partition : Int
  offset : Int
  value : String
  deriving DecidableEq, Repr

inductive FetchErr where
  | deadlineExceeded
  | other (text : String)
  deriving DecidableEq, Repr

def FetchErr.counts : FetchErr → Bool
  | .deadlineExceeded => false
  | .other _ => true

structure FetchPartition where
  partition : Int
  err : Option FetchErr
  records : List KafkaRecord
  deriving DecidableEq, Repr

structure FetchTopic where
  topic : String
  partitions : List FetchPartition
  deriving DecidableEq, Repr

abbrev Fetches := List (List FetchTopic)

def Fetches.partitions (fetches : Fetches) : List FetchPartition := fetches.flatten.flatMap (·.partitions)

def Fetches.errors (fetches : Fetches) : List FetchErr := fetches.partitions.filterMap (·.err)

def Fetches.records (fetches : Fetches) : List KafkaRecord := fetches.partitions.flatMap (·.records)

-- A KafkaClient over states σ; `ι` is what a poll depends on besides its state.
-- A poll that panics is none.
structure Client (σ ι : Type) where
  poll : σ → ι → Option (Fetches × σ)
  seek : σ → String → Int → Int → σ

-- The lambda as the consumer sees it: the X-Kafka-Seek-Offset header of its
-- response to the last of the records it was given, none if no request could be
-- made for that record.
abbrev Lambda := List KafkaRecord → Option String

def processMessage (header : Option String) : Option Int :=
  match header with
  | none => none
  | some seekStr => if seekStr = "" then none else (parseInt ofChars seekStr.toList).toOption.map Int64.toInt

inductive LoopEvent where
  | polled (record : KafkaRecord)
  | processed (record : KafkaRecord)
  | sought (topic : String) (partition : Int)
  deriving DecidableEq, Repr

-- `processed` and `events` are history: the records given to processMessage, and
-- those among what else happened.
structure Consumer (σ : Type) where
  client : σ
  errorCount : Nat
  processed : List KafkaRecord
  events : List LoopEvent

def Consumer.new (client : σ) : Consumer σ := ⟨client,0,[],[]⟩

def Consumer.give (s : Consumer σ) (record : KafkaRecord) : Consumer σ :=
  {s with processed := s.processed ++ [record],events := s.events ++ [.processed record]}

def Consumer.seek (client : Client σ ι) (s : Consumer σ) (record : KafkaRecord) (offset : Int) : Consumer σ :=
  {s with
    client := client.seek s.client record.topic record.partition offset
    events := s.events ++ [.sought record.topic record.partition]}

def Consumer.process (client : Client σ ι) (lambda : Lambda) (s : Consumer σ) : List KafkaRecord → Consumer σ
  | [] => s
  | record :: rest => match processMessage (lambda (s.give record).processed) with
      | some offset => (s.give record).seek client record offset
      | none => (s.give record).process client lambda rest

def consumeStep (client : Client σ ι) (lambda : Lambda) (s : Consumer σ) (input : ι) : Option (Consumer σ) :=
  (client.poll s.client input).map fun (fetches,polled) =>
    let t := {s with client := polled,events := s.events ++ fetches.records.map LoopEvent.polled}
    if fetches.errors ≠ [] then
      {t with errorCount := t.errorCount + fetches.errors.countP FetchErr.counts}
    else t.process client lambda fetches.records

def scripted : Client Unit Fetches := ⟨fun _ fetches => some (fetches,()),fun _ _ _ _ => ()⟩

def Fetches.delivered (fetches : Fetches) : List KafkaRecord := if fetches.errors ≠ [] then [] else fetches.records

theorem process_all (client : Client σ ι) (lambda : Lambda) (never : ∀ given, processMessage (lambda given) = none)
    (s : Consumer σ) (records : List KafkaRecord) :
    (s.process client lambda records).processed = s.processed ++ records ∧
      (s.process client lambda records).errorCount = s.errorCount := by
  induction records generalizing s with
  | nil => simp [Consumer.process]
  | cons record rest ih =>
      simp only [Consumer.process,never]
      obtain ⟨processed,errors⟩ := ih (s.give record)
      exact ⟨by simpa [Consumer.give] using processed,errors⟩

theorem consume_turn (lambda : Lambda) (never : ∀ given, processMessage (lambda given) = none) (s : Consumer Unit)
    (fetches : Fetches) : ∃ t, consumeStep scripted lambda s fetches = some t ∧
      t.processed = s.processed ++ fetches.delivered ∧
      t.errorCount = s.errorCount + fetches.errors.countP FetchErr.counts := by
  refine ⟨_,rfl,?_⟩
  unfold Fetches.delivered
  by_cases failed : fetches.errors ≠ []
  · simp [failed]
  · have none : fetches.errors = [] := by simpa using failed
    obtain ⟨processed,errors⟩ := process_all scripted lambda never
      {s with client := (),events := s.events ++ fetches.records.map LoopEvent.polled} fetches.records
    simp only [none,ne_eq,not_true_eq_false,if_false,List.countP_nil,Nat.add_zero]
    exact ⟨processed,errors⟩

theorem consume_all (lambda : Lambda) (never : ∀ given, processMessage (lambda given) = none) (s : Consumer Unit)
    (script : List Fetches) : ∃ t, run (consumeStep scripted lambda) s script = some t ∧
      t.processed = s.processed ++ script.flatMap Fetches.delivered ∧
      t.errorCount = s.errorCount + (script.flatMap Fetches.errors).countP FetchErr.counts := by
  induction script generalizing s with
  | nil => exact ⟨s,rfl,by simp⟩
  | cons fetches rest ih =>
      obtain ⟨middle,moved,processed,errors⟩ := consume_turn lambda never s fetches
      obtain ⟨t,ran,all,count⟩ := ih middle
      refine ⟨t,by simpa [run,moved] using ran,?_,?_⟩
      · simp [all,processed]
      · rw [List.flatMap_cons,List.countP_append]
        omega

theorem records_processed_iff (lambda : Lambda) (never : ∀ given, processMessage (lambda given) = none)
    (script : List Fetches) :
    ∃ t, run (consumeStep scripted lambda) (Consumer.new ()) script = some t ∧
      t.errorCount = (script.flatMap Fetches.errors).countP FetchErr.counts ∧
      (t.processed = script.flatMap Fetches.records ↔
        ∀ fetches ∈ script, fetches.errors ≠ [] → fetches.records = []) := by
  obtain ⟨t,ran,processed,errors⟩ := consume_all lambda never (Consumer.new ()) script
  refine ⟨t,ran,?_,?_⟩
  · rw [errors]
    exact Nat.zero_add _
  · rw [processed]
    change [] ++ _ = _ ↔ _
    rw [List.nil_append,flatMap_eq_iff]
    · refine forall₂_congr fun fetches _ => ?_
      unfold Fetches.delivered
      by_cases failed : fetches.errors ≠ []
      · rw [if_pos failed]
        exact ⟨fun lost _ => lost.symm,fun none => (none failed).symm⟩
      · rw [if_neg failed]
        exact ⟨fun _ some => absurd some failed,fun _ => rfl⟩
    · intro fetches
      unfold Fetches.delivered
      split
      · exact .inr rfl
      · exact .inl rfl

def quiet : Lambda := fun _ => some ""

def survived : KafkaRecord := ⟨"topic",0,1,"survived"⟩

def errorsApart : List Fetches :=
  [[[⟨"topic",[⟨0,some .deadlineExceeded,[]⟩]⟩]],[[⟨"topic",[⟨0,some (.other "broker unreachable"),[]⟩]⟩]],
    [[⟨"topic",[⟨0,none,[survived]⟩]⟩]]]

theorem records_processed_apart :
    ∃ t, run (consumeStep scripted quiet) (Consumer.new ()) errorsApart = some t ∧ t.errorCount = 1 ∧
      t.processed = [survived] := by
  obtain ⟨t,ran,errors,processed⟩ := records_processed_iff quiet (fun _ => rfl) errorsApart
  exact ⟨t,ran,errors,processed.mpr (by decide)⟩

def errorBeside : List Fetches :=
  [[[⟨"topic",[⟨0,some (.other "not leader"),[]⟩,⟨1,none,[⟨"topic",1,7,"lost"⟩]⟩]⟩]]]

theorem record_beside_error_lost :
    ∃ t, run (consumeStep scripted quiet) (Consumer.new ()) errorBeside = some t ∧ t.processed = [] ∧
      errorBeside.flatMap Fetches.records = [⟨"topic",1,7,"lost"⟩] :=
  ⟨_,rfl,rfl,rfl⟩

end OpenLambda.Kafka
