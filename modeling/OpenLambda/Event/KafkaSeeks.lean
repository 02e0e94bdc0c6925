import OpenLambda.Event.CachedKafkaClient

namespace OpenLambda.Kafka
open Foundation.Runs

-- Every record that a poll returned was given to processMessage afterwards, or a
-- seek was requested afterwards on its own partition.
def Answered : List LoopEvent → Prop
  | [] => True
  | .polled record :: later =>
      (.processed record ∈ later ∨ .sought record.topic record.partition ∈ later) ∧ Answered later
  | _ :: later => Answered later

theorem answered_append (first : Answered events) (second : Answered more) : Answered (events ++ more) := by
  induction events with
  | nil => exact second
  | cons event later ih =>
      cases event with
      | polled record =>
          obtain ⟨answer,rest⟩ := first
          exact ⟨answer.imp (List.mem_append_left _) (List.mem_append_left _),ih rest⟩
      | processed record => exact ih first
      | sought topic partition => exact ih first

theorem answered_polled (records : List KafkaRecord)
    (each : ∀ record ∈ records, .processed record ∈ more ∨ .sought record.topic record.partition ∈ more)
    (second : Answered more) : Answered (records.map LoopEvent.polled ++ more) := by
  induction records with
  | nil => exact second
  | cons record rest ih =>
      refine ⟨?_,ih fun other member => each other (by simp [member])⟩
      exact (each record (by simp)).imp (List.mem_append_right _) (List.mem_append_right _)

def dropped (lambda : Lambda) (processed : List KafkaRecord) : List KafkaRecord → Option (KafkaRecord × List KafkaRecord)
  | [] => none
  | record :: rest =>
      if (processMessage (lambda (processed ++ [record]))).isSome then some (record,rest)
      else dropped lambda (processed ++ [record]) rest

theorem process_events (client : Client σ ι) (lambda : Lambda) (s : Consumer σ) (records : List KafkaRecord) :
    ∃ more, (s.process client lambda records).events = s.events ++ more ∧ Answered more ∧
      ∀ record ∈ records, .processed record ∈ more ∨
        ∃ at_ rest, dropped lambda s.processed records = some (at_,rest) ∧ record ∈ rest ∧
          .sought at_.topic at_.partition ∈ more := by
  induction records generalizing s with
  | nil => exact ⟨[],by simp [Consumer.process],trivial,nofun⟩
  | cons record rest ih =>
      cases seek : processMessage (lambda (s.processed ++ [record])) with
      | some offset =>
          refine ⟨[.processed record,.sought record.topic record.partition],?_,trivial,?_⟩
          · simp [Consumer.process,Consumer.give,Consumer.seek,seek]
          · intro other member
            rcases List.mem_cons.mp member with rfl | later
            · exact .inl (by simp)
            · exact .inr ⟨record,rest,by simp [dropped,seek],later,by simp⟩
      | none =>
          obtain ⟨more,events,answered,each⟩ := ih (s.give record)
          refine ⟨.processed record :: more,?_,answered,?_⟩
          · simp only [Consumer.process,Consumer.give,seek] at events ⊢
            rw [events]
            simp
          · intro other member
            rcases List.mem_cons.mp member with rfl | later
            · exact .inl (by simp)
            · rcases each other later with given | ⟨at_,left,same,there,sought⟩
              · exact .inl (List.mem_cons_of_mem _ given)
              · refine .inr ⟨at_,left,?_,there,List.mem_cons_of_mem _ sought⟩
                simpa [dropped,seek,Consumer.give] using same

def clean (client : Client σ ι) (s : Consumer σ) (input : ι) : Bool :=
  (client.poll s.client input).all fun polled => polled.1.errors.isEmpty

-- If a seek is requested during the batch, the records left of it are all of the
-- partition that is sought.
def aligned (client : Client σ ι) (lambda : Lambda) (s : Consumer σ) (input : ι) : Bool :=
  (client.poll s.client input).all fun polled =>
    (dropped lambda s.processed polled.1.records).all fun (at_,rest) =>
      rest.all fun record => decide (record.topic = at_.topic ∧ record.partition = at_.partition)

theorem consume_answered {s t : Consumer σ} (answered : Answered s.events) (errorless : clean client s input = true)
    (together : aligned client lambda s input = true) (moved : consumeStep client lambda s input = some t) :
    Answered t.events := by
  obtain ⟨⟨fetches,polled⟩,got,rfl⟩ := Option.map_eq_some_iff.mp moved
  have none : fetches.errors = [] := by simpa [clean,got] using errorless
  simp only [none,ne_eq,not_true_eq_false,if_false]
  obtain ⟨more,events,later,each⟩ := process_events client lambda
    {s with client := polled,events := s.events ++ fetches.records.map LoopEvent.polled} fetches.records
  rw [events,List.append_assoc]
  refine answered_append answered (answered_polled _ ?_ later)
  intro record member
  rcases each record member with given | ⟨at_,rest,left,there,sought⟩
  · exact .inl given
  · have same : record.topic = at_.topic ∧ record.partition = at_.partition := by
      simp only [aligned,got,Option.all_some,left] at together
      exact of_decide_eq_true (List.all_eq_true.mp together record there)
    rw [same.1,same.2]
    exact .inr sought

theorem seek_keeps_others {client : Client σ ι} {s : Consumer σ}
    (errorless : Meets (consumeStep client lambda) (fun s input => clean client s input) (Consumer.new start) inputs)
    (together : Meets (consumeStep client lambda) (fun s input => aligned client lambda s input) (Consumer.new start) inputs)
    (ran : run (consumeStep client lambda) (Consumer.new start) inputs = some s) : Answered s.events := by
  have empty : Answered (Consumer.new start).events := trivial
  refine run_preserves_guarded (fun s : Consumer σ => Answered s.events) ?_ empty (meets_and errorless together) ran
  rintro s input t answered ⟨one,other⟩ moved
  exact consume_answered answered one other moved

def rewinds : Lambda := fun given => some (if given.length = 2 then "0" else "")

def batch (partitions : List (Int × List KafkaRecord)) : Fetches :=
  [[⟨"topic",partitions.map fun (partition,records) => ⟨partition,none,records⟩⟩]]

def first (offset : Int) : KafkaRecord := ⟨"topic",0,offset,"a"⟩

def second (offset : Int) : KafkaRecord := ⟨"topic",1,offset,"b"⟩

theorem seek_keeps_others_cached :
    ∃ s, run (consumeStep (cached scripted) rewinds) (Consumer.new (newCachedKafkaClient () 10))
        [batch [(1,[second 0])],batch [(0,[first 0,first 1,first 2])],[],batch [(0,[first 1])]] = some s ∧
      s.processed = [second 0,first 0,first 0,first 1] ∧ Answered s.events := by
  have ran : ∃ s, run (consumeStep (cached scripted) rewinds) (Consumer.new (newCachedKafkaClient () 10))
        [batch [(1,[second 0])],batch [(0,[first 0,first 1,first 2])],[],batch [(0,[first 1])]] = some s ∧
      s.processed = [second 0,first 0,first 0,first 1] := ⟨_,rfl,by decide⟩
  obtain ⟨s,ran,processed⟩ := ran
  exact ⟨s,ran,processed,seek_keeps_others (by decide +kernel) (by decide +kernel) ran⟩

-- A batch of two partitions: the seek on the first loses the record of the
-- second, with and without the cache.
theorem seek_loses_other :
    (∃ s, run (consumeStep scripted rewinds) (Consumer.new ())
        [batch [(0,[first 0,first 1]),(1,[second 7])]] = some s ∧ ¬ Answered s.events) ∧
    ∃ s, run (consumeStep (cached scripted) rewinds) (Consumer.new (newCachedKafkaClient () 10))
        [batch [(0,[first 0,first 1]),(1,[second 7])]] = some s ∧ ¬ Answered s.events := by
  refine ⟨⟨_,rfl,?_⟩,⟨_,rfl,?_⟩⟩
  · intro answered
    have lost := answered.2.2.1
    revert lost
    decide
  · intro answered
    have lost := answered.2.2.1
    revert lost
    decide

end OpenLambda.Kafka
