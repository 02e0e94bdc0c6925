import OpenLambda.Common.LambdaConfig
import OpenLambda.Foundation.Maps
import OpenLambda.Foundation.Runs

namespace OpenLambda.Kafka
open Foundation.Runs Foundation.Maps OpenLambda.Common

structure LambdaKafkaConsumer where
  id : Nat
  consumerName : String
  lambdaName : String
  kafkaTrigger : KafkaTrigger
  deriving DecidableEq, Repr

-- `created` counts the consumers and `closed` has those that cleanup was called
-- of, in order; close of a stopChan that is closed already would panic.
structure KafkaManager where
  lambdaConsumers : AList fun _ : String => LambdaKafkaConsumer
  created : Nat
  closed : List Nat

def newKafkaManager : KafkaManager := ⟨∅,0,[]⟩

def hasPrefix (text start : String) : Bool := start.toList.isPrefixOf text.toList

def KafkaManager.drop (km : KafkaManager) (consumerName : String) (consumer : LambdaKafkaConsumer) : KafkaManager :=
  {km with lambdaConsumers := km.lambdaConsumers.erase consumerName,closed := km.closed ++ [consumer.id]}

def KafkaManager.dropAll (km : KafkaManager) (lambdaName : String) : KafkaManager :=
  km.lambdaConsumers.entries.foldl (fun km entry =>
    if hasPrefix entry.1 (lambdaName ++ "-") then km.drop entry.1 entry.2 else km) km

-- `newClient` is the error of kgo.NewClient, if it has one.
def KafkaManager.newLambdaKafkaConsumer (km : KafkaManager) (newClient : Option String)
    (consumerName lambdaName : String) (trigger : KafkaTrigger) : Except String LambdaKafkaConsumer :=
  if trigger.bootstrapServers = [] then .error ("no bootstrap servers configured for lambda " ++ lambdaName)
  else if trigger.topics = [] then .error ("no topics configured for lambda " ++ lambdaName)
  else match newClient with
    | some err => .error ("failed to create Kafka client for lambda " ++ lambdaName ++ ": " ++ err)
    | none => .ok ⟨km.created,consumerName,lambdaName,trigger⟩

def consumerNameOf (lambdaName : String) (i : Nat) : String := lambdaName ++ "-" ++ i.repr

-- The loop over the triggers, from the i-th on. A consumer that cannot be created
-- is skipped.
def KafkaManager.createFrom (newClient : Nat → Option String) (lambdaName : String) (km : KafkaManager) (i : Nat) :
    List KafkaTrigger → KafkaManager
  | [] => km
  | trigger :: rest =>
      let consumerName := consumerNameOf lambdaName i
      let km := match km.newLambdaKafkaConsumer (newClient i) consumerName lambdaName
          {trigger with groupId := "lambda-" ++ lambdaName} with
        | .error _ => km
        | .ok consumer =>
            {km with lambdaConsumers := km.lambdaConsumers.insert consumerName consumer,created := km.created + 1}
      km.createFrom newClient lambdaName (i + 1) rest

def KafkaManager.registerLambdaKafkaTriggers (newClient : Nat → Option String) (km : KafkaManager) (lambdaName : String)
    (triggers : List KafkaTrigger) : KafkaManager :=
  if triggers = [] then km else (km.dropAll lambdaName).createFrom newClient lambdaName 0 triggers

def KafkaManager.unregisterLambdaKafkaTriggers (km : KafkaManager) (lambdaName : String) : KafkaManager :=
  km.dropAll lambdaName

def KafkaManager.cleanup (km : KafkaManager) : KafkaManager :=
  {km with lambdaConsumers := ∅,closed := km.closed ++ km.lambdaConsumers.entries.map (·.2.id)}

inductive Registration where
  | register (newClient : Nat → Option String) (lambdaName : String) (triggers : List KafkaTrigger)
  | unregister (lambdaName : String)
  | cleanup

def register (km : KafkaManager) : Registration → Option KafkaManager
  | .register newClient lambdaName triggers => some (km.registerLambdaKafkaTriggers newClient lambdaName triggers)
  | .unregister lambdaName => some (km.unregisterLambdaKafkaTriggers lambdaName)
  | .cleanup => some km.cleanup

theorem marked_start (first : List α) (mark : α) (digits : List α) : first ++ [mark] <+: first ++ mark :: digits :=
  ⟨digits,by simp⟩

theorem marked_begins {mark : α} {first second digits : List α} (other : first ≠ second) (plain : mark ∉ digits) :
    first ++ [mark] <+: second ++ mark :: digits ↔ first ++ [mark] <+: second := by
  constructor
  · intro ahead
    by_cases short : (first ++ [mark]).length ≤ second.length
    · exact List.prefix_of_prefix_length_le ahead (List.prefix_append _ _) short
    · have within : second <+: first := by
        have start := List.prefix_of_prefix_length_le (List.prefix_append second _) ahead (by omega)
        refine List.prefix_of_prefix_length_le start (List.prefix_append first [mark]) ?_
        simp only [List.length_append,List.length_singleton] at short
        omega
      obtain ⟨rest,rfl⟩ := within
      rw [List.append_assoc,List.prefix_append_right_inj] at ahead
      cases rest with
      | nil => exact absurd (List.append_nil _) other
      | cons next rest =>
          obtain ⟨_,tail⟩ := List.cons_prefix_cons.mp ahead
          exact absurd (tail.subset (List.mem_append_right _ (List.mem_singleton_self mark))) plain
  · exact fun ahead => ahead.trans (List.prefix_append _ _)

theorem marked_inj {mark : α} {first second digits others : List α} (same : first ++ mark :: digits = second ++ mark :: others)
    (plain : mark ∉ digits) (bare : mark ∉ others) : first = second := by
  apply Classical.byContradiction
  intro other
  have ahead : first ++ [mark] <+: second ++ mark :: others := by
    rw [← same]
    exact marked_start first mark digits
  have behind : second ++ [mark] <+: first ++ mark :: digits := by
    rw [same]
    exact marked_start second mark others
  have more := ((marked_begins other bare).mp ahead).length_le
  have fewer := ((marked_begins (Ne.symm other) plain).mp behind).length_le
  simp only [List.length_append,List.length_singleton] at more fewer
  omega

theorem repr_plain (i : Nat) : '-' ∉ i.repr.toList := by
  intro member
  rw [Nat.toList_repr] at member
  cases Nat.isDigit_of_mem_toDigits (by decide) (by decide) member

theorem consumerName_list (lambdaName : String) (i : Nat) :
    (consumerNameOf lambdaName i).toList = lambdaName.toList ++ '-' :: i.repr.toList := by
  simp [consumerNameOf]

theorem consumerName_inj (same : consumerNameOf first i = consumerNameOf second j) : first = second ∧ i = j := by
  have names : first.toList ++ '-' :: i.repr.toList = second.toList ++ '-' :: j.repr.toList := by
    rw [← consumerName_list,← consumerName_list,same]
  have equal := marked_inj names (repr_plain i) (repr_plain j)
  refine ⟨String.toList_inj.mp equal,?_⟩
  rw [equal] at names
  have digits := (List.cons_inj_right _).mp (List.append_cancel_left names)
  rw [Nat.toList_repr,Nat.toList_repr] at digits
  calc
    i = Nat.ofDigitChars 10 (Nat.toDigits 10 i) 0 := (Nat.ofDigitChars_toDigits (by decide) (by decide)).symm
    _ = Nat.ofDigitChars 10 (Nat.toDigits 10 j) 0 := by rw [digits]
    _ = j := Nat.ofDigitChars_toDigits (by decide) (by decide)

theorem hasPrefix_iff (text name : String) : hasPrefix text (name ++ "-") = true ↔ name.toList ++ ['-'] <+: text.toList := by
  simp [hasPrefix]

theorem consumerName_begins (other : lambdaName ≠ name) (i : Nat) :
    hasPrefix (consumerNameOf lambdaName i) (name ++ "-") = hasPrefix lambdaName (name ++ "-") := by
  rw [Bool.eq_iff_iff,hasPrefix_iff,hasPrefix_iff,consumerName_list]
  apply marked_begins _ (repr_plain i)
  exact fun same => other (String.toList_inj.mp same.symm)

theorem consumerName_own (name : String) (i : Nat) : hasPrefix (consumerNameOf name i) (name ++ "-") = true := by
  rw [hasPrefix_iff,consumerName_list]
  exact marked_start _ _ _

structure Registered (km : KafkaManager) : Prop where
  keyed : ∀ name consumer, km.lambdaConsumers.lookup name = some consumer → ∃ i, name = consumerNameOf consumer.lambdaName i
  live : ∀ name consumer, km.lambdaConsumers.lookup name = some consumer → consumer.id < km.created ∧ consumer.id ∉ km.closed
  apart : ∀ name other first second, km.lambdaConsumers.lookup name = some first →
    km.lambdaConsumers.lookup other = some second → first.id = second.id → name = other
  once : km.closed.Nodup
  known : ∀ id ∈ km.closed, id < km.created
  kept : ∀ id, id < km.created → id ∈ km.closed ∨
    ∃ name consumer, km.lambdaConsumers.lookup name = some consumer ∧ consumer.id = id

theorem new_registered : Registered newKafkaManager where
  keyed := fun _ _ => nofun
  live := fun _ _ => nofun
  apart := fun _ _ _ _ => nofun
  once := List.nodup_nil
  known := nofun
  kept := fun _ => nofun

theorem drop_registered (registered : Registered km) (here : km.lambdaConsumers.lookup key = some consumer) :
    Registered (km.drop key consumer) := by
  have still : ∀ name other, (km.drop key consumer).lambdaConsumers.lookup name = some other →
      name ≠ key ∧ km.lambdaConsumers.lookup name = some other := by
    intro name other found
    change (km.lambdaConsumers.erase key).lookup name = some other at found
    rw [erase_lookup] at found
    split at found
    · cases found
    · rename_i different
      exact ⟨different,found⟩
  constructor
  · exact fun name other found => registered.keyed name other (still name other found).2
  · intro name other found
    obtain ⟨different,before⟩ := still name other found
    obtain ⟨known,fresh⟩ := registered.live name other before
    refine ⟨known,?_⟩
    intro member
    rcases List.mem_append.mp member with old | new
    · exact fresh old
    · exact different (registered.apart name key other consumer before here (List.mem_singleton.mp new))
  · intro name other first second one two
    exact registered.apart name other first second (still name first one).2 (still other second two).2
  · change (km.closed ++ [consumer.id]).Nodup
    rw [← List.concat_eq_append]
    exact registered.once.concat (registered.live key consumer here).2
  · intro id member
    rcases List.mem_append.mp member with old | new
    · exact registered.known id old
    · rw [List.mem_singleton.mp new]
      exact (registered.live key consumer here).1
  · intro id made
    rcases registered.kept id made with old | ⟨name,other,found,same⟩
    · exact .inl (List.mem_append_left _ old)
    · by_cases mine : name = key
      · subst mine
        cases here.symm.trans found
        exact .inl (List.mem_append_right _ (List.mem_singleton.mpr same.symm))
      · refine .inr ⟨name,other,?_,same⟩
        change (km.lambdaConsumers.erase key).lookup name = some other
        rw [erase_lookup,if_neg mine]
        exact found

theorem dropping (lambdaName : String) (entries : List (Sigma fun _ : String => LambdaKafkaConsumer))
    (registered : Registered km) (present : ∀ entry ∈ entries, km.lambdaConsumers.lookup entry.1 = some entry.2)
    (distinct : (entries.map Sigma.fst).Nodup) :
    let dropped := entries.foldl (fun km entry =>
      if hasPrefix entry.1 (lambdaName ++ "-") then km.drop entry.1 entry.2 else km) km
    Registered dropped ∧ ∀ name, dropped.lambdaConsumers.lookup name =
      if name ∈ entries.map Sigma.fst ∧ hasPrefix name (lambdaName ++ "-") = true then none
      else km.lambdaConsumers.lookup name := by
  induction entries generalizing km with
  | nil => exact ⟨registered,fun name => by simp⟩
  | cons entry rest ih =>
      obtain ⟨absent,later⟩ := List.nodup_cons.mp distinct
      have members : ∀ name, name ∈ (entry :: rest).map Sigma.fst ↔ name = entry.1 ∨ name ∈ rest.map Sigma.fst := by
        intro name
        rw [List.map_cons,List.mem_cons]
      rw [List.foldl_cons]
      split
      · rename_i begins
        have tail : ∀ other ∈ rest, (km.drop entry.1 entry.2).lambdaConsumers.lookup other.1 = some other.2 := by
          intro other member
          change (km.lambdaConsumers.erase entry.1).lookup other.1 = some other.2
          have different : other.1 ≠ entry.1 := fun same => absent (List.mem_map.mpr ⟨other,member,same⟩)
          rw [erase_lookup,if_neg different]
          exact present other (List.mem_cons_of_mem _ member)
        obtain ⟨fine,lookups⟩ := ih (drop_registered registered (present entry List.mem_cons_self)) tail later
        refine ⟨fine,fun name => ?_⟩
        rw [lookups name]
        change (if _ then none else (km.lambdaConsumers.erase entry.1).lookup name) = _
        rw [erase_lookup]
        by_cases same : name = entry.1
        · subst same
          rw [if_pos rfl,ite_self,if_pos ⟨(members _).mpr (.inl rfl),begins⟩]
        · rw [if_neg same]
          exact if_congr (by rw [members,or_iff_right same]) rfl rfl
      · rename_i different
        obtain ⟨fine,lookups⟩ := ih registered (fun other member => present other (List.mem_cons_of_mem _ member)) later
        refine ⟨fine,fun name => ?_⟩
        rw [lookups name]
        by_cases same : name = entry.1
        · subst same
          rw [if_neg fun both => different both.2,if_neg fun both => different both.2]
        · exact if_congr (by rw [members,or_iff_right same]) rfl rfl

theorem dropAll_spec (registered : Registered km) (lambdaName : String) : Registered (km.dropAll lambdaName) ∧
    ∀ name, (km.dropAll lambdaName).lambdaConsumers.lookup name =
      if hasPrefix name (lambdaName ++ "-") then none else km.lambdaConsumers.lookup name := by
  obtain ⟨fine,lookups⟩ := dropping lambdaName km.lambdaConsumers.entries registered
    (fun _ member => AList.mem_lookup_iff.mpr member) km.lambdaConsumers.keys_nodup
  refine ⟨fine,fun name => (lookups name).trans ?_⟩
  by_cases present : name ∈ km.lambdaConsumers.keys
  · have member : name ∈ km.lambdaConsumers.entries.map Sigma.fst := present
    simp only [member,true_and]
  · have absent : km.lambdaConsumers.lookup name = none := AList.lookup_eq_none.mpr present
    simp [absent]

theorem store_registered (registered : Registered km) (absent : km.lambdaConsumers.lookup name = none)
    (named : name = consumerNameOf consumer.lambdaName i) (id : consumer.id = km.created) :
    Registered {km with lambdaConsumers := km.lambdaConsumers.insert name consumer,created := km.created + 1} := by
  have origin : ∀ key other, (km.lambdaConsumers.insert name consumer).lookup key = some other →
      key = name ∧ other = consumer ∨ km.lambdaConsumers.lookup key = some other := by
    intro key other found
    rw [insert_lookup] at found
    split at found
    · rename_i same
      cases found
      exact .inl ⟨same,rfl⟩
    · exact .inr found
  constructor
  · intro key other found
    rcases origin key other found with ⟨rfl,rfl⟩ | old
    · exact ⟨i,named⟩
    · exact registered.keyed _ other old
  · intro key other found
    rcases origin key other found with ⟨rfl,rfl⟩ | old
    · rw [id]
      exact ⟨Nat.lt_succ_self _,fun member => Nat.lt_irrefl _ (registered.known _ member)⟩
    · exact (registered.live key other old).imp_left Nat.lt_succ_of_lt
  · intro key other first second one two same
    rcases origin key first one with ⟨rfl,rfl⟩ | old
    · rcases origin other second two with ⟨rfl,rfl⟩ | older
      · rfl
      · have known := (registered.live other second older).1
        rw [← same,id] at known
        exact absurd known (Nat.lt_irrefl _)
    · rcases origin other second two with ⟨rfl,rfl⟩ | older
      · have known := (registered.live key first old).1
        rw [same,id] at known
        exact absurd known (Nat.lt_irrefl _)
      · exact registered.apart key other first second old older same
  · exact registered.once
  · exact fun id member => Nat.lt_succ_of_lt (registered.known id member)
  · intro made known
    rcases Nat.lt_succ_iff_lt_or_eq.mp known with old | rfl
    · rcases registered.kept made old with closed | ⟨key,other,found,same⟩
      · exact .inl closed
      · refine .inr ⟨key,other,?_,same⟩
        change (km.lambdaConsumers.insert name consumer).lookup key = some other
        rw [insert_lookup,if_neg]
        · exact found
        · rintro rfl
          cases absent.symm.trans found
    · exact .inr ⟨name,consumer,AList.lookup_insert _,id⟩

theorem newConsumer_parts {km : KafkaManager}
    (made : km.newLambdaKafkaConsumer newClient consumerName lambdaName trigger = .ok consumer) :
    consumer.id = km.created ∧ consumer.lambdaName = lambdaName := by
  unfold KafkaManager.newLambdaKafkaConsumer at made
  split at made
  · cases made
  · split at made
    · cases made
    · split at made
      · cases made
      · cases made
        exact ⟨rfl,rfl⟩

theorem createFrom_spec (newClient : Nat → Option String) (lambdaName : String) (triggers : List KafkaTrigger)
    (registered : Registered km)
    (below : ∀ name consumer, km.lambdaConsumers.lookup name = some consumer → hasPrefix name (lambdaName ++ "-") = true →
      ∃ j, j < i ∧ name = consumerNameOf lambdaName j) :
    Registered (km.createFrom newClient lambdaName i triggers) ∧
      ∀ name, (∀ j, name ≠ consumerNameOf lambdaName j) →
        (km.createFrom newClient lambdaName i triggers).lambdaConsumers.lookup name = km.lambdaConsumers.lookup name := by
  induction triggers generalizing km i with
  | nil => exact ⟨registered,fun _ _ => rfl⟩
  | cons trigger rest ih =>
      unfold KafkaManager.createFrom
      dsimp only
      split
      · refine ih registered ?_
        intro name consumer found begins
        obtain ⟨j,less,same⟩ := below name consumer found begins
        exact ⟨j,Nat.lt_succ_of_lt less,same⟩
      · rename_i consumer made
        obtain ⟨id,own⟩ := newConsumer_parts made
        have absent : km.lambdaConsumers.lookup (consumerNameOf lambdaName i) = none := by
          cases found : km.lambdaConsumers.lookup (consumerNameOf lambdaName i) with
          | none => rfl
          | some older =>
              obtain ⟨j,less,same⟩ := below _ older found (consumerName_own lambdaName i)
              exact absurd (consumerName_inj same).2 (Nat.ne_of_gt less)
        have stored := store_registered (i := i) registered absent (by rw [own]) id
        obtain ⟨fine,others⟩ := ih stored (by
          intro name other found begins
          change (km.lambdaConsumers.insert (consumerNameOf lambdaName i) consumer).lookup name = some other at found
          rw [insert_lookup] at found
          split at found
          · rename_i same
            exact ⟨i,Nat.lt_succ_self i,same⟩
          · obtain ⟨j,less,same⟩ := below name other found begins
            exact ⟨j,Nat.lt_succ_of_lt less,same⟩)
        refine ⟨fine,?_⟩
        intro name apart
        rw [others name apart]
        change (km.lambdaConsumers.insert (consumerNameOf lambdaName i) consumer).lookup name = _
        rw [insert_lookup,if_neg (apart i)]

theorem registerLambda_spec (registered : Registered km) (newClient : Nat → Option String) (lambdaName : String)
    (more : triggers ≠ []) :
    Registered (km.registerLambdaKafkaTriggers newClient lambdaName triggers) ∧
      ∀ name, (∀ j, name ≠ consumerNameOf lambdaName j) →
        (km.registerLambdaKafkaTriggers newClient lambdaName triggers).lambdaConsumers.lookup name =
          (km.dropAll lambdaName).lambdaConsumers.lookup name := by
  obtain ⟨dropped,lookups⟩ := dropAll_spec registered lambdaName
  unfold KafkaManager.registerLambdaKafkaTriggers
  rw [if_neg more]
  refine createFrom_spec newClient lambdaName triggers dropped ?_
  intro name consumer found begins
  rw [lookups,if_pos begins] at found
  cases found

theorem cleanup_registered (registered : Registered km) : Registered km.cleanup where
  keyed := fun _ _ => nofun
  live := fun _ _ => nofun
  apart := fun _ _ _ _ => nofun
  once := by
    change (km.closed ++ km.lambdaConsumers.entries.map (·.2.id)).Nodup
    rw [List.nodup_append']
    refine ⟨registered.once,?_,?_⟩
    · refine List.Nodup.map_on ?_ km.lambdaConsumers.nodupKeys.nodup
      rintro ⟨name,first⟩ one ⟨other,second⟩ two same
      have found := AList.mem_lookup_iff.mpr one
      have also := AList.mem_lookup_iff.mpr two
      cases registered.apart name other first second found also same
      cases Option.some.inj (found.symm.trans also)
      rfl
    · intro id closed member
      obtain ⟨entry,present,rfl⟩ := List.mem_map.mp member
      exact (registered.live entry.1 entry.2 (AList.mem_lookup_iff.mpr present)).2 closed
  known := by
    intro id member
    rcases List.mem_append.mp member with old | new
    · exact registered.known id old
    · obtain ⟨entry,present,rfl⟩ := List.mem_map.mp new
      exact (registered.live entry.1 entry.2 (AList.mem_lookup_iff.mpr present)).1
  kept := by
    intro id made
    rcases registered.kept id made with old | ⟨name,consumer,found,rfl⟩
    · exact .inl (List.mem_append_left _ old)
    · refine .inl (List.mem_append_right _ (List.mem_map.mpr ⟨⟨name,consumer⟩,?_,rfl⟩))
      exact AList.mem_lookup_iff.mp found

theorem register_registered (registered : Registered km) (moved : register km request = some next) : Registered next := by
  cases request with
  | register newClient lambdaName triggers =>
      cases moved
      by_cases none : triggers = []
      · unfold KafkaManager.registerLambdaKafkaTriggers
        rw [if_pos none]
        exact registered
      · exact (registerLambda_spec registered newClient lambdaName none).1
  | unregister lambdaName =>
      cases moved
      exact (dropAll_spec registered lambdaName).1
  | cleanup =>
      cases moved
      exact cleanup_registered registered

theorem reached_registered (ran : run register newKafkaManager requests = some km) : Registered km :=
  run_preserves Registered (fun _ _ _ registered moved => register_registered registered moved) new_registered ran

def KafkaManager.Keeps (km : KafkaManager) (name : String) (consumer : LambdaKafkaConsumer) : Prop :=
  km.lambdaConsumers.lookup name = some consumer ∧ consumer.id ∉ km.closed

theorem keeps_iff (registered : Registered km) : km.Keeps name consumer ↔ km.lambdaConsumers.lookup name = some consumer :=
  ⟨And.left,fun found => ⟨found,(registered.live name consumer found).2⟩⟩

theorem dropAll_keeps (registered : Registered km) (here : km.lambdaConsumers.lookup name = some consumer)
    (other : consumer.lambdaName ≠ lambdaName) :
    (km.dropAll lambdaName).lambdaConsumers.lookup name = some consumer ↔
      hasPrefix consumer.lambdaName (lambdaName ++ "-") = false := by
  obtain ⟨i,rfl⟩ := registered.keyed name consumer here
  rw [(dropAll_spec registered lambdaName).2,consumerName_begins other]
  cases hasPrefix consumer.lambdaName (lambdaName ++ "-") with
  | true => simp
  | false => simpa using here

theorem register_keeps_others (ran : run register newKafkaManager requests = some km) (newClient : Nat → Option String)
    (lambdaName : String) (triggers : List KafkaTrigger) :
    (∀ name consumer, km.lambdaConsumers.lookup name = some consumer → consumer.lambdaName ≠ lambdaName →
      ((km.unregisterLambdaKafkaTriggers lambdaName).Keeps name consumer ↔
        hasPrefix consumer.lambdaName (lambdaName ++ "-") = false) ∧
      ((km.registerLambdaKafkaTriggers newClient lambdaName triggers).Keeps name consumer ↔
        triggers = [] ∨ hasPrefix consumer.lambdaName (lambdaName ++ "-") = false)) ∧
    km.closed.Nodup ∧ ∀ id, id < km.created →
      (id ∈ km.closed ↔ ¬ ∃ name consumer, km.lambdaConsumers.lookup name = some consumer ∧ consumer.id = id) := by
  have registered := reached_registered ran
  refine ⟨?_,registered.once,?_⟩
  · intro name consumer here other
    constructor
    · exact (keeps_iff (dropAll_spec registered lambdaName).1).trans (dropAll_keeps registered here other)
    · by_cases none : triggers = []
      · unfold KafkaManager.registerLambdaKafkaTriggers
        rw [if_pos none,keeps_iff registered]
        exact ⟨fun _ => .inl none,fun _ => here⟩
      · obtain ⟨fine,lookups⟩ := registerLambda_spec registered newClient lambdaName none
        have apart : ∀ j, name ≠ consumerNameOf lambdaName j := by
          rintro j rfl
          obtain ⟨i,same⟩ := registered.keyed _ consumer here
          exact other (consumerName_inj same).1.symm
        rw [keeps_iff fine,lookups name apart,dropAll_keeps registered here other,or_iff_right none]
  · intro id made
    constructor
    · rintro closed ⟨name,consumer,found,rfl⟩
      exact (registered.live name consumer found).2 closed
    · intro nowhere
      exact (registered.kept id made).resolve_right nowhere

def eventsTrigger : KafkaTrigger := ⟨["localhost:9092"],["events"],"","latest"⟩

def registeredFor (lambdaName : String) : LambdaKafkaConsumer :=
  ⟨0,lambdaName ++ "-0",lambdaName,{eventsTrigger with groupId := "lambda-" ++ lambdaName}⟩

theorem register_keeps_others_apart : ∃ km, run register newKafkaManager
      [.register (fun _ => none) "fg" [eventsTrigger]] = some km ∧
    (km.unregisterLambdaKafkaTriggers "f").Keeps "fg-0" (registeredFor "fg") := by
  have ran : run register newKafkaManager [.register (fun _ => none) "fg" [eventsTrigger]] =
      some (newKafkaManager.registerLambdaKafkaTriggers (fun _ => none) "fg" [eventsTrigger]) := rfl
  have frame := (register_keeps_others ran (fun _ => none) "f" []).1 "fg-0" (registeredFor "fg") (by decide) (by decide)
  exact ⟨_,ran,frame.1.mpr (by decide)⟩

-- A lambda named f-g has its consumer under f-g-0, which begins with f-.
theorem unregister_closes_other : validateFunctionName id "f" = none ∧ validateFunctionName id "f-g" = none ∧
    ∃ km, run register newKafkaManager [.register (fun _ => none) "f-g" [eventsTrigger]] = some km ∧
      km.lambdaConsumers.lookup "f-g-0" = some (registeredFor "f-g") ∧
      (km.unregisterLambdaKafkaTriggers "f").lambdaConsumers.lookup "f-g-0" = none ∧
      (km.unregisterLambdaKafkaTriggers "f").closed = [0] := by
  refine ⟨by decide,by decide,_,rfl,?_⟩
  decide

end OpenLambda.Kafka
