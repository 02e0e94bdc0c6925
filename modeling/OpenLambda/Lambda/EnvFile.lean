import OpenLambda.Common.LambdaConfig
import OpenLambda.Foundation.Lines
import Mathlib.Data.List.Infix

namespace OpenLambda.EnvFile
open Common Foundation.Lines

def specials : List Char := [' ','\t','\n','#','=']

def containsAny (value : List Char) : Bool := value.any fun c => c ∈ specials

def escaped : List Char → List Char
  | [] => []
  | c :: rest => if c = '"' then '\\' :: '"' :: escaped rest else c :: escaped rest

def entryText (key value : List Char) : List Char :=
  if containsAny value then key ++ '=' :: '"' :: (escaped value ++ '"' :: ['\n']) else key ++ '=' :: (value ++ ['\n'])

def envText (environment : List (String × String)) : List Char :=
  environment.flatMap fun pair => entryText pair.1.toList pair.2.toList

def envFile (environment : List (String × String)) : Option String :=
  if 0 < environment.length then some (String.ofList (envText environment)) else none

structure Accepted (environment : List (String × String)) : Prop where
  distinct : (environment.map Prod.fst).Nodup
  checked : ∀ pair ∈ environment, checkEnvironment pair = none

-- A range over the map may have any order.
def MayWrite (environment : List (String × String)) (text : String) : Prop :=
  ∃ order, order.Perm environment ∧ envFile order = some text

def UniquelyDecodable (allowed : String → Prop) : Prop :=
  ∀ first second, Accepted first → Accepted second → (∀ pair ∈ first, allowed pair.2) → (∀ pair ∈ second, allowed pair.2) →
    ∀ text, MayWrite first text → MayWrite second text → first.Perm second

def keepsOpen : List Char → Bool
  | [] => true
  | '\\' :: '"' :: rest => keepsOpen rest
  | '"' :: _ => false
  | _ :: rest => keepsOpen rest

def opensQuote : List Char → Bool
  | '"' :: rest => keepsOpen rest
  | _ => false

-- Written without quotes it does not read as the beginning of a quoted value, and
-- in quotes it leaves the quote that ends it alone.
def SafeText (value : List Char) : Prop :=
  if containsAny value then value.getLast? ≠ some '\\' else opensQuote value = false

instance (value : List Char) : Decidable (SafeText value) := inferInstanceAs (Decidable (ite _ _ _))

def Safe (value : String) : Prop := SafeText value.toList

instance (value : String) : Decidable (Safe value) := inferInstanceAs (Decidable (SafeText _))

theorem escaped_quote (rest : List Char) : escaped ('"' :: rest) = '\\' :: '"' :: escaped rest := if_pos rfl

theorem escaped_other (other : c ≠ '"') (rest : List Char) : escaped (c :: rest) = c :: escaped rest := if_neg other

theorem escaped_append (first second : List Char) : escaped (first ++ second) = escaped first ++ escaped second := by
  induction first with
  | nil => rfl
  | cons c rest ih =>
      by_cases quote : c = '"'
      · subst quote
        rw [List.cons_append,escaped_quote,escaped_quote,ih]
        rfl
      · rw [List.cons_append,escaped_other quote,escaped_other quote,ih]
        rfl

-- An escaped text is cut between two characters of the value, or between a quote
-- and its backslash.
theorem escaped_cut (same : escaped value = front ++ back) :
    (∃ line rest, front = escaped line ∧ back = escaped rest) ∨
    ∃ line rest, front = escaped line ++ ['\\'] ∧ back = '"' :: escaped rest := by
  induction value generalizing front with
  | nil =>
      obtain ⟨rfl,rfl⟩ := List.append_eq_nil_iff.mp same.symm
      exact .inl ⟨[],[],rfl,rfl⟩
  | cons c value ih =>
      cases front with
      | nil => exact .inl ⟨[],c :: value,rfl,same.symm⟩
      | cons first front =>
          by_cases quote : c = '"'
          · subst quote
            rw [escaped_quote] at same
            obtain ⟨rfl,tail⟩ := List.cons.inj same
            cases front with
            | nil => exact .inr ⟨[],value,rfl,tail.symm⟩
            | cons second front =>
                obtain ⟨rfl,later⟩ := List.cons.inj tail
                rcases ih later with ⟨line,rest,rfl,after⟩ | ⟨line,rest,rfl,after⟩
                · exact .inl ⟨'"' :: line,rest,(escaped_quote line).symm,after⟩
                · exact .inr ⟨'"' :: line,rest,by rw [escaped_quote]; rfl,after⟩
          · rw [escaped_other quote] at same
            obtain ⟨rfl,later⟩ := List.cons.inj same
            rcases ih later with ⟨line,rest,rfl,after⟩ | ⟨line,rest,rfl,after⟩
            · exact .inl ⟨c :: line,rest,(escaped_other quote line).symm,after⟩
            · exact .inr ⟨c :: line,rest,by rw [escaped_other quote]; rfl,after⟩

theorem escaped_front (value rest : List Char) : escaped value ≠ '"' :: rest := by
  intro same
  cases value with
  | nil => cases same
  | cons c value =>
      by_cases quote : c = '"'
      · subst quote
        rw [escaped_quote] at same
        cases same
      · rw [escaped_other quote] at same
        exact quote (List.cons.inj same).1

theorem escaped_before (same : escaped value = front ++ '"' :: back) : front.getLast? = some '\\' := by
  rcases escaped_cut same with ⟨_,rest,_,after⟩ | ⟨line,_,rfl,_⟩
  · exact absurd after.symm (escaped_front rest back)
  · exact List.getLast?_concat

theorem escaped_line (same : escaped value = front ++ '\n' :: back) : ∃ line, front = escaped line := by
  rcases escaped_cut same with ⟨line,_,front,_⟩ | ⟨_,_,_,after⟩
  · exact ⟨line,front⟩
  · cases after

def unescaped : List Char → List Char
  | [] => []
  | '\\' :: '"' :: rest => '"' :: unescaped rest
  | c :: rest => c :: unescaped rest

theorem unescaped_escaped (value : List Char) : unescaped (escaped value) = value := by
  induction value with
  | nil => rfl
  | cons c rest ih =>
      by_cases quote : c = '"'
      · subst quote
        rw [escaped_quote,unescaped,ih]
      · rw [escaped_other quote,unescaped,ih]
        exact fun _ _ => escaped_front rest _

theorem escaped_injective (same : escaped first = escaped second) : first = second := by
  rw [← unescaped_escaped first,same,unescaped_escaped]

theorem escaped_last (last : (escaped value).getLast? = some '\\') : value.getLast? = some '\\' := by
  rcases List.eq_nil_or_concat' value with rfl | ⟨front,c,rfl⟩
  · cases last
  · by_cases quote : c = '"'
    · subst quote
      rw [escaped_append] at last
      simp [escaped] at last
    · rw [escaped_append] at last
      simpa [escaped,quote] using last

theorem keepsOpen_escaped (value : List Char) : keepsOpen (escaped value) = true := by
  induction value with
  | nil => rfl
  | cons c rest ih =>
      by_cases quote : c = '"'
      · subst quote
        rw [escaped_quote,keepsOpen,ih]
      · rw [escaped_other quote,keepsOpen,ih]
        · exact fun _ _ => escaped_front rest _
        · exact quote

theorem keepsOpen_parts (opened : keepsOpen text = true) : ∃ value, text = escaped value := by
  fun_induction keepsOpen text with
  | case1 => exact ⟨[],rfl⟩
  | case2 rest ih =>
      obtain ⟨value,rfl⟩ := ih opened
      exact ⟨'"' :: value,(escaped_quote value).symm⟩
  | case3 => cases opened
  | case4 c rest _ other ih =>
      obtain ⟨value,rfl⟩ := ih opened
      exact ⟨c :: value,(escaped_other (fun quote => other quote) value).symm⟩

theorem mem_escaped (member : c ∈ value) : c ∈ escaped value := by
  obtain ⟨front,back,rfl⟩ := List.append_of_mem member
  rw [escaped_append]
  refine List.mem_append_right _ ?_
  by_cases quote : c = '"'
  · subst quote
    rw [escaped_quote]
    exact List.mem_cons_of_mem _ List.mem_cons_self
  · rw [escaped_other quote]
    exact List.mem_cons_self

def valueText (value : List Char) : List Char :=
  if containsAny value then '"' :: (escaped value ++ '"' :: ['\n']) else value ++ ['\n']

theorem entryText_value (key value : List Char) : entryText key value = key ++ '=' :: valueText value := by
  unfold entryText valueText
  split <;> rfl

theorem plain_value (plain : containsAny value = false) (special : c ∈ specials) : c ∉ value := by
  intro member
  have none := List.any_eq_false.mp plain c member
  exact none (decide_eq_true special)

theorem quoted_apart (plain : containsAny first = false) (special : containsAny second = true)
    (same : first ++ '\n' :: a = '"' :: (escaped second ++ '"' :: '\n' :: b)) : opensQuote first = true := by
  cases first with
  | nil => cases same
  | cons c first =>
      obtain ⟨rfl,tail⟩ := List.cons.inj same
      have line : ∀ d ∈ specials, d ∉ first := fun d member inside =>
        plain_value plain member (List.mem_cons_of_mem _ inside)
      rcases List.append_eq_append_iff.mp tail with ⟨between,cut,rest⟩ | ⟨between,rfl,rest⟩
      · cases between with
        | nil => cases rest
        | cons d between =>
            obtain ⟨rfl,_⟩ := List.cons.inj rest
            obtain ⟨value,rfl⟩ := escaped_line cut
            exact keepsOpen_escaped value
      · obtain ⟨d,member,among⟩ := List.any_eq_true.mp special
        exact absurd (List.mem_append_left _ (mem_escaped member)) (line d (of_decide_eq_true among))

-- The shorter of two quoted values ends with a backslash.
theorem quoted_unique (same : escaped first ++ '"' :: '\n' :: a = escaped second ++ '"' :: '\n' :: b)
    (one : first.getLast? ≠ some '\\') (other : second.getLast? ≠ some '\\') : first = second ∧ a = b := by
  rcases List.append_eq_append_iff.mp same with ⟨between,cut,rest⟩ | ⟨between,cut,rest⟩
  · cases between with
    | nil =>
        rw [List.append_nil] at cut
        exact ⟨(escaped_injective cut).symm,(List.cons.inj (List.cons.inj rest).2).2⟩
    | cons c between =>
        obtain ⟨rfl,_⟩ := List.cons.inj rest
        exact absurd (escaped_last (escaped_before cut)) one
  · cases between with
    | nil =>
        rw [List.append_nil] at cut
        exact ⟨escaped_injective cut,(List.cons.inj (List.cons.inj rest).2).2.symm⟩
    | cons c between =>
        obtain ⟨rfl,_⟩ := List.cons.inj rest
        exact absurd (escaped_last (escaped_before cut)) other

theorem valueText_plain (plain : containsAny value = false) (rest : List Char) :
    valueText value ++ rest = value ++ '\n' :: rest := by
  rw [valueText,plain,if_neg Bool.false_ne_true,List.append_assoc]
  rfl

theorem valueText_quoted (special : containsAny value = true) (rest : List Char) :
    valueText value ++ rest = '"' :: (escaped value ++ '"' :: '\n' :: rest) := by
  rw [valueText,special,if_pos rfl,List.cons_append,List.append_assoc]
  rfl

theorem value_unique (one : SafeText first) (other : SafeText second)
    (same : valueText first ++ a = valueText second ++ b) : first = second ∧ a = b := by
  unfold SafeText at one other
  cases special : containsAny first with
  | false =>
      rw [special,if_neg Bool.false_ne_true] at one
      rw [valueText_plain special] at same
      cases quoted : containsAny second with
      | false =>
          rw [valueText_plain quoted] at same
          have newline : '\n' ∈ specials := by decide
          exact cut_unique (plain_value special newline) (plain_value quoted newline) same
      | true =>
          rw [valueText_quoted quoted] at same
          cases one.symm.trans (quoted_apart special quoted same)
  | true =>
      rw [special,if_pos rfl] at one
      rw [valueText_quoted special] at same
      cases quoted : containsAny second with
      | false =>
          rw [quoted,if_neg Bool.false_ne_true] at other
          rw [valueText_plain quoted] at same
          cases other.symm.trans (quoted_apart quoted special same.symm)
      | true =>
          rw [quoted,if_pos rfl] at other
          rw [valueText_quoted quoted] at same
          exact quoted_unique (List.cons.inj same).2 one other

theorem key_plain (checked : checkEnvironment pair = none) : '=' ∉ pair.1.toList := by
  intro member
  unfold checkEnvironment at checked
  rw [if_pos member] at checked
  split at checked <;> cases checked

theorem entry_unique (one : SafeText first.2.toList) (other : SafeText second.2.toList)
    (checked : checkEnvironment first = none) (also : checkEnvironment second = none)
    (same : entryText first.1.toList first.2.toList ++ a = entryText second.1.toList second.2.toList ++ b) :
    first = second ∧ a = b := by
  rw [entryText_value,entryText_value,List.append_assoc,List.append_assoc] at same
  obtain ⟨keys,values⟩ := cut_unique (key_plain checked) (key_plain also) same
  obtain ⟨value,rest⟩ := value_unique one other values
  exact ⟨Prod.ext (String.toList_injective keys) (String.toList_injective value),rest⟩

theorem entryText_ne_nil (key value : List Char) : entryText key value ≠ [] := by
  rw [entryText_value]
  exact List.append_ne_nil_of_right_ne_nil key (List.cons_ne_nil _ _)

theorem text_unique (one : ∀ pair ∈ first, SafeText pair.2.toList ∧ checkEnvironment pair = none)
    (other : ∀ pair ∈ second, SafeText pair.2.toList ∧ checkEnvironment pair = none)
    (same : envText first = envText second) : first = second := by
  induction first generalizing second with
  | nil =>
      cases second with
      | nil => rfl
      | cons pair rest =>
          have empty := (List.append_eq_nil_iff.mp (show entryText _ _ ++ envText rest = [] from same.symm)).1
          exact absurd empty (entryText_ne_nil _ _)
  | cons pair rest ih =>
      cases second with
      | nil =>
          have empty := (List.append_eq_nil_iff.mp (show entryText _ _ ++ envText rest = [] from same)).1
          exact absurd empty (entryText_ne_nil _ _)
      | cons next others =>
          obtain ⟨here,later⟩ := List.forall_mem_cons.mp one
          obtain ⟨there,after⟩ := List.forall_mem_cons.mp other
          obtain ⟨rfl,tail⟩ := entry_unique here.1 there.1 here.2 there.2 same
          rw [ih later after tail]

theorem envFile_text (file : envFile environment = some text) : envText environment = text.toList := by
  unfold envFile at file
  split at file
  · cases file
    rw [String.toList_ofList]
  · cases file

theorem safe_decodable : UniquelyDecodable Safe := by
  rintro first second one other safe also text ⟨order,perm,file⟩ ⟨reorder,reperm,refile⟩
  have same : order = reorder := by
    refine text_unique ?_ ?_ ((envFile_text file).trans (envFile_text refile).symm)
    · exact fun pair member => ⟨safe pair (perm.mem_iff.mp member),one.checked pair (perm.mem_iff.mp member)⟩
    · exact fun pair member => ⟨also pair (reperm.mem_iff.mp member),other.checked pair (reperm.mem_iff.mp member)⟩
  subst same
  exact perm.symm.trans reperm

def following : List Char := ['\n','B','=','x']

def joinedValue (line : List Char) : String := String.ofList (line ++ following)

theorem joined_special (line : List Char) : containsAny (line ++ following) = true :=
  List.any_eq_true.mpr ⟨'\n',List.mem_append_right _ List.mem_cons_self,by decide⟩

theorem joined_safe (line : List Char) : Safe (joinedValue line) := by
  unfold Safe SafeText joinedValue
  rw [String.toList_ofList,joined_special,if_pos rfl,List.getLast?_append]
  exact nofun

theorem exposed_line (exposed : ¬SafeText value) : ∃ line, valueText value = '"' :: (escaped line ++ ['\n']) := by
  unfold SafeText at exposed
  unfold valueText
  cases special : containsAny value with
  | false =>
      rw [special,if_neg Bool.false_ne_true,Bool.not_eq_false] at exposed
      rw [if_neg Bool.false_ne_true]
      unfold opensQuote at exposed
      split at exposed
      · obtain ⟨line,rfl⟩ := keepsOpen_parts exposed
        exact ⟨line,rfl⟩
      · cases exposed
  | true =>
      rw [special,if_pos rfl,not_not] at exposed
      rw [if_pos rfl]
      obtain ⟨line,rfl⟩ := List.getLast?_eq_some_iff.mp exposed
      refine ⟨line ++ ['"'],?_⟩
      rw [escaped_append,escaped_append,List.append_assoc,List.append_assoc]
      rfl

theorem envText_cons (pair : String × String) (rest : List (String × String)) :
    envText (pair :: rest) = pair.1.toList ++ '=' :: (valueText pair.2.toList ++ envText rest) := by
  unfold envText
  rw [List.flatMap_cons,entryText_value,List.append_assoc]
  rfl

theorem collides {value : String} (text : valueText value.toList = '"' :: (escaped line ++ ['\n'])) :
    envText [("A",value),("B","x\"")] = envText [("A",joinedValue line)] := by
  have last : envText [("B","x\"")] = ['B','=','x','"','\n'] := by decide
  have joined : valueText (joinedValue line).toList ++ envText [] = '"' :: (escaped line ++ '\n' :: ['B','=','x','"','\n']) := by
    rw [joinedValue,String.toList_ofList,valueText_quoted (joined_special line),escaped_append,List.append_assoc]
    rfl
  rw [envText_cons ("A",value),last,envText_cons ("A",joinedValue line)]
  dsimp only
  rw [joined,text,List.cons_append,List.append_assoc]
  rfl

theorem checked_key (some : key ≠ "") (plain : '=' ∉ key.toList) (value : String) : checkEnvironment (key,value) = none :=
  (if_neg some).trans (if_neg plain)

theorem accepted_one (value : String) : Accepted [("A",value)] where
  distinct := by
    change (["A"] : List String).Nodup
    decide
  checked := List.forall_mem_singleton.mpr (checked_key (by decide) (by decide) value)

theorem accepted_two (value other : String) : Accepted [("A",value),("B",other)] where
  distinct := by
    change (["A","B"] : List String).Nodup
    decide
  checked := List.forall_mem_cons.mpr ⟨checked_key (by decide) (by decide) value,
    List.forall_mem_singleton.mpr (checked_key (by decide) (by decide) other)⟩

theorem env_decodable (more : String → Prop) :
    UniquelyDecodable (fun value => Safe value ∨ more value) ↔ ∀ value, more value → Safe value := by
  constructor
  · intro unique value wanted
    apply Classical.byContradiction
    intro exposed
    obtain ⟨line,text⟩ := exposed_line exposed
    have same := unique [("A",value),("B","x\"")] [("A",joinedValue line)] (accepted_two value "x\"")
      (accepted_one (joinedValue line)) (List.forall_mem_cons.mpr ⟨.inr wanted,List.forall_mem_singleton.mpr (.inl (by decide))⟩)
      (List.forall_mem_singleton.mpr (.inl (joined_safe line))) (String.ofList (envText [("A",joinedValue line)]))
      ⟨_,.refl _,congrArg (fun text => some (String.ofList text)) (collides text)⟩ ⟨_,.refl _,rfl⟩
    cases same.length_eq
  · intro safe first second one other allowed also
    have each : ∀ value, Safe value ∨ more value → Safe value := fun value either => either.elim id (safe value)
    exact safe_decodable first second one other (fun pair member => each pair.2 (allowed pair member))
      fun pair member => each pair.2 (also pair member)

theorem env_collides : ∃ first second text, Accepted first ∧ Accepted second ∧ ¬first.Perm second ∧
    MayWrite first text ∧ MayWrite second text := by
  refine ⟨[("A","\"x"),("B","y\"")],[("A","x\nB=y")],"A=\"x\nB=y\"\n",accepted_two _ _,accepted_one _,?_,?_,?_⟩
  · intro same
    cases same.length_eq
  · exact ⟨_,.refl _,by decide⟩
  · exact ⟨_,.refl _,by decide⟩

end OpenLambda.EnvFile
