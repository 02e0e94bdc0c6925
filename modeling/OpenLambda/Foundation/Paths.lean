import Mathlib.Data.List.Basic

namespace Foundation.Paths

-- A path as text and as the names between its slashes. Only the text is looked
-- at, never a file system.
abbrev Part := List Char

def split : List Char → List Part
  | [] => [[]]
  | c :: rest =>
      if c = '/' then [] :: split rest
      else match split rest with
        | [] => [[c]]
        | first :: others => (c :: first) :: others

def rooted (text : List Char) : Bool := text.head? = some '/'

def here : Part := ['.']

def up : Part := ['.','.']

-- One name more, innermost first. Above a root there is nothing; above a relative
-- path the step up stays.
def enter (isRooted : Bool) (way : List Part) (part : Part) : List Part :=
  if part = [] ∨ part = here then way
  else if part = up then
    match way with
    | [] => if isRooted then [] else [up]
    | last :: rest => if last = up then up :: last :: rest else rest
  else part :: way

def resolve (isRooted : Bool) (parts : List Part) : List Part := (parts.foldl (enter isRooted) []).reverse

def join : List Part → List Char
  | [] => []
  | [part] => part
  | part :: rest => part ++ '/' :: join rest

def clean (text : List Char) : List Char :=
  if rooted text then '/' :: join (resolve true (split text))
  else if resolve false (split text) = [] then here
  else join (resolve false (split text))

def below (dir name : List Char) : List Char :=
  if dir ≠ [] then clean (dir ++ '/' :: name)
  else if name ≠ [] then clean name
  else []

def above (text : List Char) : List Char := clean (text.reverse.dropWhile (· ≠ '/')).reverse

theorem slash_mem_join (first second : Part) (rest : List Part) : '/' ∈ join (first :: second :: rest) :=
  List.mem_append_right _ List.mem_cons_self

theorem clean_eq_name (plain : '/' ∉ name) (dot : name ≠ here) :
    clean text = name ↔ rooted text = false ∧ resolve false (split text) = [name] := by
  unfold clean
  constructor
  · intro same
    split at same
    · exact absurd (same ▸ List.mem_cons_self) plain
    · rename_i relative
      refine ⟨Bool.eq_false_iff.mpr relative,?_⟩
      split at same
      · exact absurd same.symm dot
      · cases parts : resolve false (split text) with
        | nil => rename_i some; exact absurd parts some
        | cons first rest =>
            rw [parts] at same
            cases rest with
            | nil => rw [← same]; rfl
            | cons second rest => exact absurd (same ▸ slash_mem_join first second rest) plain
  · rintro ⟨relative,parts⟩
    rw [relative,parts]
    rfl

theorem resolve_slash (isRooted : Bool) (text : List Char) :
    resolve isRooted (split ('/' :: text)) = resolve isRooted (split text) := by
  unfold resolve
  rw [split,if_pos rfl]
  rfl

theorem resolve_here (isRooted : Bool) (text : List Char) :
    resolve isRooted (split ('.' :: '/' :: text)) = resolve isRooted (split text) := by
  unfold resolve
  rw [split,if_neg (by decide),split,if_pos rfl]
  rfl

def Plain (name : Part) : Prop := name ≠ [] ∧ name ≠ here ∧ name ≠ up ∧ '/' ∉ name

instance (name : Part) : Decidable (Plain name) := inferInstanceAs (Decidable (_ ∧ _))

def located (text : List Char) : Bool × List Part := (rooted text,resolve (rooted text) (split text))

def DirectlyUnder (dir path : List Char) : Prop :=
  ∃ name, Plain name ∧ located path = ((located dir).1,(located dir).2 ++ [name])

theorem split_ne_nil (text : List Char) : split text ≠ [] := by
  fun_induction split text with
  | case1 | case2 | case3 | case4 => exact List.cons_ne_nil _ _

theorem split_slash (text : List Char) : split ('/' :: text) = [] :: split text := by
  rw [split,if_pos rfl]

theorem split_other (other : c ≠ '/') (cut : split text = first :: rest) : split (c :: text) = (c :: first) :: rest := by
  rw [split,if_neg other,cut]

theorem split_append (front back : List Char) : split (front ++ '/' :: back) = split front ++ split back := by
  induction front with
  | nil => exact split_slash back
  | cons c front ih =>
      by_cases slash : c = '/'
      · subst slash
        rw [List.cons_append,split_slash,split_slash,ih,List.cons_append]
      · obtain ⟨first,rest,cut⟩ := List.exists_cons_of_ne_nil (split_ne_nil front)
        rw [cut,List.cons_append] at ih
        rw [List.cons_append,split_other slash ih,split_other slash cut,List.cons_append]

theorem split_part (name : Part) (plain : '/' ∉ name) : split name = [name] := by
  induction name with
  | nil => rfl
  | cons c name ih =>
      rw [List.mem_cons,not_or] at plain
      exact split_other (Ne.symm plain.1) (ih plain.2)

theorem split_parts (text : List Char) : ∀ part ∈ split text, '/' ∉ part := by
  induction text with
  | nil => simp [split]
  | cons c text ih =>
      by_cases slash : c = '/'
      · subst slash
        rw [split_slash]
        exact List.forall_mem_cons.mpr ⟨List.not_mem_nil,ih⟩
      · obtain ⟨first,rest,cut⟩ := List.exists_cons_of_ne_nil (split_ne_nil text)
        rw [cut] at ih
        obtain ⟨front,others⟩ := List.forall_mem_cons.mp ih
        rw [split_other slash cut]
        refine List.forall_mem_cons.mpr ⟨?_,others⟩
        rw [List.mem_cons,not_or]
        exact ⟨Ne.symm slash,front⟩

theorem split_chars (text : List Char) : ∀ part ∈ split text, ∀ c ∈ part, c ∈ text := by
  induction text with
  | nil => simp [split]
  | cons d text ih =>
      intro part member c inside
      by_cases slash : d = '/'
      · subst slash
        rw [split_slash] at member
        rcases List.mem_cons.mp member with rfl | member
        · cases inside
        · exact List.mem_cons_of_mem _ (ih part member c inside)
      · obtain ⟨first,rest,cut⟩ := List.exists_cons_of_ne_nil (split_ne_nil text)
        rw [split_other slash cut] at member
        rw [cut] at ih
        rcases List.mem_cons.mp member with rfl | member
        · rcases List.mem_cons.mp inside with rfl | inside
          · exact List.mem_cons_self
          · exact List.mem_cons_of_mem _ (ih first List.mem_cons_self c inside)
        · exact List.mem_cons_of_mem _ (ih part (List.mem_cons_of_mem _ member) c inside)

theorem split_join (parts : List Part) (some : parts ≠ []) (plain : ∀ part ∈ parts, '/' ∉ part) :
    split (join parts) = parts := by
  fun_induction join parts with
  | case1 => exact absurd rfl some
  | case2 part => exact split_part part (plain part List.mem_cons_self)
  | case3 part rest more ih =>
      obtain ⟨first,others⟩ := List.forall_mem_cons.mp plain
      rw [split_append,split_part part first,ih (by rintro rfl; exact more rfl) others]
      rfl

theorem join_split (text : List Char) : join (split text) = text := by
  induction text with
  | nil => rfl
  | cons c text ih =>
      obtain ⟨first,rest,cut⟩ := List.exists_cons_of_ne_nil (split_ne_nil text)
      by_cases slash : c = '/'
      · subst slash
        rw [split_slash,cut]
        rw [cut] at ih
        exact congrArg (List.cons '/') ih
      · rw [split_other slash cut]
        rw [cut] at ih
        cases rest with
        | nil => exact congrArg (List.cons c) ih
        | cons => exact congrArg (List.cons c) ih

def Settled (isRooted : Bool) : List Part → Prop
  | [] => True
  | part :: way => enter isRooted way part = part :: way ∧ Settled isRooted way

theorem enter_stay (stay : part = [] ∨ part = here) : enter isRooted way part = way := if_pos stay

theorem enter_up (isRooted : Bool) (last : Part) (rest : List Part) :
    enter isRooted (last :: rest) up = if last = up then up :: last :: rest else rest :=
  (if_neg (by decide)).trans (if_pos rfl)

theorem enter_push (stay : ¬(part = [] ∨ part = here)) (back : part ≠ up) : enter isRooted way part = part :: way :=
  (if_neg stay).trans (if_neg back)

theorem enter_settled (part : Part) (settled : Settled isRooted way) : Settled isRooted (enter isRooted way part) := by
  by_cases stay : part = [] ∨ part = here
  · rwa [enter_stay stay]
  · by_cases back : part = up
    · subst back
      cases way with
      | nil => cases isRooted with
          | true => trivial
          | false => exact ⟨rfl,trivial⟩
      | cons last rest =>
          rw [enter_up]
          split
          · rename_i same
            exact ⟨(enter_up isRooted last rest).trans (if_pos same),settled⟩
          · exact settled.2
    · rw [enter_push stay back]
      exact ⟨enter_push stay back,settled⟩

theorem foldl_settled (parts : List Part) (settled : Settled isRooted way) :
    Settled isRooted (parts.foldl (enter isRooted) way) := by
  induction parts generalizing way with
  | nil => exact settled
  | cons part rest ih => exact ih (enter_settled part settled)

theorem settled_again (settled : Settled isRooted way) : way.reverse.foldl (enter isRooted) [] = way := by
  induction way with
  | nil => rfl
  | cons part way ih =>
      rw [List.reverse_cons,List.foldl_append,ih settled.2]
      exact settled.1

theorem resolve_again (isRooted : Bool) (parts : List Part) :
    resolve isRooted (resolve isRooted parts) = resolve isRooted parts := by
  have settled : Settled isRooted (parts.foldl (enter isRooted) []) := foldl_settled parts trivial
  unfold resolve
  rw [settled_again settled]

theorem enter_parts (isRooted : Bool) (way : List Part) (part : Part) :
    ∃ pushed k, enter isRooted way part = pushed ++ way.drop k ∧ ∀ name ∈ pushed, name = part ∨ name = up := by
  by_cases stay : part = [] ∨ part = here
  · exact ⟨[],0,enter_stay stay,fun _ member => by cases member⟩
  · by_cases back : part = up
    · subst back
      cases way with
      | nil => cases isRooted with
          | true => exact ⟨[],0,rfl,fun _ member => by cases member⟩
          | false => exact ⟨[up],0,rfl,fun _ member => .inr (List.mem_singleton.mp member)⟩
      | cons last rest =>
          rw [enter_up]
          split
          · exact ⟨[up],0,rfl,fun _ member => .inr (List.mem_singleton.mp member)⟩
          · exact ⟨[],1,rfl,fun _ member => by cases member⟩
    · exact ⟨[part],0,enter_push stay back,fun _ member => .inl (List.mem_singleton.mp member)⟩

theorem foldl_enter (isRooted : Bool) (parts way : List Part) :
    ∃ pushed k, parts.foldl (enter isRooted) way = pushed ++ way.drop k ∧ ∀ part ∈ pushed, part ∈ parts ∨ part = up := by
  induction parts generalizing way with
  | nil => exact ⟨[],0,rfl,fun _ member => by cases member⟩
  | cons part rest ih =>
      obtain ⟨first,j,entered,sources⟩ := enter_parts isRooted way part
      obtain ⟨pushed,k,all,others⟩ := ih (enter isRooted way part)
      rw [entered,List.drop_append,List.drop_drop,← List.append_assoc] at all
      refine ⟨pushed ++ first.drop k,_,by rw [List.foldl_cons,entered]; exact all,?_⟩
      intro name member
      rcases List.mem_append.mp member with late | early
      · exact (others name late).imp_left (List.mem_cons_of_mem _)
      · exact (sources name (List.mem_of_mem_drop early)).imp_left (fun same : name = part => same ▸ List.mem_cons_self)

theorem resolve_parts (isRooted : Bool) (parts : List Part) :
    ∀ part ∈ resolve isRooted parts, part ∈ parts ∨ part = up := by
  intro part member
  obtain ⟨pushed,k,all,sources⟩ := foldl_enter isRooted parts []
  unfold resolve at member
  rw [List.mem_reverse,all,List.drop_nil,List.append_nil] at member
  exact sources part member

theorem resolved_plain (isRooted : Bool) (text : List Char) : ∀ part ∈ resolve isRooted (split text), '/' ∉ part := by
  intro part member
  rcases resolve_parts isRooted (split text) part member with own | rfl
  · exact split_parts text part own
  · decide

theorem settled_nonempty (settled : Settled isRooted way) : ∀ part ∈ way, part ≠ [] := by
  induction way with
  | nil => exact fun _ member => by cases member
  | cons part way ih =>
      refine List.forall_mem_cons.mpr ⟨?_,ih settled.2⟩
      rintro rfl
      have longer := congrArg List.length settled.1
      rw [enter_stay (.inl rfl),List.length_cons] at longer
      omega

theorem join_relative (filled : ∀ part ∈ parts, part ≠ []) (plain : ∀ part ∈ parts, '/' ∉ part) :
    rooted (join parts) = false := by
  have first : ∀ part rest, part ∈ parts → rooted (part ++ rest) = false := by
    intro part rest member
    obtain ⟨c,name,rfl⟩ := List.exists_cons_of_ne_nil (filled part member)
    have other : '/' ≠ c := fun same => plain _ member (same ▸ List.mem_cons_self)
    simpa [rooted] using Ne.symm other
  cases parts with
  | nil => rfl
  | cons part rest =>
      cases rest with
      | nil => simpa [join] using first part [] List.mem_cons_self
      | cons next rest => exact first part _ List.mem_cons_self

theorem located_clean (text : List Char) : located (clean text) = located text := by
  unfold located
  by_cases root : rooted text = true
  · rw [clean,if_pos root,root]
    have same : rooted ('/' :: join (resolve true (split text))) = true := rfl
    rw [same,resolve_slash]
    by_cases top : resolve true (split text) = []
    · rw [top]
      rfl
    · rw [split_join _ top (resolved_plain true text),resolve_again]
  · rw [Bool.not_eq_true] at root
    rw [clean,root,if_neg Bool.false_ne_true]
    split
    · rename_i stays
      rw [stays]
      rfl
    · rename_i moves
      have settled : Settled false ((split text).foldl (enter false) []) := foldl_settled (split text) trivial
      have filled : ∀ part ∈ resolve false (split text), part ≠ [] := by
        intro part member
        exact settled_nonempty settled part (List.mem_reverse.mp member)
      rw [join_relative filled (resolved_plain false text),split_join _ moves (resolved_plain false text),resolve_again]

theorem clean_located (same : located first = located second) : clean first = clean second := by
  obtain ⟨roots,ways⟩ := Prod.mk.inj same
  unfold clean
  rw [← roots] at ways ⊢
  cases root : rooted first with
  | true =>
      rw [root] at ways
      rw [if_pos rfl,if_pos rfl,ways]
  | false =>
      rw [root] at ways
      rw [if_neg Bool.false_ne_true,if_neg Bool.false_ne_true,ways]

def joined (dir name : List Char) : List Char := if dir ≠ [] then dir ++ '/' :: name else name

theorem below_located (dir name : List Char) : located (below dir name) = located (joined dir name) := by
  unfold below joined
  split
  · exact located_clean _
  · split
    · exact located_clean name
    · rename_i empty
      rw [not_not.mp empty]

theorem joined_rooted (dir name : List Char) (relative : dir = [] → rooted name = false) :
    rooted (joined dir name) = rooted dir := by
  unfold joined
  split
  · rename_i some
    obtain ⟨c,rest,rfl⟩ := List.exists_cons_of_ne_nil some
    rfl
  · rename_i none
    rw [relative (not_not.mp none),not_not.mp none]
    rfl

theorem joined_resolve (isRooted : Bool) (dir name : List Char) : resolve isRooted (split (joined dir name)) =
    ((split name).foldl (enter isRooted) (resolve isRooted (split dir)).reverse).reverse := by
  unfold joined
  split
  · rw [split_append]
    unfold resolve
    rw [List.foldl_append,List.reverse_reverse]
  · rename_i none
    rw [not_not.mp none]
    rfl

theorem resolve_plain (isRooted : Bool) (plain : ∀ part ∈ way, Plain part) : resolve isRooted way = way := by
  have pushed : ∀ parts front : List Part, (∀ part ∈ parts, Plain part) →
      parts.foldl (enter isRooted) front = parts.reverse ++ front := by
    intro parts
    induction parts with
    | nil => exact fun _ _ => rfl
    | cons part rest ih =>
        intro front all
        obtain ⟨first,others⟩ := List.forall_mem_cons.mp all
        rw [List.foldl_cons,enter_push (not_or.mpr ⟨first.1,first.2.1⟩) first.2.2.1,ih _ others,List.reverse_cons,
          List.append_assoc]
        rfl
  unfold resolve
  rw [pushed way [] plain,List.append_nil,List.reverse_reverse]

theorem plain_relative (plain : Plain name) : rooted name = false := by
  cases name with
  | nil => rfl
  | cons c rest =>
      have other : '/' ≠ c := fun same => plain.2.2.2 (same ▸ List.mem_cons_self)
      simpa [rooted] using Ne.symm other

theorem below_plain (dir : List Char) (plain : Plain name) :
    located (below dir name) = ((located dir).1,(located dir).2 ++ [name]) := by
  rw [below_located]
  unfold located
  rw [joined_rooted dir name (fun _ => plain_relative plain),joined_resolve,split_part name plain.2.2.2]
  rw [List.foldl_cons,enter_push (not_or.mpr ⟨plain.1,plain.2.1⟩) plain.2.2.1,List.foldl_nil,List.reverse_cons,List.reverse_reverse]

theorem under_parts (under : DirectlyUnder dir (below dir name)) :
    ∃ part ∈ split name, Plain part ∧ below dir name = below dir part := by
  obtain ⟨part,plain,there⟩ := under
  have place := (below_located dir name).symm.trans there
  obtain ⟨roots,ways⟩ := Prod.mk.inj place
  rw [show rooted (joined dir name) = rooted dir from roots,joined_resolve] at ways
  refine ⟨part,?_,plain,?_⟩
  · obtain ⟨pushed,k,all,sources⟩ := foldl_enter (rooted dir) (split name) (resolve (rooted dir) (split dir)).reverse
    rw [all,List.reverse_eq_iff] at ways
    change _ = (resolve (rooted dir) (split dir) ++ [part]).reverse at ways
    rw [List.reverse_append,List.reverse_singleton,List.singleton_append] at ways
    cases pushed with
    | nil =>
        have shorter := congrArg List.length ways
        rw [List.nil_append,List.length_drop,List.length_cons] at shorter
        omega
    | cons top pushed =>
        obtain ⟨rfl,_⟩ := List.cons.inj ways
        exact (sources top List.mem_cons_self).resolve_right plain.2.2.1
  · have same : located (joined dir name) = located (joined dir part) := by
      rw [place,← below_located,below_plain dir plain]
    have cleaned : ∀ other, joined dir other ≠ [] → below dir other = clean (joined dir other) := by
      intro other some
      unfold below
      unfold joined at some ⊢
      split
      · rfl
      · rename_i none
        rw [if_neg none] at some
        exact if_pos some
    have moved : joined dir name ≠ [] := by
      intro none
      rw [none] at place
      have ways := congrArg (List.length ∘ Prod.snd) place
      simp [located,resolve,split,enter] at ways
    have other : joined dir part ≠ [] := by
      unfold joined
      split
      · simp
      · exact plain.1
    rw [cleaned name moved,cleaned part other]
    exact clean_located same

end Foundation.Paths
