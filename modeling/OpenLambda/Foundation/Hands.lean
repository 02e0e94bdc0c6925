import Mathlib.Data.List.Nodup
import Mathlib.Logic.Function.Basic

namespace Foundation.Hands

-- Items that wait in a queue or are in the hand of one party each.
structure Custody (hand : ι → Option α) (queue : List α) : Prop where
  distinct : queue.Nodup
  apart : ∀ i j item, hand i = some item → hand j = some item → i = j
  outside : ∀ i item, hand i = some item → item ∉ queue

def Free (hand : ι → Option α) (queue : List α) (item : α) : Prop := item ∉ queue ∧ ∀ i, hand i ≠ some item

theorem empty_custody : Custody (fun _ : ι => (none : Option α)) [] :=
  ⟨List.nodup_nil,fun _ _ _ => nofun,fun _ _ => nofun⟩

theorem custody_mono {hand fewer : ι → Option α} (custody : Custody hand queue)
    (less : ∀ i item, fewer i = some item → hand i = some item) : Custody fewer queue where
  distinct := custody.distinct
  apart := fun i j item one other => custody.apart i j item (less i item one) (less j item other)
  outside := fun i item holds => custody.outside i item (less i item holds)

theorem items_nodup {hand : ι → Option α} (custody : Custody hand queue) {parties : List ι} (distinct : parties.Nodup) :
    (queue ++ parties.filterMap hand).Nodup := by
  rw [List.nodup_append']
  refine ⟨custody.distinct,?_,?_⟩
  · apply distinct.filterMap
    intro i j item one other
    exact custody.apart i j item one other
  · intro item waits held
    obtain ⟨i,_,holds⟩ := List.mem_filterMap.mp held
    exact custody.outside i item holds waits

theorem head_custody {hand : ι → Option α} (custody : Custody hand (item :: rest)) :
    Custody hand rest ∧ Free hand rest item := by
  obtain ⟨absent,distinct⟩ := List.nodup_cons.mp custody.distinct
  refine ⟨⟨distinct,custody.apart,?_⟩,absent,?_⟩
  · intro i other holds member
    exact custody.outside i other holds (List.mem_cons_of_mem _ member)
  · intro i holds
    exact custody.outside i item holds List.mem_cons_self

theorem tail_free {hand : ι → Option α} (free : Free hand (first :: rest) item) : Free hand rest item ∧ item ≠ first := by
  refine ⟨⟨?_,free.2⟩,?_⟩
  · exact fun member => free.1 (List.mem_cons_of_mem _ member)
  · rintro rfl
    exact free.1 List.mem_cons_self

theorem last_custody {hand : ι → Option α} (custody : Custody hand queue) (free : Free hand queue item) : Custody hand (queue ++ [item]) := by
  refine ⟨?_,custody.apart,?_⟩
  · rw [← List.concat_eq_append]
    exact custody.distinct.concat free.1
  · intro i other holds member
    rcases List.mem_append.mp member with old | new
    · exact custody.outside i other holds old
    · cases List.mem_singleton.mp new
      exact free.2 i holds

theorem last_free {hand : ι → Option α} (free : Free hand queue item) (other : item ≠ last) : Free hand (queue ++ [last]) item := by
  refine ⟨?_,free.2⟩
  intro member
  rcases List.mem_append.mp member with old | new
  · exact free.1 old
  · exact other (List.mem_singleton.mp new)

theorem custody_perm {hand : ι → Option α} (custody : Custody hand queue) (perm : queue.Perm other) : Custody hand other where
  distinct := perm.nodup_iff.mp custody.distinct
  apart := custody.apart
  outside := fun i item holds member => custody.outside i item holds (perm.mem_iff.mpr member)

section Update
variable [DecidableEq ι] {hand : ι → Option α} {queue : List α}

theorem hand_custody (custody : Custody hand queue) (i : ι) (held : Option α)
    (fine : ∀ item, held = some item → hand i = some item ∨ Free hand queue item) :
    Custody (Function.update hand i held) queue := by
  have origin : ∀ j item, Function.update hand i held j = some item →
      hand j = some item ∨ j = i ∧ Free hand queue item := by
    intro j item holds
    rw [Function.update_apply] at holds
    split at holds
    · rename_i same
      subst j
      exact (fine item holds).imp id fun free => ⟨rfl,free⟩
    · exact .inl holds
  refine ⟨custody.distinct,?_,?_⟩
  · intro j k item one other
    rcases origin j item one with old | ⟨first,free⟩
    · rcases origin k item other with older | ⟨_,free⟩
      · exact custody.apart j k item old older
      · exact absurd old (free.2 j)
    · rcases origin k item other with older | ⟨second,_⟩
      · exact absurd older (free.2 k)
      · exact first.trans second.symm
  · intro j item holds
    rcases origin j item holds with old | ⟨_,free⟩
    · exact custody.outside j item old
    · exact free.1

theorem hand_free (free : Free hand queue item) (i : ι) (held : Option α) (other : held ≠ some item) :
    Free (Function.update hand i held) queue item := by
  refine ⟨free.1,?_⟩
  intro j
  rw [Function.update_apply]
  split
  · exact other
  · exact free.2 j

theorem dropped_free (custody : Custody hand queue) (holds : hand i = some item) (other : held ≠ some item) :
    Free (Function.update hand i held) queue item := by
  refine ⟨custody.outside i item holds,?_⟩
  intro j there
  rw [Function.update_apply] at there
  split at there
  · exact other there
  · rename_i different
    exact different (custody.apart j i item there holds)

inductive Carry (hand : ι → Option α) (queue : List α) (known : α → Prop) :
    (ι → Option α) → List α → (α → Prop) → Prop where
  | keep (perm : queue.Perm other) : Carry hand queue known hand other known
  | take (i : ι) (empty : hand i = none) (perm : queue.Perm (item :: rest)) :
      Carry hand queue known (Function.update hand i (some item)) rest known
  | give (i : ι) (holds : hand i = some item) (perm : other.Perm (item :: queue)) :
      Carry hand queue known (Function.update hand i none) other known
  | fresh (i : ι) (empty : hand i = none) (new : ¬known item) (grown : ∀ x, more x ↔ known x ∨ x = item) :
      Carry hand queue known (Function.update hand i (some item)) queue more

structure Accounted (hand : ι → Option α) (queue : List α) (known : α → Prop) : Prop where
  custody : Custody hand queue
  waiting : ∀ item, item ∈ queue → known item
  held : ∀ i item, hand i = some item → known item
  found : ∀ item, known item → item ∈ queue ∨ ∃ i, hand i = some item

theorem take_accounted (account : Accounted hand queue known) (i : ι) (empty : hand i = none)
    (perm : queue.Perm (item :: rest)) : Accounted (Function.update hand i (some item)) rest known := by
  obtain ⟨custody,free⟩ := head_custody (custody_perm account.custody perm)
  refine ⟨hand_custody custody i _ ?_,?_,?_,?_⟩
  · intro other same
    cases same
    exact .inr free
  · intro other member
    exact account.waiting other (perm.mem_iff.mpr (List.mem_cons_of_mem _ member))
  · intro j other holds
    rw [Function.update_apply] at holds
    split at holds
    · cases holds
      exact account.waiting item (perm.mem_iff.mpr List.mem_cons_self)
    · exact account.held j other holds
  · intro other here
    rcases account.found other here with member | ⟨j,holds⟩
    · rcases List.mem_cons.mp (perm.mem_iff.mp member) with rfl | later
      · exact .inr ⟨i,Function.update_self _ _ _⟩
      · exact .inl later
    · refine .inr ⟨j,?_⟩
      rw [Function.update_of_ne]
      · exact holds
      · rintro rfl
        cases empty.symm.trans holds

theorem give_accounted (account : Accounted hand queue known) (i : ι) (holds : hand i = some item)
    (perm : other.Perm (item :: queue)) : Accounted (Function.update hand i none) other known := by
  have free : Free (Function.update hand i none) queue item :=
    dropped_free account.custody holds (Option.some_ne_none item).symm
  have less : Custody (Function.update hand i none) queue := by
    apply hand_custody account.custody i
    intro x none
    cases none
  refine ⟨?_,?_,?_,?_⟩
  · refine custody_perm (last_custody less free) ?_
    exact (List.perm_append_singleton item queue).trans perm.symm
  · intro x member
    rcases List.mem_cons.mp (perm.mem_iff.mp member) with rfl | old
    · exact account.held i x holds
    · exact account.waiting x old
  · intro j x still
    rw [Function.update_apply] at still
    split at still
    · cases still
    · exact account.held j x still
  · intro x here
    rcases account.found x here with member | ⟨j,there⟩
    · exact .inl (perm.mem_iff.mpr (List.mem_cons_of_mem _ member))
    · by_cases same : j = i
      · subst j
        cases holds.symm.trans there
        exact .inl (perm.mem_iff.mpr List.mem_cons_self)
      · exact .inr ⟨j,by rw [Function.update_of_ne same]; exact there⟩

theorem fresh_accounted (account : Accounted hand queue known) (i : ι) (empty : hand i = none) (new : ¬known item)
    (grown : ∀ x, more x ↔ known x ∨ x = item) : Accounted (Function.update hand i (some item)) queue more := by
  have free : Free hand queue item :=
    ⟨fun member => new (account.waiting item member),fun j holds => new (account.held j item holds)⟩
  refine ⟨?_,?_,?_,?_⟩
  · apply hand_custody account.custody i
    intro x same
    cases same
    exact .inr free
  · intro x member
    exact (grown x).mpr (.inl (account.waiting x member))
  · intro j x holds
    rw [Function.update_apply] at holds
    split at holds
    · cases holds
      exact (grown item).mpr (.inr rfl)
    · exact (grown x).mpr (.inl (account.held j x holds))
  · intro x here
    rcases (grown x).mp here with old | rfl
    · rcases account.found x old with member | ⟨j,holds⟩
      · exact .inl member
      · refine .inr ⟨j,?_⟩
        rw [Function.update_of_ne]
        · exact holds
        · rintro rfl
          cases empty.symm.trans holds
    · exact .inr ⟨i,Function.update_self _ _ _⟩

theorem carry_accounted (account : Accounted hand queue known) (carry : Carry hand queue known later others more) :
    Accounted later others more := by
  cases carry with
  | keep perm =>
      refine ⟨custody_perm account.custody perm,?_,account.held,?_⟩
      · exact fun item member => account.waiting item (perm.mem_iff.mpr member)
      · exact fun item here => (account.found item here).imp perm.mem_iff.mp id
  | take i empty perm => exact take_accounted account i empty perm
  | give i holds perm => exact give_accounted account i holds perm
  | fresh i empty new grown => exact fresh_accounted account i empty new grown

end Update

end Foundation.Hands
