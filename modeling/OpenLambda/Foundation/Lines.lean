import Mathlib.Data.List.Basic

namespace Foundation.Lines

def byteSize : List Char → Nat
  | [] => 0
  | c :: rest => c.utf8Size + byteSize rest

def dropCR (line : List Char) : List Char := if line.getLast? = some '\r' then line.dropLast else line

def cutLines (text : List Char) : List (List Char) :=
  if (text.splitOn '\n').getLast? = some [] then (text.splitOn '\n').dropLast else text.splitOn '\n'

-- The newline has to fit into the buffer too; the first line that does not fit
-- ends the scan.
def fits (limit : Nat) (line : List Char) : Bool := byteSize line < limit

def scanned (limit : Nat) (text : List Char) : List (List Char) := ((cutLines text).takeWhile (fits limit)).map dropCR

theorem byteSize_replicate (n : Nat) (c : Char) : byteSize (List.replicate n c) = n * c.utf8Size := by
  induction n with
  | zero => exact (Nat.zero_mul _).symm
  | succ n ih => rw [List.replicate_succ,byteSize,ih,Nat.succ_mul,Nat.add_comm]

theorem dropCR_keeps (other : line.getLast? ≠ some '\r') : dropCR line = line := if_neg other

theorem dropCR_cr (line : List Char) : dropCR (line ++ ['\r']) = line := by
  rw [dropCR,if_pos (by simp),List.dropLast_concat]

theorem dropCR_append (front : List Char) (some : back ≠ []) : dropCR (front ++ back) = front ++ dropCR back := by
  unfold dropCR
  rw [List.getLast?_append_of_ne_nil front some,List.dropLast_append_of_ne_nil some]
  split
  · rfl
  · rfl

theorem dropCR_front (other : c ≠ '\r') (rest : List Char) : ∃ more, dropCR (c :: rest) = c :: more := by
  cases rest with
  | nil => exact ⟨[],dropCR_keeps (by simpa using other)⟩
  | cons next rest => exact ⟨dropCR (next :: rest),dropCR_append [c] (List.cons_ne_nil _ _)⟩

theorem scanned_filterMap (limit : Nat) (text : List Char) (f : List Char → Option β) (nothing : f [] = none) :
    (scanned limit text).filterMap f = ((text.splitOn '\n').takeWhile (fits limit)).filterMap (f ∘ dropCR) := by
  unfold scanned cutLines
  rw [List.filterMap_map]
  split
  · rename_i last
    obtain ⟨lines,cut⟩ := List.getLast?_eq_some_iff.mp last
    rw [cut,List.dropLast_concat,List.takeWhile_append]
    split
    · rename_i all
      have whole : lines.takeWhile (fits limit) = lines :=
        (List.takeWhile_prefix (fits limit)).eq_of_length all
      rw [whole,List.filterMap_append]
      have empty : ([[]].takeWhile (fits limit)).filterMap (f ∘ dropCR) = [] := by
        refine List.filterMap_eq_nil_iff.mpr ?_
        intro line member
        rw [List.mem_singleton.mp (List.takeWhile_subset _ member)]
        exact nothing
      rw [empty,List.append_nil]
    · rfl
  · rfl

theorem splitOn_alone [BEq α] [LawfulBEq α] {sep : α} {text part : List α} :
    text.splitOn sep = [part] ↔ text = part ∧ sep ∉ part := by
  constructor
  · intro cut
    have joined : [sep].intercalate (text.splitOn sep) = text := List.intercalate_splitOn sep
    rw [cut] at joined
    have same : text = part := by simpa using joined.symm
    refine ⟨same,?_⟩
    intro inside
    obtain ⟨front,back,rfl⟩ := List.append_of_mem inside
    rw [same,List.splitOn_append_cons_self] at cut
    have count := congrArg List.length cut
    have some := List.length_pos_iff.mpr (List.splitOn_ne_nil sep front)
    have more := List.length_pos_iff.mpr (List.splitOn_ne_nil sep back)
    rw [List.length_append,List.length_singleton] at count
    omega
  · rintro ⟨rfl,plain⟩
    exact List.splitOn_eq_singleton plain

theorem splitOn_pair [BEq α] [LawfulBEq α] {sep : α} {text first second : List α} :
    text.splitOn sep = [first,second] ↔ text = first ++ sep :: second ∧ sep ∉ first ∧ sep ∉ second := by
  constructor
  · intro cut
    have joined : [sep].intercalate (text.splitOn sep) = text := List.intercalate_splitOn sep
    rw [cut] at joined
    have same : text = first ++ sep :: second := by simpa using joined.symm
    refine ⟨same,?_⟩
    rw [same,List.splitOn_append_cons_self] at cut
    obtain ⟨part,more,front⟩ := List.exists_cons_of_ne_nil (List.splitOn_ne_nil sep first)
    rw [front,List.cons_append] at cut
    obtain ⟨rfl,rest⟩ := List.cons.inj cut
    cases more with
    | nil => exact ⟨(splitOn_alone.mp front).2,(splitOn_alone.mp rest).2⟩
    | cons next more => cases more with
        | nil => exact absurd (List.cons.inj rest).2 (List.splitOn_ne_nil sep second)
        | cons _ _ => cases (List.cons.inj rest).2
  · rintro ⟨rfl,plain,value⟩
    rw [List.splitOn_append_cons_self_of_not_mem plain,List.splitOn_eq_singleton value]

theorem cut_unique {sep : α} (first : sep ∉ front) (second : sep ∉ other)
    (same : front ++ sep :: rest = other ++ sep :: more) : front = other ∧ rest = more := by
  rcases List.append_eq_append_iff.mp same with ⟨between,rfl,cut⟩ | ⟨between,rfl,cut⟩
  · cases between with
    | nil => exact ⟨(List.append_nil front).symm,(List.cons.inj cut).2⟩
    | cons c between =>
        obtain ⟨rfl,_⟩ := List.cons.inj cut
        exact absurd (List.mem_append_right front List.mem_cons_self) second
  · cases between with
    | nil => exact ⟨List.append_nil other,(List.cons.inj cut).2.symm⟩
    | cons c between =>
        obtain ⟨rfl,_⟩ := List.cons.inj cut
        exact absurd (List.mem_append_right other List.mem_cons_self) first

end Foundation.Lines
