import OpenLambda.Zygote.PackageInstalls

namespace OpenLambda.Imports

-- Characters that no other one becomes in lower case.
def signs : List Char := ['=','_','-','.','/','\t']

-- What is assumed of strings.ToLower: it maps the letters of a text to their lower
-- case and leaves every other character as it is.
structure LowerCase (toLower : String → String) (lower : Char → Char) : Prop where
  letters : ∀ text, toLower text = text.map lower
  again : ∀ c, lower (lower c) = lower c
  others : ∀ sign ∈ signs, ∀ c, lower c = sign ↔ c = sign

def normalizeChar (lower : Char → Char) (c : Char) : Char := if lower c = '_' then '-' else lower c

theorem normalizeChar_again (lowers : LowerCase toLower lower) (c : Char) :
    normalizeChar lower (normalizeChar lower c) = normalizeChar lower c := by
  unfold normalizeChar
  have hyphen : lower '-' = '-' := (lowers.others '-' (by decide) '-').mpr rfl
  by_cases line : lower c = '_'
  · rw [if_pos line,hyphen,if_neg (by decide)]
  · rw [if_neg line,lowers.again,if_neg line]

theorem normalizeChar_sign (lowers : LowerCase toLower lower) (member : sign ∈ signs) (line : sign ≠ '_')
    (hyphen : sign ≠ '-') (c : Char) : normalizeChar lower c = sign ↔ c = sign := by
  unfold normalizeChar
  split
  · rename_i low
    rw [(lowers.others '_' (by decide) c).mp low]
    exact ⟨fun same => absurd same.symm hyphen,fun same => absurd same.symm line⟩
  · exact lowers.others sign member c

section Normalized

variable {inst : Installer} {lower : Char → Char} (lowers : LowerCase inst.toLower lower)
include lowers

theorem normalizePkg_map (pkg : String) : inst.normalizePkg pkg = pkg.map (normalizeChar lower) := by
  rw [Installer.normalizePkg,lowers.letters,String.map_map]
  rfl

theorem normalizePkg_again (pkg : String) : inst.normalizePkg (inst.normalizePkg pkg) = inst.normalizePkg pkg := by
  rw [normalizePkg_map lowers,normalizePkg_map lowers,String.map_map]
  congr 1
  funext c
  exact normalizeChar_again lowers c

theorem normalizePkg_chars (cs : List Char) :
    inst.normalizePkg (String.ofList cs) = String.ofList (cs.map (normalizeChar lower)) := by
  apply String.toList_injective
  rw [normalizePkg_map lowers,String.toList_map,String.toList_ofList,String.toList_ofList]

theorem normalizePkg_sign (member : sign ∈ signs) (line : sign ≠ '_') (hyphen : sign ≠ '-') (cs : List Char) :
    sign ∈ (inst.normalizePkg (String.ofList cs)).toList ↔ sign ∈ cs := by
  have same := normalizeChar_sign lowers member line hyphen
  rw [normalizePkg_chars lowers,String.toList_ofList,List.mem_map]
  constructor
  · rintro ⟨c,inside,becomes⟩
    rwa [(same c).mp becomes] at inside
  · exact fun inside => ⟨sign,inside,(same sign).mpr rfl⟩

theorem normalizePkg_piece (normal : inst.normalizePkg pkg = pkg) (inside : ∀ c ∈ piece, c ∈ pkg.toList) :
    inst.normalizePkg (String.ofList piece) = String.ofList piece := by
  have same : pkg.toList.map (normalizeChar lower) = pkg.toList.map id := by
    rw [List.map_id,← String.toList_map,← normalizePkg_map lowers,normal]
  have fixed : piece.map (normalizeChar lower) = piece.map id :=
    List.map_congr_left fun c member => List.map_inj_left.mp same c (inside c member)
  rw [normalizePkg_chars lowers,fixed,List.map_id]

end Normalized

theorem lower_cases (c : Char) : (65 ≤ c.toNat ∧ c.toNat ≤ 90 ∧ c.toLower.toNat = c.toNat + 32) ∨
    (¬ (65 ≤ c.toNat ∧ c.toNat ≤ 90) ∧ c.toLower = c) := by
  unfold Char.toLower
  split
  · rename_i upper
    have least : 65 ≤ c.toNat := upper.1
    have most : c.val.toNat ≤ 90 := upper.2
    refine .inl ⟨least,most,?_⟩
    change (c.val + 32).toNat = c.val.toNat + 32
    rw [UInt32.toNat_add]
    exact Nat.mod_eq_of_lt (by change c.val.toNat + 32 < 4294967296; omega)
  · rename_i other
    exact .inr ⟨other,rfl⟩

theorem lower_again (c : Char) : c.toLower.toLower = c.toLower := by
  rcases lower_cases c with ⟨least,most,up⟩ | ⟨_,same⟩
  · rcases lower_cases c.toLower with ⟨_,more,_⟩ | ⟨_,same⟩
    · omega
    · exact same
  · rw [same,same]

theorem lower_eq {sign : Char} (c : Char)
    (other : sign.toNat < 65 ∨ 90 < sign.toNat ∧ (sign.toNat < 97 ∨ 122 < sign.toNat)) : c.toLower = sign ↔ c = sign := by
  rcases lower_cases c with ⟨least,most,up⟩ | ⟨_,same⟩
  · constructor
    · rintro rfl
      omega
    · rintro rfl
      omega
  · rw [same]

theorem signs_outside : ∀ sign ∈ signs, sign.toNat < 65 ∨ 90 < sign.toNat ∧ (sign.toNat < 97 ∨ 122 < sign.toNat) := by
  simp [signs]

theorem ascii_lowers : LowerCase String.toLower Char.toLower where
  letters := fun _ => rfl
  again := lower_again
  others := fun sign member c => lower_eq c (signs_outside sign member)

end OpenLambda.Imports
