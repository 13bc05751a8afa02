import Vitrine.Proofs.Preview.ImportPath

/-!
# Component names

Suffixes are cut off a file name from its end until a component name is left. A text with a dot in it is
none, so that all depends on what stands in front of the first dot (`nameWithoutSuffixes?_eq`). A line
feed at the end of that is passed over.
-/
namespace Vitrine
namespace Preview

/-! ## Identifiers -/

/-- A letter or an underscore, and letters, digits and underscores behind it, all of ASCII. -/
def IsIdentifier : List Char → Prop
  | [] => False
  | c :: cs => isComponentStart c = true ∧ ∀ d ∈ cs, isComponentChar d = true

theorem isComponentChar_ne {c d : Char} (h : isComponentChar c = true)
    (hd : isComponentChar d = false) : c ≠ d := by
  rintro rfl
  cases h.symm.trans hd

theorem IsIdentifier.isComponentChar {cs : List Char} (h : IsIdentifier cs) {d : Char}
    (hd : d ∈ cs) : isComponentChar d = true := by
  cases cs with
  | nil => exact h.elim
  | cons c cs =>
    rcases List.mem_cons.mp hd with rfl | hd
    · rw [Preview.isComponentChar, h.1, Bool.true_or]
    · exact h.2 d hd

/-- A character that is in no identifier. -/
theorem IsIdentifier.notMem {cs : List Char} (h : IsIdentifier cs) {d : Char}
    (hd : Preview.isComponentChar d = false) : d ∉ cs :=
  fun hmem => isComponentChar_ne (h.isComponentChar hmem) hd rfl

/-- An identifier, perhaps with a line feed behind it. -/
def IsLoose (cs : List Char) : Prop := IsIdentifier cs ∨ ∃ ds, IsIdentifier ds ∧ cs = ds ++ ['\n']

theorem isIdentifier_dropFinalNewline {cs : List Char} :
    IsIdentifier (dropFinalNewline cs) ↔ IsLoose cs := by
  rw [dropFinalNewline]
  constructor
  · intro h
    split at h
    · next hlast => exact Or.inr ⟨_, h, (List.dropLast_append_getLast? '\n' hlast).symm⟩
    · exact Or.inl h
  · rintro (h | ⟨ds, h, rfl⟩)
    · rw [if_neg fun hlast => h.notMem (by decide) (List.mem_of_getLast? hlast)]
      exact h
    · rw [if_pos List.getLast?_concat, List.dropLast_concat]
      exact h

/-- A component name is an identifier, but that a line feed behind it is passed over. -/
theorem isComponentName_iff {cs : List Char} :
    isComponentName (String.ofList cs) = true ↔ IsLoose cs := by
  rw [← isIdentifier_dropFinalNewline, isComponentName, String.toList_ofList]
  cases dropFinalNewline cs with
  | nil => exact iff_of_false Bool.false_ne_true id
  | cons c cs => rw [Bool.and_eq_true, List.all_eq_true]; rfl

theorem IsLoose.notMem_dot {cs : List Char} (h : IsLoose cs) : '.' ∉ cs := by
  rcases h with h | ⟨ds, h, rfl⟩
  · exact h.notMem (by decide)
  · rw [List.mem_append, not_or]
    exact ⟨h.notMem (by decide), by decide⟩

/-! ## Cuts -/

/-- What stands in front of the first dot. -/
def beforeDots (cs : List Char) : List Char := cs.takeWhile (· ≠ '.')

theorem beforeDots_of_notMem {cs : List Char} (h : '.' ∉ cs) : beforeDots cs = cs := by
  rw [beforeDots, List.takeWhile_eq_self_iff]
  exact fun c hc => decide_eq_true fun he => h (he ▸ hc)

/-- A suffix does not change what stands in front of the first dot. -/
theorem beforeDots_append (stem behind : List Char) :
    beforeDots (stem ++ '.' :: behind) = beforeDots stem := by
  rw [beforeDots, List.takeWhile_append, beforeDots]
  split
  · next hall => exact (List.append_nil _).trans ((List.takeWhile_prefix _).eq_of_length hall).symm
  · rfl

/-- However many cuts are allowed, as long as there are enough of them, they come to what stands in
front of the first dot. -/
theorem nameWithoutSuffixes?_eq {cuts : Nat} {cs : List Char} (hcuts : cs.length < cuts) :
    nameWithoutSuffixes? cuts cs =
      if isComponentName (String.ofList (beforeDots cs)) then some (String.ofList (beforeDots cs))
      else none := by
  induction cuts generalizing cs with
  | zero => exact absurd hcuts (Nat.not_lt_zero _)
  | succ cuts ih =>
    rw [nameWithoutSuffixes?]
    rcases Path.notMem_or_last cs with hdot | ⟨stem, behind, hbehind, rfl⟩
    · rw [beforeDots_of_notMem hdot, Path.splitAtLastDot_of_notMem hdot]
    · have hname : isComponentName (String.ofList (stem ++ '.' :: behind)) ≠ true :=
        fun h => (isComponentName_iff.mp h).notMem_dot (by simp)
      have hlength : stem.length < cuts := by
        rw [List.length_append, List.length_cons] at hcuts
        omega
      rw [if_neg hname, Path.splitAtLastDot_append hbehind, beforeDots_append]
      exact ih hlength

/-- The part of a file name that its component may be named by: what stands in front of the first dot,
without the directories. -/
def headOf (fileName : String) : List Char := beforeDots (Path.ofText fileName).name.toList

theorem componentName?_eq (fileName : String) : componentName? fileName =
    if isComponentName (String.ofList (headOf fileName)) then
      some (String.ofList (headOf fileName)) else none :=
  nameWithoutSuffixes?_eq (Nat.lt_succ_self _)

/-- A file names its component by the part of its name in front of the first dot, if that is an
identifier, or an identifier and a line feed, and not at all otherwise. To find it, no more cuts are
needed than the name has characters. -/
theorem deriveComponentName_eq_head (fileName : String) :
    (IsLoose (headOf fileName) →
      deriveComponentName fileName = .ok (String.ofList (headOf fileName))) ∧
    (¬ IsLoose (headOf fileName) →
      deriveComponentName fileName = .error (.config (.noIdentifier fileName) Location.nowhere)) ∧
    ∀ cuts, (Path.ofText fileName).name.toList.length < cuts →
      nameWithoutSuffixes? cuts (Path.ofText fileName).name.toList = componentName? fileName := by
  unfold deriveComponentName
  rw [componentName?_eq]
  refine ⟨fun h => ?_, fun h => ?_, fun cuts hcuts => nameWithoutSuffixes?_eq hcuts⟩
  · rw [if_pos (isComponentName_iff.mpr h)]
  · rw [if_neg fun hn => h (isComponentName_iff.mp hn)]

/-- A line feed in front of the suffix stays in the name. -/
theorem deriveComponentName_lineFeed :
    IsLoose (headOf "Widget\n.tsx") ∧ deriveComponentName "Widget\n.tsx" = .ok "Widget\n" := by
  have hhead : headOf "Widget\n.tsx" = "Widget\n".toList := by cbv
  have hloose : IsLoose (headOf "Widget\n.tsx") := by
    rw [hhead]
    exact Or.inr ⟨"Widget".toList, ⟨by decide, by decide⟩, rfl⟩
  have hname := (deriveComponentName_eq_head "Widget\n.tsx").1 hloose
  rw [hhead, String.ofList_toList] at hname
  exact ⟨hloose, hname⟩

end Preview
end Vitrine
