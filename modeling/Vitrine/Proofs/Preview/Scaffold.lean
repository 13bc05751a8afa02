import Vitrine.Preview.Scaffold
import Vitrine.Proofs.Files.Operations
import Vitrine.Proofs.Preview.Generation
import Vitrine.Proofs.Text.Hex
import Vitrine.Proofs.Text.Lines

/-!
# New preview files

A scalar is written in visible ASCII and line feeds, whatever the text (`isVisible_scalarChars`), so that
a new preview file is read as it was written. What it says is the component's name and no props
(`exec_loadConfig_scaffold`).
-/
namespace Vitrine
namespace Yaml

/-! ## What scalars are written in -/

/-- Visible ASCII characters, the space and the line feed. -/
def IsVisible (c : Char) : Prop := isLineFeedOr isUnescaped c = true

instance (c : Char) : Decidable (IsVisible c) := inferInstanceAs (Decidable (_ = true))

theorem isVisible_of_isUnescaped {c : Char} (h : isUnescaped c = true) : IsVisible c := by
  rw [IsVisible, isLineFeedOr, h, Bool.or_true]

theorem isVisible_foldedBreak : ∀ c ∈ foldedBreak, IsVisible c := by decide

variable {cs : List Char}

theorem flatten_runs (cs : List Char) : (runs cs).flatten = cs := by
  induction cs with
  | nil => rfl
  | cons c cs ih =>
    rw [runs]
    split
    · next d run more hruns =>
      rw [hruns, List.flatten_cons] at ih
      split
      · rw [List.flatten_cons, List.cons_append, ih]
      · rw [List.flatten_cons, List.flatten_cons, ih]
        rfl
    · rw [List.flatten_cons, ih]
      rfl

/-- Runs are written as they are, but for line breaks and the indent behind them. -/
theorem isVisible_writeRuns {first : Bool} {column : Nat} {rs : List (List Char)}
    (h : ∀ c ∈ rs.flatten, IsVisible c) : ∀ c ∈ writeRuns first column rs, IsVisible c := by
  induction rs generalizing first column with
  | nil => exact fun c hc => absurd hc List.not_mem_nil
  | cons run more ih =>
    rw [List.flatten_cons, List.forall_mem_append] at h
    have hmore : ∀ {first column}, ∀ c ∈ writeRuns first column more, IsVisible c := ih h.2
    rw [writeRuns.eq_def]
    dsimp only
    split
    · split
      · exact List.forall_mem_append.mpr ⟨isVisible_foldedBreak, hmore⟩
      · exact List.forall_mem_append.mpr ⟨h.1, hmore⟩
    · refine List.forall_mem_append.mpr ⟨List.forall_mem_append.mpr ⟨?_, by decide⟩, hmore⟩
      exact List.forall_mem_cons.mpr ⟨by decide, h.1⟩
    · exact List.forall_mem_append.mpr ⟨h.1, hmore⟩

theorem isVisible_doubleQuotes (h : ∀ c ∈ cs, IsVisible c) : ∀ c ∈ doubleQuotes cs, IsVisible c := by
  intro c hc
  obtain ⟨d, hd, hc⟩ := List.mem_flatMap.mp hc
  split at hc
  · have hquotes : ∀ c ∈ ['\'', '\''], IsVisible c := by decide
    exact hquotes c hc
  · rw [List.mem_singleton.mp hc]
    exact h d hd

/-- An escape is written in letters, digits and marks. -/
theorem isVisible_escaped (c : Char) : ∀ d ∈ escaped c, IsVisible d := by
  have hhex : ∀ {width n : Nat}, ∀ d ∈ upperHex width n, IsVisible d := by
    intro width n d hd
    obtain ⟨e, he, rfl⟩ := List.mem_map.mp hd
    have hall : ∀ e ∈ "0123456789abcdef".toList, IsVisible e.toUpper := by decide
    exact hall e (Text.mem_hexDigits he)
  rw [escaped]
  split
  · next letter hletter =>
    have hall : ∀ e ∈ escapeLetters, IsVisible e.2 := by decide
    obtain ⟨before, after, hletters, -⟩ := List.lookup_eq_some_iff.mp hletter
    have hmem : (c.toNat, letter) ∈ escapeLetters := by
      rw [hletters]
      exact List.mem_append_right _ List.mem_cons_self
    exact List.forall_mem_cons.mpr ⟨by decide, List.forall_mem_singleton.mpr (hall _ hmem)⟩
  · split
    · exact List.forall_mem_cons.mpr ⟨by decide, List.forall_mem_cons.mpr ⟨by decide, hhex⟩⟩
    · split
      · exact List.forall_mem_cons.mpr ⟨by decide, List.forall_mem_cons.mpr ⟨by decide, hhex⟩⟩
      · exact List.forall_mem_cons.mpr ⟨by decide, List.forall_mem_cons.mpr ⟨by decide, hhex⟩⟩

theorem isVisible_of_not_needsEscape {c : Char} (h : ¬ needsEscape c = true) : IsVisible c := by
  rw [needsEscape, Bool.or_eq_true, Bool.or_eq_true, not_or, not_or, Bool.not_eq_true] at h
  exact isVisible_of_isUnescaped (by simpa using h.1.1)

/-- Between double quotes everything else is escaped. -/
theorem isVisible_writeEscaped {first : Bool} {column : Nat} {pending : List Char}
    (h : ∀ c ∈ pending, IsVisible c) :
    ∀ c ∈ writeEscaped first column pending cs, IsVisible c := by
  have hbreak : ∀ c ∈ '\\' :: foldedBreak, IsVisible c := by decide
  induction cs generalizing first column pending with
  | nil => exact h
  | cons c cs ih =>
    have hrest : ∀ {first column}, ∀ d ∈ writeEscaped first column [] cs, IsVisible d :=
      ih fun d hd => absurd hd List.not_mem_nil
    rw [writeEscaped]
    dsimp only
    split
    · have htext := List.forall_mem_append.mpr ⟨h, isVisible_escaped c⟩
      split
      · refine List.forall_mem_append.mpr ⟨List.forall_mem_append.mpr ⟨htext, hbreak⟩, ?_⟩
        split
        · exact List.forall_mem_cons.mpr ⟨by decide, hrest⟩
        · exact hrest
      · exact List.forall_mem_append.mpr ⟨htext, hrest⟩
    · next hc =>
      have hsingle := List.forall_mem_singleton.mpr (isVisible_of_not_needsEscape hc)
      split
      · refine List.forall_mem_append.mpr ⟨List.forall_mem_append.mpr ⟨h, hbreak⟩, ?_⟩
        split
        · exact List.forall_mem_cons.mpr ⟨by decide, ih hsingle⟩
        · exact ih hsingle
      · exact ih (List.forall_mem_append.mpr ⟨h, hsingle⟩)

/-- In whichever form a text is written, it stands in visible characters. -/
theorem isVisible_scalarChars (column : Nat) (s : String) :
    ∀ c ∈ scalarChars column s, IsVisible c := by
  rw [scalarChars]
  split
  · next hplain =>
    rw [Bool.and_eq_true, allowsPlain] at hplain
    simp only [Bool.and_eq_true, List.all_eq_true] at hplain
    refine isVisible_writeRuns ?_
    rw [flatten_runs]
    exact fun c hc => isVisible_of_isUnescaped (hplain.1.1.1.1 c hc)
  · split
    · next hsingle =>
      simp only [allowsSingle, Bool.and_eq_true, List.all_eq_true] at hsingle
      refine List.forall_mem_append.mpr ⟨List.forall_mem_cons.mpr ⟨by decide, ?_⟩, by decide⟩
      refine isVisible_writeRuns ?_
      rw [flatten_runs]
      exact isVisible_doubleQuotes hsingle.1.1
    · refine List.forall_mem_append.mpr ⟨List.forall_mem_cons.mpr ⟨by decide, ?_⟩, by decide⟩
      exact isVisible_writeEscaped (by simp)

end Yaml

namespace Preview

open Work

/-! ## What a new preview file says -/

/-- The entries of a new preview file. -/
def scaffoldEntries (source : String) : List (Key × Data) :=
  [(.str "source", .str source), (.str "props", .object () [])]

/-- Reading a document undoes writing it. -/
def IsReread (source : String) : Prop :=
  Yaml.read (scaffoldText source) = .ok (.object () (scaffoldEntries source))

/-- The configuration that a new preview file holds. -/
def scaffoldConfig (source : String) : Config where
  source := source
  id := none
  componentName := none
  output := none
  language := none
  height := none
  width := none
  style := []
  importStyle := .default
  props := .object () []
  legacyNulls := false

theorem notMem_scaffoldText (source : String) : '\r' ∉ (scaffoldText source).toList := by
  intro hmem
  rw [scaffoldText, Yaml.textEntry] at hmem
  simp only [String.toList_append, String.toList_ofList, List.mem_append] at hmem
  rcases hmem with (((hmem | hmem) | hmem) | hmem) | hmem
  · exact absurd hmem (by decide)
  · exact absurd hmem (by decide)
  · exact absurd (Yaml.isVisible_scalarChars _ _ _ hmem) (by decide)
  · exact absurd hmem (by decide)
  · exact absurd hmem (by decide)

/-- Whoever loads a new preview file finds the component named and no props. -/
theorem exec_loadConfig_scaffold {h : Host} {file : Path} {q : Place} {source : String} {mode : Nat}
    (ht : h.Targets file q) (hreread : IsReread source)
    (hs : h.store.seen q = some (.file (Text.toBytes (scaffoldText source)) mode (.counted 0))) :
    (loadConfig file).exec h = (.ok (scaffoldConfig source), h) := by
  have htext : h.text file = .ok (scaffoldText source) := by
    rw [Host.text, ht.bytes_of_file hs]
    dsimp only
    rw [Text.ofFile?_toBytes (notMem_scaffoldText source)]
  have hentries : readEntries file (scaffoldText source) = .ok (scaffoldEntries source) := by
    rw [readEntries, hreread]
  rw [exec_loadConfig htext, hentries]
  rfl

end Preview
end Vitrine
