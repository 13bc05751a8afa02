import Vitrine.Files.Path
import Vitrine.Proofs.Text.Lines

/-!
# Paths and their texts

A path is read back from its text if none of its parts is left out or cut there.
-/
namespace Vitrine
namespace Path

/-- Names that stand for one part of a path. -/
structure IsPart (name : String) : Prop where
  ne_empty : name ≠ ""
  ne_dot : name ≠ "."
  slash : '/' ∉ name.toList

instance (name : String) : Decidable (IsPart name) :=
  decidable_of_iff (name ≠ "" ∧ name ≠ "." ∧ '/' ∉ name.toList)
    ⟨fun h => ⟨h.1, h.2.1, h.2.2⟩, fun h => ⟨h.ne_empty, h.ne_dot, h.slash⟩⟩

/-- Paths whose parts are names. -/
def IsWritten (p : Path) : Prop := ∀ name ∈ p.parts, IsPart name

instance (p : Path) : Decidable p.IsWritten :=
  inferInstanceAs (Decidable (∀ name ∈ p.parts, IsPart name))

theorem IsWritten.child {p : Path} (h : p.IsWritten) {name : String} (hn : IsPart name) :
    (p.child name).IsWritten := by
  intro part hpart
  rcases List.mem_append.mp hpart with hp | hp
  · exact h part hp
  · rw [List.mem_singleton.mp hp]
    exact hn

variable {names : List String}

theorem toList_joinParts_cons (name next : String) (names : List String) :
    (joinParts (name :: next :: names)).toList =
      name.toList ++ '/' :: (joinParts (next :: names)).toList := by
  rw [joinParts, String.toList_append, String.toList_append, List.append_assoc]
  · rfl
  · simp

/-- The last name of a path stands at the end of its text. -/
theorem joinParts_concat (ps : List String) :
    ∃ front, ∀ name, joinParts (ps ++ [name]) = front ++ name := by
  induction ps with
  | nil => exact ⟨"", fun name => by simp [joinParts]⟩
  | cons p ps ih =>
    obtain ⟨front, hf⟩ := ih
    refine ⟨p ++ "/" ++ front, fun name => ?_⟩
    have hcons : joinParts (p :: (ps ++ [name])) = p ++ "/" ++ joinParts (ps ++ [name]) := by
      cases ps <;> rfl
    rw [List.cons_append, hcons, hf, String.append_assoc, String.append_assoc, String.append_assoc]

/-- A text of joined names does not begin with a slash. -/
theorem head_joinParts (h : ∀ name ∈ names, IsPart name) (cs : List Char) :
    (joinParts names).toList ≠ '/' :: cs := by
  have hhead : ∀ {name : String} {after : List Char}, IsPart name →
      name.toList ++ after ≠ '/' :: cs := by
    intro name after hn heq
    cases hcs : name.toList with
    | nil => exact hn.ne_empty (String.toList_eq_nil_iff.mp hcs)
    | cons c rest =>
      rw [hcs] at heq
      refine hn.slash ?_
      rw [hcs, (List.cons.inj heq).1]
      exact List.mem_cons_self
  match names, h with
  | [], _ => simp [joinParts]
  | [name], h =>
    have hn : name.toList ++ [] ≠ '/' :: cs := hhead (h name List.mem_cons_self)
    rwa [List.append_nil] at hn
  | name :: next :: names, h =>
    rw [toList_joinParts_cons]
    exact hhead (h name List.mem_cons_self)

/-- The pieces of joined names are the names. -/
theorem splitOn_joinParts (h : ∀ name ∈ names, IsPart name) (hne : names ≠ []) :
    Text.splitOn '/' (joinParts names).toList = names.map String.toList := by
  induction names with
  | nil => exact absurd rfl hne
  | cons name names ih =>
    have hslash := (h name List.mem_cons_self).slash
    cases names with
    | nil => exact Text.splitOn_of_notMem hslash
    | cons next names =>
      rw [toList_joinParts_cons, Text.splitOn_append hslash,
        ih (fun n hn => h n (List.mem_cons_of_mem _ hn)) (List.cons_ne_nil _ _), List.map_cons (l := next :: names)]

/-- The pieces that are not left out. -/
def partsOf (cs : List Char) : List String :=
  ((Text.splitOn '/' cs).map String.ofList).filter fun p => p ≠ "" && p ≠ "."

theorem partsOf_slash (cs : List Char) : partsOf ('/' :: cs) = partsOf cs := by
  rw [partsOf, Text.splitOn, if_pos rfl, List.map_cons, List.filter_cons_of_neg (by decide)]
  rfl

/-- A dot in front stands for the directory that a path begins in. -/
theorem partsOf_dot_slash (cs : List Char) : partsOf ('.' :: '/' :: cs) = partsOf cs := by
  have hsplit : Text.splitOn '/' (['.'] ++ '/' :: cs) = ['.'] :: Text.splitOn '/' cs :=
    Text.splitOn_append (by decide) cs
  show ((Text.splitOn '/' (['.'] ++ '/' :: cs)).map String.ofList).filter _ = _
  rw [hsplit, List.map_cons, List.filter_cons_of_neg (by decide)]
  rfl

theorem partsOf_joinParts (h : ∀ name ∈ names, IsPart name) :
    partsOf (joinParts names).toList = names := by
  by_cases hne : names = []
  · rw [hne]
    decide
  · rw [partsOf, splitOn_joinParts h hne, List.map_map, List.filter_eq_self.mpr]
    · refine (List.map_congr_left fun name _ => ?_).trans (List.map_id names)
      exact String.ofList_toList
    · intro name hn
      obtain ⟨part, hpart, rfl⟩ := List.mem_map.mp hn
      have hp := h part hpart
      simp [hp.ne_empty, hp.ne_dot]

theorem rootOf_of_head {cs : List Char} (h : ∀ rest, cs ≠ '/' :: rest) : rootOf cs = .relative := by
  rw [rootOf]
  · exact fun _ => h _
  · exact fun _ => h _
  · exact h

theorem ofText_joinParts (h : ∀ name ∈ names, IsPart name) :
    ofText (joinParts names) = ⟨.relative, names⟩ := by
  show (⟨rootOf _, partsOf _⟩ : Path) = _
  rw [rootOf_of_head (head_joinParts h), partsOf_joinParts h]

theorem ofText_dot_slash (h : ∀ name ∈ names, IsPart name) :
    ofText ("./" ++ joinParts names) = ⟨.relative, names⟩ := by
  have htext : ("./" ++ joinParts names).toList = '.' :: '/' :: (joinParts names).toList := by
    rw [String.toList_append]
    rfl
  show (⟨rootOf _, partsOf _⟩ : Path) = _
  rw [htext, partsOf_dot_slash, partsOf_joinParts h]
  rfl

/-- A path is read back from its text. -/
theorem ofText_text {p : Path} (h : p.IsWritten) : ofText p.text = p := by
  obtain ⟨root, names⟩ := p
  have hhead := head_joinParts h
  have hparts := partsOf_joinParts h
  cases root with
  | relative =>
    by_cases hne : names = []
    · rw [hne]
      decide
    · have htext : text ⟨.relative, names⟩ = joinParts names := by
        simp [text, hne, rootText]
      rw [htext, ofText_joinParts h]
  | absolute =>
    have htext : (text ⟨.absolute, names⟩).toList = '/' :: (joinParts names).toList := by
      simp [text, rootText]
    have hroot : rootOf ('/' :: (joinParts names).toList) = .absolute := by
      rw [rootOf]
      · exact fun _ => hhead _
      · exact fun _ => hhead _
    show (⟨rootOf _, partsOf _⟩ : Path) = _
    rw [htext, hroot, partsOf_slash, hparts]
  | doubled =>
    have htext : (text ⟨.doubled, names⟩).toList = '/' :: '/' :: (joinParts names).toList := by
      simp [text, rootText]
    have hroot : rootOf ('/' :: '/' :: (joinParts names).toList) = .doubled := by
      rw [rootOf]
      exact fun _ => hhead _
    show (⟨rootOf _, partsOf _⟩ : Path) = _
    rw [htext, hroot, partsOf_slash, partsOf_slash, hparts]

theorem ofText_isWritten (text : String) : (ofText text).IsWritten := by
  intro name hname
  obtain ⟨hpiece, hne⟩ := List.mem_filter.mp hname
  obtain ⟨piece, hp, rfl⟩ := List.mem_map.mp hpiece
  simp only [Bool.and_eq_true, decide_eq_true_eq] at hne
  exact ⟨hne.1, hne.2, by rw [String.toList_ofList]; exact Text.notMem_of_mem_splitOn hp⟩

theorem IsWritten.join {p q : Path} (hp : p.IsWritten) (hq : q.IsWritten) : (p.join q).IsWritten := by
  rw [Path.join]
  split
  · exact hq
  · intro name hname
    exact (List.mem_append.mp hname).elim (hp name) (hq name)

/-! ## Texts that are not read back -/

theorem parts_ofText (text : String) : (ofText text).parts = partsOf text.toList := rfl

/-- The parts of a path hold no more than its text. -/
theorem sublist_partsOf (cs : List Char) :
    ((partsOf cs).flatMap String.toList).Sublist (cs.filter (· ≠ '/')) := by
  have hparts : (partsOf cs).Sublist ((Text.splitOn '/' cs).map String.ofList) := List.filter_sublist
  have hflat := hparts.flatMap String.toList
  have hpieces : ((Text.splitOn '/' cs).map String.ofList).flatMap String.toList =
      cs.filter (· ≠ '/') := by
    rw [← Text.flatten_splitOn, List.flatMap_def, List.map_map]
    refine congrArg List.flatten ((List.map_congr_left fun piece _ => ?_).trans (List.map_id _))
    exact String.toList_ofList
  rwa [hpieces] at hflat

/-- A path is what its parts are, up to slashes. -/
theorem flatMap_parts {p : Path} (h : p.IsWritten) (ha : p.root = .absolute) :
    p.parts.flatMap String.toList = p.text.toList.filter (· ≠ '/') := by
  have htext : p.text.toList = '/' :: (joinParts p.parts).toList := by
    simp [text, rootText, ha]
  rw [htext, List.filter_cons_of_neg (by decide), ← Text.flatten_splitOn]
  by_cases hne : p.parts = []
  · rw [hne]
    rfl
  · rw [splitOn_joinParts h hne, List.flatMap_def]

end Path
end Vitrine
