import Mathlib
import Vitrine.Text.Blank
import Vitrine.Text.Bytes

/-!
# Texts in files

A text without carriage returns is read from a file as it was written there, and a text is the same
as its pieces with separators between them. What is cut off the front or the ends of a text leaves the
rest as it is.
-/
namespace Vitrine
namespace Text

theorem toList_loop (bytes : ByteArray) (i : Nat) (before : List UInt8) :
    ByteArray.toList.loop bytes i before = before.reverse ++ bytes.data.toList.drop i := by
  fun_induction ByteArray.toList.loop bytes i before with
  | case1 i before h ih =>
    have hlt : i < bytes.data.toList.length := h
    have hbyte : bytes.get! i = bytes.data.toList[i] := getElem!_pos bytes.data i h
    rw [ih, List.reverse_cons, hbyte, List.append_assoc, List.singleton_append,
      List.drop_eq_getElem_cons hlt]
  | case2 i before h =>
    have hle : bytes.data.toList.length ≤ i := Nat.le_of_not_lt h
    rw [List.drop_of_length_le hle, List.append_nil]

theorem ofBytes?_toBytes (s : String) : ofBytes? (toBytes s) = some s := by
  have hbytes : (⟨(toBytes s).toArray⟩ : ByteArray) = s.toByteArray := by
    rw [toBytes, ByteArray.toList, toList_loop]
    rfl
  rw [ofBytes?, hbytes, String.fromUTF8?, dif_pos s.isValidUTF8]
  rfl

theorem unifyLines_of_notMem {cs : List Char} (h : '\r' ∉ cs) : unifyLines cs = cs := by
  induction cs with
  | nil => rfl
  | cons c cs ih =>
    rw [List.mem_cons, not_or] at h
    rw [unifyLines, ih h.2]
    · exact fun _ hc _ => h.1 hc.symm
    · exact fun hc => h.1 hc.symm

/-- A line end after the first line does not change the first line. -/
theorem unifyLines_append {cs : List Char} (h : '\r' ∉ cs) (rest : List Char) :
    unifyLines (cs ++ '\n' :: rest) = cs ++ '\n' :: unifyLines rest := by
  induction cs with
  | nil =>
    show unifyLines ('\n' :: rest) = _
    rw [unifyLines]
    · rfl
    · exact fun _ hc => absurd hc (by decide)
    · exact fun hc => absurd hc (by decide)
  | cons c cs ih =>
    rw [List.mem_cons, not_or] at h
    show unifyLines (c :: (cs ++ '\n' :: rest)) = _
    rw [unifyLines, ih h.2]
    · rfl
    · exact fun _ hc _ => h.1 hc.symm
    · exact fun hc => h.1 hc.symm

/-- No carriage return is left. -/
theorem notMem_unifyLines (cs : List Char) : '\r' ∉ unifyLines cs := by
  fun_induction unifyLines cs with
  | case1 => exact List.not_mem_nil
  | case2 cs ih => exact List.not_mem_cons_of_ne_of_not_mem (by decide) ih
  | case3 cs _ ih => exact List.not_mem_cons_of_ne_of_not_mem (by decide) ih
  | case4 c cs _ hc ih => exact List.not_mem_cons_of_ne_of_not_mem (fun he => hc he.symm) ih

theorem ofFile?_toBytes {s : String} (h : '\r' ∉ s.toList) : ofFile? (toBytes s) = some s := by
  rw [ofFile?, ofBytes?_toBytes, Option.map_some, unifyLines_of_notMem h, String.ofList_toList]

/-! ## Fronts -/

/-- What a text begins with, as far as a property holds and no further. -/
theorem takeWhile_front {p : Char → Bool} {cs more : List Char} (hcs : ∀ c ∈ cs, p c = true)
    (hmore : ∀ c, more.head? = some c → p c = false) : (cs ++ more).takeWhile p = cs := by
  rw [List.takeWhile_append_of_pos hcs]
  cases more with
  | nil => exact List.append_nil cs
  | cons c more =>
    rw [List.takeWhile_cons_of_neg (Bool.eq_false_iff.mp (hmore c rfl)), List.append_nil]

/-! ## Pieces -/

theorem splitOn_of_notMem {sep : Char} {cs : List Char} (h : sep ∉ cs) : splitOn sep cs = [cs] := by
  induction cs with
  | nil => rfl
  | cons c cs ih =>
    rw [List.mem_cons, not_or] at h
    rw [splitOn, if_neg (Ne.symm h.1), ih h.2]

theorem splitOn_append {sep : Char} {cs : List Char} (h : sep ∉ cs) (rest : List Char) :
    splitOn sep (cs ++ sep :: rest) = cs :: splitOn sep rest := by
  induction cs with
  | nil => rw [List.nil_append, splitOn, if_pos rfl]
  | cons c cs ih =>
    rw [List.mem_cons, not_or] at h
    rw [List.cons_append, splitOn, if_neg (Ne.symm h.1), ih h.2]

/-- The pieces together are the text without its separators. -/
theorem flatten_splitOn (sep : Char) (cs : List Char) :
    (splitOn sep cs).flatten = cs.filter (· ≠ sep) := by
  induction cs with
  | nil => rfl
  | cons c cs ih =>
    rw [splitOn]
    by_cases hc : c = sep
    · rw [if_pos hc, List.flatten_cons, List.nil_append, ih, List.filter_cons_of_neg (by simpa using hc)]
    · rw [if_neg hc, List.filter_cons_of_pos (by simpa using hc), ← ih]
      cases splitOn sep cs with
      | nil => rfl
      | cons piece pieces => rfl

/-- There is no separator in a piece. -/
theorem notMem_of_mem_splitOn {sep : Char} {cs piece : List Char} (h : piece ∈ splitOn sep cs) :
    sep ∉ piece := by
  intro hs
  have hmem : sep ∈ (splitOn sep cs).flatten := List.mem_flatten.mpr ⟨piece, h, hs⟩
  rw [flatten_splitOn] at hmem
  simpa using (List.mem_filter.mp hmem).2

/-! ## Blanks -/

theorem sublist_dropBlanks (cs : List Char) : (dropBlanks cs).Sublist cs :=
  List.dropWhile_sublist _

theorem sublist_stripChars (cs : List Char) : (stripChars cs).Sublist cs := by
  have h := (sublist_dropBlanks (dropBlanks cs).reverse).reverse
  rw [List.reverse_reverse] at h
  exact h.trans (sublist_dropBlanks cs)

theorem head_dropBlanks {cs : List Char} {c : Char} (h : (dropBlanks cs).head? = some c) :
    isBlank c = false := by
  have hnot := List.head?_dropWhile_not isBlank cs
  rw [show cs.dropWhile isBlank = dropBlanks cs from rfl, h] at hnot
  exact hnot

/-- A stripped text does not begin with a blank. -/
theorem head_stripChars {cs : List Char} {c : Char} (h : (stripChars cs).head? = some c) :
    isBlank c = false := by
  have hprefix : stripChars cs <+: dropBlanks cs := by
    rw [← List.reverse_suffix, stripChars, List.reverse_reverse]
    exact List.dropWhile_suffix _
  obtain ⟨more, hmore⟩ := hprefix
  have hhead : (dropBlanks cs).head? = some c := by
    rw [← hmore, List.head?_append, h]
    rfl
  exact head_dropBlanks hhead

theorem dropBlanks_eq {sep : Char} {cs : List Char} (hsep : isBlank sep = false)
    (h : (cs.filter (· ≠ sep)).length ≤ ((dropBlanks cs).filter (· ≠ sep)).length) :
    dropBlanks cs = cs := by
  have hcut : cs.takeWhile isBlank ++ dropBlanks cs = cs := List.takeWhile_append_dropWhile
  have hblank : ∀ c ∈ cs.takeWhile isBlank, c ≠ sep := by
    rintro c hc rfl
    rw [List.mem_takeWhile_imp hc] at hsep
    cases hsep
  have hfront : (cs.takeWhile isBlank).filter (· ≠ sep) = cs.takeWhile isBlank :=
    List.filter_eq_self.mpr fun c hc => by simpa using hblank c hc
  have hlength : (cs.filter (· ≠ sep)).length =
      (cs.takeWhile isBlank).length + ((dropBlanks cs).filter (· ≠ sep)).length := by
    conv_lhs => rw [← hcut, List.filter_append, hfront, List.length_append]
  have hnil : cs.takeWhile isBlank = [] := List.eq_nil_of_length_eq_zero (by omega)
  rw [hnil, List.nil_append] at hcut
  exact hcut

/-- A text that keeps all but separators is not changed. -/
theorem stripChars_eq {sep : Char} {cs : List Char} (hsep : isBlank sep = false)
    (h : (cs.filter (· ≠ sep)).length ≤ ((stripChars cs).filter (· ≠ sep)).length) :
    stripChars cs = cs := by
  have hfront := (sublist_dropBlanks cs).filter (· ≠ sep)
  have hback := (sublist_dropBlanks (dropBlanks cs).reverse).filter (· ≠ sep)
  have hfront' := hfront.length_le
  have hback' := hback.length_le
  rw [List.filter_reverse, List.length_reverse] at hback'
  rw [stripChars, List.filter_reverse, List.length_reverse] at h
  have hd : dropBlanks cs = cs := dropBlanks_eq hsep (h.trans hback')
  have hr : dropBlanks (dropBlanks cs).reverse = (dropBlanks cs).reverse := by
    refine dropBlanks_eq hsep ?_
    rw [List.filter_reverse, List.length_reverse]
    exact hfront'.trans h
  rw [stripChars, hr, List.reverse_reverse, hd]

end Text
end Vitrine
