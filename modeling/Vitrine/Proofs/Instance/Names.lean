import Vitrine.Instance.Marker
import Vitrine.Proofs.Files.Operations
import Vitrine.Proofs.Files.Spelling
import Vitrine.Proofs.Text.Hex

/-!
# Names of markers and copies

The names that sessions give to their markers and to the copies of entry files: they are short, they
are proper names, and the two kinds differ.
-/
namespace Vitrine

/-- The characters of the names that are given out. -/
def nameChars : List Char := "0123456789abcdefghijklmnopqrstuvwxyz_-.".toList

theorem utf8ByteSize_of_nameChars {cs : List Char} (h : ∀ c ∈ cs, c ∈ nameChars) :
    (String.ofList cs).utf8ByteSize = cs.length := by
  induction cs with
  | nil => rfl
  | cons c cs ih =>
    have hsize : ∀ c ∈ nameChars, c.utf8Size = 1 := by decide
    have hcons : String.ofList (c :: cs) = String.singleton c ++ String.ofList cs := by
      rw [← String.ofList_toList (s := String.singleton c ++ String.ofList cs)]
      simp
    rw [hcons, String.utf8ByteSize_append, ih fun d hd => h d (List.mem_cons_of_mem _ hd)]
    simp [hsize c (h c List.mem_cons_self), Nat.add_comm]

/-- Names that a file can have anywhere. -/
structure Path.IsProper (name : String) : Prop where
  up : name ≠ ".."
  short : name.utf8ByteSize ≤ 55
  sound : name.toList.contains (Char.ofNat 0) = false

theorem Path.isProper_of_nameChars {name : String} (hall : ∀ c ∈ name.toList, c ∈ nameChars)
    (hmin : 3 ≤ name.toList.length) (hmax : name.toList.length ≤ 55) : IsProper name where
  up := by
    rintro rfl
    exact absurd hmin (by decide)
  short := by
    rw [← String.ofList_toList (s := name), utf8ByteSize_of_nameChars hall]
    exact hmax
  sound := by
    rw [← Bool.not_eq_true, List.contains_iff_mem]
    intro h
    exact absurd (hall _ h) (by decide)

namespace Backup

theorem toList_copyName (n : Nat) :
    (copyName n).toList = Text.hexDigits 32 n ++ ".bak".toList := by
  simp [copyName]

theorem isProper_copyName (n : Nat) : Path.IsProper (copyName n) := by
  have hlength : (copyName n).toList.length = 36 := by
    rw [toList_copyName, List.length_append, Text.length_hexDigits]
    rfl
  refine Path.isProper_of_nameChars (fun c hc => ?_) (by omega) (by omega)
  rw [toList_copyName, List.mem_append] at hc
  rcases hc with hc | hc
  · have hsub : ∀ c ∈ "0123456789abcdef".toList, c ∈ nameChars := by decide
    exact hsub c (Text.mem_hexDigits hc)
  · have hsub : ∀ c ∈ ".bak".toList, c ∈ nameChars := by decide
    exact hsub c hc

end Backup

namespace Marker

/-- A name as it stands between its beginning and its end. -/
def nameBody (n : Nat) : List Char :=
  let ds := Text.hexDigits 32 n
  let part (start length : Nat) : List Char := (ds.drop start).take length
  part 0 8 ++ '-' :: part 8 4 ++ '-' :: part 12 4 ++ '-' :: part 16 4 ++ '-' :: part 20 12

theorem toList_nameOf (n : Nat) :
    (nameOf n).toList = namePrefix.toList ++ nameBody n ++ nameSuffix.toList := by
  simp [nameOf, nameBody, joinWith]

theorem length_nameBody (n : Nat) : (nameBody n).length = 36 := by
  simp [nameBody, Text.length_hexDigits]

theorem mem_nameBody {n : Nat} {c : Char} (h : c ∈ nameBody n) : c ∈ nameChars := by
  have hsub : ∀ c ∈ "0123456789abcdef".toList, c ∈ nameChars := by decide
  have hdash : '-' ∈ nameChars := by decide
  have hpart : ∀ start length, c ∈ ((Text.hexDigits 32 n).drop start).take length →
      c ∈ nameChars :=
    fun _ _ hc => hsub c (Text.mem_hexDigits (List.mem_of_mem_drop (List.mem_of_mem_take hc)))
  simp only [nameBody, List.append_assoc, List.cons_append, List.mem_append, List.mem_cons] at h
  rcases h with h | rfl | h | rfl | h | rfl | h | rfl | h
  all_goals first | exact hdash | exact hpart _ _ h

theorem mem_nameOf {n : Nat} {c : Char} (hc : c ∈ (nameOf n).toList) : c ∈ nameChars := by
  rw [toList_nameOf, List.mem_append, List.mem_append] at hc
  rcases hc with (hc | hc) | hc
  · have hsub : ∀ c ∈ namePrefix.toList, c ∈ nameChars := by decide
    exact hsub c hc
  · exact mem_nameBody hc
  · have hsub : ∀ c ∈ nameSuffix.toList, c ∈ nameChars := by decide
    exact hsub c hc

theorem length_nameOf (n : Nat) : (nameOf n).toList.length = 55 := by
  rw [toList_nameOf, List.length_append, List.length_append, length_nameBody]
  rfl

theorem utf8ByteSize_nameOf (n : Nat) : (nameOf n).utf8ByteSize = 55 := by
  rw [← String.ofList_toList (s := nameOf n), utf8ByteSize_of_nameChars fun c hc => mem_nameOf hc,
    length_nameOf]

theorem isProper_nameOf (n : Nat) : Path.IsProper (nameOf n) := by
  have hlength := length_nameOf n
  exact Path.isProper_of_nameChars (fun c hc => mem_nameOf hc) (by omega) (by omega)

theorem isName_nameOf (n : Nat) : isName (nameOf n) = true := by
  rw [isName, toList_nameOf, Bool.and_eq_true_iff]
  constructor
  · rw [List.isPrefixOf_iff_prefix, List.append_assoc]
    exact List.prefix_append _ _
  · rw [List.isSuffixOf_iff_suffix]
    exact List.suffix_append _ _

/-- Copies are no markers. -/
theorem isName_copyName (n : Nat) : isName (Backup.copyName n) = false := by
  rw [isName, Bool.and_eq_false_iff]
  right
  rw [← Bool.not_eq_true, List.isSuffixOf_iff_suffix, Backup.toList_copyName]
  rintro ⟨cs, hcs⟩
  have hlast := congrArg List.getLast? hcs
  have hname : nameSuffix.toList.getLast? = some 'n' := by decide
  have hcopy : ".bak".toList.getLast? = some 'k' := by decide
  rw [List.getLast?_append, List.getLast?_append, hname, hcopy] at hlast
  exact absurd hlast (by simp)

theorem copyName_ne_nameOf (m n : Nat) : Backup.copyName m ≠ nameOf n := by
  intro h
  have hname := isName_nameOf n
  rw [← h, isName_copyName] at hname
  cases hname

end Marker

namespace Path

theorem joinParts_concat_le (ps : List String) (name : String) :
    (joinParts (ps ++ [name])).utf8ByteSize ≤
      (joinParts ps).utf8ByteSize + 1 + name.utf8ByteSize := by
  induction ps with
  | nil => simp [joinParts]
  | cons p ps ih =>
    have hslash : "/".utf8ByteSize = 1 := by decide
    cases ps with
    | nil =>
      simp only [List.cons_append, List.nil_append, joinParts, String.utf8ByteSize_append, hslash]
      omega
    | cons q ps =>
      simp only [List.cons_append, joinParts, String.utf8ByteSize_append, hslash] at ih ⊢
      omega

/-- A shorter name makes a shorter path. -/
theorem text_child_mono (p : Path) {a b : String} (h : a.utf8ByteSize ≤ b.utf8ByteSize) :
    (p.child a).text.utf8ByteSize ≤ (p.child b).text.utf8ByteSize := by
  have hchild : ∀ name, (p.child name).text = rootText p.root ++ joinParts (p.parts ++ [name]) := by
    intro name
    simp [text, child]
  obtain ⟨front, hf⟩ := joinParts_concat p.parts
  rw [hchild, hchild, hf, hf]
  simp only [String.utf8ByteSize_append]
  omega

/-- A name makes a path longer by itself and a slash. -/
theorem text_child_le (p : Path) (name : String) :
    (p.child name).text.utf8ByteSize ≤ p.text.utf8ByteSize + 1 + name.utf8ByteSize := by
  have hjoin := joinParts_concat_le p.parts name
  have hchild : (p.child name).text = rootText p.root ++ joinParts (p.parts ++ [name]) := by
    simp [text, child]
  rw [hchild, text, String.utf8ByteSize_append]
  split
  · next h =>
    simp only [Bool.and_eq_true, decide_eq_true_eq, List.isEmpty_iff] at h
    have hroot : (rootText .relative).utf8ByteSize = 0 := by decide
    have hempty : (joinParts []).utf8ByteSize = 0 := by decide
    rw [h.2, hempty] at hjoin
    rw [h.1, h.2, hroot]
    omega
  · rw [String.utf8ByteSize_append]
    omega

end Path
end Vitrine
