import Vitrine.Proofs.Decimal.Numerals
import Vitrine.Proofs.Preview.Literals
import Vitrine.Script.Eval

/-!
# Texts as numbers

A text is an integer if it is blank or a numeral between blanks, and a double otherwise. The operators
that compare values take a text beside an integer for what it is as a number.
-/
namespace Vitrine
namespace Text

/-- There is nothing to strip from a text without blanks. -/
theorem stripChars_of_forall {cs : List Char} (h : ∀ c ∈ cs, isBlank c = false) :
    stripChars cs = cs := by
  have hdrop : ∀ {cs : List Char}, (∀ c ∈ cs, isBlank c = false) → dropBlanks cs = cs := by
    intro cs hcs
    cases cs with
    | nil => rfl
    | cons c cs =>
      rw [dropBlanks, List.dropWhile_cons_of_neg (Bool.eq_false_iff.mp (hcs c List.mem_cons_self))]
  rw [stripChars, hdrop h, hdrop fun c hc => h c (List.mem_reverse.mp hc), List.reverse_reverse]

end Text

namespace Script

open Decimal (IsInteger IsDecimal ArePlain)

/-! ## Texts that are integers -/

/-- What is left of a text without the blanks around it. -/
def core (s : String) : List Char := Text.stripChars s.toList

theorem numberOfText_of_int {s : String} {n : Int} (hne : core s ≠ [])
    (h : Decimal.int? (core s) = some n) : numberOfText s = .int n := by
  have hempty : (core s).isEmpty = false := by rwa [List.isEmpty_eq_false_iff]
  rw [core] at h hempty
  simp only [numberOfText, hempty, h, Bool.false_eq_true, if_false]

/-- A text with something in it that is not read as an integer is a double. -/
theorem numberOfText_of_none {s : String} (hne : core s ≠ [])
    (h : Decimal.int? (core s) = none) : ∃ x, numberOfText s = .float x := by
  have hempty : (core s).isEmpty = false := by rwa [List.isEmpty_eq_false_iff]
  rw [core] at h hempty
  simp only [numberOfText, hempty, h, Bool.false_eq_true, if_false]
  split
  · exact ⟨_, rfl⟩
  · exact ⟨_, rfl⟩

theorem numberOfText_of_blank {s : String} (h : core s = []) : numberOfText s = .int 0 := by
  rw [core] at h
  rw [numberOfText, h]
  rfl

theorem numberOfText_eq_int {s : String} {n : Int} :
    numberOfText s = .int n ↔ core s = [] ∧ n = 0 ∨ IsInteger (core s) n := by
  have hnil : ¬ IsInteger [] n := by
    rw [← Decimal.int?_eq_some_iff]
    exact nofun
  by_cases hne : core s = []
  · rw [numberOfText_of_blank hne, hne, Number.int.injEq, or_iff_left hnil, eq_comm]
    exact ⟨fun h => ⟨rfl, h⟩, fun h => h.2⟩
  · rw [← Decimal.int?_eq_some_iff, or_iff_right fun h => hne h.1]
    cases hint : Decimal.int? (core s) with
    | some m => rw [numberOfText_of_int hne hint, Number.int.injEq, Option.some.injEq]
    | none =>
      obtain ⟨x, hx⟩ := numberOfText_of_none hne hint
      rw [hx]
      exact ⟨nofun, nofun⟩

/-- An integer that may be written is read from its text. -/
theorem numberOfText_intText {n : Int}
    (h : (Decimal.digitChars n.natAbs).length ≤ Decimal.digitLimit) :
    numberOfText (Decimal.intText n) = .int n := by
  have hdigits : ∀ c ∈ Decimal.digitChars n.natAbs, Text.isBlank c = false := by
    intro c hc
    have hdigit := Decimal.isAsciiDigit_iff.mp (Decimal.isAsciiDigit_of_mem_digitChars hc)
    have hcode : ∀ m : Fin 10, Text.isBlank (Char.ofNat (48 + m.val)) = false := by decide
    have hchar := hcode ⟨c.toNat - 48, by omega⟩
    rwa [show 48 + (c.toNat - 48) = c.toNat by omega, Char.ofNat_toNat] at hchar
  have hblank : ∀ c ∈ Decimal.intChars n, Text.isBlank c = false := by
    rw [Decimal.intChars]
    split
    · exact List.forall_mem_cons.mpr ⟨by decide, hdigits⟩
    · exact hdigits
  have hcore : core (Decimal.intText n) = Decimal.intChars n := by
    rw [core, Decimal.intText, String.toList_ofList, Text.stripChars_of_forall hblank]
  have hint : Decimal.int? (core (Decimal.intText n)) = some n := by
    rw [hcore, Decimal.int?_intChars h]
  rw [numberOfText_eq_int, ← Decimal.int?_eq_some_iff]
  exact Or.inr hint

/-! ## Comparing texts with integers -/

/-- The operators that compare what two values are as numbers. -/
def BinaryOp.IsComparison : BinaryOp → Prop
  | .eq | .ne | .lt | .gt | .le | .ge => True
  | _ => False

/-- Whether a text equals an integer depends on its number alone. -/
theorem looseEquals_text (s : String) (n : Int) :
    looseEquals (.str s : Cell) (.int n) = (numberOfText s).eq (.int n) ∧
      looseEquals (.int n : Cell) (.str s) = Number.eq (.int n) (numberOfText s) :=
  ⟨rfl, rfl⟩

theorem looseEquals_toValue (a : Number) (n : Int) :
    looseEquals (a.toValue : Cell) (.int n) = a.eq (.int n) ∧
      looseEquals (.int n : Cell) a.toValue = Number.eq (.int n) a := by
  cases a <;> exact ⟨rfl, rfl⟩

/-- So does where it stands in the order of numbers. -/
theorem comparison_text (onTexts : String → String → Bool) (onNumbers : Number → Number → Bool)
    (s : String) (n : Int) :
    comparison onTexts onNumbers (.str s) (.int n) =
        comparison onTexts onNumbers (numberOfText s).toValue (.int n) ∧
      comparison onTexts onNumbers (.int n) (.str s) =
        comparison onTexts onNumbers (.int n) (numberOfText s).toValue := by
  constructor
  all_goals
    simp only [comparison, toNumber]
    cases numberOfText s <;> rfl

/-- Beside an integer, on either side of a comparison, a text counts as its number. -/
theorem combine_text {op : BinaryOp} (hop : op.IsComparison) (s : String) (n : Int) :
    combine op (.str s) (.int n) = combine op (numberOfText s).toValue (.int n) ∧
      combine op (.int n) (.str s) = combine op (.int n) (numberOfText s).toValue := by
  have heq := looseEquals_text s n
  have hvalue := looseEquals_toValue (numberOfText s) n
  cases op with
  | eq | ne => simp only [combine, heq, hvalue, and_self]
  | lt | gt | le | ge =>
    simp only [combine]
    exact comparison_text _ _ s n
  | _ => exact hop.elim

/-- A text in ASCII without underscores is the integer `n` exactly if it is blank and `n` is zero, or a
decimal numeral of `n` between blanks. Any other text is an integer by the same rule, but that digits of
other scripts count and single underscores may stand between digits. So an integer that may be
written is read back from its text. Wherever it is compared with an integer, a text that is an integer
counts as that, and every other one as the double that it is read as. -/
theorem toNumber_text (s : String) :
    (ArePlain (core s) → ∀ n, toNumber (.str s : Cell) = .int n ↔
      core s = [] ∧ n = 0 ∨ IsDecimal (core s) n) ∧
    (∀ n, toNumber (.str s : Cell) = .int n ↔ core s = [] ∧ n = 0 ∨ IsInteger (core s) n) ∧
    (∀ n : Int, (Decimal.digitChars n.natAbs).length ≤ Decimal.digitLimit →
      ∃ t, (Value.int n : Cell).display = .ok t ∧ toNumber (.str t : Cell) = .int n) ∧
    (∀ m, toNumber (.str s : Cell) = .int m → ∀ op : BinaryOp, op.IsComparison → ∀ n,
      combine op (.str s) (.int n) = combine op (.int m) (.int n) ∧
        combine op (.int n) (.str s) = combine op (.int n) (.int m)) ∧
    ((∀ n, toNumber (.str s : Cell) ≠ .int n) →
      ∃ x, toNumber (.str s : Cell) = .float x ∧ ∀ op : BinaryOp, op.IsComparison → ∀ n,
        combine op (.str s) (.int n) = combine op (.float x) (.int n) ∧
          combine op (.int n) (.str s) = combine op (.int n) (.float x)) := by
  refine ⟨fun hplain n => ?_, fun n => numberOfText_eq_int, fun n hn => ?_,
    fun m hm op hop n => ?_, fun hs => ?_⟩
  · have hdecimal : IsDecimal (core s) n ↔ IsInteger (core s) n :=
      Decimal.isDecimal_iff.trans (and_iff_left hplain)
    rw [hdecimal]
    exact numberOfText_eq_int
  · exact ⟨Decimal.intText n, writtenInt_of_length hn, numberOfText_intText hn⟩
  · have htext := combine_text hop s n
    rwa [show numberOfText s = .int m from hm] at htext
  · obtain ⟨x, hx⟩ : ∃ x, toNumber (.str s : Cell) = .float x := by
      cases h : toNumber (.str s : Cell) with
      | int n => exact absurd h (hs n)
      | float x => exact ⟨x, rfl⟩
    refine ⟨x, hx, fun op hop n => ?_⟩
    have htext := combine_text hop s n
    rwa [show numberOfText s = .float x from hx] at htext

/-- A decimal numeral between blanks, one with an underscore, and a text that is a double. -/
theorem toNumber_text_samples :
    toNumber (.str " -07\n" : Cell) = .int (-7) ∧ toNumber (.str "1_000" : Cell) = .int 1000 ∧
      ¬ ArePlain (core "1_000") ∧
      (∃ t, (Value.int (-7) : Cell).display = .ok t ∧ toNumber (.str t : Cell) = .int (-7)) ∧
      combine .lt (.str "1_000") (.int 999) = combine .lt (.int 1000) (.int 999) ∧
      ∃ x, toNumber (.str "1e3" : Cell) = .float x ∧
        combine .eq (.str "1e3") (.int 1000) = combine .eq (.float x) (.int 1000) := by
  have hcore : core " -07\n" = "-07".toList := by cbv
  have hcore' : core "1_000" = "1_000".toList := by cbv
  have hcore'' : core "1e3" = "1e3".toList := by cbv
  have hplain : ArePlain (core " -07\n") := by
    rw [hcore, ArePlain]
    decide
  have hdecimal : IsDecimal (core " -07\n") (-7) := by
    rw [hcore]
    exact ⟨['-'], true, ['0', '7'], .minus, by decide, by decide, by decide, rfl, rfl⟩
  have hnumeral : IsInteger (core "1_000") 1000 := by
    rw [hcore', ← Decimal.int?_eq_some_iff]
    cbv
  have hdouble : ∀ n, toNumber (.str "1e3" : Cell) ≠ .int n := by
    have hint : Decimal.int? "1e3".toList = none := by cbv
    intro n hn
    rw [(toNumber_text "1e3").2.1, hcore'', ← Decimal.int?_eq_some_iff, hint] at hn
    rcases hn with ⟨hnil, -⟩ | hn
    · cases hnil
    · cases hn
  have hthousand : toNumber (.str "1_000" : Cell) = .int 1000 :=
    ((toNumber_text "1_000").2.1 _).mpr (Or.inr hnumeral)
  obtain ⟨x, hx, hcombine⟩ := (toNumber_text "1e3").2.2.2.2 hdouble
  refine ⟨((toNumber_text " -07\n").1 hplain _).mpr (Or.inr hdecimal), hthousand, ?_,
    (toNumber_text "-7").2.2.1 (-7) (by decide),
    ((toNumber_text "1_000").2.2.2.1 _ hthousand .lt trivial 999).1, x, hx, (hcombine .eq trivial 1000).1⟩
  rw [hcore']
  exact fun h => (h '_' (by decide)).2 rfl

end Script
end Vitrine
