import Mathlib
import Vitrine.Decimal.Layout
import Vitrine.Decimal.Reader
import Vitrine.Proofs.Text.Lines

/-!
# Reading integers back

An integer that was written in full is read as itself, if it has no more digits than are read.
-/
namespace Vitrine
namespace Decimal

theorem isAsciiDigit_iff {c : Char} : Text.isAsciiDigit c = true ↔ 48 ≤ c.toNat ∧ c.toNat ≤ 57 := by
  rw [Text.isAsciiDigit, Bool.and_eq_true, decide_eq_true_eq, decide_eq_true_eq]
  exact Iff.rfl

theorem isAsciiDigit_of_mem_digitChars {n : Nat} {c : Char} (h : c ∈ digitChars n) :
    Text.isAsciiDigit c = true := by
  have hdigit := Nat.isDigit_of_mem_toDigits (by decide) (by decide) h
  rw [Char.isDigit, Bool.and_eq_true, decide_eq_true_eq, decide_eq_true_eq] at hdigit
  rw [isAsciiDigit_iff]
  exact hdigit

theorem digitChars_ne_nil (n : Nat) : digitChars n ≠ [] := Nat.toDigits_ne_nil

/-- Only zero is written with a leading zero. -/
theorem head?_digitChars {n : Nat} (h : 0 < n) : (digitChars n).head? ≠ some '0' := by
  induction n using Nat.strongRecOn with
  | ind n ih =>
    rw [digitChars, Nat.toDigits_eq_if (by decide)]
    split
    · next hn =>
      have hall : ∀ m : Fin 10, 0 < m.val → m.val.digitChar ≠ '0' := by decide
      simpa using hall ⟨n, hn⟩ h
    · next hn =>
      have hfirst := ih (n / 10) (by omega) (by omega)
      rw [digitChars] at hfirst
      match hcs : Nat.toDigits 10 (n / 10) with
      | [] => exact absurd hcs Nat.toDigits_ne_nil
      | c :: cs =>
        rw [hcs] at hfirst
        exact hfirst

theorem ne_of_isAsciiDigit {c d : Char} (h : Text.isAsciiDigit c = true)
    (hd : Text.isAsciiDigit d = false) : c ≠ d := by
  rintro rfl
  rw [h] at hd
  cases hd

theorem foldDigit_digit {c : Char} (h : Text.isAsciiDigit c = true) : foldDigit c = c := by
  have hc := isAsciiDigit_iff.mp h
  rw [foldDigit, Text.digitValue?, if_pos (by omega), if_pos h]
  show Char.ofNat (48 + (c.toNat - 48)) = c
  rw [show 48 + (c.toNat - 48) = c.toNat by omega, Char.ofNat_toNat]

theorem digitOf?_digit {c : Char} (h : Text.isAsciiDigit c = true) :
    digitOf? c = some (c.toNat - 48) := by
  rw [digitOf?, if_pos h]

/-- A run of decimal digits is read digit by digit. -/
theorem digitRun?_digits {cs : List Char} (hne : cs ≠ [])
    (h : ∀ c ∈ cs, Text.isAsciiDigit c = true) :
    digitRun? 10 cs = some (cs.map fun c => c.toNat - 48) := by
  induction cs with
  | nil => exact absurd rfl hne
  | cons c cs ih =>
    have hc := h c List.mem_cons_self
    have hval := isAsciiDigit_iff.mp hc
    have hlt : c.toNat - 48 < 10 := by omega
    cases cs with
    | nil => simp [digitRun?, digitOf?_digit hc, hlt]
    | cons d ds =>
      have hd : d ≠ '_' := ne_of_isAsciiDigit (h d (by simp)) (by decide)
      have hrest := ih (by simp) fun e he => h e (List.mem_cons_of_mem _ he)
      have hstep : digitRun? 10 (c :: d :: ds) = (digitOf? c).bind fun x =>
          if x < 10 then (digitRun? 10 (d :: ds)).map (x :: ·) else none := by
        rw [digitRun?.eq_def]
        split <;> simp_all
      rw [hstep, digitOf?_digit hc, hrest]
      simp [hlt]

theorem ofDigits_digitChars (n : Nat) :
    ofDigits 10 ((digitChars n).map fun c => c.toNat - 48) = n := by
  have hfold : ∀ (cs : List Char) (m : Nat),
      (cs.map fun c => c.toNat - 48).foldl (fun n d => n * 10 + d) m = Nat.ofDigitChars 10 cs m := by
    intro cs
    induction cs with
    | nil => intro m; simp
    | cons c cs ih =>
      intro m
      rw [List.map_cons, List.foldl_cons, ih, Nat.ofDigitChars_cons, Nat.mul_comm]
      rfl
  rw [ofDigits, hfold]
  exact Nat.ofDigitChars_ten_toDigits

/-- In base ten there is no mark of a base. -/
theorem splitBase?_ten (cs : List Char) : splitBase? 10 cs = some (10, cs) := by
  have hletter : ∀ {c b}, baseOfLetter? c = some b → b ≠ 10 := by
    intro c b h
    rw [baseOfLetter?.eq_def] at h
    split at h <;> cases h <;> decide
  match cs with
  | [] => rfl
  | [c] => simp [splitBase?]
  | c :: d :: rest =>
    by_cases hc : c = '0'
    · subst hc
      cases hd : baseOfLetter? d with
      | none => simp [splitBase?, hd]
      | some b => simp [splitBase?, hd, (hletter hd).symm]
    · simp [splitBase?, hc]

theorem splitSign_digits {cs : List Char} (h : ∀ c ∈ cs, Text.isAsciiDigit c = true) :
    splitSign cs = (false, cs) := by
  rw [splitSign.eq_def]
  split
  · exact absurd (h '-' List.mem_cons_self) (by decide)
  · exact absurd (h '+' List.mem_cons_self) (by decide)
  · rfl

theorem int?_digitChars {n : Nat} (h : (digitChars n).length ≤ digitLimit) :
    int? (digitChars n) = some (n : Int) := by
  have hdigits : ∀ c ∈ digitChars n, Text.isAsciiDigit c = true :=
    fun c hc => isAsciiDigit_of_mem_digitChars hc
  have hfold : (digitChars n).map foldDigit = digitChars n := by
    rw [List.map_congr_left fun c hc => foldDigit_digit (hdigits c hc), List.map_id']
  rw [int?, intIn?, if_neg (by decide), hfold, splitSign_digits hdigits]
  simp only [splitBase?_ten, digitRun?_digits (digitChars_ne_nil n) hdigits,
    Option.bind_some, List.length_map, Nat.not_lt.mpr h, decide_false, Bool.false_and,
    ofDigits_digitChars]
  rfl

/-- An integer is read as it was written. -/
theorem int?_intChars {n : Int} (h : (digitChars n.natAbs).length ≤ digitLimit) :
    int? (intChars n) = some n := by
  by_cases hn : n < 0
  · have hdigits : ∀ c ∈ digitChars n.natAbs, Text.isAsciiDigit c = true :=
      fun c hc => isAsciiDigit_of_mem_digitChars hc
    have hfold : (digitChars n.natAbs).map foldDigit = digitChars n.natAbs := by
      rw [List.map_congr_left fun c hc => foldDigit_digit (hdigits c hc), List.map_id']
    have hsign : foldDigit '-' = '-' := by decide
    rw [intChars, if_pos hn, int?, intIn?, if_neg (by decide), List.map_cons, hfold, hsign, splitSign]
    simp only [splitBase?_ten, digitRun?_digits (digitChars_ne_nil _) hdigits,
      Option.bind_some, List.length_map, Nat.not_lt.mpr h, decide_false, Bool.false_and,
      ofDigits_digitChars]
    show some (-(n.natAbs : Int)) = some n
    congr 1
    omega
  · rw [intChars, if_neg hn, int?_digitChars h]
    congr 1
    omega

end Decimal
end Vitrine
