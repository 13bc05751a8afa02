import Vitrine.Proofs.Decimal.Literals

/-!
# How numbers are laid out

An integer and a finite double are written as numerals: a whole part without needless zeros, and
perhaps a fraction and an exponent (`chars_standard`).
-/
namespace Vitrine
namespace Decimal

/-! ## Numerals -/

/-- The size of a number as it is written: at least one digit, of which only a single one may be a
zero in front, perhaps a point and digits, and perhaps an exponent with a sign. -/
structure Numeral where
  whole : List Char
  fraction : List Char
  exponent : List Char
  whole_digits : ∀ c ∈ whole, Text.isAsciiDigit c = true
  whole_front : whole = ['0'] ∨ whole ≠ [] ∧ whole.head? ≠ some '0'
  fraction_shape : fraction = [] ∨
    ∃ ds, ds ≠ [] ∧ (∀ c ∈ ds, Text.isAsciiDigit c = true) ∧ fraction = '.' :: ds
  exponent_shape : exponent = [] ∨
    ∃ sign ds, (sign = '+' ∨ sign = '-') ∧ ds ≠ [] ∧ (∀ c ∈ ds, Text.isAsciiDigit c = true) ∧
      exponent = 'e' :: sign :: ds

namespace Numeral

/-- Whether a numeral has neither a fraction nor an exponent. -/
def isWhole (m : Numeral) : Bool := m.fraction.isEmpty && m.exponent.isEmpty

/-- A numeral with its sign. -/
def chars (negative : Bool) (m : Numeral) : List Char :=
  (if negative then ['-'] else []) ++ (m.whole ++ (m.fraction ++ m.exponent))

theorem whole_ne_nil (m : Numeral) : m.whole ≠ [] := by
  rcases m.whole_front with h | h
  · rw [h]
    exact List.cons_ne_nil _ _
  · exact h.1

/-- A numeral begins with a digit or with a sign and a digit. -/
theorem chars_append (negative : Bool) (m : Numeral) (rest : List Char) :
    ∃ c cs, Text.isAsciiDigit c = true ∧
      (m.chars negative ++ rest = c :: cs ∨ m.chars negative ++ rest = '-' :: c :: cs) := by
  obtain ⟨c, cs, hwhole⟩ := List.exists_cons_of_ne_nil m.whole_ne_nil
  have hc := m.whole_digits c (by rw [hwhole]; exact List.mem_cons_self)
  refine ⟨c, cs ++ (m.fraction ++ m.exponent) ++ rest, hc, ?_⟩
  rw [chars, hwhole]
  cases negative
  · exact Or.inl rfl
  · exact Or.inr rfl

theorem areDigits {cs : List Char} (h : ∀ c ∈ cs, Text.isAsciiDigit c = true) : AreDigits cs := by
  intro c hc
  have hdigit := isAsciiDigit_iff.mp (h c hc)
  rw [Text.isDecimalDigit, Text.digitValue?, if_pos (by omega), if_pos (h c hc)]
  rfl

/-- Every numeral is read as a double. -/
theorem isSome_float?_chars (negative : Bool) (m : Numeral) :
    (float? (m.chars negative)).isSome = true := by
  refine isSome_float?_signed negative m.whole_ne_nil (areDigits m.whole_digits) ?_ ?_
  · rcases m.fraction_shape with h | ⟨ds, -, hds, h⟩
    · exact Or.inl h
    · exact Or.inr ⟨ds, areDigits hds, h⟩
  · rcases m.exponent_shape with h | ⟨sign, ds, hsign, hne, hds, h⟩
    · exact Or.inl h
    · refine Or.inr ⟨'e', [sign], ds, Or.inl rfl, ?_, hne, areDigits hds, h⟩
      rcases hsign with rfl | rfl
      · exact Or.inr (Or.inl rfl)
      · exact Or.inr (Or.inr rfl)

/-! ## Integers -/

theorem digitChars_front (n : Nat) :
    digitChars n = ['0'] ∨ digitChars n ≠ [] ∧ (digitChars n).head? ≠ some '0' := by
  rcases Nat.eq_zero_or_pos n with rfl | hn
  · exact Or.inl rfl
  · exact Or.inr ⟨digitChars_ne_nil n, head?_digitChars hn⟩

def ofNat (n : Nat) : Numeral where
  whole := digitChars n
  fraction := []
  exponent := []
  whole_digits := fun _ hc => isAsciiDigit_of_mem_digitChars hc
  whole_front := digitChars_front n
  fraction_shape := Or.inl rfl
  exponent_shape := Or.inl rfl

end Numeral

/-- An integer is written as a numeral. -/
theorem intChars_eq (n : Int) : intChars n = (Numeral.ofNat n.natAbs).chars (n < 0) := by
  rw [intChars, Numeral.chars]
  by_cases hn : n < 0
  · rw [if_pos hn, if_pos (decide_eq_true hn)]
    simp [Numeral.ofNat]
  · rw [if_neg hn, if_neg (by simpa using hn)]
    simp [Numeral.ofNat]

/-! ## The digits of doubles -/

theorem twoTo_pos (n : Nat) : 0 < twoTo n := Nat.pow_pos (by decide)

theorem tenTo_pos (n : Nat) : 0 < tenTo n := Nat.pow_pos (by decide)

/-- Zero lies in no interval around a positive double. -/
theorem Interval.holds_zero {mantissa : Nat} (h : mantissa ≠ 0) (exponent e : Int) :
    (Interval.around mantissa exponent).holds 0 e = false := by
  have hlow : 0 < (Interval.around mantissa exponent).low := by
    dsimp only [Interval.around]
    split <;> omega
  have hnum : 0 < (Interval.around mantissa exponent).num := by
    dsimp only [Interval.around]
    split
    · exact twoTo_pos _
    · exact Nat.one_pos
  have hten : 0 < (powerOfTen e).2 := by
    rw [powerOfTen]
    split
    · exact Nat.one_pos
    · exact tenTo_pos _
  have hbound := Nat.mul_pos (Nat.mul_pos hlow hnum) hten
  rw [Interval.holds]
  simp only [Nat.zero_mul]
  split
  · rw [Bool.and_eq_false_iff]
    exact Or.inl (Bool.eq_false_iff.mpr fun hle => Nat.not_le.mpr hbound (Nat.le_of_ble_eq_true hle))
  · rw [Bool.and_eq_false_iff]
    exact Or.inl (Bool.eq_false_iff.mpr fun hlt => Nat.not_lt.mpr (Nat.zero_le _)
      (Nat.le_of_ble_eq_true hlt))

/-- A point of the grid that is found lies in the interval. -/
theorem Interval.holds_of_onGrid? {i : Interval} {e : Int} {d : Nat} (h : i.onGrid? e = some d) :
    i.holds d e = true := by
  rw [Interval.onGrid?] at h
  dsimp only at h
  split at h
  · next hbelow _ =>
    rw [← Option.some.inj h]
    exact hbelow
  · next _ habove =>
    rw [← Option.some.inj h]
    exact habove
  · cases h
  · next hbelow habove =>
    split at h
    · rw [← Option.some.inj h]
      exact hbelow
    · rw [← Option.some.inj h]
      exact habove
    · rw [← Option.some.inj h]
      split
      · exact hbelow
      · exact habove

theorem Interval.digits_search_ne_zero {mantissa : Nat} (h : mantissa ≠ 0) (exponent magnitude : Int)
    (tries count : Nat) :
    ((Interval.around mantissa exponent).search magnitude tries count).digits ≠ 0 := by
  induction tries generalizing count with
  | zero =>
    show 4 * mantissa ≠ 0
    omega
  | succ tries ih =>
    rw [Interval.search]
    split
    · next d hd =>
      show d ≠ 0
      rintro rfl
      exact absurd (holds_of_onGrid? hd) (Bool.eq_false_iff.mp (holds_zero h exponent _))
    · exact ih (count + 1)

theorem Scientific.digits_normal_ne_zero (fuel : Nat) {s : Scientific} (h : s.digits ≠ 0) :
    (Scientific.normal fuel s).digits ≠ 0 := by
  induction fuel generalizing s with
  | zero => exact h
  | succ fuel ih =>
    rw [Scientific.normal]
    split
    · next hzero =>
      rw [Bool.and_eq_true, decide_eq_true_eq] at hzero
      refine ih ?_
      show s.digits / 10 ≠ 0
      omega
    · exact h

/-- Only zero has no digits but zero. -/
theorem digits_shortest_ne_zero {b : Binary} (h : b.mantissa ≠ 0) : (shortest b).digits ≠ 0 := by
  rw [shortest, if_neg h]
  exact Scientific.digits_normal_ne_zero _ (Interval.digits_search_ne_zero h _ _ _ _)

/-! ## Layouts -/

/-- Digits with a point somewhere make a numeral that is not whole. -/
theorem positional_numeral {n : Nat} {point : Int} (h : n ≠ 0 ∨ point = 1) :
    ∃ m : Numeral, m.isWhole = false ∧ m.chars false = positional (digitChars n) point := by
  have hdigits : ∀ c ∈ digitChars n, Text.isAsciiDigit c = true :=
    fun c hc => isAsciiDigit_of_mem_digitChars hc
  have hzeros : ∀ k, ∀ c ∈ List.replicate k '0', Text.isAsciiDigit c = true := by
    intro k c hc
    rw [List.eq_of_mem_replicate hc]
    decide
  have happend : ∀ {xs ys : List Char}, (∀ c ∈ xs, Text.isAsciiDigit c = true) →
      (∀ c ∈ ys, Text.isAsciiDigit c = true) → ∀ c ∈ xs ++ ys, Text.isAsciiDigit c = true :=
    fun hx hy => List.forall_mem_append.mpr ⟨hx, hy⟩
  rw [positional]
  split
  · -- zeros stand between the point and the digits
    exact ⟨⟨['0'], '.' :: (List.replicate (-point).toNat '0' ++ digitChars n), [], by decide,
      Or.inl rfl, Or.inr ⟨_, by simp [digitChars_ne_nil], happend (hzeros _) hdigits, rfl⟩,
      Or.inl rfl⟩, rfl, by simp [Numeral.chars]⟩
  · next hpoint =>
    dsimp only
    split
    · -- zeros stand between the digits and the point
      next hlength =>
      refine ⟨⟨digitChars n ++ List.replicate (point.toNat - (digitChars n).length) '0', ['.', '0'],
        [], happend hdigits (hzeros _), ?_, Or.inr ⟨['0'], by decide, by decide, rfl⟩, Or.inl rfl⟩,
        rfl, by simp [Numeral.chars]⟩
      rcases h with hn | rfl
      · right
        have hhead := head?_digitChars (Nat.pos_of_ne_zero hn)
        obtain ⟨c, cs, hcs⟩ := List.exists_cons_of_ne_nil (digitChars_ne_nil n)
        rw [hcs] at hhead ⊢
        exact ⟨List.cons_ne_nil _ _, hhead⟩
      · have hone : (1 : Int).toNat - (digitChars n).length = 0 := by
          have := List.length_pos_iff.mpr (digitChars_ne_nil n)
          omega
        rw [hone, List.replicate_zero, List.append_nil]
        exact Numeral.digitChars_front n
    · -- the point stands among the digits
      next hlength =>
      refine ⟨⟨(digitChars n).take point.toNat, '.' :: (digitChars n).drop point.toNat, [],
        fun c hc => hdigits c (List.mem_of_mem_take hc), Or.inr ?_,
        Or.inr ⟨_, by simp; omega, fun c hc => hdigits c (List.mem_of_mem_drop hc), rfl⟩,
        Or.inl rfl⟩, rfl, by simp [Numeral.chars]⟩
      have hn : 0 < n := by
        refine Nat.pos_of_ne_zero fun hzero => hlength ?_
        rw [hzero]
        show 1 ≤ point.toNat
        omega
      have hhead := head?_digitChars hn
      obtain ⟨c, cs, hcs⟩ := List.exists_cons_of_ne_nil (digitChars_ne_nil n)
      obtain ⟨k, hk⟩ : ∃ k, point.toNat = k + 1 := ⟨point.toNat - 1, by omega⟩
      rw [hcs] at hhead ⊢
      rw [hk, List.take_succ_cons]
      exact ⟨List.cons_ne_nil _ _, hhead⟩

/-- Digits with an exponent make a numeral that is not whole. -/
theorem scientific_numeral (width n : Nat) (exponent : Int) :
    ∃ m : Numeral, m.isWhole = false ∧
      m.chars false = scientific width (digitChars n) exponent := by
  have hdigits : ∀ c ∈ digitChars n, Text.isAsciiDigit c = true :=
    fun c hc => isAsciiDigit_of_mem_digitChars hc
  have hpadded : ∀ c ∈ padLeft width (digitChars exponent.natAbs), Text.isAsciiDigit c = true := by
    intro c hc
    rcases List.mem_append.mp hc with hc | hc
    · rw [List.eq_of_mem_replicate hc]
      decide
    · exact isAsciiDigit_of_mem_digitChars hc
  obtain ⟨c, cs, hcs⟩ := List.exists_cons_of_ne_nil (digitChars_ne_nil n)
  rw [hcs] at hdigits
  refine ⟨⟨[c], if cs.isEmpty then [] else '.' :: cs,
    'e' :: (if exponent < 0 then '-' else '+') :: padLeft width (digitChars exponent.natAbs),
    fun d hd => hdigits d (by simpa using Or.inl (List.mem_singleton.mp hd)), ?_, ?_,
    Or.inr ⟨_, _, ?_, ?_, hpadded, rfl⟩⟩, ?_, ?_⟩
  · by_cases hc : c = '0'
    · exact Or.inl (by rw [hc])
    · exact Or.inr ⟨List.cons_ne_nil _ _, fun h => hc (Option.some.inj h)⟩
  · cases cs with
    | nil => exact Or.inl rfl
    | cons d ds =>
      exact Or.inr ⟨d :: ds, List.cons_ne_nil d ds,
        fun e he => hdigits e (List.mem_cons_of_mem c he), rfl⟩
  · split
    · exact Or.inr rfl
    · exact Or.inl rfl
  · simp [padLeft, digitChars_ne_nil]
  · simp [Numeral.isWhole]
  · simp [Numeral.chars, scientific, hcs]

/-- A finite double is written as a numeral that is not whole. -/
theorem chars_standard (b : Binary) :
    ∃ m : Numeral, m.isWhole = false ∧ standard.chars b = m.chars b.negative := by
  have hsize : ∃ m : Numeral, m.isWhole = false ∧ m.chars false =
      (let s := shortest b
      let digits := digitChars s.digits
      let point := (digits.length : Int) + s.exponent
      if b.mantissa = 0 then positional digits 1
      else if standard.smallest ≤ point - 1 && point - 1 < standard.large then
        positional digits point
      else scientific standard.exponentWidth digits (point - 1)) := by
    dsimp only
    split
    · exact positional_numeral (Or.inr rfl)
    · next hne =>
      split
      · exact positional_numeral (Or.inl (digits_shortest_ne_zero hne))
      · exact scientific_numeral _ _ _
  obtain ⟨m, hwhole, hm⟩ := hsize
  refine ⟨m, hwhole, ?_⟩
  rw [Layout.chars]
  dsimp only at hm ⊢
  rw [← hm]
  cases b.negative <;> rfl

end Decimal
end Vitrine
