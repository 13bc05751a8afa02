import Vitrine.Proofs.Decimal.RoundTrip

/-!
# Literals of any script

Runs of decimal digits of any script are read as integers up to the digit limit
(`isSome_int?`), and as doubles together with a fraction and an exponent, however long they are
(`isSome_float?`).
-/
namespace Vitrine
namespace Decimal

/-! ## Digits of any script -/

theorem digitValue?_lt {c : Char} {d : Nat} (h : Text.digitValue? c = some d) : d < 10 := by
  rw [Text.digitValue?] at h
  split at h
  · split at h
    · next hdigit =>
      have hc := isAsciiDigit_iff.mp hdigit
      cases h
      omega
    · cases h
  · obtain ⟨r, -, hr⟩ := Option.map_eq_some_iff.mp h
    omega

theorem isAsciiDigit_foldDigit {c : Char} (h : Text.isDecimalDigit c = true) :
    Text.isAsciiDigit (foldDigit c) = true := by
  obtain ⟨d, hd⟩ := Option.isSome_iff_exists.mp h
  have hall : ∀ d : Fin 10, Text.isAsciiDigit (Char.ofNat (48 + d.val)) = true := by decide
  rw [foldDigit, hd]
  exact hall ⟨d, digitValue?_lt hd⟩

/-- A run of decimal digits. -/
def AreDigits (cs : List Char) : Prop := ∀ c ∈ cs, Text.isDecimalDigit c = true

theorem AreDigits.fold {cs : List Char} (h : AreDigits cs) :
    ∀ c ∈ cs.map foldDigit, Text.isAsciiDigit c = true := by
  intro c hc
  obtain ⟨d, hd, rfl⟩ := List.mem_map.mp hc
  exact isAsciiDigit_foldDigit (h d hd)

/-- A run of digits within the limit is read as an integer. -/
theorem isSome_int? {cs : List Char} (hne : cs ≠ []) (h : AreDigits cs)
    (hlength : cs.length ≤ digitLimit) : (int? cs).isSome = true := by
  have hfold : cs.map foldDigit ≠ [] := fun heq => hne (List.map_eq_nil_iff.mp heq)
  rw [int?, intIn?, if_neg (by decide), splitSign_digits h.fold]
  simp only [splitBase?_ten, digitRun?_digits hfold h.fold, Option.bind_some,
    List.length_map, Nat.not_lt.mpr hlength, decide_false, Bool.false_and]
  rfl

/-! ## Doubles -/

/-- An exponent mark, perhaps a sign, and digits. -/
def IsExponent (cs : List Char) : Prop :=
  ∃ e sign ds, (e = 'e' ∨ e = 'E') ∧ (sign = [] ∨ sign = ['+'] ∨ sign = ['-']) ∧ ds ≠ [] ∧
    AreDigits ds ∧ cs = e :: sign ++ ds

theorem dropUnderscores?_of_notMem {cs : List Char} {before : Char} (hbefore : before ≠ '_')
    (h : '_' ∉ cs) : dropUnderscores? before cs = some cs := by
  induction cs generalizing before with
  | nil => rw [dropUnderscores?, if_neg hbefore]
  | cons c cs ih =>
    have hc : c ≠ '_' := fun heq => h (heq ▸ List.mem_cons_self)
    rw [dropUnderscores?, if_neg hc, if_neg (by simp [hbefore]),
      ih hc fun hmem => h (List.mem_cons_of_mem _ hmem)]
    rfl

theorem leadingDigits_append {ds more : List Char} (h : ∀ c ∈ ds, Text.isAsciiDigit c = true)
    (hmore : ∀ c cs, more = c :: cs → Text.isAsciiDigit c = false) :
    leadingDigits (ds ++ more) = ds := by
  refine Text.takeWhile_front h fun c hc => ?_
  obtain ⟨cs, hcs⟩ := List.head?_eq_some_iff.mp hc
  exact hmore c cs hcs

theorem isSome_exponent? {cs : List Char} (h : cs = [] ∨ IsExponent cs) :
    (exponent? (cs.map foldDigit)).isSome = true := by
  rcases h with rfl | ⟨e, sign, ds, he, hsign, hne, hds, rfl⟩
  · rfl
  have hfold : ds.map foldDigit ≠ [] := fun heq => hne (List.map_eq_nil_iff.mp heq)
  have hsplit : ∃ negative, splitSign ((sign ++ ds).map foldDigit) =
      (negative, ds.map foldDigit) := by
    rcases hsign with rfl | rfl | rfl
    · exact ⟨false, splitSign_digits hds.fold⟩
    · exact ⟨false, rfl⟩
    · exact ⟨true, rfl⟩
  have hmark : ((foldDigit e = 'e') || (foldDigit e = 'E')) = true := by
    rcases he with rfl | rfl <;> decide
  obtain ⟨negative, hsplit⟩ := hsplit
  rw [List.cons_append, List.map_cons, exponent?, if_pos hmark, hsplit]
  have hempty : (ds.map foldDigit).isEmpty = false := by
    cases hcs : ds.map foldDigit with
    | nil => exact absurd hcs hfold
    | cons _ _ => rfl
  have hall : (ds.map foldDigit).all Text.isAsciiDigit = true := List.all_eq_true.mpr hds.fold
  dsimp only
  rw [hempty, hall]
  rfl

theorem splitSign_digit {c : Char} (h : Text.isAsciiDigit c = true) (cs : List Char) :
    splitSign (c :: cs) = (false, c :: cs) := by
  rw [splitSign.eq_def]
  split
  · next heq => exact absurd ((List.cons.inj heq).1 ▸ h) (by decide)
  · next heq => exact absurd ((List.cons.inj heq).1 ▸ h) (by decide)
  · rfl

/-- Digits and the marks of a number, which are read as themselves. -/
def IsNumberChar (c : Char) : Prop :=
  Text.isDecimalDigit c = true ∨ c ∈ ['.', 'e', 'E', '+', '-']

theorem IsNumberChar.fold_ne_underscore {c : Char} (h : IsNumberChar c) : foldDigit c ≠ '_' := by
  have hmarks : ∀ c ∈ ['.', 'e', 'E', '+', '-'], foldDigit c ≠ '_' := by decide
  rcases h with h | h
  · exact ne_of_isAsciiDigit (isAsciiDigit_foldDigit h) (by decide)
  · exact hmarks c h

/-- A fraction, or nothing. -/
def IsFraction (cs : List Char) : Prop := cs = [] ∨ ∃ ds, AreDigits ds ∧ cs = '.' :: ds

variable {whole fraction exponent : List Char}

theorem IsFraction.isNumberChar (h : IsFraction fraction) : ∀ c ∈ fraction, IsNumberChar c := by
  intro c hc
  rcases h with rfl | ⟨ds, hds, rfl⟩
  · cases hc
  · rcases List.mem_cons.mp hc with rfl | hc
    · exact Or.inr (by decide)
    · exact Or.inl (hds c hc)

theorem IsExponent.isNumberChar (h : IsExponent exponent) : ∀ c ∈ exponent, IsNumberChar c := by
  obtain ⟨e, sign, ds, he, hsign, -, hds, rfl⟩ := h
  intro c hc
  rcases List.mem_append.mp hc with hc | hc
  · have hmarks : ∀ sign ∈ [[], ['+'], ['-']], ∀ e ∈ ['e', 'E'], ∀ c ∈ e :: sign,
        c ∈ ['.', 'e', 'E', '+', '-'] := by decide
    exact Or.inr (hmarks sign (by simpa using hsign) e (by simpa using he) c hc)
  · exact Or.inl (hds c hc)

theorem isNumberChar_of_mem (hwhole : AreDigits whole) (hfraction : IsFraction fraction)
    (hexponent : exponent = [] ∨ IsExponent exponent) {c : Char}
    (hc : c ∈ whole ++ (fraction ++ exponent)) : IsNumberChar c := by
  rcases List.mem_append.mp hc with hc | hc
  · exact Or.inl (hwhole c hc)
  rcases List.mem_append.mp hc with hc | hc
  · exact hfraction.isNumberChar c hc
  · rcases hexponent with rfl | hexponent
    · cases hc
    · exact hexponent.isNumberChar c hc

/-- No digit and no point stands at the front of an exponent. -/
theorem exponent_front (h : exponent = [] ∨ IsExponent exponent) {c : Char} {rest : List Char}
    (heq : exponent.map foldDigit = c :: rest) : Text.isAsciiDigit c = false ∧ c ≠ '.' := by
  rcases h with rfl | ⟨e, sign, ds, he, hsign, hne, hds, rfl⟩
  · cases heq
  · rw [List.cons_append, List.map_cons] at heq
    rw [← (List.cons.inj heq).1]
    rcases he with rfl | rfl <;> decide

/-- What follows the whole part does not go on with a digit. -/
theorem fraction_front (hfraction : IsFraction fraction)
    (hexponent : exponent = [] ∨ IsExponent exponent) {c : Char} {rest : List Char}
    (heq : fraction.map foldDigit ++ exponent.map foldDigit = c :: rest) :
    Text.isAsciiDigit c = false := by
  rcases hfraction with rfl | ⟨ds, hds, rfl⟩
  · exact (exponent_front hexponent heq).1
  · rw [List.map_cons, List.cons_append] at heq
    rw [← (List.cons.inj heq).1]
    decide

/-- A sign, a whole part and perhaps a fraction and an exponent are read as a double. -/
theorem isSome_float?_signed (negative : Bool) (hne : whole ≠ []) (hwhole : AreDigits whole)
    (hfraction : IsFraction fraction) (hexponent : exponent = [] ∨ IsExponent exponent) :
    (float? ((if negative then ['-'] else []) ++ (whole ++ (fraction ++ exponent)))).isSome =
      true := by
  have hfold : foldDigit '-' = '-' := by decide
  have hunderscore :
      '_' ∉ ((if negative then ['-'] else []) ++ (whole ++ (fraction ++ exponent))).map foldDigit := by
    intro hmem
    obtain ⟨c, hc, heq⟩ := List.mem_map.mp hmem
    rcases List.mem_append.mp hc with hc | hc
    · have hmark : c = '-' := by cases negative <;> simp_all
      rw [hmark, hfold] at heq
      exact absurd heq (by decide)
    · exact (isNumberChar_of_mem hwhole hfraction hexponent hc).fold_ne_underscore heq
  obtain ⟨d, ds, rfl⟩ := List.exists_cons_of_ne_nil hne
  have hsign : splitSign (((if negative then ['-'] else []) ++
      (d :: ds ++ (fraction ++ exponent))).map foldDigit) =
      (negative, (d :: ds).map foldDigit ++ (fraction.map foldDigit ++ exponent.map foldDigit)) := by
    rw [List.map_append, List.map_append, List.map_append]
    cases negative
    · exact splitSign_digit (hwhole.fold (foldDigit d) List.mem_cons_self)
        (ds.map foldDigit ++ (fraction.map foldDigit ++ exponent.map foldDigit))
    · rfl
  rw [float?, dropUnderscores?_of_notMem (by decide) hunderscore, Option.bind_some, hsign]
  dsimp only
  split
  · rfl
  have hempty : ((d :: ds).map foldDigit).isEmpty = false := rfl
  rw [leadingDigits_append hwhole.fold fun c rest heq => fraction_front hfraction hexponent heq,
    List.drop_left, hempty, Bool.false_and, if_neg Bool.false_ne_true, Option.isSome_map]
  rcases hfraction with rfl | ⟨fs, hfs, rfl⟩
  · split
    · next heq => exact absurd rfl (exponent_front hexponent heq).2
    · exact isSome_exponent? hexponent
  · show (exponent? (List.drop (leadingDigits (fs.map foldDigit ++ exponent.map foldDigit)).length
      (fs.map foldDigit ++ exponent.map foldDigit))).isSome = true
    rw [leadingDigits_append hfs.fold fun c rest heq => (exponent_front hexponent heq).1,
      List.drop_left]
    exact isSome_exponent? hexponent

theorem isSome_float? (hne : whole ≠ []) (hwhole : AreDigits whole)
    (hfraction : IsFraction fraction) (hexponent : exponent = [] ∨ IsExponent exponent) :
    (float? (whole ++ (fraction ++ exponent))).isSome = true :=
  isSome_float?_signed false hne hwhole hfraction hexponent

end Decimal
end Vitrine
