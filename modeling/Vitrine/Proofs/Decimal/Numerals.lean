import Vitrine.Proofs.Decimal.Literals

/-!
# The texts that are read as integers

A text is read as an integer if it is a sign, or none, and digits of any script, between which single
underscores may stand (`int?_eq_some_iff`). Of these the ones in ASCII without underscores are the
decimal numerals (`isDecimal_iff`).
-/
namespace Vitrine
namespace Decimal

/-! ## Digits and signs -/

theorem foldDigit_of_digitValue? {c : Char} {d : Nat} (h : Text.digitValue? c = some d) :
    foldDigit c = Char.ofNat (48 + d) := by
  rw [foldDigit, h]

theorem foldDigit_of_none {c : Char} (h : Text.digitValue? c = none) : foldDigit c = c := by
  rw [foldDigit, h]

theorem digitOf?_of_digitValue? {c : Char} {d : Nat} (h : Text.digitValue? c = some d) :
    digitOf? (foldDigit c) = some d := by
  have hall : ∀ d : Fin 10, digitOf? (Char.ofNat (48 + d.val)) = some d.val := by decide
  rw [foldDigit_of_digitValue? h]
  exact hall ⟨d, digitValue?_lt h⟩

theorem not_isAsciiDigit_of_none {c : Char} (h : Text.digitValue? c = none) :
    Text.isAsciiDigit c = false := by
  rw [Bool.eq_false_iff]
  intro hdigit
  have hc := isAsciiDigit_iff.mp hdigit
  rw [Text.digitValue?, if_pos (by omega), if_pos hdigit] at h
  cases h

/-- Letters are digits of greater bases only. -/
theorem ten_le_of_digitOf? {c : Char} {d : Nat} (hc : Text.isAsciiDigit c = false)
    (h : digitOf? c = some d) : 10 ≤ d := by
  rw [digitOf?, if_neg (Bool.eq_false_iff.mp hc)] at h
  split at h
  · next hletter =>
    rw [Bool.and_eq_true, decide_eq_true_eq, decide_eq_true_eq] at hletter
    have hlow : 97 ≤ c.toNat := hletter.1
    have hd := Option.some.inj h
    omega
  split at h
  · next hletter =>
    rw [Bool.and_eq_true, decide_eq_true_eq, decide_eq_true_eq] at hletter
    have hlow : 65 ≤ c.toNat := hletter.1
    have hd := Option.some.inj h
    omega
  · cases h

/-- The decimal digits are those of any script. -/
theorem digitValue?_iff {c : Char} {d : Nat} :
    Text.digitValue? c = some d ↔ digitOf? (foldDigit c) = some d ∧ d < 10 := by
  refine ⟨fun h => ⟨digitOf?_of_digitValue? h, digitValue?_lt h⟩, fun ⟨h, hlt⟩ => ?_⟩
  cases hc : Text.digitValue? c with
  | some e => rw [← h, digitOf?_of_digitValue? hc]
  | none =>
    rw [foldDigit_of_none hc] at h
    exact absurd (ten_le_of_digitOf? (not_isAsciiDigit_of_none hc) h) (Nat.not_le.mpr hlt)

/-- A mark that is no digit is the only character that becomes it. -/
theorem foldDigit_eq_iff {c mark : Char} (hmark : Text.digitValue? mark = none) :
    foldDigit c = mark ↔ c = mark := by
  constructor
  · intro h
    cases hc : Text.digitValue? c with
    | some d =>
      have hdigit := isAsciiDigit_foldDigit (Option.isSome_of_mem hc)
      rw [h, not_isAsciiDigit_of_none hmark] at hdigit
      cases hdigit
    | none => rwa [foldDigit_of_none hc] at h
  · rintro rfl
    exact foldDigit_of_none hmark

/-- A sign, or none, and whether it is a minus. -/
inductive IsSign : List Char → Bool → Prop
  | none : IsSign [] false
  | plus : IsSign ['+'] false
  | minus : IsSign ['-'] true

/-- A number with its sign. -/
def signed (negative : Bool) (n : Nat) : Int := if negative then -n else n

/-! ## Runs of digits -/

/-- A text spells the digits with these values: each is a digit of some script, and a single
underscore may stand between two of them. -/
inductive Spells : List Char → List Nat → Prop
  | last {c : Char} {d : Nat} : Text.digitValue? c = some d → Spells [c] [d]
  | digit {c : Char} {d : Nat} {cs : List Char} {ds : List Nat} :
      Text.digitValue? c = some d → Spells cs ds → Spells (c :: cs) (d :: ds)
  | spaced {c : Char} {d : Nat} {cs : List Char} {ds : List Nat} :
      Text.digitValue? c = some d → Spells cs ds → Spells (c :: '_' :: cs) (d :: ds)

theorem Spells.front {cs : List Char} {ds : List Nat} (h : Spells cs ds) :
    ∃ c rest d, cs = c :: rest ∧ Text.digitValue? c = some d := by
  cases h with
  | last hc => exact ⟨_, _, _, rfl, hc⟩
  | digit hc _ => exact ⟨_, _, _, rfl, hc⟩
  | spaced hc _ => exact ⟨_, _, _, rfl, hc⟩

theorem Spells.front_ne {mark : Char} {cs : List Char} {ds : List Nat} (h : Spells (mark :: cs) ds)
    (hmark : Text.digitValue? mark = none) : False := by
  obtain ⟨c, rest, d, heq, hc⟩ := h.front
  rw [← (List.cons.inj heq).1, hmark] at hc
  cases hc

/-- The first digit of a run, and what is left to read: an underscore behind it is passed over. -/
theorem digitRun?_cons (base : Nat) (c : Char) (cs : List Char) :
    digitRun? base (c :: cs) = (digitOf? c).bind fun d =>
      if d < base then
        match cs with
        | [] => some [d]
        | '_' :: rest => (digitRun? base rest).map (d :: ·)
        | cs => (digitRun? base cs).map (d :: ·)
      else none := by
  rw [digitRun?.eq_def]
  split
  · next heq => cases heq
  · next heq => cases heq; rfl
  · next heq => cases heq; rfl
  · next hnil hunderscore heq =>
    cases heq
    congr 1
    funext d
    split
    · split
      · exact absurd rfl hnil
      · exact absurd rfl (hunderscore _)
      · rfl
    · rfl

theorem digitValue?_underscore : Text.digitValue? '_' = none := by decide

/-- What is read as a run of decimal digits spells the values that are read. -/
theorem spells_of_digitRun? {cs : List Char} {ds : List Nat}
    (h : digitRun? 10 (cs.map foldDigit) = some ds) : Spells cs ds := by
  induction hn : cs.length using Nat.strongRecOn generalizing cs ds with
  | ind n ih =>
    cases cs with
    | nil => cases h
    | cons c cs =>
      rw [List.map_cons, digitRun?_cons, Option.bind_eq_some_iff] at h
      obtain ⟨d, hd, h⟩ := h
      split at h
      · next hlt =>
        have hc := digitValue?_iff.mpr ⟨hd, hlt⟩
        -- behind the digit the run ends, has an underscore or goes on at once
        cases cs with
        | nil =>
          cases h
          exact Spells.last hc
        | cons e cs =>
          rw [List.map_cons] at h
          rw [List.length_cons, List.length_cons] at hn
          split at h
          · next heq => cases heq
          · next rest heq =>
            obtain ⟨he, rfl⟩ := List.cons.inj heq
            obtain ⟨es, hes, rfl⟩ := Option.map_eq_some_iff.mp h
            rw [foldDigit_eq_iff digitValue?_underscore] at he
            subst he
            exact Spells.spaced hc (ih _ (by omega) hes rfl)
          · next heq =>
            obtain ⟨es, hes, rfl⟩ := Option.map_eq_some_iff.mp h
            rw [← List.map_cons] at hes
            exact Spells.digit hc (ih _ (by rw [List.length_cons]; omega) hes rfl)
      · cases h

theorem digitRun?_of_spells {cs : List Char} {ds : List Nat} (h : Spells cs ds) :
    digitRun? 10 (cs.map foldDigit) = some ds := by
  induction h with
  | last hc =>
    have hd := digitValue?_iff.mp hc
    rw [List.map_singleton, digitRun?_cons, hd.1, Option.bind_some, if_pos hd.2]
  | @digit c d cs ds hc hcs ih =>
    have hd := digitValue?_iff.mp hc
    rw [List.map_cons, digitRun?_cons, hd.1, Option.bind_some, if_pos hd.2]
    split
    · next heq =>
      rw [heq] at ih
      cases ih
    · next rest heq =>
      cases cs with
      | nil => cases heq
      | cons e cs =>
        rw [List.map_cons] at heq
        have he := (foldDigit_eq_iff digitValue?_underscore).mp (List.cons.inj heq).1
        subst he
        exact (hcs.front_ne digitValue?_underscore).elim
    · rw [ih]
      rfl
  | @spaced c d cs ds hc hcs ih =>
    have hd := digitValue?_iff.mp hc
    have hfold : foldDigit '_' = '_' := foldDigit_of_none digitValue?_underscore
    rw [List.map_cons, List.map_cons, digitRun?_cons, hd.1, Option.bind_some, if_pos hd.2, hfold]
    show (digitRun? 10 (cs.map foldDigit)).map (d :: ·) = _
    rw [ih]
    rfl

/-- A run of decimal digits is read as the values that it spells. -/
theorem digitRun?_fold {cs : List Char} {ds : List Nat} :
    digitRun? 10 (cs.map foldDigit) = some ds ↔ Spells cs ds :=
  ⟨spells_of_digitRun?, digitRun?_of_spells⟩

/-! ## Integers -/

/-- A text that denotes an integer: a sign, or none, and a run of digits within the limit. -/
def IsInteger (cs : List Char) (n : Int) : Prop :=
  ∃ sign negative run ds, IsSign sign negative ∧ Spells run ds ∧ ds.length ≤ digitLimit ∧
    cs = sign ++ run ∧ n = signed negative (ofDigits 10 ds)

/-- Reading an integer, for a text whose sign has been cut off. -/
theorem intIn?_of_splitSign {cs run : List Char} {negative : Bool}
    (h : splitSign (cs.map foldDigit) = (negative, run.map foldDigit)) {n : Int} :
    int? cs = some n ↔
      ∃ ds, Spells run ds ∧ ds.length ≤ digitLimit ∧ n = signed negative (ofDigits 10 ds) := by
  rw [int?, intIn?, if_neg (by decide), h]
  dsimp only
  rw [splitBase?_ten, Option.bind_some, Option.bind_eq_some_iff]
  constructor
  · rintro ⟨ds, hds, hn⟩
    split at hn
    · cases hn
    · next hlimit =>
      refine ⟨ds, digitRun?_fold.mp hds, ?_, (Option.some.inj hn).symm⟩
      simpa using hlimit
  · rintro ⟨ds, hds, hlimit, rfl⟩
    refine ⟨ds, digitRun?_fold.mpr hds, ?_⟩
    rw [if_neg (by simpa using hlimit)]
    rfl

/-- What is read as an integer. -/
theorem int?_eq_some_iff {cs : List Char} {n : Int} : int? cs = some n ↔ IsInteger cs n := by
  have hplus : Text.digitValue? '+' = none := by decide
  have hminus : Text.digitValue? '-' = none := by decide
  constructor
  · intro h
    have hcut : ∃ sign negative run, IsSign sign negative ∧ cs = sign ++ run ∧
        splitSign (cs.map foldDigit) = (negative, run.map foldDigit) := by
      cases cs with
      | nil => exact ⟨[], false, [], .none, rfl, rfl⟩
      | cons c cs =>
        by_cases hc : c = '-'
        · subst hc
          refine ⟨['-'], true, cs, .minus, rfl, ?_⟩
          rw [List.map_cons, foldDigit_of_none hminus, splitSign]
        by_cases hc' : c = '+'
        · subst hc'
          refine ⟨['+'], false, cs, .plus, rfl, ?_⟩
          rw [List.map_cons, foldDigit_of_none hplus, splitSign]
        · refine ⟨[], false, c :: cs, .none, rfl, ?_⟩
          rw [List.map_cons, splitSign]
          · exact fun _ he => hc ((foldDigit_eq_iff hminus).mp (List.cons.inj he).1)
          · exact fun _ he => hc' ((foldDigit_eq_iff hplus).mp (List.cons.inj he).1)
    obtain ⟨sign, negative, run, hsign, hcs, hsplit⟩ := hcut
    obtain ⟨ds, hds, hlimit, hn⟩ := (intIn?_of_splitSign hsplit).mp h
    exact ⟨sign, negative, run, ds, hsign, hds, hlimit, hcs, hn⟩
  · rintro ⟨sign, negative, run, ds, hsign, hds, hlimit, rfl, rfl⟩
    refine (intIn?_of_splitSign ?_).mpr ⟨ds, hds, hlimit, rfl⟩
    cases hsign with
    | none =>
      obtain ⟨c, rest, d, rfl, hc⟩ := hds.front
      exact splitSign_digit (isAsciiDigit_foldDigit (Option.isSome_of_mem hc)) _
    | plus => rw [List.cons_append, List.map_cons, foldDigit_of_none hplus, splitSign]; rfl
    | minus => rw [List.cons_append, List.map_cons, foldDigit_of_none hminus, splitSign]; rfl

/-! ## Decimal numerals -/

/-- A decimal numeral: a sign, or none, and ASCII digits within the limit. -/
def IsDecimal (cs : List Char) (n : Int) : Prop :=
  ∃ sign negative digits, IsSign sign negative ∧ digits ≠ [] ∧
    (∀ c ∈ digits, Text.isAsciiDigit c = true) ∧ digits.length ≤ digitLimit ∧
    cs = sign ++ digits ∧ n = signed negative (digitsValue digits)

/-- Characters of ASCII that are no underscores. -/
def ArePlain (cs : List Char) : Prop := ∀ c ∈ cs, c.toNat < 128 ∧ c ≠ '_'

theorem digitValue?_of_isAsciiDigit {c : Char} (h : Text.isAsciiDigit c = true) :
    Text.digitValue? c = some (c.toNat - 48) := by
  have hc := isAsciiDigit_iff.mp h
  rw [Text.digitValue?, if_pos (by omega), if_pos h]

theorem isAsciiDigit_of_lt {c : Char} {d : Nat} (h : Text.digitValue? c = some d)
    (hc : c.toNat < 128) : Text.isAsciiDigit c = true ∧ d = c.toNat - 48 := by
  rw [Text.digitValue?, if_pos hc] at h
  split at h
  · next hdigit => exact ⟨hdigit, (Option.some.inj h).symm⟩
  · cases h

theorem spells_digits {cs : List Char} (hne : cs ≠ [])
    (h : ∀ c ∈ cs, Text.isAsciiDigit c = true) : Spells cs (cs.map fun c => c.toNat - 48) := by
  induction cs with
  | nil => exact absurd rfl hne
  | cons c cs ih =>
    have hc := digitValue?_of_isAsciiDigit (h c List.mem_cons_self)
    cases cs with
    | nil => exact Spells.last hc
    | cons d ds =>
      exact Spells.digit hc (ih (List.cons_ne_nil d ds) fun e he => h e (List.mem_cons_of_mem _ he))

theorem Spells.digits {cs : List Char} {ds : List Nat} (h : Spells cs ds) (hplain : ArePlain cs) :
    (∀ c ∈ cs, Text.isAsciiDigit c = true) ∧ ds = cs.map fun c => c.toNat - 48 := by
  induction h with
  | last hc =>
    have hd := isAsciiDigit_of_lt hc (hplain _ List.mem_cons_self).1
    exact ⟨List.forall_mem_singleton.mpr hd.1, congrArg (fun x => [x]) hd.2⟩
  | digit hc _ ih =>
    have hd := isAsciiDigit_of_lt hc (hplain _ List.mem_cons_self).1
    have hrest := ih fun e he => hplain e (List.mem_cons_of_mem _ he)
    exact ⟨List.forall_mem_cons.mpr ⟨hd.1, hrest.1⟩, List.cons_eq_cons.mpr ⟨hd.2, hrest.2⟩⟩
  | spaced _ _ _ => exact absurd rfl (hplain '_' (by simp)).2

/-- The decimal numerals are the plain ones of the texts that denote integers. -/
theorem isDecimal_iff {cs : List Char} {n : Int} :
    IsDecimal cs n ↔ IsInteger cs n ∧ ArePlain cs := by
  constructor
  · rintro ⟨sign, negative, digits, hsign, hne, hdigits, hlimit, rfl, rfl⟩
    refine ⟨⟨sign, negative, digits, _, hsign, spells_digits hne hdigits, ?_, rfl, rfl⟩, ?_⟩
    · rwa [List.length_map]
    · intro c hc
      rcases List.mem_append.mp hc with hc | hc
      · have hmarks : ∀ c ∈ ['+', '-'], c.toNat < 128 ∧ c ≠ '_' := by decide
        refine hmarks c ?_
        cases hsign with
        | none => cases hc
        | plus => exact List.mem_cons.mpr (Or.inl (List.mem_singleton.mp hc))
        | minus => exact List.mem_cons_of_mem _ hc
      · have hdigit := isAsciiDigit_iff.mp (hdigits c hc)
        exact ⟨by omega, ne_of_isAsciiDigit (hdigits c hc) (by decide)⟩
  · rintro ⟨⟨sign, negative, run, ds, hsign, hds, hlimit, rfl, rfl⟩, hplain⟩
    obtain ⟨hdigits, rfl⟩ := hds.digits fun c hc => hplain c (List.mem_append_right _ hc)
    obtain ⟨c, rest, d, hrun, -⟩ := hds.front
    refine ⟨sign, negative, run, hsign, ?_, hdigits, ?_, rfl, rfl⟩
    · rw [hrun]
      exact List.cons_ne_nil c rest
    · rwa [List.length_map] at hlimit

end Decimal
end Vitrine
