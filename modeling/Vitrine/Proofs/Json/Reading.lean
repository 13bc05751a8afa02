import Vitrine.Json.Reader
import Vitrine.Proofs.Decimal.Layout
import Vitrine.Proofs.Outcome

/-!
# Reading the parts of JSON

How quoted strings, numerals, words, arrays and objects are read, wherever they stand. `Reads` says
which value a reader makes of characters, `Answers` also which error it ends with.
-/
namespace Vitrine
namespace Json

/-! ## Strings -/

/-- The code units that a character is escaped by, if it is. -/
def unitsOf (ascii : Bool) (c : Char) : List Nat :=
  if ascii && 0xffff < c.toNat then
    [0xd800 + (c.toNat - 0x10000) / 0x400, 0xdc00 + (c.toNat - 0x10000) % 0x400]
  else [c.toNat]

theorem toNat_valid (c : Char) : c.toNat < 0xd800 ∨ 0xdfff < c.toNat ∧ c.toNat < 0x110000 := c.valid

theorem ofUnits_single (c : Char) (ns : List Nat) : ofUnits (c.toNat :: ns) = c :: ofUnits ns := by
  have hc := toNat_valid c
  have hhigh : isHighUnit c.toNat = false := by
    rw [isHighUnit, Bool.and_eq_false_iff, decide_eq_false_iff_not, decide_eq_false_iff_not]
    omega
  have hlow : isLowUnit c.toNat = false := by
    rw [isLowUnit, Bool.and_eq_false_iff, decide_eq_false_iff_not, decide_eq_false_iff_not]
    omega
  have hunit : ofUnit c.toNat = c := by
    rw [ofUnit, hhigh, hlow]
    exact Char.ofNat_toNat c
  cases ns with
  | nil =>
    show [ofUnit c.toNat] = [c]
    rw [hunit]
  | cons n ns => rw [ofUnits, hhigh, hunit]; simp

theorem ofUnits_unitsOf (ascii : Bool) (c : Char) (ns : List Nat) :
    ofUnits (unitsOf ascii c ++ ns) = c :: ofUnits ns := by
  have hc := toNat_valid c
  rw [unitsOf]
  split
  · next h =>
    have hbig : 0xffff < c.toNat := by simpa using (Bool.and_eq_true_iff.mp h).2
    have hhigh : isHighUnit (0xd800 + (c.toNat - 0x10000) / 0x400) = true := by
      rw [isHighUnit, Bool.and_eq_true, decide_eq_true_eq, decide_eq_true_eq]
      omega
    have hlow : isLowUnit (0xdc00 + (c.toNat - 0x10000) % 0x400) = true := by
      rw [isLowUnit, Bool.and_eq_true, decide_eq_true_eq, decide_eq_true_eq]
      omega
    have hnat : 0x10000 + (0xd800 + (c.toNat - 0x10000) / 0x400 - 0xd800) * 0x400 +
        (0xdc00 + (c.toNat - 0x10000) % 0x400 - 0xdc00) = c.toNat := by omega
    rw [List.cons_append, List.cons_append, List.nil_append, ofUnits, hhigh, hlow, hnat,
      Char.ofNat_toNat]
    rfl
  · exact ofUnits_single c ns

theorem digitOf?_hexDigit {n : Nat} (h : n < 16) :
    Decimal.digitOf? (Text.hexDigit n) = some n := by
  have hall : ∀ m : Fin 16, Decimal.digitOf? (Text.hexDigit m) = some m.val := by decide
  exact hall ⟨n, h⟩

theorem hex4?_hexDigits {n : Nat} (h : n < 0x10000) :
    ∃ a b c d, Text.hexDigits 4 n = [a, b, c, d] ∧ hex4? a b c d = some n := by
  refine ⟨_, _, _, _, rfl, ?_⟩
  have hdigit : ∀ m, (Decimal.digitOf? (Text.hexDigit (m % 16))).bind (fun n =>
      if n < 16 then some n else none) = some (m % 16) := by
    intro m
    have hm : m % 16 < 16 := Nat.mod_lt _ (by decide)
    rw [digitOf?_hexDigit hm, Option.bind_some, if_pos hm]
  simp only [hex4?, hdigit, Option.bind_some]
  congr 1
  omega

/-- Characters are read as a value, up to the rest behind it, wherever they stand. -/
def Reads {α : Type} (f : Nat → (cs : List Char) → Except ReadError (Read α cs))
    (cs : List Char) (a : α) (rest : List Char) : Prop :=
  ∀ pos, ∃ p h, f pos cs = .ok ⟨a, p, rest, h⟩

section Units

variable {start : Nat} {c : Char} {cs rest : List Char} {ns : List Nat}

theorem reads_unit {n : Nat} {x : Char} (h : n < 0x10000)
    (hr : Reads (readUnits start) (x :: cs) ns rest) :
    Reads (readUnits start) (escapeUnit n ++ x :: cs) (n :: ns) rest := by
  intro pos
  obtain ⟨p, hs, hr⟩ := hr (pos + 6)
  obtain ⟨a, b, c, d, hdigits, hhex⟩ := hex4?_hexDigits h
  have hchars : escapeUnit n ++ x :: cs = '\\' :: 'u' :: a :: b :: c :: d :: x :: cs := by
    unfold escapeUnit
    rw [hdigits]
    rfl
  have hlength : rest.length < cs.length + 1 := hs
  rw [hchars]
  refine ⟨p, by simp only [List.length_cons]; omega, ?_⟩
  rw [readUnits, hhex]
  simp only [hr]
  rfl

theorem reads_short {e : Char} (he : unescape? e = some c)
    (hr : Reads (readUnits start) cs ns rest) :
    Reads (readUnits start) ('\\' :: e :: cs) (c.toNat :: ns) rest := by
  intro pos
  obtain ⟨p, hs, hr⟩ := hr (pos + 2)
  have hu : e ≠ 'u' := by
    rintro rfl
    cases he
  refine ⟨p, by simp; omega, ?_⟩
  rw [readUnits, he]
  · simp only [hr]
    rfl
  · exact fun _ _ _ _ _ _ h _ => hu h
  · exact hu

theorem reads_plain (hquote : c ≠ '"') (hback : c ≠ '\\') (hprint : 0x1f < c.toNat)
    (hr : Reads (readUnits start) cs ns rest) :
    Reads (readUnits start) (c :: cs) (c.toNat :: ns) rest := by
  intro pos
  obtain ⟨p, hs, hr⟩ := hr (pos + 1)
  refine ⟨p, by simp; omega, ?_⟩
  rw [readUnits, if_neg (Nat.not_le.mpr hprint)]
  · simp only [hr]
    rfl
  all_goals simp_all

theorem reads_escapeChar (ascii : Bool) (c : Char) {x : Char}
    (hr : Reads (readUnits start) (x :: cs) ns rest) :
    Reads (readUnits start) (escapeChar ascii c ++ x :: cs) (unitsOf ascii c ++ ns) rest := by
  have hvalid := toNat_valid c
  have hsmall : c.toNat ≤ 0xffff → unitsOf ascii c = [c.toNat] := by
    intro h
    rw [unitsOf, if_neg (by simp; omega)]
  have hshort : ∀ e, unescape? e = some c → c.toNat ≤ 0xffff →
      Reads (readUnits start) (['\\', e] ++ x :: cs) (unitsOf ascii c ++ ns) rest := by
    intro e he hc
    rw [hsmall hc]
    exact reads_short he hr
  unfold escapeChar
  split
  · next h => exact hshort '"' (by rw [h]; rfl) (by rw [h]; decide)
  split
  · next h => exact hshort '\\' (by rw [h]; rfl) (by rw [h]; decide)
  split
  · next h => exact hshort 'n' (by rw [h]; rfl) (by rw [h]; decide)
  split
  · next h => exact hshort 'r' (by rw [h]; rfl) (by rw [h]; decide)
  split
  · next h => exact hshort 't' (by rw [h]; rfl) (by rw [h]; decide)
  split
  · next h => exact hshort 'f' (by rw [h]; rfl) (by rw [h]; decide)
  split
  · next h => exact hshort 'b' (by rw [h]; rfl) (by rw [h]; decide)
  split
  · next h =>
    rw [hsmall (by omega)]
    exact reads_unit (by omega) hr
  split
  · next hctrl h =>
    have hascii : ascii = true := (Bool.and_eq_true_iff.mp h).1
    unfold escapeUnits
    split
    · next hlt =>
      rw [hsmall (by omega)]
      exact reads_unit hlt hr
    · next hge =>
      rw [unitsOf, if_pos (by simp [hascii]; omega), List.append_assoc]
      exact reads_unit (by omega) (reads_unit (by omega) hr)
  · next hquote hback _ _ _ _ _ hctrl h =>
    have hunits : unitsOf ascii c = [c.toNat] := by
      rw [unitsOf, if_neg]
      intro hbig
      rw [Bool.and_eq_true_iff, decide_eq_true_eq] at hbig
      exact h (by simp [hbig.1]; omega)
    rw [hunits]
    exact reads_plain hquote hback (by omega) hr

/-- A quoted string is read back. -/
theorem reads_quoted (ascii : Bool) (cs rest : List Char) :
    Reads (readUnits start) (cs.flatMap (escapeChar ascii) ++ '"' :: rest)
      (cs.flatMap (unitsOf ascii)) rest := by
  induction cs with
  | nil =>
    show Reads (readUnits start) ('"' :: rest) [] rest
    intro pos
    refine ⟨pos + 1, by simp, ?_⟩
    rw [readUnits]
  | cons c cs ih =>
    rw [List.flatMap_cons, List.flatMap_cons, List.append_assoc]
    match hmore : cs.flatMap (escapeChar ascii) ++ '"' :: rest with
    | [] => simp at hmore
    | x :: more =>
      rw [hmore] at ih
      exact reads_escapeChar ascii c ih

theorem ofUnits_flatMap (ascii : Bool) (cs : List Char) :
    ofUnits (cs.flatMap (unitsOf ascii)) = cs := by
  induction cs with
  | nil => rfl
  | cons c cs ih => rw [List.flatMap_cons, ofUnits_unitsOf, ih]

theorem reads_string (ascii : Bool) (s : String) (rest : List Char) :
    Reads (readString start) (s.toList.flatMap (escapeChar ascii) ++ '"' :: rest) s rest := by
  intro pos
  have hquoted : Reads (readUnits start) _ _ rest := reads_quoted ascii s.toList rest
  obtain ⟨p, hs, hr⟩ := hquoted pos
  refine ⟨p, hs, ?_⟩
  rw [readString, hr]
  show Except.ok _ = Except.ok _
  simp only [ofUnits_flatMap, String.ofList_toList]

end Units
/-! ## Numbers and words -/

/-- What a reader answers on characters, up to the rest behind them, wherever they stand. -/
def Answers {α : Type} (f : Nat → (cs : List Char) → Except ReadError (Read α cs))
    (cs : List Char) (r : Except ReadError α) (rest : List Char) : Prop :=
  match r with
  | .ok a => Reads f cs a rest
  | .error e => ∀ pos, f pos cs = .error e

theorem Answers.congr {α : Type} {f g : Nat → (cs : List Char) → Except ReadError (Read α cs)}
    {cs rest : List Char} {r : Except ReadError α} (hfg : ∀ pos, f pos cs = g pos cs)
    (h : Answers g cs r rest) : Answers f cs r rest := by
  rcases r with e | a
  · exact fun pos => (hfg pos).trans (h pos)
  · intro pos
    obtain ⟨p, hs, hread⟩ := h pos
    exact ⟨p, hs, (hfg pos).trans hread⟩

/-- What may stand behind a value: no digit and nothing that continues a number. -/
def Ends (rest : List Char) : Prop :=
  ∀ c cs, rest = c :: cs → Text.isAsciiDigit c = false ∧ c ≠ '.' ∧ c ≠ 'e' ∧ c ≠ 'E'

section Numbers

open Decimal (Numeral)

variable {rest : List Char}

theorem digits_append {cs : List Char} (h : ∀ c ∈ cs, Text.isAsciiDigit c = true)
    (hrest : ∀ c, rest.head? = some c → Text.isAsciiDigit c = false) : digits (cs ++ rest) = cs :=
  Text.takeWhile_front h hrest

theorem wholeDigits_append (m : Numeral)
    (hrest : ∀ c, rest.head? = some c → Text.isAsciiDigit c = false) :
    wholeDigits (m.whole ++ rest) = m.whole := by
  rcases m.whole_front with h | ⟨hne, hhead⟩
  · rw [h]
    rfl
  · have hdigits := digits_append m.whole_digits hrest
    obtain ⟨c, cs, hcs⟩ := List.exists_cons_of_ne_nil hne
    rw [hcs] at hhead hdigits ⊢
    rw [List.cons_append, wholeDigits]
    · exact hdigits
    · exact fun _ heq => hhead (congrArg some (List.cons.inj heq).1)

theorem fractionChars_append (m : Numeral)
    (hrest : ∀ c, rest.head? = some c → Text.isAsciiDigit c = false ∧ c ≠ '.') :
    fractionChars (m.fraction ++ rest) = m.fraction := by
  rcases m.fraction_shape with h | ⟨ds, hne, hds, h⟩
  · rw [h, List.nil_append, fractionChars.eq_def]
    split
    · exact absurd rfl (hrest '.' rfl).2
    · rfl
  · have hdigits := digits_append hds fun c hc => (hrest c hc).1
    rw [h, List.cons_append, fractionChars, hdigits, if_neg (by simpa using hne)]

theorem exponentChars_append (m : Numeral) (he : Ends rest) :
    exponentChars (m.exponent ++ rest) = m.exponent := by
  rcases m.exponent_shape with h | ⟨sign, ds, hsign, hne, hds, h⟩
  · rw [h, List.nil_append, exponentChars.eq_def]
    split
    · next e s cs =>
      have hend := he e _ rfl
      rw [if_neg (by simp [hend.2.2.1, hend.2.2.2])]
    · rfl
  · have hdigits := digits_append hds fun c hc => by
      obtain ⟨cs, hcs⟩ := List.head?_eq_some_iff.mp hc
      exact (he c cs hcs).1
    have hempty : ds.isEmpty = false := by simpa using hne
    rw [h, List.cons_append, List.cons_append, exponentChars, if_pos (by decide),
      if_pos (by simpa using hsign), hdigits, hempty]
    rfl

/-- Neither a digit nor a point stands at the front of an exponent, or behind a value. -/
theorem exponent_front (m : Numeral) (he : Ends rest) {c : Char}
    (hc : (m.exponent ++ rest).head? = some c) : Text.isAsciiDigit c = false ∧ c ≠ '.' := by
  rcases m.exponent_shape with h | ⟨sign, ds, -, -, -, h⟩
  · rw [h, List.nil_append] at hc
    obtain ⟨cs, hcs⟩ := List.head?_eq_some_iff.mp hc
    exact ⟨(he c cs hcs).1, (he c cs hcs).2.1⟩
  · rw [h] at hc
    rw [← Option.some.inj hc]
    decide

theorem fraction_front (m : Numeral) (he : Ends rest) {c : Char}
    (hc : (m.fraction ++ (m.exponent ++ rest)).head? = some c) : Text.isAsciiDigit c = false := by
  rcases m.fraction_shape with h | ⟨ds, -, -, h⟩
  · rw [h, List.nil_append] at hc
    exact (exponent_front m he hc).1
  · rw [h] at hc
    rw [← Option.some.inj hc]
    decide

/-- Of a number, its sign is read first. -/
theorem numberChars_signed (negative : Bool) {cs : List Char} (h : ∀ ds, cs ≠ '-' :: ds)
    (hne : (wholeDigits cs).isEmpty = false) :
    numberChars ((if negative then ['-'] else []) ++ cs) =
      let whole := wholeDigits cs
      let fraction := fractionChars (cs.drop whole.length)
      let exponent := exponentChars (cs.drop (whole.length + fraction.length))
      ((if negative then ['-'] else []) ++ (whole ++ (fraction ++ exponent)),
        fraction.isEmpty && exponent.isEmpty) := by
  cases negative with
  | false =>
    show numberChars cs = _
    rw [numberChars]
    · simp only [List.length_nil, List.drop_zero, Nat.zero_add, hne, List.nil_append,
        List.append_assoc]
      rfl
    · exact h
  | true =>
    show numberChars ('-' :: cs) = _
    rw [numberChars]
    simp only [List.length_singleton, Nat.add_comm 1, Nat.add_right_comm _ 1, List.drop_succ_cons,
      List.drop_zero, hne, List.append_assoc]
    rfl

/-- The characters of a numeral are all that is read of a number. -/
theorem numberChars_chars (negative : Bool) (m : Numeral) (he : Ends rest) :
    numberChars (m.chars negative ++ rest) = (m.chars negative, m.isWhole) := by
  have hwhole := wholeDigits_append m fun c hc => fraction_front m he hc
  have hfraction := fractionChars_append m fun c hc => exponent_front m he hc
  have hfront : ∀ ds, m.whole ++ (m.fraction ++ (m.exponent ++ rest)) ≠ '-' :: ds := by
    intro ds heq
    obtain ⟨c, cs, hcs⟩ := List.exists_cons_of_ne_nil m.whole_ne_nil
    have hc := m.whole_digits c (by rw [hcs]; exact List.mem_cons_self)
    rw [hcs] at heq
    rw [(List.cons.inj heq).1] at hc
    exact absurd hc (by decide)
  have hsigned := numberChars_signed negative hfront
    (by rw [hwhole]; simpa using m.whole_ne_nil)
  simp only [hwhole, List.drop_left, hfraction, ← List.drop_drop, exponentChars_append m he]
    at hsigned
  rw [Numeral.chars, List.append_assoc, List.append_assoc, List.append_assoc, hsigned,
    Numeral.isWhole]

theorem wordAtFront?_chars (negative : Bool) (m : Numeral) (rest : List Char)
    {table : List (String × Json)} (ht : table = wordTable ∨ table = constantTable) :
    wordAtFront? table (m.chars negative ++ rest) = none := by
  obtain ⟨c, cs, hc, hcs⟩ := m.chars_append negative rest
  have hne : ∀ d, Text.isAsciiDigit d = false → d ≠ c :=
    fun d hd => (Decimal.ne_of_isAsciiDigit hc hd).symm
  have hletters := And.intro (hne 'n' (by decide)) (And.intro (hne 't' (by decide))
    (And.intro (hne 'f' (by decide)) (And.intro (hne 'N' (by decide))
      (And.intro (hne 'I' (by decide)) (hne '-' (by decide))))))
  rw [wordAtFront?, List.find?_eq_none]
  rcases ht with rfl | rfl <;> rcases hcs with hcs | hcs <;> rw [hcs] <;>
    simp [wordTable, constantTable, hletters]

/-- What an atom leaves behind it. -/
theorem take_append {text : List Char} (hne : text ≠ []) (rest : List Char) (j : Json) (pos : Nat)
    (e : Except ReadError (Read Json (text ++ rest))) :
    ∃ hs, (if h : ((text ++ rest).drop text.length).length < (text ++ rest).length then
      .ok ⟨j, pos + text.length, (text ++ rest).drop text.length, h⟩ else e) =
      .ok (⟨j, pos + text.length, rest, hs⟩ : Read Json (text ++ rest)) := by
  have hlength : 0 < text.length := List.length_pos_iff.mpr hne
  have hlt : rest.length < (text ++ rest).length := by
    rw [List.length_append]
    omega
  refine ⟨hlt, ?_⟩
  rw [dif_pos (by rw [List.drop_left]; exact hlt)]
  simp only [List.drop_left]
/-- A numeral is read as the number that it spells. -/
theorem answers_chars (constants negative : Bool) (m : Numeral) (he : Ends rest) :
    Answers (readAtom constants) (m.chars negative ++ rest)
      (ofNumber (m.chars negative) m.isWhole) rest := by
  have hne : m.chars negative ≠ [] := by
    obtain ⟨c, cs, -, hcs⟩ := m.chars_append negative []
    rw [List.append_nil] at hcs
    rcases hcs with hcs | hcs <;> simp [hcs]
  have hempty : (m.chars negative).isEmpty = false := by simpa using hne
  cases hnumber : ofNumber (m.chars negative) m.isWhole with
  | error e =>
    intro pos
    rw [readAtom, wordAtFront?_chars negative m rest (Or.inl rfl),
      wordAtFront?_chars negative m rest (Or.inr rfl)]
    simp only [numberChars_chars negative m he, hempty, hnumber]
    rfl
  | ok j =>
    intro pos
    obtain ⟨hs, htake⟩ := take_append hne rest j pos (.error (.malformed "Expecting value" pos))
    refine ⟨pos + (m.chars negative).length, hs, ?_⟩
    rw [readAtom, wordAtFront?_chars negative m rest (Or.inl rfl),
      wordAtFront?_chars negative m rest (Or.inr rfl)]
    simp only [numberChars_chars negative m he, hempty, hnumber]
    exact htake

end Numbers

theorem reads_word (constants : Bool) {word : String} {j : Json} (hw : (word, j) ∈ wordTable)
    (rest : List Char) : Reads (readAtom constants) (word.toList ++ rest) j rest := by
  intro pos
  have hfound : wordAtFront? wordTable (word.toList ++ rest) = some (word, j) := by
    simp only [wordTable, List.mem_cons, Prod.mk.injEq, List.not_mem_nil, or_false] at hw
    rcases hw with ⟨rfl, rfl⟩ | ⟨rfl, rfl⟩ | ⟨rfl, rfl⟩ <;> simp [wordAtFront?, wordTable]
  have hne : word.toList ≠ [] := by
    simp only [wordTable, List.mem_cons, Prod.mk.injEq, List.not_mem_nil, or_false] at hw
    rcases hw with ⟨rfl, rfl⟩ | ⟨rfl, rfl⟩ | ⟨rfl, rfl⟩ <;> decide
  obtain ⟨hs, htake⟩ := take_append hne rest j pos
    (.error (.malformed "Expecting value" pos))
  refine ⟨pos + word.toList.length, hs, ?_⟩
  rw [readAtom, hfound]
  exact htake
/-- A word for a double that is no number is read where it is allowed, and is an error elsewhere. -/
theorem answers_constant (constants : Bool) {w : String × Json} (hw : w ∈ constantTable)
    (rest : List Char) :
    Answers (readAtom constants) (w.1.toList ++ rest)
      (if constants then .ok w.2 else .error (.constant w.1)) rest := by
  have hnone : wordAtFront? wordTable (w.1.toList ++ rest) = none := by
    simp only [constantTable, List.mem_cons, List.not_mem_nil, or_false] at hw
    rcases hw with rfl | rfl | rfl <;> rfl
  have hfound : wordAtFront? constantTable (w.1.toList ++ rest) = some w := by
    simp only [constantTable, List.mem_cons, List.not_mem_nil, or_false] at hw
    rcases hw with rfl | rfl | rfl <;> rfl
  have hne : w.1.toList ≠ [] := by
    simp only [constantTable, List.mem_cons, List.not_mem_nil, or_false] at hw
    rcases hw with rfl | rfl | rfl <;> decide
  cases constants with
  | false =>
    intro pos
    rw [readAtom, hnone, hfound]
    rfl
  | true =>
    intro pos
    obtain ⟨hs, htake⟩ := take_append hne rest w.2 pos (.error (.malformed "Expecting value" pos))
    refine ⟨pos + w.1.toList.length, hs, ?_⟩
    rw [readAtom, hnone, hfound]
    exact htake

/-! ## Values -/

theorem skipSpace_nonspace {c : Char} (h : isSpace c = false) (pos : Nat) (cs : List Char) :
    ∃ hs, skipSpace pos (c :: cs) = ⟨(), pos, c :: cs, hs⟩ := by
  rw [skipSpace, h]
  exact ⟨_, rfl⟩

theorem skipSpace_blanks {blanks : List Char} (hb : ∀ b ∈ blanks, isSpace b = true) {c : Char}
    (h : isSpace c = false) (pos : Nat) (cs : List Char) :
    ∃ p hs, skipSpace pos (blanks ++ c :: cs) = ⟨(), p, c :: cs, hs⟩ := by
  induction blanks generalizing pos with
  | nil => exact ⟨pos, skipSpace_nonspace h pos cs⟩
  | cons b blanks ih =>
    obtain ⟨p, hs, hskip⟩ := ih (fun b hb' => hb b (List.mem_cons_of_mem _ hb')) (pos + 1)
    show ∃ p hs, skipSpace pos (b :: (blanks ++ c :: cs)) = ⟨(), p, c :: cs, hs⟩
    refine ⟨p, Nat.le_succ_of_le hs, ?_⟩
    rw [skipSpace, hb b List.mem_cons_self, if_pos rfl]
    simp only [hskip]

section Sequences

variable {constants : Bool} {cs rest more after blanks : List Char} {c : Char} {j : Json}
  {r : Except ReadError Json} {rs : Except ReadError (List Json)}

theorem answers_last_item (hj : Answers (readValue constants) cs r (']' :: rest)) :
    Answers (readMoreItems constants) cs (do return [← r]) rest := by
  cases r with
  | error e =>
    intro pos
    rw [readMoreItems, hj pos]
    rfl
  | ok j =>
    intro pos
    obtain ⟨p, hs, hfirst⟩ := hj pos
    refine ⟨p + 1, Nat.lt_of_succ_lt hs, ?_⟩
    rw [readMoreItems, hfirst]
    rfl

/-- Behind an item and a comma, the other items are read. -/
theorem readMoreItems_comma (hj : Reads (readValue constants) cs j (',' :: after)) (pos : Nat) :
    ∃ p, ∃ hshort : ∀ o : Read (List Json) (skipSpace p after).rest, o.rest.length < cs.length,
      readMoreItems constants pos cs =
        (readMoreItems constants (skipSpace p after).pos (skipSpace p after).rest).bind
          fun o => .ok ⟨j :: o.value, o.pos, o.rest, hshort o⟩ := by
  obtain ⟨p, hs, hfirst⟩ := hj pos
  refine ⟨p + 1, fun o => ?_, ?_⟩
  · have h1 := o.shorter
    have h2 := (skipSpace (p + 1) after).noLonger
    rw [List.length_cons] at hs
    omega
  · rw [readMoreItems, hfirst]
    rfl

theorem answers_more_items (hb : ∀ b ∈ blanks, isSpace b = true) (hc : isSpace c = false)
    (hj : Answers (readValue constants) cs r (',' :: (blanks ++ c :: more)))
    (hjs : Answers (readMoreItems constants) (c :: more) rs rest) :
    Answers (readMoreItems constants) cs (do return (← r) :: (← rs)) rest := by
  rcases r with e | j
  · intro pos
    rw [readMoreItems, hj pos]
    rfl
  rcases rs with e | js
  · intro pos
    obtain ⟨p, hshort, hitems⟩ := readMoreItems_comma hj pos
    obtain ⟨q, hs, hskip⟩ := skipSpace_blanks hb hc p more
    rw [hitems]
    revert hshort
    rw [hskip]
    intro hshort _
    rw [hjs q]
    rfl
  · intro pos
    obtain ⟨p, hshort, hitems⟩ := readMoreItems_comma hj pos
    obtain ⟨q, hs, hskip⟩ := skipSpace_blanks hb hc p more
    obtain ⟨u, hlength, hothers⟩ := hjs q
    rw [hitems]
    revert hshort
    rw [hskip]
    intro hshort _
    rw [hothers]
    exact ⟨u, hshort ⟨js, u, rest, hlength⟩, rfl⟩

section Members

variable {name : String} {ns between : List Char} {d : Char}
  {rms : Except ReadError (List (String × Json))}

/-- Behind a name and a colon, the value is read. -/
theorem answers_member_error {e : ReadError}
    (hname : ∀ start, Reads (readString start) ns name (':' :: (blanks ++ c :: cs)))
    (hb : ∀ b ∈ blanks, isSpace b = true) (hc : isSpace c = false)
    (hj : Answers (readValue constants) (c :: cs) (.error e) rest) :
    Answers (readMoreMembers constants) ('"' :: ns) (.error e) rest := by
  intro pos
  obtain ⟨p, h1, hread⟩ := hname pos (pos + 1)
  obtain ⟨h2, hcolon⟩ := skipSpace_nonspace (c := ':') (by decide) p (blanks ++ c :: cs)
  obtain ⟨q, h3, hskip⟩ := skipSpace_blanks hb hc (p + 1) cs
  rw [readMoreMembers]
  rw [readMark, if_pos rfl, ok_bind]
  rw [hread, ok_bind]
  rw [hcolon]
  dsimp only
  rw [readMark, if_pos rfl, ok_bind]
  dsimp only
  rw [hskip]
  dsimp only
  rw [hj q]
  rfl

theorem answers_last_member
    (hname : ∀ start, Reads (readString start) ns name (':' :: (blanks ++ c :: cs)))
    (hb : ∀ b ∈ blanks, isSpace b = true) (hc : isSpace c = false)
    (hj : Answers (readValue constants) (c :: cs) r ('\x7d' :: rest)) :
    Answers (readMoreMembers constants) ('"' :: ns) (do return [(name, ← r)]) rest := by
  rcases r with e | j
  · exact answers_member_error hname hb hc hj
  intro pos
  obtain ⟨p, h1, hread⟩ := hname pos (pos + 1)
  obtain ⟨h2, hcolon⟩ := skipSpace_nonspace (c := ':') (by decide) p (blanks ++ c :: cs)
  obtain ⟨q, h3, hskip⟩ := skipSpace_blanks hb hc (p + 1) cs
  obtain ⟨r, h4, hvalue⟩ := hj q
  have hlength : rest.length < ('"' :: ns).length := by
    have h2' : (':' :: (blanks ++ c :: cs)).length < ns.length := h1
    rw [List.length_cons] at h2' h4 ⊢
    omega
  refine ⟨r + 1, hlength, ?_⟩
  rw [readMoreMembers]
  rw [readMark, if_pos rfl, ok_bind]
  rw [hread, ok_bind]
  rw [hcolon]
  dsimp only
  rw [readMark, if_pos rfl, ok_bind]
  dsimp only
  rw [hskip]
  dsimp only
  rw [hvalue, ok_bind]
  rfl

/-- Behind a member and a comma, the other members are read. -/
theorem readMoreMembers_comma
    (hname : ∀ start, Reads (readString start) ns name (':' :: (blanks ++ c :: cs)))
    (hb : ∀ b ∈ blanks, isSpace b = true) (hc : isSpace c = false)
    (hj : Reads (readValue constants) (c :: cs) j (',' :: after)) (pos : Nat) :
    ∃ p, ∃ hshort : ∀ o : Read (List (String × Json)) (skipSpace p after).rest,
        o.rest.length < ('"' :: ns).length,
      readMoreMembers constants pos ('"' :: ns) =
        (readMoreMembers constants (skipSpace p after).pos (skipSpace p after).rest).bind
          fun o => .ok ⟨(name, j) :: o.value, o.pos, o.rest, hshort o⟩ := by
  obtain ⟨p, h1, hread⟩ := hname pos (pos + 1)
  obtain ⟨h2, hcolon⟩ := skipSpace_nonspace (c := ':') (by decide) p (blanks ++ c :: cs)
  obtain ⟨q, h3, hskip⟩ := skipSpace_blanks hb hc (p + 1) cs
  obtain ⟨r, h4, hvalue⟩ := hj q
  refine ⟨r + 1, fun o => ?_, ?_⟩
  · have h6' := o.shorter
    have h5' := (skipSpace (r + 1) after).noLonger
    have h2' : (':' :: (blanks ++ c :: cs)).length < ns.length := h1
    rw [List.length_cons] at h2' h4 ⊢
    omega
  · rw [readMoreMembers]
    rw [readMark, if_pos rfl, ok_bind]
    rw [hread, ok_bind]
    rw [hcolon]
    dsimp only
    rw [readMark, if_pos rfl, ok_bind]
    dsimp only
    rw [hskip]
    dsimp only
    rw [hvalue, ok_bind]
    rfl

theorem answers_more_members
    (hname : ∀ start, Reads (readString start) ns name (':' :: (blanks ++ c :: cs)))
    (hb : ∀ b ∈ blanks, isSpace b = true) (hc : isSpace c = false)
    (hj : Answers (readValue constants) (c :: cs) r (',' :: (between ++ d :: more)))
    (hb' : ∀ b ∈ between, isSpace b = true) (hd : isSpace d = false)
    (hms : Answers (readMoreMembers constants) (d :: more) rms rest) :
    Answers (readMoreMembers constants) ('"' :: ns) (do return (name, ← r) :: (← rms)) rest := by
  rcases r with e | j
  · exact answers_member_error hname hb hc hj
  rcases rms with e | ms
  · intro pos
    obtain ⟨p, hshort, hmembers⟩ := readMoreMembers_comma hname hb hc hj pos
    obtain ⟨q, hs, hskip⟩ := skipSpace_blanks hb' hd p more
    rw [hmembers]
    revert hshort
    rw [hskip]
    intro hshort _
    rw [hms q]
    rfl
  · intro pos
    obtain ⟨p, hshort, hmembers⟩ := readMoreMembers_comma hname hb hc hj pos
    obtain ⟨q, hs, hskip⟩ := skipSpace_blanks hb' hd p more
    obtain ⟨u, hlength, hothers⟩ := hms q
    rw [hmembers]
    revert hshort
    rw [hskip]
    intro hshort _
    rw [hothers]
    exact ⟨u, hshort ⟨ms, u, rest, hlength⟩, rfl⟩

end Members

theorem answers_items (hc : isSpace c = false) (hne : c ≠ ']')
    (h : Answers (readMoreItems constants) (c :: cs) rs rest) :
    Answers (readItems constants) (c :: cs) rs rest := by
  refine h.congr fun pos => ?_
  obtain ⟨hs, hskip⟩ := skipSpace_nonspace hc pos cs
  rw [readItems]
  rw [hskip]
  dsimp only
  split
  · next heq => exact absurd (List.cons.inj heq).1 hne
  · cases readMoreItems constants pos (c :: cs) <;> rfl

theorem answers_no_items (rest : List Char) :
    Answers (readItems constants) (']' :: rest) (.ok []) rest := by
  intro pos
  refine ⟨pos + 1, Nat.lt_succ_self _, ?_⟩
  rw [readItems]
  rfl

theorem answers_members {rms : Except ReadError (List (String × Json))} (hc : isSpace c = false)
    (hne : c ≠ '\x7d') (h : Answers (readMoreMembers constants) (c :: cs) rms rest) :
    Answers (readMembers constants) (c :: cs) rms rest := by
  refine h.congr fun pos => ?_
  obtain ⟨hs, hskip⟩ := skipSpace_nonspace hc pos cs
  rw [readMembers]
  rw [hskip]
  dsimp only
  split
  · next heq => exact absurd (List.cons.inj heq).1 hne
  · cases readMoreMembers constants pos (c :: cs) <;> rfl

theorem answers_no_members (rest : List Char) :
    Answers (readMembers constants) ('\x7d' :: rest) (.ok []) rest := by
  intro pos
  refine ⟨pos + 1, Nat.lt_succ_self _, ?_⟩
  rw [readMembers]
  rfl

end Sequences

section Values

variable {constants : Bool} {cs rest : List Char}

theorem answers_str {s : String} (h : ∀ start, Reads (readString start) cs s rest) :
    Answers (readValue constants) ('"' :: cs) (.ok (.str s)) rest := by
  intro pos
  obtain ⟨p, hs, hread⟩ := h pos (pos + 1)
  refine ⟨p, Nat.lt_succ_of_lt hs, ?_⟩
  rw [readValue, if_pos rfl, hread]
  rfl

theorem answers_array {rs : Except ReadError (List Json)}
    (h : Answers (readItems constants) cs rs rest) :
    Answers (readValue constants) ('[' :: cs) (do return .array (← rs)) rest := by
  rcases rs with e | js
  · intro pos
    rw [readValue, if_neg (by decide), if_pos rfl, h (pos + 1)]
    rfl
  · intro pos
    obtain ⟨p, hs, hread⟩ := h (pos + 1)
    refine ⟨p, Nat.lt_succ_of_lt hs, ?_⟩
    rw [readValue, if_neg (by decide), if_pos rfl, hread]
    rfl

theorem answers_object {rms : Except ReadError (List (String × Json))}
    (h : Answers (readMembers constants) cs rms rest) :
    Answers (readValue constants) ('\x7b' :: cs) (do return .object (collectMembers (← rms)))
      rest := by
  rcases rms with e | ms
  · intro pos
    rw [readValue, if_neg (by decide), if_neg (by decide), if_pos rfl, h (pos + 1)]
    rfl
  · intro pos
    obtain ⟨p, hs, hread⟩ := h (pos + 1)
    refine ⟨p, Nat.lt_succ_of_lt hs, ?_⟩
    rw [readValue, if_neg (by decide), if_neg (by decide), if_pos rfl, hread]
    rfl

theorem answers_atom {r : Except ReadError Json} {c : Char} (hquote : c ≠ '"')
    (hbracket : c ≠ '[') (hbrace : c ≠ '\x7b')
    (h : Answers (readAtom constants) (c :: cs) r rest) :
    Answers (readValue constants) (c :: cs) r rest := by
  refine h.congr fun pos => ?_
  rw [readValue, if_neg hquote, if_neg hbracket, if_neg hbrace]

end Values

end Json
end Vitrine
