import Vitrine.Proofs.Decimal.Literals
import Vitrine.Proofs.Outcome
import Vitrine.Proofs.Script.Lexing

/-!
# What the lexer faults on

The lexer faults only at a letter or digit sign, outside strings and comments, with which no token
begins (`lex_fault`), and the tokens that are numbers have the characters of one
(`isNumeral_of_mem_lex`).
-/
namespace Vitrine
namespace Script

variable {pos : Nat} {c : Char} {cs rest : List Char}

/-! ## Characters outside strings and comments -/

/-- Whether a character is a letter or a digit sign with which no token begins. -/
def isForeign (c : Char) : Bool :=
  if Text.isDigitSign c then !Text.isDecimalDigit c else Text.isLetter c && !isNameStart c

/-- The characters outside strings and comments, up to a string that is not closed. -/
def bareChars (pos : Nat) (cs : List Char) : List Char :=
  match cs with
  | [] => []
  | c :: rest =>
    if c = '/' && rest.head? = some '/' then
      let n := commentLength (c :: rest)
      bareChars (pos + n) (rest.drop (n - 1))
    else if c = '"' || c = '\'' then
      match h : stringBody c pos (pos + 1) rest with
      | .error _ => []
      | .ok (_, stop, after) =>
        have := stringBody_length h
        bareChars stop after
    else c :: bareChars (pos + 1) rest
termination_by cs.length
decreasing_by all_goals (simp_wf; try omega)

/-- Characters that begin neither a string nor a comment. -/
def IsBare (c : Char) : Prop := c ≠ '/' ∧ c ≠ '"' ∧ c ≠ '\''

instance (c : Char) : Decidable (IsBare c) := inferInstanceAs (Decidable (_ ∧ _))

theorem bareChars_append {tail : List Char} (h : ∀ c ∈ tail, IsBare c) (pos : Nat)
    (more : List Char) :
    bareChars pos (tail ++ more) = tail ++ bareChars (pos + tail.length) more := by
  induction tail generalizing pos with
  | nil => rfl
  | cons c tail ih =>
    obtain ⟨hslash, hdouble, hsingle⟩ := h c List.mem_cons_self
    rw [List.cons_append, bareChars, if_neg (by simp [hslash]), if_neg (by simp [hdouble, hsingle]),
      ih fun d hd => h d (List.mem_cons_of_mem _ hd), List.length_cons, List.cons_append,
      Nat.add_assoc, Nat.add_comm 1]

/-! ## Numbers -/

open Decimal (AreDigits IsFraction IsExponent IsNumberChar)

theorem areDigits_digitsAtFront (cs : List Char) : AreDigits (digitsAtFront cs) :=
  List.all_eq_true.mp List.all_takeWhile

theorem isFraction_fractionAtFront (cs : List Char) : IsFraction (fractionAtFront cs) := by
  rw [fractionAtFront.eq_def]
  split
  · next cs =>
    by_cases hempty : (digitsAtFront cs).isEmpty = true
    · rw [if_pos hempty]
      exact Or.inl rfl
    · rw [if_neg hempty]
      exact Or.inr ⟨_, areDigits_digitsAtFront cs, rfl⟩
  · exact Or.inl rfl

theorem isExponent_exponentAtFront (cs : List Char) :
    exponentAtFront cs = [] ∨ IsExponent (exponentAtFront cs) := by
  have hne : ∀ {cs}, ¬ (digitsAtFront cs).isEmpty = true → digitsAtFront cs ≠ [] :=
    fun hempty heq => hempty (List.isEmpty_iff.mpr heq)
  match cs with
  | [] => exact Or.inl rfl
  | [e] =>
    rw [exponentAtFront]
    split <;> exact Or.inl rfl
  | e :: s :: rest =>
    rw [exponentAtFront]
    split
    · next he =>
      have he' : e = 'e' ∨ e = 'E' := by simpa using he
      split
      · next hs =>
        dsimp only
        by_cases hempty : (digitsAtFront rest).isEmpty = true
        · rw [if_pos hempty]
          exact Or.inl rfl
        · rw [if_neg hempty]
          have hs' : s = '+' ∨ s = '-' := by simpa using hs
          refine Or.inr ⟨e, [s], _, he', ?_, hne hempty, areDigits_digitsAtFront rest, rfl⟩
          rcases hs' with rfl | rfl
          · exact Or.inr (Or.inl rfl)
          · exact Or.inr (Or.inr rfl)
      · dsimp only
        by_cases hempty : (digitsAtFront (s :: rest)).isEmpty = true
        · rw [if_pos hempty]
          exact Or.inl rfl
        · rw [if_neg hempty]
          exact Or.inr ⟨e, [], _, he', Or.inl rfl, hne hempty, areDigits_digitsAtFront _, rfl⟩
    · exact Or.inl rfl

theorem isPrefix_fractionAtFront (cs : List Char) : fractionAtFront cs <+: cs := by
  rw [fractionAtFront.eq_def]
  split
  · dsimp only
    split
    · exact List.nil_prefix
    · exact (List.prefix_cons_inj _).mpr (List.takeWhile_prefix _)
  · exact List.nil_prefix

theorem isPrefix_exponentAtFront (cs : List Char) : exponentAtFront cs <+: cs := by
  have hdigits : ∀ cs, digitsAtFront cs <+: cs := fun cs => List.takeWhile_prefix _
  rw [exponentAtFront.eq_def]
  split
  · split
    · split
      · split
        · dsimp only
          split
          · exact List.nil_prefix
          · exact (List.prefix_cons_inj _).mpr ((List.prefix_cons_inj _).mpr (hdigits _))
        · dsimp only
          split
          · exact List.nil_prefix
          · exact (List.prefix_cons_inj _).mpr (hdigits _)
      · exact List.nil_prefix
    · exact List.nil_prefix
  · exact List.nil_prefix

theorem prefix_append_of_drop {a b cs : List Char} (ha : a <+: cs) (hb : b <+: cs.drop a.length) :
    a ++ b <+: cs := by
  obtain ⟨more, rfl⟩ := ha
  rw [List.drop_left] at hb
  exact (List.prefix_append_right_inj a).mpr hb

/-- What a number is made of. -/
theorem numberAtFront_parts (cs : List Char) :
    ∃ fraction exponent, (numberAtFront cs).2 = digitsAtFront cs ++ (fraction ++ exponent) ∧
      IsFraction fraction ∧ (exponent = [] ∨ IsExponent exponent) ∧
      (numberAtFront cs).2 <+: cs ∧
      ((numberAtFront cs).1 = .int ∧ fraction = [] ∧ exponent = [] ∨
        (numberAtFront cs).1 = .float) := by
  let fraction := fractionAtFront (cs.drop (digitsAtFront cs).length)
  let exponent := exponentAtFront (cs.drop ((digitsAtFront cs).length + fraction.length))
  have hnumber : numberAtFront cs =
      (if fraction.isEmpty && exponent.isEmpty then .int else .float,
        digitsAtFront cs ++ fraction ++ exponent) := rfl
  refine ⟨fraction, exponent, ?_, isFraction_fractionAtFront _, isExponent_exponentAtFront _, ?_, ?_⟩
  · rw [hnumber, List.append_assoc]
  · rw [hnumber]
    refine prefix_append_of_drop
      (prefix_append_of_drop (List.takeWhile_prefix _) (isPrefix_fractionAtFront _)) ?_
    rw [List.length_append]
    exact isPrefix_exponentAtFront _
  · rw [hnumber]
    by_cases hempty : (fraction.isEmpty && exponent.isEmpty) = true
    · rw [if_pos hempty]
      obtain ⟨hf, he⟩ := Bool.and_eq_true_iff.mp hempty
      exact Or.inl ⟨rfl, List.isEmpty_iff.mp hf, List.isEmpty_iff.mp he⟩
    · rw [if_neg hempty]
      exact Or.inr rfl

/-! ## Tokens -/

/-- A token that is a number has the characters of one. -/
def IsNumeral (kind : Kind) (text : List Char) : Prop :=
  (kind = .int → text ≠ [] ∧ AreDigits text) ∧
    (kind = .float → (Decimal.float? text).isSome = true)

theorem isBare_of_isNumberChar (h : IsNumberChar c) : IsBare c := by
  have hmarks : ∀ c ∈ ['.', 'e', 'E', '+', '-'], IsBare c := by decide
  rcases h with h | h
  · refine ⟨?_, ?_, ?_⟩ <;> (rintro rfl; exact absurd h (by decide))
  · exact hmarks c h

theorem isBare_of_isNameChar (h : isNameChar c = true) : IsBare c := by
  refine ⟨?_, ?_, ?_⟩ <;> (rintro rfl; exact absurd h (by decide))

/-- Where no token begins with a letter or a digit sign, it is foreign; no other fault occurs. -/
theorem tokenAtFront_fault {f : Fault} (h : tokenAtFront pos c cs = .error (.fault f)) :
    f = .assertion ∧ isForeign c = true := by
  rw [tokenAtFront] at h
  split at h
  · next hsign =>
    split at h
    · cases h
    · next hdigit =>
      cases h
      exact ⟨rfl, by rw [isForeign, if_pos hsign, Bool.eq_false_iff.mpr hdigit]; rfl⟩
  · next hsign =>
    split at h
    · next hletter =>
      split at h
      · cases h
      · next hname =>
        cases h
        refine ⟨rfl, ?_⟩
        rw [isForeign, if_neg hsign, Bool.eq_false_iff.mpr hname]
        simp only [isNameStart, Bool.or_eq_true, decide_eq_true_eq, not_or] at hname hletter
        simp [(hletter.resolve_right hname.2).resolve_right hname.1.2]
    · split at h <;> cases h

/-- The characters of a number, and how they are read. -/
theorem numberAtFront_cons (hc : Text.isDecimalDigit c = true) (cs : List Char) :
    (∀ d ∈ (numberAtFront (c :: cs)).2, IsNumberChar d) ∧
      (numberAtFront (c :: cs)).2 <+: c :: cs ∧
      IsNumeral (numberAtFront (c :: cs)).1 (numberAtFront (c :: cs)).2 := by
  obtain ⟨fraction, exponent, htext, hfraction, hexponent, hstart, hkind⟩ :=
    numberAtFront_parts (c :: cs)
  have hdigits := areDigits_digitsAtFront (c :: cs)
  have hne : digitsAtFront (c :: cs) ≠ [] := by
    rw [digitsAtFront, List.takeWhile_cons_of_pos hc]
    exact List.cons_ne_nil _ _
  refine ⟨fun d hd => ?_, hstart, fun hint => ?_, fun hfloat => ?_⟩
  · rw [htext] at hd
    exact Decimal.isNumberChar_of_mem hdigits hfraction hexponent hd
  · rcases hkind with ⟨-, rfl, rfl⟩ | hfloat
    · rw [htext, List.append_nil, List.append_nil]
      exact ⟨hne, hdigits⟩
    · rw [hint] at hfloat
      cases hfloat
  · rw [htext]
    exact Decimal.isSome_float? hne hdigits hfraction hexponent

theorem isNumeral_of_ne {kind : Kind} (hint : kind ≠ .int) (hfloat : kind ≠ .float)
    (text : List Char) : IsNumeral kind text :=
  ⟨fun h => absurd h hint, fun h => absurd h hfloat⟩

theorem kindOfWord_ne (word : String) : kindOfWord word ≠ .int ∧ kindOfWord word ≠ .float := by
  rw [kindOfWord]
  split <;> exact ⟨nofun, nofun⟩

/-- A token is what stands at the front; behind its first character there is neither a quote nor a
slash. -/
theorem tokenAtFront_eq_ok {kind : Kind} {text : List Char}
    (h : tokenAtFront pos c cs = .ok (kind, text)) :
    ∃ tail, text = c :: tail ∧ tail <+: cs ∧ (∀ d ∈ tail, IsBare d) ∧ IsNumeral kind text := by
  have hfront : ∀ {text : List Char}, text <+: c :: cs → text ≠ [] →
      ∃ tail, text = c :: tail ∧ tail <+: cs := by
    intro text hstart hne
    cases text with
    | nil => exact absurd rfl hne
    | cons d tail =>
      obtain ⟨rfl, htail⟩ := List.cons_prefix_cons.mp hstart
      exact ⟨tail, rfl, htail⟩
  rw [tokenAtFront] at h
  split at h
  · split at h
    · next hdigit =>
      obtain ⟨hchars, hstart, hnumeral⟩ := numberAtFront_cons hdigit cs
      rw [Except.ok.inj h] at hchars hstart hnumeral
      have hlength := length_numberAtFront hdigit cs
      rw [Except.ok.inj h] at hlength
      obtain ⟨tail, rfl, htail⟩ := hfront hstart (List.length_pos_iff.mp hlength.1)
      exact ⟨tail, rfl, htail,
        fun d hd => isBare_of_isNumberChar (hchars d (List.mem_cons_of_mem _ hd)), hnumeral⟩
    · cases h
  · split at h
    · split at h
      · cases h
        obtain ⟨hint, hfloat⟩ := kindOfWord_ne (String.ofList (c :: cs.takeWhile isNameChar))
        exact ⟨_, rfl, List.takeWhile_prefix _,
          fun d hd => isBare_of_isNameChar (List.all_eq_true.mp List.all_takeWhile d hd),
          isNumeral_of_ne hint hfloat _⟩
      · cases h
    · split at h
      · next text s hsymbol =>
        cases h
        obtain ⟨hstart, hne⟩ := symbol_of_symbolAtFront hsymbol
        obtain ⟨tail, htext, htail⟩ := hfront hstart hne
        have hbare : ∀ e ∈ symbolTable, ∀ d ∈ e.1.toList.tail, IsBare d := by decide
        refine ⟨tail, htext, htail, fun d hd => ?_, isNumeral_of_ne (by simp) (by simp) _⟩
        refine hbare _ (List.mem_of_find?_eq_some hsymbol) d ?_
        rw [htext]
        exact hd
      · cases h

/-! ## Whole texts -/

theorem stringBody_error {quote : Char} {start : Nat} {f : Fault} :
    stringBody quote start pos cs ≠ .error (.fault f) := by
  intro h
  fun_induction stringBody quote start pos cs with
  | case1 => cases h
  | case2 => cases h
  | case3 pos c cs ih =>
    rcases hb : stringBody quote start (pos + 2) cs with e | r
    · rw [hb] at h
      exact ih (hb.trans h)
    · rw [hb] at h
      cases h
  | case4 => cases h
  | case5 => cases h
  | case6 pos c cs hend hmore hnewline hquote ih =>
    rcases hb : stringBody quote start (pos + 1) cs with e | r
    · rw [hb] at h
      exact ih (hb.trans h)
    · rw [hb] at h
      cases h

theorem map_eq_error {t : Token} {r : Except LexError (List Token)} {e : LexError}
    (h : r.map (t :: ·) = .error e) : r = .error e := by
  cases r with
  | error e' => exact h
  | ok ts => cases h

/-- The lexer faults only at a foreign character outside strings and comments. -/
theorem lex_fault {f : Fault} (h : lex pos cs = .error (.fault f)) :
    f = .assertion ∧ ∃ c ∈ bareChars pos cs, isForeign c = true := by
  fun_induction lex pos cs with
  | case1 pos => cases h
  | case2 pos c rest hskip ih =>
    obtain ⟨hf, d, hd, hforeign⟩ := ih h
    have hbare : IsBare c := by
      refine ⟨?_, ?_, ?_⟩ <;> (rintro rfl; exact absurd hskip (by decide))
    refine ⟨hf, d, ?_, hforeign⟩
    rw [← List.singleton_append, bareChars_append (by simpa using hbare)]
    exact List.mem_append_right _ hd
  | case3 pos c rest hskip hcomment n =>
    rename_i ih
    obtain ⟨hf, d, hd, hforeign⟩ := ih h
    refine ⟨hf, d, ?_, hforeign⟩
    rw [bareChars, if_pos hcomment]
    exact hd
  | case4 pos c rest hskip hcomment hquote e hbody =>
    cases h
    exact absurd hbody stringBody_error
  | case5 pos c rest hskip hcomment hquote text stop after hbody hlength ih =>
    obtain ⟨hf, d, hd, hforeign⟩ := ih (map_eq_error h)
    refine ⟨hf, d, ?_, hforeign⟩
    rw [bareChars, if_neg hcomment, if_pos hquote]
    split
    · next hbody' =>
      rw [hbody] at hbody'
      cases hbody'
    · next hbody' =>
      rw [hbody] at hbody'
      cases hbody'
      exact hd
  | case6 pos c rest hskip hcomment hquote e htoken =>
    cases h
    obtain ⟨hf, hforeign⟩ := tokenAtFront_fault htoken
    refine ⟨hf, c, ?_, hforeign⟩
    rw [bareChars, if_neg hcomment, if_neg hquote]
    exact List.mem_cons_self
  | case7 pos c rest hskip hcomment hquote kind text htoken ih =>
    obtain ⟨hf, d, hd, hforeign⟩ := ih (map_eq_error h)
    obtain ⟨tail, rfl, ⟨more, rfl⟩, hbare, -⟩ := tokenAtFront_eq_ok htoken
    refine ⟨hf, d, ?_, hforeign⟩
    rw [List.length_cons, Nat.add_sub_cancel, List.drop_left] at hd
    rw [bareChars, if_neg hcomment, if_neg hquote, bareChars_append hbare, Nat.add_assoc,
      Nat.add_comm 1]
    exact List.mem_cons_of_mem _ (List.mem_append_right _ hd)

theorem stringBody_suffix {quote : Char} {start pos stop : Nat} {cs text rest : List Char}
    (h : stringBody quote start pos cs = .ok (text, stop, rest)) : rest <:+ cs := by
  fun_induction stringBody quote start pos cs generalizing text stop rest with
  | case1 => cases h
  | case2 => cases h
  | case3 pos c cs ih =>
    obtain ⟨⟨t, p, r⟩, hbody, h⟩ := bind_eq_ok.mp h
    cases h
    exact (ih hbody).trans ((List.suffix_cons c cs).trans (List.suffix_cons _ _))
  | case4 => cases h
  | case5 pos cs =>
    cases h
    exact List.suffix_cons quote cs
  | case6 pos c cs hend hmore hnewline hquote ih =>
    obtain ⟨⟨t, p, r⟩, hbody, h⟩ := bind_eq_ok.mp h
    cases h
    exact (ih hbody).trans (List.suffix_cons c cs)

/-- A token that is neither the end nor a string stood at the front of some rest of the text. -/
theorem tokenAtFront_of_mem_lex {ts : List Token} (h : lex pos cs = .ok ts) {t : Token}
    (ht : t ∈ ts) (hend : t.kind ≠ .eof) (hstring : t.kind ≠ .string) :
    ∃ pos' c rest text, c :: rest <:+ cs ∧ tokenAtFront pos' c rest = .ok (t.kind, text) ∧
      t.text = String.ofList text := by
  have hbehind : ∀ {cs cs' : List Char}, cs' <:+ cs → (∃ pos' c rest text, c :: rest <:+ cs' ∧
      tokenAtFront pos' c rest = .ok (t.kind, text) ∧ t.text = String.ofList text) →
      ∃ pos' c rest text, c :: rest <:+ cs ∧ tokenAtFront pos' c rest = .ok (t.kind, text) ∧
        t.text = String.ofList text :=
    fun hcs ⟨pos', c, rest, text, hsuffix, hfront⟩ =>
      ⟨pos', c, rest, text, hsuffix.trans hcs, hfront⟩
  fun_induction lex pos cs generalizing ts with
  | case1 pos =>
    cases h
    obtain rfl := List.mem_singleton.mp ht
    exact absurd rfl hend
  | case2 pos c rest hskip ih => exact hbehind (List.suffix_cons c rest) (ih h ht)
  | case3 pos c rest hskip hcomment n =>
    rename_i ih
    exact hbehind ((List.drop_suffix _ rest).trans (List.suffix_cons c rest)) (ih h ht)
  | case4 => cases h
  | case5 pos c rest hskip hcomment hquote text stop after hbody hlength ih =>
    obtain ⟨ts', hts', rfl⟩ := map_cons_eq_ok h
    rcases List.mem_cons.mp ht with rfl | ht
    · exact absurd rfl hstring
    · exact hbehind ((stringBody_suffix hbody).trans (List.suffix_cons c rest)) (ih hts' ht)
  | case6 => cases h
  | case7 pos c rest hskip hcomment hquote kind text htoken ih =>
    obtain ⟨ts', hts', rfl⟩ := map_cons_eq_ok h
    rcases List.mem_cons.mp ht with rfl | ht
    · exact ⟨pos, c, rest, text, List.suffix_refl _, htoken, rfl⟩
    · exact hbehind ((List.drop_suffix _ rest).trans (List.suffix_cons c rest)) (ih hts' ht)

/-- The tokens of a text that are numbers have the characters of one. -/
theorem isNumeral_of_mem_lex {ts : List Token} (h : lex pos cs = .ok ts) {t : Token} (ht : t ∈ ts) :
    IsNumeral t.kind t.text.toList := by
  by_cases hend : t.kind = .eof
  · exact isNumeral_of_ne (by simp [hend]) (by simp [hend]) _
  by_cases hstring : t.kind = .string
  · exact isNumeral_of_ne (by simp [hstring]) (by simp [hstring]) _
  obtain ⟨pos', c, rest, text, -, htoken, htext⟩ := tokenAtFront_of_mem_lex h ht hend hstring
  obtain ⟨-, -, -, -, hnumeral⟩ := tokenAtFront_eq_ok htoken
  rw [htext, String.toList_ofList]
  exact hnumeral

end Script
end Vitrine
