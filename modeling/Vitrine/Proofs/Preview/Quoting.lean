import Vitrine.Preview.Code
import Vitrine.Proofs.Preview.Function
import Vitrine.Proofs.Text.Hex

/-!
# Quoted texts

A text as code is one string for the lexer, and the string is the text again if no character in it
is a control character without a short escape (`tokenize_toCode`). JSON writes the others as `\u`
and four digits, and to the lexer a backslash in front of a `u` is nothing but that letter.
-/
namespace Vitrine
namespace Preview

open Script (stringBody stringBody_piece lex_quoted IsPiece)

/-! ## Characters -/

/-- What a character is read back as after it was quoted. -/
def readBack (c : Char) : List Char :=
  if IsWritable c then [c] else 'u' :: Text.hexDigits 4 c.toNat

theorem readBack_of_isWritable {c : Char} (h : IsWritable c) : readBack c = [c] := if_pos h

theorem readBack_of_not_isWritable {c : Char} (h : ¬IsWritable c) :
    readBack c = 'u' :: Text.hexDigits 4 c.toNat := if_neg h

theorem escapeChar_of_not_isWritable {c : Char} (h : ¬IsWritable c) :
    Json.escapeChar false c = '\\' :: 'u' :: Text.hexDigits 4 c.toNat := by
  rw [IsWritable, not_or, Nat.not_le] at h
  obtain ⟨hsmall, hmem⟩ := h
  simp only [List.mem_cons, List.not_mem_nil, or_false, not_or] at hmem
  obtain ⟨hnewline, hreturn, htab, hform, hbackspace⟩ := hmem
  have hquote : c ≠ '"' := by rintro rfl; exact absurd hsmall (by decide)
  have hback : c ≠ '\\' := by rintro rfl; exact absurd hsmall (by decide)
  rw [Json.escapeChar, if_neg hquote, if_neg hback, if_neg hnewline, if_neg hreturn, if_neg htab,
    if_neg hform, if_neg hbackspace, if_pos hsmall]
  rfl

theorem isPiece_hexDigit {c : Char} {width n : Nat} (h : c ∈ Text.hexDigits width n) :
    IsPiece c [c] := by
  have hall : ∀ d ∈ "0123456789abcdef".toList, d ≠ '"' ∧ d ≠ '\\' ∧ d ≠ '\n' := by decide
  exact .inr ⟨rfl, hall c (Text.mem_hexDigits h)⟩

/-! ## Contents of strings -/

section

variable {start : Nat} {cs text rest : List Char}

/-- Characters that stand for themselves are read as they are. -/
theorem stringBody_plain {ds : List Char} (hds : ∀ d ∈ ds, IsPiece d [d])
    (h : ∀ pos, ∃ stop, stringBody '"' start pos cs = .ok (text, stop, rest)) (pos : Nat) :
    ∃ stop, stringBody '"' start pos (ds ++ cs) = .ok (ds ++ text, stop, rest) := by
  induction ds generalizing pos with
  | nil => exact h pos
  | cons d ds ih =>
    exact stringBody_piece start (hds d List.mem_cons_self)
      (ih fun e he => hds e (List.mem_cons_of_mem d he)) pos

theorem stringBody_escapeChar (c : Char)
    (h : ∀ pos, ∃ stop, stringBody '"' start pos cs = .ok (text, stop, rest)) (pos : Nat) :
    ∃ stop, stringBody '"' start pos (Json.escapeChar false c ++ cs) =
      .ok (readBack c ++ text, stop, rest) := by
  by_cases hc : IsWritable c
  · rw [readBack_of_isWritable hc]
    exact stringBody_piece start (isPiece_escapeChar hc) h pos
  · rw [readBack_of_not_isWritable hc, escapeChar_of_not_isWritable hc]
    have hletter : IsPiece 'u' ['\\', 'u'] := .inl ⟨'u', rfl, rfl⟩
    have hdigits : ∀ d ∈ Text.hexDigits 4 c.toNat, IsPiece d [d] := fun d => isPiece_hexDigit
    exact stringBody_piece start hletter (stringBody_plain hdigits h) pos

theorem stringBody_quoted (cs : List Char) (start pos : Nat) :
    ∃ stop, stringBody '"' start pos (cs.flatMap (Json.escapeChar false) ++ ['"']) =
      .ok (cs.flatMap readBack, stop, []) := by
  induction cs generalizing pos with
  | nil => exact ⟨pos + 1, rfl⟩
  | cons c cs ih =>
    rw [List.flatMap_cons, List.flatMap_cons, List.append_assoc]
    exact stringBody_escapeChar c ih pos

end

/-! ## Whole texts -/

theorem flatMap_readBack_eq_iff {cs : List Char} :
    cs.flatMap readBack = cs ↔ ∀ c ∈ cs, IsWritable c := by
  induction cs with
  | nil => exact ⟨fun _ _ hc => absurd hc List.not_mem_nil, fun _ => rfl⟩
  | cons c cs ih =>
    rw [List.flatMap_cons, List.forall_mem_cons]
    by_cases hc : IsWritable c
    · rw [readBack_of_isWritable hc, List.singleton_append, List.cons_inj_right, ih]
      exact (and_iff_right hc).symm
    · -- the first letter read back is a `u`, which is not the character that was written
      rw [readBack_of_not_isWritable hc, List.cons_append]
      refine iff_of_false (fun heq => hc ?_) fun h => hc h.1
      rw [← (List.cons.inj heq).1]
      decide

/-- A text as code is one string, followed by the end of input; the string is the text exactly if
all characters of the text are writable. -/
theorem tokenize_toCode (s : String) :
    ∃ code, toCode (.str s : Data) = .ok code ∧
      Script.tokenize code = .ok [⟨.string, String.ofList (s.toList.flatMap readBack), 0⟩,
        ⟨.eof, "", code.length⟩] ∧
      (String.ofList (s.toList.flatMap readBack) = s ↔ ∀ c ∈ s.toList, IsWritable c) := by
  refine ⟨Json.quote false s, by rw [toCode], ?_, ?_⟩
  · obtain ⟨stop, hbody⟩ := stringBody_quoted s.toList 0 1
    rw [Script.tokenize, Json.quote, Json.quoteChars, String.toList_ofList, List.cons_append,
      (lex_quoted hbody).1, String.length_ofList, Nat.zero_add]
  · rw [← String.toList_inj, String.toList_ofList]
    exact flatMap_readBack_eq_iff

/-- A control character without a short escape comes back as five letters. -/
example : readBack (Char.ofNat 1) = ['u', '0', '0', '0', '1'] := by decide

end Preview
end Vitrine
