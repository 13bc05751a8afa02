import Vitrine.Proofs.Json.RoundTrip
import Vitrine.Proofs.Text.Hex

/-!
# JSON texts on one line

A JSON text holds no control characters, so no line ends either.
-/
namespace Vitrine
namespace Json

/-- Characters without controls. -/
def Printable (cs : List Char) : Prop := ∀ c ∈ cs, 0x20 ≤ c.toNat

instance (cs : List Char) : Decidable (Printable cs) :=
  inferInstanceAs (Decidable (∀ c ∈ cs, 0x20 ≤ c.toNat))

theorem Printable.append {a b : List Char} (ha : Printable a) (hb : Printable b) :
    Printable (a ++ b) := by
  intro c hc
  rcases List.mem_append.mp hc with h | h
  · exact ha c h
  · exact hb c h

theorem Printable.cons {c : Char} {cs : List Char} (hc : 0x20 ≤ c.toNat) (h : Printable cs) :
    Printable (c :: cs) := by
  intro d hd
  rcases List.mem_cons.mp hd with rfl | hd
  · exact hc
  · exact h d hd

theorem printable_nil : Printable [] := fun _ h => nomatch h

theorem printable_hexDigits (width n : Nat) : Printable (Text.hexDigits width n) := by
  intro c hc
  have hall : ∀ c ∈ "0123456789abcdef".toList, 0x20 ≤ c.toNat := by decide
  exact hall c (Text.mem_hexDigits hc)

theorem printable_escapeUnit (n : Nat) : Printable (escapeUnit n) :=
  .cons (by decide) (.cons (by decide) (printable_hexDigits 4 n))

theorem printable_escapeChar (ascii : Bool) (c : Char) : Printable (escapeChar ascii c) := by
  have hpair : ∀ d : Char, 0x20 ≤ d.toNat → Printable ['\\', d] :=
    fun d hd => .cons (by decide) (.cons hd printable_nil)
  unfold escapeChar
  repeat' split
  all_goals try exact hpair _ (by decide)
  · exact printable_escapeUnit _
  · unfold escapeUnits
    split
    · exact printable_escapeUnit _
    · exact (printable_escapeUnit _).append (printable_escapeUnit _)
  · next h _ => exact .cons (Nat.le_of_not_lt h) printable_nil

theorem printable_quote (ascii : Bool) (s : String) : Printable (quote ascii s).toList := by
  rw [quote_eq]
  refine .cons (by decide) (Printable.append (fun c hc => ?_) (.cons (by decide) printable_nil))
  obtain ⟨d, -, hd⟩ := List.mem_flatMap.mp hc
  exact printable_escapeChar ascii d c hd

theorem printable_intChars (n : Int) : Printable (Decimal.intChars n) := by
  have hdigits : Printable (Decimal.digitChars n.natAbs) := by
    intro c hc
    have hdigit := Decimal.isAsciiDigit_iff.mp (Decimal.isAsciiDigit_of_mem_digitChars hc)
    omega
  rw [Decimal.intChars]
  split
  · exact .cons (by decide) hdigits
  · exact hdigits

/-- Styles whose separators hold no control characters. -/
structure Style.IsPrintable (style : Style) : Prop where
  item : Printable style.itemSep.toList
  name : Printable style.nameSep.toList

theorem isPrintable_spaced : spaced.IsPrintable := ⟨by decide, by decide⟩

section Write

variable {style : Style}

mutual

/-- What is written holds no control characters, doubles apart. -/
theorem printable_write (hs : style.IsPrintable) (j : Json) (hj : j.IsReadable) :
    Printable (j.write style).toList := by
  cases j with
  | null =>
    rw [write]
    decide
  | bool b => cases b <;> rw [write] <;> decide
  | int n =>
    rw [write, Decimal.intText, String.toList_ofList]
    exact printable_intChars n
  | float x => exact hj.elim
  | str s =>
    rw [write]
    exact printable_quote style.ascii s
  | array items =>
    rw [write, String.toList_append, String.toList_append]
    exact (Printable.append (by decide) (printable_writeItems hs items hj)).append (by decide)
  | object members =>
    rw [write, String.toList_append, String.toList_append]
    exact (Printable.append (by decide) (printable_writeMembers hs members hj.2)).append (by decide)

theorem printable_writeItems (hs : style.IsPrintable) (js : List Json) (hj : AreReadable js) :
    Printable (writeItems style js).toList := by
  match js, hj with
  | [], _ => exact printable_nil
  | [j], hj => exact printable_write hs j hj.1
  | j :: k :: ks, hj =>
    rw [writeItems, String.toList_append, String.toList_append]
    · exact ((printable_write hs j hj.1).append hs.item).append
        (printable_writeItems hs (k :: ks) hj.2)
    · simp

theorem printable_writeMembers (hs : style.IsPrintable) (ms : List (String × Json))
    (hj : AreReadableMembers ms) : Printable (writeMembers style ms).toList := by
  match ms, hj with
  | [], _ => exact printable_nil
  | [(name, j)], hj =>
    rw [writeMembers, String.toList_append, String.toList_append]
    exact ((printable_quote style.ascii name).append hs.name).append (printable_write hs j hj.1)
  | (name, j) :: m :: ms, hj =>
    rw [writeMembers, String.toList_append, String.toList_append, String.toList_append,
      String.toList_append]
    · exact ((((printable_quote style.ascii name).append hs.name).append
        (printable_write hs j hj.1)).append hs.item).append
        (printable_writeMembers hs (m :: ms) hj.2)
    · simp

end

end Write

end Json
end Vitrine
