import Mathlib
import Vitrine.Text.Quoted

/-!
# Hexadecimal digits
-/
namespace Vitrine
namespace Text

theorem hexDigit_mem {n : Nat} (h : n < 16) : hexDigit n ∈ "0123456789abcdef".toList := by
  have hall : ∀ m : Fin 16, hexDigit m ∈ "0123456789abcdef".toList := by decide
  exact hall ⟨n, h⟩

theorem mem_hexDigits {width n : Nat} {c : Char} (h : c ∈ hexDigits width n) :
    c ∈ "0123456789abcdef".toList := by
  induction width generalizing n with
  | zero => simp [hexDigits] at h
  | succ width ih =>
    rw [hexDigits, List.mem_append, List.mem_singleton] at h
    rcases h with h | rfl
    · exact ih h
    · exact hexDigit_mem (Nat.mod_lt _ (by decide))

theorem length_hexDigits (width n : Nat) : (hexDigits width n).length = width := by
  induction width generalizing n with
  | zero => rfl
  | succ width ih => simp [hexDigits, ih]

end Text
end Vitrine
