/-!
Sets of characters given as closed ranges of code points.
-/
namespace Vitrine
namespace Text

/-- Closed ranges of code points, in increasing order. -/
abbrev Ranges := List (Nat × Nat)

/-- Whether a code point lies in one of the ranges. -/
def Ranges.has (rs : Ranges) (n : Nat) : Bool :=
  rs.any fun r => Nat.ble r.1 n && Nat.ble n r.2

theorem Ranges.has_iff {rs : Ranges} {n : Nat} :
    rs.has n = true ↔ ∃ r ∈ rs, r.1 ≤ n ∧ n ≤ r.2 := by
  simp [Ranges.has]

/-- Facts about the characters of a list are decided along the list. -/
instance (priority := high) decidableForallMem {p : Char → Prop} [DecidablePred p]
    (cs : List Char) : Decidable (∀ c ∈ cs, p c) :=
  List.decidableBAll p cs

end Text
end Vitrine
