import Vitrine.Proofs.Session.Lease

/-!
# What belongs to a session

The places that a session disposes of. Its own steps are confined to them, and steps that respect them
leave it all that it needs, so sessions get along in one directory as long as no place belongs to two
of them (`Confined.respected`).
-/
namespace Vitrine
namespace Lease

variable (l : Lease)

/-- The places of a session: its entry file, its marker, and its copy if there is anything to keep. -/
def Owns (q : Place) : Prop := q = l.place ∨ q = l.markPlace ∨ l.original ≠ none ∧ q = l.copyPlace

/-- No place belongs to both sessions. -/
def Apart (l l' : Lease) : Prop := ∀ q, l.Owns q → ¬ l'.Owns q

/-- The session has its marker, and its copy if there was anything to keep. -/
structure Standing (s : Store) : Prop where
  home : l.Home s
  mark : l.HasMark s
  copy : l.HasCopy s ∨ l.original = none

/-- Nothing changes but what belongs to the session, and no path is redirected. -/
structure Confined (s t : Store) : Prop where
  ways : Store.SameWays s t
  others : ∀ q, ¬ l.Owns q → t.seen q = s.seen q

/-- Nothing changes that belongs to the session, and its paths still lead where they should. -/
structure Respected (s t : Store) : Prop where
  home : l.Home t
  own : ∀ q, l.Owns q → t.seen q = s.seen q

variable {l} {l' : Lease} {s t u : Store}

theorem Apart.symm (h : l.Apart l') : l'.Apart l := fun q hq hq' => h q hq' hq

theorem owns_place : l.Owns l.place := Or.inl rfl

theorem owns_markPlace : l.Owns l.markPlace := Or.inr (Or.inl rfl)

theorem HasCopy.owns (h : l.HasCopy s) : l.Owns l.copyPlace := by
  obtain ⟨content, mode, kept, ho, -⟩ := h
  exact Or.inr (Or.inr ⟨by simp [ho], rfl⟩)

/-- What belongs to a session in the directory of markers is free before. -/
theorem Tenable.seen_made (ht : l.Tenable) {q : Place} (hq : l.Owns q) :
    l.made.store.seen q = if q = l.place then l.original else none := by
  rcases hq with rfl | rfl | ⟨-, rfl⟩
  · rw [if_pos rfl, original]
  · rw [if_neg (ht.ne_place base_isPrefix_markPlace).symm]
    exact ht.markPlace_free
  · rw [if_neg (ht.ne_place base_isPrefix_copyPlace).symm]
    exact ht.copyPlace_free

/-- All but the entry file lies in the directory of markers. -/
theorem Owns.base {q : Place} (h : l.Owns q) (hq : q ≠ l.place) : l.base <+: q := by
  rcases h with rfl | rfl | ⟨-, rfl⟩
  · exact absurd rfl hq
  · exact base_isPrefix_markPlace
  · exact base_isPrefix_copyPlace

namespace Confined

theorem refl (l : Lease) (s : Store) : l.Confined s s := ⟨.refl s, fun _ _ => rfl⟩

/-- The session changes what belongs to it. -/
theorem own (h : l.Confined s t) {p : Place} (hp : l.Owns p) (hd : Store.DiffersAt p t u) :
    l.Confined s u := by
  refine ⟨h.ways.trans hd.ways, fun q hq => ?_⟩
  rw [hd.others q fun he => hq (he ▸ hp)]
  exact h.others q hq

/-- What one session does leaves another one alone. -/
theorem respected (h : l.Confined s t) (ha : l.Apart l') (hh : l'.Home s) : l'.Respected s t :=
  ⟨hh.of_sameWays h.ways, fun q hq => h.others q (ha.symm q hq)⟩

end Confined

theorem Respected.trans (h : l.Respected s t) (k : l.Respected t u) : l.Respected s u :=
  ⟨k.home, fun q hq => (k.own q hq).trans (h.own q hq)⟩

namespace Standing

theorem of_respected (h : l.Standing s) (hr : l.Respected s t) : l.Standing t := by
  refine ⟨hr.home, ?_, h.copy.imp_left fun hc => ?_⟩
  · rw [HasMark, hr.own _ owns_markPlace]
    exact h.mark
  · rw [HasCopy, hr.own _ hc.owns]
    exact hc

/-- The entry file changes. -/
theorem of_differsAt (ht : l.Tenable) (h : l.Standing s) (hd : Store.DiffersAt l.place s t) :
    l.Standing t := by
  refine ⟨h.home.of_sameWays hd.ways, ?_, ?_⟩
  · rw [HasMark, hd.others _ (ht.ne_place base_isPrefix_markPlace).symm]
    exact h.mark
  · rw [HasCopy, hd.others _ (ht.ne_place base_isPrefix_copyPlace).symm]
    exact h.copy

theorem respected (h : l.Standing s) : l.Respected s s := ⟨h.home, fun _ _ => rfl⟩

end Standing

/-- A session that has its marker and its copy shares no place with one that begins then, if their
entry files differ. -/
theorem Standing.apart (h : l'.Standing l.made.store) (ht : l.Tenable) (ht' : l'.Tenable)
    (hbase : l'.base = l.base) (hplace : l.place ≠ l'.place) : l.Apart l' := by
  intro q hq hq'
  by_cases hentry : q = l.place
  · subst hentry
    exact ht.apart (hbase ▸ hq'.base hplace)
  · have hfree := ht.seen_made hq
    rw [if_neg hentry] at hfree
    rcases hq' with rfl | rfl | ⟨ho, rfl⟩
    · exact ht'.apart (hbase ▸ hq.base hentry)
    · have hmark := h.mark
      rw [HasMark, hfree] at hmark
      cases hmark
    · obtain ⟨content, mode, kept, -, hfile⟩ := h.copy.resolve_right ho
      rw [hfree] at hfile
      cases hfile

theorem Occupied.standing (h : l.Occupied s) : l.Standing s :=
  ⟨h.home, h.mark, h.copy.imp_right And.left⟩

end Lease
end Vitrine
