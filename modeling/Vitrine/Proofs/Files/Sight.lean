import Mathlib
import Vitrine.Files.Store

/-!
# What is seen at a place

The nodes of a store apart from the times of their changes, and what one change does to them. A
change that adds or takes away a name also changes the time of a directory, which is why later
statements speak of what is seen at a place and not of the node itself.
-/
namespace Vitrine

namespace Node

/-- The node without the time of its change. -/
def plain (n : Node) : Node := n.withStamp (.counted 0)

@[simp] theorem plain_file (content : List UInt8) (mode : Nat) (changed : Stamp) :
    (file content mode changed).plain = file content mode (.counted 0) := rfl

@[simp] theorem plain_directory (mode : Nat) (changed : Stamp) :
    (directory mode changed).plain = directory mode (.counted 0) := rfl

@[simp] theorem plain_link (target : String) : (link target).plain = link target := rfl

@[simp] theorem plain_withStamp (n : Node) (changed : Stamp) :
    (n.withStamp changed).plain = n.plain := by
  cases n <;> rfl

theorem plain_withMode (n : Node) (mode : Nat) :
    (n.withMode mode).plain = n.plain.withMode mode := by
  cases n <;> rfl

theorem plain_eq_file {n : Node} {content : List UInt8} {mode : Nat} {changed : Stamp}
    (h : n.plain = file content mode changed) : ∃ at_, n = file content mode at_ := by
  cases n with
  | file c m t =>
    simp only [plain_file, file.injEq] at h
    exact ⟨t, by rw [h.1, h.2.1]⟩
  | directory m t => simp at h
  | link t => simp at h

theorem plain_eq_directory {n : Node} {mode : Nat} {changed : Stamp}
    (h : n.plain = directory mode changed) : ∃ at_, n = directory mode at_ := by
  cases n with
  | file c m t => simp at h
  | directory m t =>
    simp only [plain_directory, directory.injEq] at h
    exact ⟨t, by rw [h.1]⟩
  | link t => simp at h

theorem plain_eq_link {n : Node} {target : String} (h : n.plain = link target) :
    n = link target := by
  cases n <;> simp_all

end Node

namespace Store

/-- What is seen at a place. -/
def seen (s : Store) (place : Place) : Option Node := (s.get? place).map Node.plain

theorem seen_root (s : Store) : s.seen [] = some root.plain := by
  simp [seen, get?]

theorem seen_of_ne {s : Store} {place : Place} (h : place ≠ []) :
    s.seen place = (s.nodes.lookup place).map Node.plain := by
  simp [seen, get?, h]

theorem lookup_cons (place q : Place) (n : Node) (es : List (Place × Node)) :
    ((place, n) :: es).lookup q = if q = place then some n else es.lookup q := by
  by_cases h : q = place
  · subst h
    simp
  · have hb : (q == place) = false := beq_eq_false_iff_ne.mpr h
    simp [List.lookup, hb, h]

theorem lookup_setEntry (place q : Place) (n : Node) (es : List (Place × Node)) :
    (setEntry place n es).lookup q = if q = place then some n else es.lookup q := by
  induction es with
  | nil => exact lookup_cons place q n []
  | cons e es ih =>
    obtain ⟨r, m⟩ := e
    by_cases hr : r = place
    · simp only [setEntry, hr, if_true, lookup_cons]
      by_cases hq : q = place <;> simp [hq]
    · simp only [setEntry, hr, if_false, lookup_cons, ih]
      by_cases hqr : q = r
      · simp [hqr, hr]
      · simp [hqr]

/-- What is found in a list from which all at some places was taken. -/
theorem lookup_filter (f : Place → Bool) (q : Place) (es : List (Place × Node)) :
    (es.filter fun e => f e.1).lookup q = if f q then es.lookup q else none := by
  induction es with
  | nil => simp
  | cons e es ih =>
    obtain ⟨r, m⟩ := e
    by_cases hr : f r
    · rw [List.filter_cons_of_pos (by exact hr), lookup_cons, lookup_cons, ih]
      by_cases hqr : q = r
      · simp [hqr, hr]
      · simp [hqr]
    · rw [List.filter_cons_of_neg (by exact hr), ih, lookup_cons]
      by_cases hqr : q = r
      · simp [hqr, hr]
      · simp [hqr]

theorem seen_put (s : Store) (place q : Place) (n : Node) (h : place ≠ []) :
    (s.put place n).seen q = if q = place then some n.plain else s.seen q := by
  by_cases hq : q = []
  · subst hq
    rw [seen_root, if_neg (Ne.symm h), seen_root]
  · rw [seen_of_ne hq, seen_of_ne hq, put, lookup_setEntry]
    by_cases hp : q = place <;> simp [hp]

theorem seen_put_of_ne (s : Store) {place q : Place} (n : Node) (h : q ≠ place) :
    (s.put place n).seen q = s.seen q := by
  by_cases hp : place = []
  · subst hp
    rw [seen_of_ne h, seen_of_ne h, put, lookup_setEntry, if_neg h]
  · rw [seen_put s place q n hp, if_neg h]

theorem seen_update_of_ne (s : Store) {place q : Place} (f : Node → Node) (h : q ≠ place) :
    (s.update place f).seen q = s.seen q := by
  rw [update]
  split
  · exact seen_put_of_ne s _ h
  · rfl

theorem seen_eraseTree (s : Store) (place : Place) {q : Place} (hq : q ≠ []) :
    (s.eraseTree place).seen q = if place <+: q then none else s.seen q := by
  rw [seen_of_ne hq, seen_of_ne hq, eraseTree, lookup_filter fun r => !place.isPrefixOf r]
  by_cases hp : place <+: q
  · simp [List.isPrefixOf_iff_prefix.mpr hp, hp]
  · have : place.isPrefixOf q = false := by
      rw [← Bool.not_eq_true, List.isPrefixOf_iff_prefix]
      exact hp
    simp [this, hp]

theorem seen_erase (s : Store) (place q : Place) (h : place ≠ []) :
    (s.erase place).seen q = if q = place then none else s.seen q := by
  by_cases hq : q = []
  · subst hq
    rw [seen_root, if_neg (Ne.symm h), seen_root]
  · rw [seen_of_ne hq, seen_of_ne hq, erase, lookup_filter fun r => decide (r ≠ place)]
    by_cases hp : q = place <;> simp [hp]

theorem seen_update (s : Store) (place q : Place) (f : Node → Node) (h : place ≠ []) :
    (s.update place f).seen q =
      if q = place then (s.nodes.lookup place).map (fun n => (f n).plain) else s.seen q := by
  rw [update]
  cases hl : s.nodes.lookup place with
  | none =>
    by_cases hp : q = place
    · subst hp
      simp [seen_of_ne h, hl]
    · simp [hp]
  | some n =>
    rw [seen_put s place q (f n) h]
    by_cases hp : q = place <;> simp [hp]

/-- A new time of change is not seen. -/
theorem seen_update_withStamp (s : Store) (place q : Place) (changed : Stamp) :
    (s.update place (Node.withStamp changed)).seen q = s.seen q := by
  by_cases h : place = []
  · subst h
    rw [update]
    cases hl : s.nodes.lookup [] with
    | none => rfl
    | some n =>
      by_cases hq : q = []
      · subst hq
        rw [seen_root, seen_root]
      · simp only [seen_of_ne hq, put, lookup_setEntry, hq, if_false]
  · rw [seen_update s place q _ h]
    by_cases hp : q = place
    · subst hp
      simp only [if_true, Node.plain_withStamp, seen_of_ne h]
    · rw [if_neg hp]

/-! ## Names in a directory -/

theorem nameIn?_eq_some {directory place : Place} {name : String} :
    nameIn? directory place = some name ↔ place = directory ++ [name] := by
  rw [nameIn?]
  constructor
  · intro h
    split at h
    · next hd =>
      obtain ⟨ys, rfl⟩ := List.getLast?_eq_some_iff.mp h
      rw [List.dropLast_concat] at hd
      rw [hd]
    · cases h
  · rintro rfl
    rw [List.dropLast_concat, if_pos rfl, List.getLast?_concat]

/-- The names in a directory are those under which something is seen. -/
theorem mem_names {s : Store} {directory : Place} {name : String} :
    name ∈ s.names directory ↔ s.seen (directory ++ [name]) ≠ none := by
  have hlookup : s.seen (directory ++ [name]) ≠ none ↔
      ∃ e ∈ s.nodes, e.1 = directory ++ [name] := by
    rw [seen_of_ne (by simp), ne_eq, Option.map_eq_none_iff, List.lookup_eq_none_iff]
    constructor
    · intro h
      refine Classical.byContradiction fun hnone => h fun e he => ?_
      rw [bne_iff_ne]
      exact fun hp => hnone ⟨e, he, hp.symm⟩
    · rintro ⟨e, he, hp⟩ h
      exact bne_iff_ne.mp (h e he) hp.symm
  rw [names, List.mem_mergeSort, List.mem_filterMap, hlookup]
  simp only [nameIn?_eq_some]

theorem sorted_names (s : Store) (directory : Place) : (s.names directory).Pairwise (· ≤ ·) := by
  refine (List.pairwise_mergeSort (fun a b c hab hbc => ?_) (fun a b => ?_) _).imp fun hle => ?_
  · simp only [Bool.not_eq_true', decide_eq_false_iff_not, not_lt] at hab hbc ⊢
    exact hab.trans hbc
  · simp only [Bool.or_eq_true, Bool.not_eq_true', decide_eq_false_iff_not, not_lt]
    exact le_total _ _
  · rwa [Bool.not_eq_true', decide_eq_false_iff_not, not_lt] at hle

end Store

namespace Change

/-- What is seen after a change depends on what becomes of the nodes alone. -/
theorem seen_apply (c : Change) (s : Store) (q : Place) :
    (c.apply s).seen q = (c.onNodes s).seen q := by
  rw [apply]
  split
  · rw [← Store.seen_update_withStamp (c.onNodes s) c.place.dropLast q (.counted s.clock)]
    rfl
  · rfl

theorem seen_write (s : Store) {p : Place} (q : Place) (content : List UInt8) (mode : Nat)
    (h : p ≠ []) :
    ((write p content mode).apply s).seen q =
      if q = p then some (.file content mode (.counted 0)) else s.seen q := by
  rw [seen_apply, onNodes, Store.seen_put s p q _ h, Node.plain_file]

theorem seen_remove (s : Store) {p : Place} (q : Place) (h : p ≠ []) :
    ((remove p).apply s).seen q = if q = p then none else s.seen q := by
  rw [seen_apply, onNodes, Store.seen_erase s p q h]

theorem seen_setMode (s : Store) {p : Place} (q : Place) (mode : Nat) (h : p ≠ []) :
    ((setMode p mode).apply s).seen q =
      if q = p then (s.seen p).map (Node.withMode mode) else s.seen q := by
  rw [seen_apply, onNodes, Store.seen_update s p q _ h]
  by_cases hq : q = p
  · rw [if_pos hq, if_pos hq, Store.seen_of_ne h, Option.map_map]
    exact congrArg (fun f => (s.nodes.lookup p).map f) (funext fun n => n.plain_withMode mode)
  · rw [if_neg hq, if_neg hq]

/-- A change at one place is not seen at another one, unless all that lies below is removed. -/
theorem seen_apply_of_ne (c : Change) (s : Store) {q : Place} (h : q ≠ c.place) :
    (c.apply s).seen q = s.seen q ∨
      c.place <+: q ∧ ∀ r, r ≠ [] → c.place <+: r → (c.apply s).seen r = none := by
  cases c with
  | removeTree p =>
    change q ≠ p at h
    show _ ∨ p <+: q ∧ ∀ r, r ≠ [] → p <+: r → _
    by_cases hp : p <+: q
    · refine Or.inr ⟨hp, fun r hr hpr => ?_⟩
      rw [seen_apply, onNodes, Store.seen_eraseTree s p hr, if_pos hpr]
    · by_cases hq : q = []
      · subst hq
        exact Or.inl (by rw [Store.seen_root, Store.seen_root])
      · left
        rw [seen_apply, onNodes, Store.seen_eraseTree s p hq, if_neg hp]
  | remove p =>
    change q ≠ p at h
    left
    by_cases hp : p = []
    · subst hp
      rw [seen_apply, onNodes, Store.seen_of_ne h, Store.seen_of_ne h, Store.erase,
        Store.lookup_filter fun r => decide (r ≠ []), if_pos (by simpa using h)]
    · rw [seen_remove s q hp, if_neg h]
  | write p content mode =>
    left
    rw [seen_apply]
    exact Store.seen_put_of_ne s _ h
  | makeDirectory p =>
    left
    rw [seen_apply]
    exact Store.seen_put_of_ne s _ h
  | link p target =>
    left
    rw [seen_apply]
    exact Store.seen_put_of_ne s _ h
  | setMode p mode =>
    left
    rw [seen_apply]
    exact Store.seen_update_of_ne s _ h
  | setStamp p changed =>
    left
    rw [seen_apply]
    exact Store.seen_update_of_ne s _ h

theorem seen_makeDirectory (s : Store) {p : Place} (q : Place) (h : p ≠ []) :
    ((makeDirectory p).apply s).seen q =
      if q = p then some (.directory Node.directoryMode (.counted 0)) else s.seen q := by
  rw [seen_apply, onNodes, Store.seen_put s p q _ h, Node.plain_directory]

end Change

/-- What is seen after changes that were made one after the other. -/
theorem Store.replay_append (s : Store) (a b : List Change) :
    s.replay (a ++ b) = (s.replay a).replay b := by
  rw [replay, List.foldl_append]
  rfl

end Vitrine
