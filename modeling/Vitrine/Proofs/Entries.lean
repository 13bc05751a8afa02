import Mathlib.Data.List.Nodup
import Vitrine.Value

/-!
# Entries of mappings

What holds of entries holds of the mapping that they describe (`Entries.forall_ofList`), in which no
text stands twice (`Entries.nodup_ofList`); entries under distinct texts describe themselves
(`Entries.ofList_of_nodup`).
-/
namespace Vitrine
namespace Entries

variable {α : Type} {P : Key → Prop} {Q : α → Prop}

theorem mem_of_get? {name : String} {v : α} {entries : List (Key × α)}
    (h : get? name entries = some v) : (Key.str name, v) ∈ entries := by
  induction entries with
  | nil => cases h
  | cons e es ih =>
    obtain ⟨k, w⟩ := e
    cases k with
    | str s =>
      rw [get?] at h
      split at h
      · next hs =>
        cases h
        exact hs ▸ List.mem_cons_self
      · exact List.mem_cons_of_mem _ (ih h)
    | _ => exact List.mem_cons_of_mem _ (ih h)

theorem forall_insert {key : Key} {value : α} {entries : List (Key × α)} (hkey : P key)
    (hvalue : Q value) (h : ∀ e ∈ entries, P e.1 ∧ Q e.2) :
    ∀ e ∈ insert key value entries, P e.1 ∧ Q e.2 := by
  induction entries with
  | nil =>
    intro e he
    rw [List.mem_singleton.mp he]
    exact ⟨hkey, hvalue⟩
  | cons d es ih =>
    obtain ⟨k, v⟩ := d
    have hothers := fun e he => h e (List.mem_cons_of_mem (k, v) he)
    intro e he
    rw [insert] at he
    split at he
    · rcases List.mem_cons.mp he with rfl | he
      · exact ⟨(h _ List.mem_cons_self).1, hvalue⟩
      · exact hothers e he
    · rcases List.mem_cons.mp he with rfl | he
      · exact h _ List.mem_cons_self
      · exact ih hothers e he

/-- What holds of the keys and values of entries holds of those of the mapping that they
describe. -/
theorem forall_ofList {entries : List (Key × α)} (h : ∀ e ∈ entries, P e.1 ∧ Q e.2) :
    ∀ e ∈ ofList entries, P e.1 ∧ Q e.2 := by
  have hfold : ∀ (rest before : List (Key × α)), (∀ e ∈ before, P e.1 ∧ Q e.2) →
      (∀ e ∈ rest, P e.1 ∧ Q e.2) →
      ∀ e ∈ rest.foldl (fun es e => insert e.1 e.2 es) before, P e.1 ∧ Q e.2 := by
    intro rest
    induction rest with
    | nil => exact fun before hbefore _ => hbefore
    | cons d rest ih =>
      intro before hbefore hrest
      have hd := hrest d List.mem_cons_self
      exact ih _ (forall_insert hd.1 hd.2 hbefore) fun e he => hrest e (List.mem_cons_of_mem _ he)
  exact hfold entries [] (fun _ he => absurd he List.not_mem_nil) h

theorem forall_values_ofList {entries : List (Key × α)} (h : ∀ e ∈ entries, Q e.2) :
    ∀ e ∈ ofList entries, Q e.2 :=
  fun e he => (forall_ofList (P := fun _ => True) (fun e he => ⟨trivial, h e he⟩) e he).2

/-! ## Entries under texts -/

theorem insert_of_notMem {name : String} {value : α} {entries : List (Key × α)}
    (htexts : ∀ e ∈ entries, ∃ s, e.1 = .str s) (hnew : Key.str name ∉ entries.map (·.1)) :
    insert (.str name) value entries = entries ++ [(.str name, value)] := by
  induction entries with
  | nil => rfl
  | cons e es ih =>
    obtain ⟨s, hs⟩ := htexts e List.mem_cons_self
    obtain ⟨k, v⟩ := e
    cases hs
    have hne : s ≠ name := fun heq => hnew (heq ▸ List.mem_cons_self)
    have hsame : (Key.str s).same (.str name) = false := beq_eq_false_iff_ne.mpr hne
    rw [insert, hsame, if_neg Bool.false_ne_true, List.cons_append,
      ih (fun e he => htexts e (List.mem_cons_of_mem _ he))
        fun hmem => hnew (List.mem_cons_of_mem _ hmem)]

/-- Entries under texts, no two of which are the same, describe themselves. -/
theorem ofList_of_nodup {entries : List (Key × α)} (htexts : ∀ e ∈ entries, ∃ s, e.1 = .str s)
    (hnodup : (entries.map (·.1)).Nodup) : ofList entries = entries := by
  -- The entries so far are a prefix, to which the next one is appended.
  have hfold : ∀ (rest before : List (Key × α)), before ++ rest = entries →
      rest.foldl (fun es e => insert e.1 e.2 es) before = entries := by
    intro rest
    induction rest with
    | nil => exact fun before hsplit => (List.append_nil before) ▸ hsplit
    | cons e rest ih =>
      intro before hsplit
      obtain ⟨name, hname⟩ := htexts e (hsplit ▸ List.mem_append_right _ List.mem_cons_self)
      have hnew : Key.str name ∉ before.map (·.1) := by
        rw [← hsplit, List.map_append, List.map_cons, hname] at hnodup
        exact fun hmem => (List.nodup_append.mp hnodup).2.2 _ hmem _ List.mem_cons_self rfl
      have hbefore : ∀ d ∈ before, ∃ s, d.1 = .str s :=
        fun d hd => htexts d (hsplit ▸ List.mem_append_left _ hd)
      rw [List.foldl_cons, hname, insert_of_notMem hbefore hnew, ← hname]
      exact ih _ (by rw [← hsplit, List.append_assoc]; rfl)
  exact hfold entries [] rfl

theorem map_fst_insert_of_mem {name : String} {value : α} {entries : List (Key × α)}
    (htexts : ∀ e ∈ entries, ∃ s, e.1 = .str s) (hmem : Key.str name ∈ entries.map (·.1)) :
    (insert (.str name) value entries).map (·.1) = entries.map (·.1) := by
  induction entries with
  | nil => cases hmem
  | cons e es ih =>
    obtain ⟨s, hs⟩ := htexts e List.mem_cons_self
    obtain ⟨k, v⟩ := e
    cases hs
    rw [insert]
    by_cases hsame : s = name
    · rw [if_pos (show (Key.str s).same (.str name) = true from beq_iff_eq.mpr hsame)]
      rfl
    · have hrest : Key.str name ∈ es.map (·.1) :=
        (List.mem_cons.mp hmem).resolve_left fun heq => hsame (Key.str.inj heq).symm
      have hdiffer : (Key.str s).same (.str name) = false := beq_eq_false_iff_ne.mpr hsame
      rw [hdiffer, if_neg Bool.false_ne_true, List.map_cons, List.map_cons,
        ih (fun d hd => htexts d (List.mem_cons_of_mem _ hd)) hrest]

theorem nodup_insert {name : String} {value : α} {entries : List (Key × α)}
    (htexts : ∀ e ∈ entries, ∃ s, e.1 = .str s) (h : (entries.map (·.1)).Nodup) :
    ((insert (.str name) value entries).map (·.1)).Nodup := by
  by_cases hmem : Key.str name ∈ entries.map (·.1)
  · rw [map_fst_insert_of_mem htexts hmem]
    exact h
  · rw [insert_of_notMem htexts hmem, List.map_append]
    refine List.nodup_append.mpr ⟨h, List.nodup_singleton _, fun k hk d hd => ?_⟩
    rw [List.map_singleton, List.mem_singleton] at hd
    rintro rfl
    rw [hd] at hk
    exact hmem hk

theorem nodup_foldl_insert {entries before : List (Key × α)}
    (htexts : ∀ e ∈ entries, ∃ s, e.1 = .str s) (hbefore : ∀ e ∈ before, ∃ s, e.1 = .str s)
    (h : (before.map (·.1)).Nodup) :
    ((entries.foldl (fun es e => insert e.1 e.2 es) before).map (·.1)).Nodup := by
  induction entries generalizing before with
  | nil => exact h
  | cons e entries ih =>
    obtain ⟨name, hname⟩ := htexts e List.mem_cons_self
    have hinsert : ∀ d ∈ insert e.1 e.2 before, (∃ s, d.1 = .str s) ∧ True :=
      forall_insert (P := fun k => ∃ s, k = .str s) (Q := fun _ => True) ⟨name, hname⟩ trivial
        fun d hd => ⟨hbefore d hd, trivial⟩
    rw [List.foldl_cons]
    exact ih (fun d hd => htexts d (List.mem_cons_of_mem _ hd)) (fun d hd => (hinsert d hd).1)
      (hname ▸ nodup_insert hbefore h)

/-- No two of the entries that entries under texts describe are under the same text. -/
theorem nodup_ofList {entries : List (Key × α)} (htexts : ∀ e ∈ entries, ∃ s, e.1 = .str s) :
    ((ofList entries).map (·.1)).Nodup :=
  nodup_foldl_insert htexts (List.forall_mem_nil _) List.nodup_nil

end Entries
end Vitrine
