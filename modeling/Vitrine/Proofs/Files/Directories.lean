import Vitrine.Proofs.Files.Operations
import Vitrine.Proofs.Work

/-!
# Making directories

A history of changes, as the stores that it passes through, and directories that are made with those
that they lie in: only free names become directories, and nothing happens where there is a directory
already.
-/
namespace Vitrine

namespace Host

/-- A host comes from another one by changes, and all stores on the way have a property. -/
def Passes (P : Store → Prop) (h k : Host) : Prop :=
  ∃ cs, k.history = h.history ++ cs ∧ k.store = h.store.replay cs ∧
    ∀ n, P (h.store.replay (cs.take n))

variable {P Q : Store → Prop} {h k : Host}

theorem passes_refl (hp : P h.store) : Passes P h h :=
  ⟨[], (List.append_nil _).symm, rfl, fun n => by simpa [Store.replay] using hp⟩

theorem Passes.mono (hp : Passes P h k) (hpq : ∀ s, P s → Q s) : Passes Q h k := by
  obtain ⟨cs, hh, hs, hall⟩ := hp
  exact ⟨cs, hh, hs, fun n => hpq _ (hall n)⟩

theorem Passes.withLogs (hp : Passes P h k) (logs : List LogEntry) :
    Passes P h (k.withLogs logs) := hp

theorem Passes.change (hp : Passes P h k) {c : Change} (hc : P (c.apply k.store)) :
    Passes P h (k.change c) := by
  obtain ⟨cs, hh, hs, hall⟩ := hp
  refine ⟨cs ++ [c], ?_, ?_, fun n => ?_⟩
  · show k.history ++ [c] = _
    rw [hh, List.append_assoc]
  · show c.apply k.store = _
    rw [Store.replay_append, ← hs]
    rfl
  · by_cases hn : n ≤ cs.length
    · rw [List.take_append_of_le_length hn]
      exact hall n
    · rw [List.take_of_length_le (by simp; omega), Store.replay_append, ← hs]
      exact hc

/-- A host comes from another one by making directories where nothing was, one after the other. -/
inductive Grows (h : Host) : Host → Prop
  | refl : Grows h h
  | step {k : Host} {q : Place} (before : Grows h k) (hroot : q ≠ [])
      (hfree : k.store.seen q = none) (hparent : k.store.IsDirectory q.dropLast) :
      Grows h (k.change (.makeDirectory q))

theorem extends_makeDirectory {s : Store} {q : Place} (hroot : q ≠ []) (hfree : s.seen q = none) :
    s.Extends ((Change.makeDirectory q).apply s) := by
  intro r
  by_cases hr : r = q
  · subst hr
    refine Or.inr ⟨hfree, Node.directoryMode, ?_⟩
    rw [Change.seen_makeDirectory s r hroot, if_pos rfl]
  · left
    rw [Change.seen_makeDirectory s r hroot, if_neg hr]

theorem Grows.extends (hg : Grows h k) : h.store.Extends k.store := by
  induction hg with
  | refl => exact .refl _
  | step before hroot hfree hparent ih => exact ih.trans (extends_makeDirectory hroot hfree)

/-- Every store on the way lies between the first and the last. -/
theorem Grows.passes (hg : Grows h k) :
    Passes (fun s => h.store.Extends s ∧ s.Extends k.store) h k := by
  induction hg with
  | refl => exact passes_refl ⟨.refl _, .refl _⟩
  | @step k q before hroot hfree hparent ih =>
    have hnext := extends_makeDirectory hroot hfree
    refine (ih.mono fun s hs => ⟨hs.1, hs.2.trans hnext⟩).change ⟨?_, .refl _⟩
    exact before.extends.trans hnext

theorem Grows.trans {l : Host} (hg : Grows h k) (hl : Grows k l) : Grows h l := by
  induction hl with
  | refl => exact hg
  | step _ hroot hfree hparent ih => exact .step ih hroot hfree hparent

/-- Only the files and the history change. -/
theorem Grows.eq (hg : Grows h k) :
    ∃ cs : List Change, k = { h with store := k.store, history := h.history ++ cs } ∧
      ∀ c ∈ cs, ∃ q, c = .makeDirectory q := by
  induction hg with
  | refl => exact ⟨[], by simp, by simp⟩
  | @step k q before hroot hfree hparent ih =>
    obtain ⟨cs, hk, hall⟩ := ih
    refine ⟨cs ++ [.makeDirectory q], ?_, ?_⟩
    · rw [hk]
      simp [change]
    · intro c hc
      rcases List.mem_append.mp hc with hc | hc
      · exact hall c hc
      · exact ⟨q, List.mem_singleton.mp hc⟩

end Host

namespace Work

open Host

instance : Std.Refl Grows := ⟨fun _ => .refl⟩

instance : Trans Grows Grows Grows := ⟨Grows.trans⟩

theorem grows_of_makingDirectory {p : Path} {h : Host} {c : Change}
    (hc : h.makingDirectory p = .ok c) : h.Grows (h.change c) := by
  rw [makingDirectory] at hc
  cases hr : h.reach false p with
  | error e => simp [hr] at hc
  | ok x =>
    rw [hr] at hc
    cases x with
    | there place n => cases hc
    | free place =>
      cases hc
      obtain ⟨hs, hl⟩ := leads_of_reach hr
      have hfree : h.store.seen place = none := by
        have hx := Except.ok.inj (hr.symm.trans (reach_eq hs hl))
        rw [Store.reachedAt] at hx
        rw [Store.seen_eq_none]
        cases hg : h.store.get? (Reached.free place).place with
        | none => exact hg
        | some n => simp [hg] at hx
      have hroot : place ≠ [] := by
        rintro rfl
        rw [Store.seen_root] at hfree
        cases hfree
      exact .step .refl hroot hfree (hl.arrives.isWay h.store.isWay_root _ List.prefix_rfl)

theorem makeDirectory_grows (p : Path) : Moves Grows (makeDirectory p) :=
  moves_perform fun _ _ hc => grows_of_makingDirectory hc

theorem acceptDirectory_grows (p : Path) (e : Errno) : Moves Grows (acceptDirectory p e) :=
  (moves_look _).bind fun _ => Moves.ite (moves_throw _) (moves_pure _)

theorem makeDirectoriesWithin_grows (n : Nat) (p : Path) :
    Moves Grows (makeDirectoriesWithin n p) := by
  induction n generalizing p with
  | zero => exact makeDirectory_grows p
  | succ n ih =>
    have hmake := (makeDirectory_grows p).attempt
    rw [makeDirectoriesWithin]
    refine hmake.bind fun r => ?_
    split
    · exact moves_pure _
    · refine (ih p.parent).bind fun _ => hmake.bind fun r => ?_
      split
      · exact moves_pure _
      · exact moves_throw _
      · exact acceptDirectory_grows p _
    · exact acceptDirectory_grows p _

theorem makeDirectories_grows (p : Path) : Moves Grows (makeDirectories p) :=
  makeDirectoriesWithin_grows p.parts.length p

theorem makeDirectory_blind (p : Path) : (makeDirectory p).Blind := blind_perform fun _ _ => rfl

theorem acceptDirectory_blind (p : Path) (e : Errno) : (acceptDirectory p e).Blind :=
  (blind_look fun _ _ => rfl).bind fun _ => Blind.ite (blind_throw _) (blind_pure _)

theorem makeDirectoriesWithin_blind (n : Nat) (p : Path) : (makeDirectoriesWithin n p).Blind := by
  induction n generalizing p with
  | zero => exact makeDirectory_blind p
  | succ n ih =>
    have hmake := (makeDirectory_blind p).attempt
    rw [makeDirectoriesWithin]
    refine hmake.bind fun r => ?_
    split
    · exact blind_pure _
    · refine (ih p.parent).bind fun _ => hmake.bind fun r => ?_
      split
      · exact blind_pure _
      · exact blind_throw _
      · exact acceptDirectory_blind p _
    · exact acceptDirectory_blind p _

theorem makeDirectories_blind (p : Path) : (makeDirectories p).Blind :=
  makeDirectoriesWithin_blind p.parts.length p

/-- Where there is a directory already, none can be made. -/
theorem makeDirectory_of_isDirectory {p : Path} {h : Host} {q : Place} (hs : p.isSound = true)
    (hl : h.store.Leads true (h.absolute p) q) (hd : h.store.IsDirectory q) :
    (makeDirectory p).exec h = (.error (.system .alreadyExists), h) := by
  obtain ⟨r, ha, hr⟩ := hl.arrives.unfollowed hd
  obtain ⟨m, hm, _⟩ := Option.map_eq_some_iff.mp (Option.ne_none_iff_exists'.mp hr).choose_spec
  rw [makeDirectory, exec_perform, makingDirectory, reach_eq hs ⟨hl.short, ha⟩,
    Store.reachedAt_of_get? hm]

/-- Where there is a directory already, nothing happens. -/
theorem makeDirectories_of_isDirectory {p : Path} {h : Host} {q : Place} (hparts : p.parts ≠ [])
    (hs : p.isSound = true) (hl : h.store.Leads true (h.absolute p) q)
    (hd : h.store.IsDirectory q) : (makeDirectories p).exec h = (.ok (), h) := by
  obtain ⟨n, hn⟩ : ∃ n, p.parts.length = n + 1 :=
    Nat.exists_eq_succ_of_ne_zero fun h0 => hparts (List.length_eq_zero_iff.mp h0)
  have haccept : (isDirectory p).exec h = (.ok true, h) := by
    obtain ⟨mode, changed, hg⟩ := Store.get?_of_isDirectory hd
    rw [isDirectory, exec_look, isNode, node, reach_eq hs hl, Store.reachedAt_of_get? hg]
    rfl
  rw [makeDirectories, hn, makeDirectoriesWithin,
    exec_bind_ok (exec_attempt_system (makeDirectory_of_isDirectory hs hl hd))]
  show (acceptDirectory p .alreadyExists).exec h = _
  rw [acceptDirectory, exec_bind_ok haccept]
  rfl

end Work
end Vitrine
