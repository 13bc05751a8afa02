import Mathlib
import Vitrine.Host

/-!
# What work comes to

`Work.exec` is the result of work and the host behind it. Its equations follow the way work is put
together; work that is `Quiet` leaves a host as it is, its log apart.
-/
namespace Vitrine

/-- A host with another log. -/
def Host.withLogs (h : Host) (logs : List LogEntry) : Host := { h with logs }

namespace Work

variable {α β : Type}

/-- The result of work on a host, and the host behind it. -/
def exec (w : Work α) (h : Host) : Result α × Host := w.run.run h

@[simp] theorem exec_pure (a : α) (h : Host) : (pure a : Work α).exec h = (.ok a, h) := rfl

@[simp] theorem exec_throw (e : Error) (h : Host) :
    (throw e : Work α).exec h = (.error e, h) := rfl

@[simp] theorem exec_get (h : Host) : (get : Work Host).exec h = (.ok h, h) := rfl

@[simp] theorem exec_modify (f : Host → Host) (h : Host) :
    (modify f : Work Unit).exec h = (.ok (), f h) := rfl

theorem exec_bind (w : Work α) (f : α → Work β) (h : Host) :
    (w >>= f).exec h =
      match w.exec h with
      | (.ok a, k) => (f a).exec k
      | (.error e, k) => (.error e, k) := by
  show (ExceptT.bind w f).run.run h = _
  simp only [ExceptT.bind, ExceptT.run, ExceptT.mk, StateT.run, bind, StateT.bind, exec]
  cases hw : w h with
  | mk r k => cases r <;> rfl

theorem exec_bind_ok {w : Work α} {f : α → Work β} {h k : Host} {a : α}
    (hw : w.exec h = (.ok a, k)) : (w >>= f).exec h = (f a).exec k := by
  rw [exec_bind, hw]

theorem exec_bind_error {w : Work α} {f : α → Work β} {h k : Host} {e : Error}
    (hw : w.exec h = (.error e, k)) : (w >>= f).exec h = (.error e, k) := by
  rw [exec_bind, hw]

/-- What succeeds did so step by step. -/
theorem exec_bind_eq_ok {w : Work α} {f : α → Work β} {h k : Host} {b : β}
    (he : (w >>= f).exec h = (.ok b, k)) :
    ∃ a l, w.exec h = (.ok a, l) ∧ (f a).exec l = (.ok b, k) := by
  rw [exec_bind] at he
  match hw : w.exec h with
  | (.error e, l) =>
    rw [hw] at he
    cases he
  | (.ok a, l) =>
    rw [hw] at he
    exact ⟨a, l, rfl, he⟩

/-- What goes before the same continuation need not be the same, only do the same. -/
theorem exec_bind_congr {v w : Work α} {h k : Host} (he : v.exec h = w.exec k) (f : α → Work β) :
    (v >>= f).exec h = (w >>= f).exec k := by
  rw [exec_bind, exec_bind, he]

theorem exec_tryCatch (w : Work α) (f : Error → Work α) (h : Host) :
    (tryCatch w f).exec h =
      match w.exec h with
      | (.ok a, k) => (.ok a, k)
      | (.error e, k) => (f e).exec k := by
  show (ExceptT.tryCatch w f).run.run h = _
  simp only [ExceptT.tryCatch, ExceptT.run, ExceptT.mk, StateT.run, bind, StateT.bind, exec]
  cases hw : w h with
  | mk r k => cases r <;> rfl

@[simp] theorem exec_look (f : Host → Result α) (h : Host) : (look f).exec h = (f h, h) := by
  rw [look, exec_bind, exec_get]
  cases hf : f h <;> simp [hf]

theorem exec_perform (f : Host → Result Change) (h : Host) :
    (perform f).exec h =
      match f h with
      | .ok c => (.ok (), h.change c)
      | .error e => (.error e, h) := by
  rw [perform, exec_bind, exec_look]
  cases hf : f h <;> rfl

theorem exec_perform_ok {f : Host → Result Change} {h : Host} {c : Change} (hf : f h = .ok c) :
    (perform f).exec h = (.ok (), h.change c) := by
  rw [exec_perform, hf]

theorem exec_perform_eq_ok {f : Host → Result Change} {h k : Host}
    (he : (perform f).exec h = (.ok (), k)) : ∃ c, f h = .ok c ∧ k = h.change c := by
  rw [exec_perform] at he
  cases hf : f h with
  | error e =>
    rw [hf] at he
    cases he
  | ok c =>
    rw [hf] at he
    exact ⟨c, rfl, (Prod.mk.inj he).2.symm⟩

theorem exec_attempt (w : Work α) (h : Host) :
    (attempt w).exec h =
      match w.exec h with
      | (.ok a, k) => (.ok (.ok a), k)
      | (.error (.system e), k) => (.ok (.error e), k)
      | (.error e, k) => (.error e, k) := by
  rw [attempt, exec_tryCatch, exec_bind]
  match w.exec h with
  | (.ok a, k) => rfl
  | (.error e, k) => cases e <;> rfl

theorem exec_attempt_ok {w : Work α} {h k : Host} {a : α} (hw : w.exec h = (.ok a, k)) :
    (attempt w).exec h = (.ok (.ok a), k) := by
  rw [exec_attempt, hw]

theorem exec_attempt_eq_ok {w : Work α} {h k : Host} {a : α}
    (he : (attempt w).exec h = (.ok (.ok a), k)) : w.exec h = (.ok a, k) := by
  rw [exec_attempt] at he
  match hw : w.exec h with
  | (.ok b, l) =>
    rw [hw] at he
    cases he
    rfl
  | (.error e, l) =>
    rw [hw] at he
    cases e <;> cases he

theorem exec_attempt_system {w : Work α} {h k : Host} {e : Errno}
    (hw : w.exec h = (.error (.system e), k)) : (attempt w).exec h = (.ok (.error e), k) := by
  rw [exec_attempt, hw]

@[simp] theorem exec_warn (text : String) (h : Host) :
    (warn text).exec h = (.ok (), h.log .warning text) := rfl

@[simp] theorem exec_issue (h : Host) :
    issue.exec h = (.ok (h.issued + 1), { h with issued := h.issued + 1 }) := rfl

/-! ## How work moves a host -/

/-- Work that leads from a host to one in a relation with it, however it ends. -/
def Moves (R : Host → Host → Prop) (w : Work α) : Prop := ∀ h, R h (w.exec h).2

variable {R : Host → Host → Prop}

section Refl

variable [Std.Refl R]

theorem moves_pure (a : α) : Moves R (pure a : Work α) := fun h => Std.Refl.refl h

theorem moves_throw (e : Error) : Moves R (throw e : Work α) := fun h => Std.Refl.refl h

theorem moves_look (f : Host → Result α) : Moves R (look f) := by
  intro h
  rw [exec_look]
  exact Std.Refl.refl h

theorem moves_perform {f : Host → Result Change} (hf : ∀ h c, f h = .ok c → R h (h.change c)) :
    Moves R (perform f) := by
  intro h
  rw [exec_perform]
  cases hc : f h with
  | error e => exact Std.Refl.refl h
  | ok c => exact hf h c hc

end Refl

section Trans

variable [Trans R R R]

theorem Moves.bind {w : Work α} {f : α → Work β} (hw : Moves R w) (hf : ∀ a, Moves R (f a)) :
    Moves R (w >>= f) := by
  intro h
  have hfirst := hw h
  rw [exec_bind]
  match he : w.exec h with
  | (.error e, k) =>
    rw [he] at hfirst
    exact hfirst
  | (.ok a, k) =>
    rw [he] at hfirst
    exact Trans.trans hfirst (hf a k)

theorem Moves.tryCatch {w : Work α} {f : Error → Work α} (hw : Moves R w)
    (hf : ∀ e, Moves R (f e)) : Moves R (tryCatch w f) := by
  intro h
  have hfirst := hw h
  rw [exec_tryCatch]
  match he : w.exec h with
  | (.ok a, k) =>
    rw [he] at hfirst
    exact hfirst
  | (.error e, k) =>
    rw [he] at hfirst
    exact Trans.trans hfirst (hf e k)

theorem Moves.attempt [Std.Refl R] {w : Work α} (hw : Moves R w) : Moves R (attempt w) := by
  refine (hw.bind fun a => moves_pure _).tryCatch fun e => ?_
  cases e with
  | system e => exact moves_pure _
  | _ => exact moves_throw _

end Trans

theorem Moves.ite {c : Prop} [Decidable c] {v w : Work α}
    (hv : Moves R v) (hw : Moves R w) : Moves R (if c then v else w) := by
  split
  · exact hv
  · exact hw

/-! ## How work fails -/

/-- Work that fails in some errors only. -/
def Fails (S : Error → Prop) (w : Work α) : Prop := ∀ h e, (w.exec h).1 = .error e → S e

section Fails

variable {S : Error → Prop}

theorem fails_pure (a : α) : Fails S (pure a : Work α) := fun _ _ he => nomatch he

theorem fails_throw {e : Error} (he : S e) : Fails S (throw e : Work α) :=
  fun _ _ h => Except.error.inj h ▸ he

theorem fails_look {f : Host → Result α} (hf : ∀ h e, f h = .error e → S e) : Fails S (look f) := by
  intro h e he
  rw [exec_look] at he
  exact hf h e he

theorem fails_perform {f : Host → Result Change} (hf : ∀ h e, f h = .error e → S e) :
    Fails S (perform f) := by
  intro h e he
  rw [exec_perform] at he
  cases hc : f h with
  | ok c =>
    rw [hc] at he
    cases he
  | error g =>
    rw [hc] at he
    cases he
    exact hf h e hc

theorem fails_warn (text : String) : Fails S (warn text) := fun _ _ he => nomatch he

theorem Fails.bind {w : Work α} {f : α → Work β} (hw : Fails S w) (hf : ∀ a, Fails S (f a)) :
    Fails S (w >>= f) := by
  intro h e he
  rw [exec_bind] at he
  match hx : w.exec h with
  | (.error g, k) =>
    rw [hx] at he
    cases he
    exact hw h e (by rw [hx])
  | (.ok a, k) =>
    rw [hx] at he
    exact hf a k e he

theorem Fails.mono {T : Error → Prop} {w : Work α} (hw : Fails S w) (hST : ∀ e, S e → T e) :
    Fails T w := fun h e he => hST e (hw h e he)

/-- The errors of the system do not get out of an attempt. -/
theorem Fails.attempt {w : Work α} (hw : Fails (fun e => S e ∨ ∃ n, e = .system n) w) :
    Fails S (attempt w) := by
  intro h e he
  rw [exec_attempt] at he
  match hx : w.exec h with
  | (.ok a, k) =>
    rw [hx] at he
    cases he
  | (.error g, k) =>
    have hg := hw h g (by rw [hx])
    rw [hx] at he
    cases g with
    | system n => cases he
    | _ =>
      cases he
      exact hg.resolve_right fun ⟨_, hn⟩ => nomatch hn

theorem Fails.ite {c : Prop} [Decidable c] {v w : Work α} (hv : Fails S v) (hw : Fails S w) :
    Fails S (if c then v else w) := by
  split
  · exact hv
  · exact hw

end Fails

/-! ## What holds after work -/

/-- Work after which a property holds if it does not fail. -/
def Ensures (Q : Host → Prop) (w : Work α) : Prop := ∀ h k a, w.exec h = (.ok a, k) → Q k

section Ensures

variable {Q : Host → Prop}

theorem ensures_throw (e : Error) : Ensures Q (throw e : Work α) := fun _ _ _ he => nomatch he

theorem Ensures.bind {w : Work α} {f : α → Work β} (hf : ∀ a, Ensures Q (f a)) :
    Ensures Q (w >>= f) := by
  intro h k b he
  obtain ⟨a, l, -, hrest⟩ := exec_bind_eq_ok he
  exact hf a l k b hrest

/-- After an attempt that succeeds nothing needs to follow. -/
theorem Ensures.attempt_bind {w : Work α} {f : Except Errno α → Work β} {b : β}
    (hw : Ensures Q w) (hok : ∀ a, f (.ok a) = pure b) (herror : ∀ e, Ensures Q (f (.error e))) :
    Ensures Q (attempt w >>= f) := by
  intro h k c he
  rw [exec_bind, exec_attempt] at he
  match hx : w.exec h with
  | (.ok a, l) =>
    rw [hx] at he
    dsimp only at he
    rw [hok] at he
    cases he
    exact hw h k a hx
  | (.error e, l) =>
    rw [hx] at he
    cases e with
    | system e => exact herror e l k c he
    | _ => cases he

end Ensures

/-! ## Work that leaves files alone -/

/-- Hosts that differ in their logs. -/
def SameButLogs (h k : Host) : Prop := ∃ logs, k = h.withLogs logs

instance : Std.Refl SameButLogs := ⟨fun h => ⟨h.logs, rfl⟩⟩

instance : Trans SameButLogs SameButLogs SameButLogs :=
  ⟨fun ⟨_, hk⟩ ⟨logs, hl⟩ => ⟨logs, by rw [hl, hk]; rfl⟩⟩

/-- Work that changes nothing but the log. -/
abbrev Quiet (w : Work α) : Prop := Moves SameButLogs w

theorem quiet_warn (text : String) : (warn text).Quiet :=
  fun h => ⟨h.logs ++ [⟨.warning, text⟩], rfl⟩

/-! ## Work that changes nothing -/

/-- The result of work on a host. -/
def outcome (w : Work α) (h : Host) : Result α := (w.exec h).1

@[simp] theorem outcome_pure (a : α) (h : Host) : (pure a : Work α).outcome h = .ok a := rfl

@[simp] theorem outcome_throw (e : Error) (h : Host) :
    (throw e : Work α).outcome h = .error e := rfl

@[simp] theorem outcome_look (f : Host → Result α) (h : Host) : (look f).outcome h = f h := by
  rw [outcome, exec_look]

/-- Work that leaves a host as it is. -/
abbrev Still (w : Work α) : Prop := Moves (· = ·) w

theorem Still.exec_eq {w : Work α} (hw : w.Still) (h : Host) : w.exec h = (w.outcome h, h) :=
  Prod.ext rfl (hw h).symm

theorem Still.outcome_bind {w : Work α} (hw : w.Still) (f : α → Work β) (h : Host) :
    (w >>= f).outcome h = w.outcome h >>= fun a => (f a).outcome h := by
  rw [outcome, exec_bind, hw.exec_eq h]
  cases w.outcome h <;> rfl

theorem outcome_look_bind (g : Host → Result α) (f : α → Work β) (h : Host) :
    (look g >>= f).outcome h = g h >>= fun a => (f a).outcome h := by
  rw [Still.outcome_bind (moves_look g), outcome_look]

/-! ## Work that does not look at the log -/

/-- Work that does the same whatever was logged before. -/
def Blind (w : Work α) : Prop :=
  ∀ h logs, ∃ logs', w.exec (h.withLogs logs) = ((w.exec h).1, (w.exec h).2.withLogs logs')

theorem blind_pure (a : α) : (pure a : Work α).Blind := fun _ logs => ⟨logs, rfl⟩

theorem blind_throw (e : Error) : (throw e : Work α).Blind := fun _ logs => ⟨logs, rfl⟩

theorem blind_warn (text : String) : (warn text).Blind :=
  fun _ logs => ⟨logs ++ [⟨.warning, text⟩], rfl⟩

theorem blind_look {f : Host → Result α} (hf : ∀ h logs, f (h.withLogs logs) = f h) :
    (look f).Blind := by
  intro h logs
  refine ⟨logs, ?_⟩
  rw [exec_look, exec_look, hf]

theorem blind_perform {f : Host → Result Change} (hf : ∀ h logs, f (h.withLogs logs) = f h) :
    (perform f).Blind := by
  intro h logs
  refine ⟨logs, ?_⟩
  rw [exec_perform, exec_perform, hf]
  cases f h <;> rfl

theorem Blind.bind {w : Work α} {f : α → Work β} (hw : w.Blind) (hf : ∀ a, (f a).Blind) :
    (w >>= f).Blind := by
  intro h logs
  obtain ⟨logs', hl⟩ := hw h logs
  rw [exec_bind, exec_bind, hl]
  match w.exec h with
  | (.ok a, k) => exact hf a k logs'
  | (.error e, k) => exact ⟨logs', rfl⟩

theorem Blind.tryCatch {w : Work α} {f : Error → Work α} (hw : w.Blind) (hf : ∀ e, (f e).Blind) :
    (tryCatch w f).Blind := by
  intro h logs
  obtain ⟨logs', hl⟩ := hw h logs
  rw [exec_tryCatch, exec_tryCatch, hl]
  match w.exec h with
  | (.ok a, k) => exact ⟨logs', rfl⟩
  | (.error e, k) => exact hf e k logs'

theorem Blind.attempt {w : Work α} (hw : w.Blind) : (attempt w).Blind := by
  refine (hw.bind fun a => blind_pure _).tryCatch fun e => ?_
  cases e with
  | system e => exact blind_pure _
  | _ => exact blind_throw _

theorem Blind.ite {c : Prop} [Decidable c] {v w : Work α} (hv : v.Blind) (hw : w.Blind) :
    (if c then v else w).Blind := by
  split
  · exact hv
  · exact hw

end Work
end Vitrine
