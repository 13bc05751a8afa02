import Vitrine.Proofs.Session.Surroundings

/-!
# Signals that are delivered

A signal is handled statement by statement, and more signals may arrive meanwhile, which are handled in
between. `Delivers` is any number of signals in that way. What such a delivery leaves alone is what each
handler leaves alone, and it fails only if neither the dev server is started nor the entry file is being
put back (`Delivers.handles`).
-/
namespace Vitrine
namespace Session

variable {σ : Type}

/-- The gaps between the statements that handle a signal. -/
inductive Instant where
  | called | unnoted | noted | heard | asking | ending | raising
  deriving DecidableEq

/-- The signal is remembered if it is the first. -/
def note (pause : Instant → Act σ Unit) (signal : Nat) : Act σ Unit := do
  pause .called
  if (← Act.session).signal.isNone then
    pause .unnoted
    Act.setSession fun s => { s with signal := some signal }

/-- The dev server is asked to end, or the session stops where it is. -/
def obey (script : Script σ) (pause : Instant → Act σ Unit) (signal : Nat) : Act σ Unit := do
  if (← Act.session).phase = .restoring then return
  pause .heard
  if (← Act.session).started then
    pause .asking
    if (← Act.server).ended.isNone then
      pause .ending
      terminate script
  else
    pause .raising
    throw (.interrupted signal)

/-- A signal arrives, with something in between the statements that handle it. -/
def receiveBetween (script : Script σ) (pause : Instant → Act σ Unit) (signal : Nat) : Act σ Unit := do
  note pause signal
  pause .noted
  obey script pause signal

/-- Any number of signals, one after the other and one while another one is handled. -/
inductive Delivers (script : Script σ) : Act σ Unit → Prop
  | none : Delivers script (pure ())
  | signal {pause : Instant → Act σ Unit} {rest : Act σ Unit} (n : Nat)
      (within : ∀ p, Delivers script (pause p)) (after : Delivers script rest) :
      Delivers script (receiveBetween script pause n >>= fun _ => rest)

variable {script : Script σ} {I : Scene σ → Prop} {phase : Phase} {started : Bool} {t : Scene σ}
  {a b : Act σ Unit}

/-- With nothing in between a signal is received. -/
theorem receiveBetween_quiet (n : Nat) (t : Scene σ) :
    (receiveBetween script (fun _ => pure ()) n).exec t = (receive script n).exec t := by
  have hnote : (note (fun _ => pure ()) n).exec t =
      (.ok (), { t with session := { t.session with signal := t.session.signal.or (some n) } }) := by
    rw [note, pure_bind, Act.exec_bind_ok (Act.exec_session t)]
    cases hs : t.session.signal with
    | none => rfl
    | some m =>
      obtain ⟨host, session, server, outside⟩ := t
      cases session
      cases hs
      rfl
  rw [receiveBetween, Act.exec_bind_ok hnote, receive, Act.exec_bind_ok (Act.exec_setSession _ t)]
  rw [pure_bind, obey, Act.exec_bind_ok (Act.exec_session _), Act.exec_bind_ok (Act.exec_session _)]
  split
  · rfl
  · rw [pure_bind, Act.exec_bind_ok (Act.exec_session _)]
    rfl

/-! ## Handling -/

/-- A property of scenes in some phase, with the dev server started or not, that a handler leaves
alone. -/
structure Hears (script : Script σ) (phase : Phase) (started : Bool) (I : Scene σ → Prop) :
    Prop where
  phase_eq : ∀ t, I t → t.session.phase = phase
  started_eq : ∀ t, I t → t.session.started = started
  signal : ∀ t n, I t → I (t.withSignal n)
  terminate : phase ≠ .restoring → started = true → Act.Keeps I (Session.terminate script)

/-- An act that keeps a property and can only fail by an interruption, and not even so if the dev server
is started or the entry file is being put back. -/
def Handles (phase : Phase) (started : Bool) (I : Scene σ → Prop) (a : Act σ Unit) : Prop :=
  ∀ t, I t → ∃ u, I u ∧ (a.exec t = (.ok (), u) ∨
    phase ≠ .restoring ∧ started = false ∧ ∃ n, a.exec t = (.error (.interrupted n), u))

theorem handles_pure : Handles phase started I (pure ()) := fun t h => ⟨t, h, Or.inl rfl⟩

theorem Handles.bind (ha : Handles phase started I a) (hb : Handles phase started I b) :
    Handles phase started I (a >>= fun _ => b) := by
  intro t h
  obtain ⟨u, hu, ha | ⟨hp, hs, n, ha⟩⟩ := ha t h
  · rw [Act.exec_bind_ok ha]
    exact hb u hu
  · exact ⟨u, hu, Or.inr ⟨hp, hs, n, Act.exec_bind_error ha⟩⟩

namespace Hears

variable (hI : Hears script phase started I)
include hI

theorem handles_session {f : Session → Act σ Unit}
    (hf : ∀ s : Session, s.phase = phase → s.started = started → Handles phase started I (f s)) :
    Handles phase started I (Act.session >>= f) := by
  intro t h
  rw [Act.exec_bind_ok (Act.exec_session t)]
  exact hf t.session (hI.phase_eq t h) (hI.started_eq t h) t h

theorem handles_note {pause : Instant → Act σ Unit} (hp : ∀ p, Handles phase started I (pause p))
    (n : Nat) : Handles phase started I (note pause n) := by
  refine (hp .called).bind (hI.handles_session fun s _ _ => ?_)
  split
  · exact (hp .unnoted).bind fun t h => ⟨_, hI.signal t _ h, Or.inl rfl⟩
  · exact handles_pure

theorem handles_obey {pause : Instant → Act σ Unit} (hp : ∀ p, Handles phase started I (pause p))
    (n : Nat) : Handles phase started I (obey script pause n) := by
  refine hI.handles_session fun s hphase _ => ?_
  by_cases hr : s.phase = .restoring
  · rw [if_pos hr]
    exact handles_pure
  · rw [if_neg hr]
    rw [hphase] at hr
    refine (hp .heard).bind (hI.handles_session fun s _ hstarted => ?_)
    cases hs : s.started with
    | true =>
      refine (hp .asking).bind fun t h => ?_
      rw [Act.exec_bind_ok (Act.exec_server t)]
      split
      · refine ((hp .ending).bind fun t h => ⟨_, ?_, Or.inl (terminate_exec t)⟩) t h
        have hasked := hI.terminate hr (hstarted.symm.trans hs) t h
        rwa [terminate_exec] at hasked
      · exact ⟨t, h, Or.inl rfl⟩
    | false =>
      refine (hp .raising).bind fun t h => ⟨t, h, Or.inr ⟨hr, hstarted.symm.trans hs, n, rfl⟩⟩

end Hears

/-- Handlers leave a property alone, and stop the session only before the dev server is started. -/
theorem Delivers.handles (hd : Delivers script a) (hI : Hears script phase started I) :
    Handles phase started I a := by
  induction hd with
  | none => exact handles_pure
  | signal n within after ihwithin ihafter =>
    refine Handles.bind ?_ ihafter
    exact (hI.handles_note ihwithin n).bind ((ihwithin .noted).bind (hI.handles_obey ihwithin n))

/-! ## What handlers leave alone -/

variable {l : Lease} {journal : σ → List Change} {r : Scene σ}

theorem Continues.hears (ht : l.Tenable) (hs : Spares l journal script) :
    Hears script r.session.phase r.session.started (Continues l journal r) where
  phase_eq _ h := h.phase
  started_eq _ h := h.started
  signal _ n h := h.withSignal n
  terminate _ hstarted _ h := h.terminate ht hs (h.started.trans hstarted)

/-- Between two statements of a session, signals leave it what it holds. -/
theorem Delivers.continues (hd : Delivers script a) (ht : l.Tenable) (hs : Spares l journal script)
    (h : Held l journal t) : ∃ u, Continues l journal t u ∧ (a.exec t = (.ok (), u) ∨
      t.session.phase ≠ .restoring ∧ t.session.started = false ∧
        ∃ n, a.exec t = (.error (.interrupted n), u)) :=
  hd.handles (Continues.hears ht hs) t h.continues

/-- While the entry file is put back, signals are only remembered. -/
theorem Delivers.restoring (hd : Delivers script a) (hp : t.session.phase = .restoring) :
    ∃ n, a.exec t = (.ok (), t.withSignal n) := by
  have hI : Hears script .restoring t.session.started fun u => ∃ n, u = t.withSignal n := by
    refine ⟨?_, ?_, ?_, fun hne => absurd rfl hne⟩
    · rintro _ ⟨n, rfl⟩
      exact hp
    · rintro _ ⟨n, rfl⟩
      rfl
    · rintro _ m ⟨n, rfl⟩
      exact ⟨m, rfl⟩
  obtain ⟨u, ⟨n, rfl⟩, hu | ⟨hne, -⟩⟩ := hd.handles hI t ⟨t.session.signal, rfl⟩
  · exact ⟨n, hu⟩
  · exact absurd rfl hne

end Session
end Vitrine
