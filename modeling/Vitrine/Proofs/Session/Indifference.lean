import Vitrine.Proofs.Preview.Generation
import Vitrine.Proofs.Session.Act
import Vitrine.Session.Run

/-!
# What the acts of a session leave alone

A property of scenes is kept by an act if it is kept by the few changes that the act is made of. The
rules below say so for signals and waiting, for following changes and for tearing down.
-/
namespace Vitrine

/-- What never goes back while a dev server is asked and waited for. -/
structure DevServer.Precedes (s s' : DevServer) : Prop where
  waits : s.waits ≤ s'.waits
  ended : s.ended.isSome = true → s'.ended.isSome = true
  terminated : s.terminated = true → s'.terminated = true

theorem DevServer.precedes_settleWait (s : DevServer) (ignores : Bool) (code : Int)
    (limit : Option Milliseconds) : s.Precedes (s.settleWait ignores code limit).2 := by
  unfold settleWait
  split
  · exact ⟨le_rfl, fun _ => rfl, id⟩
  · split
    · exact ⟨le_rfl, fun _ => rfl, id⟩
    · split
      · exact ⟨le_rfl, id, id⟩
      · exact ⟨le_rfl, fun _ => rfl, id⟩

namespace Session

variable {σ : Type} {script : Script σ} {I : Scene σ → Prop}

theorem terminate_exec (t : Scene σ) :
    (terminate script).exec t =
      let t' : Scene σ := { t with server := { t.server.request .terminate with terminated := true } }
      (.ok (), if t.server.terminated then t' else script.onTermination t') := by
  rw [terminate, Act.exec_bind_ok (Act.exec_server t)]
  show (Act.setServer _ >>= _ : Act σ Unit).exec t = _
  rw [Act.exec_bind_ok (Act.exec_setServer _ t)]
  cases t.server.terminated <;> rfl

theorem exec_kill (t : Scene σ) : (kill : Act σ Unit).exec t =
    (.ok (), { t with server := { t.server.request .kill with killed := true } }) := rfl

/-- What is left of a start once a signal was received. -/
def endStart (script : Script σ) (command : List String) : Act σ Unit :=
  match script.startError with
  | some e => throw (.spawn command e)
  | none => Act.setSession fun s => { s with started := true }

/-! ## Waiting -/

/-- What is left of a wait once it is counted. -/
def endWait (script : Script σ) (waits : Nat) (limit : Option Milliseconds) : Act σ Waited := do
  modify (script.duringWait waits)
  if script.waitFails && waits = 0 then throw (.fault .runtime)
  let (waited, server) :=
    (← Act.server).settleWait script.ignoresTermination script.exitCode limit
  Act.setServer fun _ => server
  return waited

theorem wait_of_ended {t : Scene σ} {code : Int} (h : t.server.ended = some code)
    (limit : Option Milliseconds) :
    (wait script limit).exec t = (.ok (.ended code), { t with server := t.server.request (.wait limit) }) := by
  rw [wait, Act.exec_bind_ok (Act.exec_setServer _ t), Act.exec_bind_ok (Act.exec_server _)]
  split
  · next code' hcode =>
    obtain rfl : code = code' := Option.some.inj (h.symm.trans hcode)
    rfl
  · next hnone => cases h.symm.trans hnone

theorem wait_of_running {t : Scene σ} (h : t.server.ended = none) (limit : Option Milliseconds) :
    (wait script limit).exec t = (endWait script t.server.waits limit).exec
      { t with server := { t.server.request (.wait limit) with waits := t.server.waits + 1 } } := by
  rw [wait, Act.exec_bind_ok (Act.exec_setServer _ t), Act.exec_bind_ok (Act.exec_server _)]
  split
  · next code hcode => cases h.symm.trans hcode
  · rfl

/-- What is done after a wait. -/
def afterWait (script : Script σ) (waits : Nat) (deadline : Deadline) : Waited → Act σ Int
  | .ended code => return code
  | .timedOut => do
    if (← Act.session).signal.isNone then supervise script waits deadline
    else
      let clock := (← Act.server).clock
      match deadline with
      | .unset => supervise script waits (.due (clock + grace))
      | .due time =>
        if time ≤ clock then
          Act.work (Work.warn "Dev server ignored termination, killing it")
          kill
          supervise script waits .passed
        else supervise script waits (.due time)
      | .passed => supervise script waits .passed

theorem supervise_succ (waits : Nat) (deadline : Deadline) :
    supervise script (waits + 1) deadline =
      wait script (some waitSpan) >>= afterWait script waits deadline := by
  rw [supervise]
  refine bind_congr fun waited => ?_
  cases waited <;> rfl

/-- A signal is remembered, and may ask the dev server to end. -/
theorem keeps_receive_of {I : Scene σ → Prop}
    (hsignal : ∀ t n, I t → I { t with session := { t.session with signal := n } })
    (hterminate : Act.Keeps I (terminate script)) (n : Nat) : Act.Keeps I (receive script n) := by
  refine (Act.keeps_setSession fun t h => hsignal t _ h).bind fun _ =>
    Act.keeps_session.bind fun s => ?_
  refine Act.Keeps.ite (Act.keeps_pure _) (Act.Keeps.ite ?_ (Act.keeps_throw _))
  exact Act.keeps_server.bind fun v => Act.Keeps.ite hterminate (Act.keeps_pure _)

/-- A property of scenes that depends on the dev server only as far as that never goes back, and
neither on signals nor on the log. -/
structure Indifferent (script : Script σ) (I : Scene σ → Prop) : Prop where
  server : ∀ t s, I t → t.server.Precedes s → I { t with server := s }
  signal : ∀ t n, I t → I { t with session := { t.session with signal := n } }
  logs : ∀ t logs, I t → I { t with host := t.host.withLogs logs }
  onTermination : ∀ t, I t → t.server.terminated = true → I (script.onTermination t)

namespace Indifferent

variable (hI : Indifferent script I)
include hI

theorem keeps_setServer {f : DevServer → DevServer} (hf : ∀ s : DevServer, s.Precedes (f s)) :
    Act.Keeps I (Act.setServer f) :=
  Act.keeps_setServer fun t h => hI.server t _ h (hf t.server)

theorem keeps_quiet {α : Type} {w : Work α} (hw : w.Quiet) : Act.Keeps I (Act.work w) :=
  Act.keeps_work hw hI.logs

theorem keeps_terminate : Act.Keeps I (terminate script) := by
  intro t h
  have hasked : I { t with server := { t.server.request .terminate with terminated := true } } :=
    hI.server t _ h ⟨le_rfl, id, fun _ => rfl⟩
  rw [terminate_exec]
  show I (ite _ _ _)
  split
  · exact hasked
  · exact hI.onTermination _ hasked rfl

theorem keeps_receive (n : Nat) : Act.Keeps I (receive script n) :=
  keeps_receive_of hI.signal hI.keeps_terminate n

theorem keeps_kill : Act.Keeps I kill := hI.keeps_setServer fun _ => ⟨le_rfl, id, id⟩

theorem keeps_afterWait (n : Nat) (d : Deadline) (ih : ∀ d, Act.Keeps I (supervise script n d))
    (waited : Waited) : Act.Keeps I (afterWait script n d waited) := by
  cases waited with
  | ended code => exact Act.keeps_pure _
  | timedOut =>
    refine Act.keeps_session.bind fun s => Act.Keeps.ite (ih _) (Act.keeps_server.bind fun v => ?_)
    cases d with
    | unset => exact ih _
    | passed => exact ih _
    | due time =>
      refine Act.Keeps.ite ?_ (ih _)
      exact (hI.keeps_quiet (Work.quiet_warn _)).bind fun _ => hI.keeps_kill.bind fun _ => ih _

variable (hwait : ∀ n t, I t → I (script.duringWait n t))
include hwait

/-- What a wait leads to once it is counted, or once the server has ended. -/
theorem wait_ends {I₀ : Scene σ → Prop}
    (hfirst : ∀ t s, I₀ t → t.server.Precedes s → (0 < s.waits ∨ s.ended.isSome = true) →
      I { t with server := s }) (limit : Option Milliseconds) {t : Scene σ} (h : I₀ t) :
    I ((wait script limit).exec t).2 := by
  cases hend : t.server.ended with
  | some code =>
    rw [wait_of_ended hend]
    refine hfirst t _ h ⟨le_rfl, id, id⟩ (Or.inr ?_)
    show t.server.ended.isSome = true
    rw [hend]
    rfl
  | none =>
    rw [wait_of_running hend, endWait]
    refine Act.Keeps.bind (Act.keeps_modify (hwait _)) (fun _ => ?_) _
      (hfirst t _ h ⟨Nat.le_succ _, id, id⟩ (Or.inl (Nat.succ_pos _)))
    refine Act.Keeps.ite (Act.keeps_throw _) fun t h => ?_
    exact hI.server t _ h (t.server.precedes_settleWait _ _ _)

theorem keeps_wait (limit : Option Milliseconds) : Act.Keeps I (wait script limit) :=
  fun _ h => hI.wait_ends hwait (fun t s h hs _ => hI.server t s h hs) limit h

theorem keeps_supervise (n : Nat) (d : Deadline) : Act.Keeps I (supervise script n d) := by
  induction n generalizing d with
  | zero => exact Act.keeps_throw _
  | succ n ih => exact (hI.keeps_wait hwait _).bind fun waited => hI.keeps_afterWait n d ih waited

/-- What holds after the first wait holds when supervising ends. -/
theorem supervise_ends {I₀ : Scene σ → Prop}
    (hfirst : ∀ t, I₀ t → I ((wait script (some waitSpan)).exec t).2) {n : Nat} (hn : n ≠ 0)
    (d : Deadline) {t : Scene σ} (h : I₀ t) : I ((supervise script n d).exec t).2 := by
  obtain ⟨n, rfl⟩ := Nat.exists_eq_succ_of_ne_zero hn
  rw [supervise_succ]
  exact Act.holds_bind (hfirst t h) fun waited =>
    hI.keeps_afterWait n d (fun d => hI.keeps_supervise hwait n d) waited

theorem keeps_endServer : Act.Keeps I (endServer script) := by
  refine Act.keeps_session.bind fun s => Act.keeps_server.bind fun v =>
    Act.Keeps.ite (hI.keeps_terminate.bind fun _ => ?_) (Act.keeps_pure _)
  refine (hI.keeps_wait hwait _).bind fun waited => ?_
  cases waited with
  | ended code => exact Act.keeps_pure _
  | timedOut =>
    exact hI.keeps_kill.bind fun _ => (hI.keeps_wait hwait _).bind fun _ => Act.keeps_pure _

end Indifferent

/-! ## Following changes -/

/-- A property of the scenes of a session with an entry file that is kept when generated code is
written there, and that depends neither on the watcher nor on the log. -/
structure Attentive (entry : Path) (language : Preview.Language) (I : Scene σ → Prop) : Prop where
  target : ∀ t, I t → t.session.entry = some (entry, language)
  watcher : ∀ t w, I t → I { t with session := { t.session with watcher := w } }
  logs : ∀ t logs, I t → I { t with host := t.host.withLogs logs }
  writes : Act.Keeps I (writeGenerated entry language)

namespace Attentive

variable {entry : Path} {language : Preview.Language} (hI : Attentive entry language I)
include hI

theorem keeps_warn (text : String) : Act.Keeps I (Act.work (Work.warn text)) :=
  Act.keeps_work (Work.quiet_warn text) hI.logs

theorem keeps_followChange (file : Path) : Act.Keeps I (followChange file) := by
  intro t h
  rw [followChange, Act.exec_bind_ok (Act.exec_session t), hI.target t h]
  cases t.session.phase with
  | active =>
    refine (hI.writes.outcome.bind fun x => ?_) t h
    cases x with
    | ok _ => exact Act.keeps_pure _
    | error e => exact Act.Keeps.ite (hI.keeps_warn _) (Act.keeps_throw _)
  | _ => exact h

theorem keeps_followChangeOrWarn (file : Path) : Act.Keeps I (followChangeOrWarn file) := by
  refine (hI.keeps_followChange file).outcome.bind fun x => ?_
  cases x with
  | ok _ => exact Act.keeps_pure _
  | error e => exact hI.keeps_warn _

theorem keeps_deliver (files : List Path) :
    Act.Keeps I (Watcher.deliver isWatcherStopped followChangeOrWarn files) := by
  induction files with
  | nil => exact Act.keeps_pure _
  | cons file files ih =>
    rw [Watcher.deliver]
    refine (Act.keeps_session.bind fun _ => Act.keeps_pure _).bind fun stopped => ?_
    refine Act.Keeps.ite (Act.keeps_pure _) ?_
    exact (hI.keeps_followChangeOrWarn file).bind fun _ => ih.bind fun _ => Act.keeps_pure _

theorem keeps_poll : Act.Keeps I poll := by
  refine Act.keeps_session.bind fun s => ?_
  cases s.watcher with
  | none => exact Act.keeps_pure _
  | some w =>
    refine Act.keeps_get.bind fun scene => ?_
    refine (Act.keeps_setSession fun t h => hI.watcher t _ h).bind fun _ => ?_
    exact (hI.keeps_deliver _).bind fun _ => Act.keeps_pure _

end Attentive

/-! ## Tearing down -/

/-- What is left to do once the dev server is ended. -/
def release (entry : Path) : Act σ Unit := do
  let restored ← restoreEntry entry
  let s ← Act.session
  match s.backup with
  | some backup => if restored then Act.work backup.discard
  | none => pure ()
  match s.marker with
  | some marker => Act.work (Instances.removeMarker marker)
  | none => pure ()
  Act.enter .idle

theorem tearDown_eq (script : Script σ) (entry : Path) :
    tearDown script entry = (do
      Act.setSession fun s => { s with phase := .restoring, watcher := none }
      modify script.duringRestoration
      endServer script
      release entry) :=
  rfl

/-- A property of scenes that depends neither on the host nor on the phase of the session. -/
structure Detached (I : Scene σ → Prop) : Prop where
  host : ∀ t host, I t → I { t with host }
  phase : ∀ t phase, I t → I { t with session := { t.session with phase } }

namespace Detached

variable (hI : Detached I)
include hI

theorem keeps_work {α : Type} (w : Work α) : Act.Keeps I (Act.work w) := by
  intro t h
  rw [Act.exec_work]
  exact hI.host t _ h

theorem keeps_restoreEntry (entry : Path) : Act.Keeps I (restoreEntry entry) := by
  refine Act.keeps_session.bind fun s => ?_
  cases s.backup with
  | none =>
    refine Act.Keeps.ite (Act.keeps_pure _) ((hI.keeps_work _).bind fun x => ?_)
    cases x with
    | ok _ => exact Act.keeps_pure _
    | error e => exact (hI.keeps_work _).bind fun _ => Act.keeps_pure _
  | some backup =>
    refine (hI.keeps_work _).outcome.bind fun x => ?_
    split
    · exact Act.keeps_pure _
    · exact (hI.keeps_work _).bind fun _ => Act.keeps_pure _
    · exact Act.keeps_throw _

theorem keeps_release (entry : Path) : Act.Keeps I (release entry) := by
  refine (hI.keeps_restoreEntry entry).bind fun restored => Act.keeps_session.bind fun s => ?_
  have hidle : Act.Keeps I (Act.enter .idle) := Act.keeps_setSession fun t h => hI.phase t _ h
  have hmarker : Act.Keeps I (do
      match s.marker with
      | some marker => Act.work (Instances.removeMarker marker)
      | none => pure ()
      Act.enter .idle) := by
    cases s.marker with
    | some marker => exact (hI.keeps_work _).bind fun _ => hidle
    | none => exact hidle
  cases s.backup with
  | none => exact hmarker
  | some backup => exact Act.Keeps.ite ((hI.keeps_work _).bind fun _ => hmarker) hmarker

end Detached
end Session
end Vitrine
