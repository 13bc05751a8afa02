import Vitrine.Proofs.Instance.Listing
import Vitrine.Proofs.Session.Indifference

/-!
# Statement by statement

The parts that a session is put together of, and a session with something in between each two of its
statements, from the time on when it hears signals until it no longer does. With nothing in between it
is the session itself (`runBetween_quiet`).
-/
namespace Vitrine
namespace Session

variable {σ : Type}

/-! ## Parts -/

/-- What is left to do once the marker is written. -/
def generateAndStart (script : Script σ) (entry : Path) (language : Preview.Language) :
    Act σ Unit := do
  writeGenerated entry language
  let host := (← get).host
  Act.setSession fun s => { s with watcher := some (Watcher.start host [s.configFile]) }
  start script

/-- What is left to do once the entry file is backed up. -/
def markAndStart (script : Script σ) (entry : Path) (language : Preview.Language) (s : Session) :
    Act σ Unit := do
  let backup := (← Act.session).backup
  let marker ← Act.work
    (s.instances.writeMarker entry s.settings.workingDirectory language backup)
  Act.setSession fun s => { s with marker := some marker }
  generateAndStart script entry language

theorem install_eq (script : Script σ) (entry : Path) (language : Preview.Language) :
    install script entry language = (do
      let s ← Act.session
      let there ← Act.work (Work.exists_ entry)
      if there then
        let backup ← Act.work
          (Backup.capture s.instances.directory entry s.settings.workingDirectory)
        Act.setSession fun s => { s with backup := some backup }
        markAndStart script entry language s
      else markAndStart script entry language s) :=
  rfl

/-- The marker is left once the entry file is backed up. -/
def leaveMarker (entry : Path) (language : Preview.Language) (s : Session) : Act σ Unit := do
  let backup := (← Act.session).backup
  let marker ← Act.work
    (s.instances.writeMarker entry s.settings.workingDirectory language backup)
  Act.setSession fun s => { s with marker := some marker }

/-- What comes before the generated code is written. -/
def prepare (entry : Path) (language : Preview.Language) : Act σ Unit := do
  let s ← Act.session
  let there ← Act.work (Work.exists_ entry)
  if there then
    let backup ← Act.work
      (Backup.capture s.instances.directory entry s.settings.workingDirectory)
    Act.setSession fun s => { s with backup := some backup }
    leaveMarker entry language s
  else leaveMarker entry language s

theorem install_eq_prepare (script : Script σ) (entry : Path) (language : Preview.Language) :
    install script entry language =
      prepare entry language >>= fun _ => generateAndStart script entry language := by
  rw [install_eq, prepare]
  simp only [bind_assoc]
  refine bind_congr fun s => bind_congr fun there => ?_
  cases there <;> simp [markAndStart, leaveMarker]

/-- How a session that was torn down reports its end. -/
def report (outcome : Result Int) : Act σ Unit := do
  match outcome with
  | .error e => throw e
  | .ok code =>
    match (← Act.session).signal with
    | some signal => throw (.interrupted signal)
    | none => if code ≠ 0 then throw (.exited code)

/-- What a session does with an entry file that no other session owns. -/
def replaceEntry (script : Script σ) (entry : Path) (language : Preview.Language) : Act σ Unit := do
  let outcome ← Act.outcome (occupy script entry language)
  tearDown script entry
  report outcome

theorem run_eq (script : Script σ) :
    run script = (do
      let s ← Act.session
      let x ← Act.work (Preview.resolveEntry s.configFile s.settings s.entryDirectory)
      Act.setSession fun s => { s with entry := some (x.1, x.2) }
      let owned ← Act.work (s.instances.isOwned x.1)
      if owned then
        Act.enter .aborted
        throw (.conflict x.1)
      else
        Act.enter .installing
        replaceEntry script x.1 x.2) :=
  rfl

theorem report_exec (outcome : Result Int) {t : Scene σ} : ((report outcome).exec t).2 = t := by
  cases outcome with
  | error e => rfl
  | ok code =>
    show ((Act.session >>= _ : Act σ Unit).exec t).2 = t
    rw [Act.exec_bind_ok (Act.exec_session t)]
    cases t.session.signal with
    | some signal => rfl
    | none =>
      show ((ite _ _ _ : Act σ Unit).exec t).2 = t
      split <;> rfl

/-! ## Gaps -/

/-- The gaps between the statements of a session; those while it waits for its dev server with the
number of waits that are left. -/
inductive Gap where
  -- while the entry file is replaced and the dev server is started
  | marked | rendered | touched | written | watching | commanded | spawning | started
  -- while the dev server runs
  | active | waiting (left : Nat) | waited (left : Nat) | late (left : Nat) | warned (left : Nat)
  | killed (left : Nat)
  -- behind all that, and before the first statement of what is done at the end
  | leaving
  -- while the entry file is put back
  | restoring | unwatched | asking | asked | outlasted | ending | ended | restored | discarded
  | unmarked
  deriving DecidableEq

variable (script : Script σ) (gap : Gap → Act σ Unit)

/-! ## The statements -/

def writeGeneratedBetween (entry : Path) (language : Preview.Language) : Act σ Unit := do
  let s ← Act.session
  let code ← Act.work (Preview.generate s.configFile entry language)
  gap .rendered
  Act.setSession fun s => { s with generated := true }
  gap .touched
  match ← Act.work (Work.attempt (Work.writeText entry code)) with
  | .ok () => return
  | .error e => throw (.backup (.write entry e))

def startBetween : Act σ Unit := do
  let settings := (← Act.session).settings
  let command ← Act.work settings.command
  gap .commanded
  Act.setServer fun s => { s with command := some (command, settings.workingDirectory) }
  modify script.duringStart
  gap .spawning
  match script.signalAtStart with
  | some signal => receive script signal
  | none => pure ()
  endStart script command
  gap .started

def generateAndStartBetween (entry : Path) (language : Preview.Language) : Act σ Unit := do
  gap .marked
  writeGeneratedBetween gap entry language
  gap .written
  let host := (← get).host
  Act.setSession fun s => { s with watcher := some (Watcher.start host [s.configFile]) }
  gap .watching
  startBetween script gap

def superviseBetween : Nat → Deadline → Act σ Int
  | 0, _ => throw (.fault .runtime)
  | waits + 1, deadline => do
    gap (.waiting waits)
    match ← wait script (some waitSpan) with
    | .ended code => return code
    | .timedOut =>
      gap (.waited waits)
      if (← Act.session).signal.isNone then superviseBetween waits deadline
      else
        gap (.late waits)
        let clock := (← Act.server).clock
        match deadline with
        | .unset => superviseBetween waits (.due (clock + grace))
        | .due time =>
          if time ≤ clock then
            Act.work (Work.warn "Dev server ignored termination, killing it")
            gap (.warned waits)
            kill
            gap (.killed waits)
            superviseBetween waits .passed
          else superviseBetween waits (.due time)
        | .passed => superviseBetween waits .passed

def occupyBetween (entry : Path) (language : Preview.Language) : Act σ Int := do
  prepare entry language
  generateAndStartBetween script gap entry language
  Act.enter .active
  gap .active
  superviseBetween script gap (waitBound script) .unset

def endServerBetween : Act σ Unit := do
  if (← Act.session).started && (← Act.server).ended.isNone then
    gap .asking
    terminate script
    gap .asked
    match ← wait script (some grace) with
    | .ended _ => return
    | .timedOut =>
      gap .outlasted
      kill
      gap .ending
      let _ ← wait script none

def releaseBetween (entry : Path) : Act σ Unit := do
  let restored ← restoreEntry entry
  gap .restored
  let s ← Act.session
  match s.backup with
  | some backup => if restored then Act.work backup.discard
  | none => pure ()
  gap .discarded
  match s.marker with
  | some marker => Act.work (Instances.removeMarker marker)
  | none => pure ()
  gap .unmarked
  Act.enter .idle

def tearDownBetween (entry : Path) : Act σ Unit := do
  Act.enter .restoring
  gap .restoring
  Act.setSession fun s => { s with watcher := none }
  gap .unwatched
  modify script.duringRestoration
  endServerBetween script gap
  gap .ended
  releaseBetween gap entry

def replaceEntryBetween (entry : Path) (language : Preview.Language) : Act σ Unit := do
  let outcome ← Act.outcome (occupyBetween script gap entry language)
  gap .leaving
  tearDownBetween script gap entry
  report outcome

/-- A session with something in between its statements. -/
def runBetween : Act σ Unit := do
  let s ← Act.session
  let x ← Act.work (Preview.resolveEntry s.configFile s.settings s.entryDirectory)
  Act.setSession fun s => { s with entry := some (x.1, x.2) }
  let owned ← Act.work (s.instances.isOwned x.1)
  if owned then
    Act.enter .aborted
    throw (.conflict x.1)
  else
    Act.enter .installing
    replaceEntryBetween script gap x.1 x.2

/-! ## Until the entry file is known -/

section Resolving

variable {t : Scene σ}

/-- To find the entry file changes nothing. -/
theorem resolve_exec {x : Result (Path × Preview.Language)}
    (h : ((Preview.resolveEntry t.session.configFile t.session.settings
      t.session.entryDirectory).exec t.host).1 = x) :
    (Act.work (Preview.resolveEntry t.session.configFile t.session.settings
      t.session.entryDirectory)).exec t = (x, t) :=
  (Act.exec_work_still (Preview.resolveEntry_still _ _ _) t).trans (congrArg (·, t) h)

/-- A session that does not find its entry file ends where it began. -/
theorem runBetween_of_unresolved {e : Error}
    (h : ((Preview.resolveEntry t.session.configFile t.session.settings
      t.session.entryDirectory).exec t.host).1 = .error e) :
    (runBetween script gap).exec t = (.error e, t) := by
  rw [runBetween, Act.exec_bind_ok (Act.exec_session t), Act.exec_bind_error (resolve_exec h)]

/-- Once the entry file is known, all depends on whether it is owned. -/
theorem runBetween_decides {entry : Path} {language : Preview.Language} {owned : Result Bool}
    (hresolved : ((Preview.resolveEntry t.session.configFile t.session.settings
      t.session.entryDirectory).exec t.host).1 = .ok (entry, language))
    (howned : ((t.session.instances.isOwned entry).exec t.host).1 = owned) :
    ∃ logs, (runBetween script gap).exec t = (match owned with
      | .error e => throw e
      | .ok true => do
        Act.enter .aborted
        throw (.conflict entry)
      | .ok false => do
        Act.enter .installing
        replaceEntryBetween script gap entry language : Act σ Unit).exec { t with
          host := t.host.withLogs logs
          session := { t.session with entry := some (entry, language) } } := by
  let t₁ : Scene σ := { t with session := { t.session with entry := some (entry, language) } }
  obtain ⟨logs, hquiet⟩ := t.session.instances.isOwned_quiet entry t.host
  have howns : (Act.work (t.session.instances.isOwned entry)).exec t₁ =
      (owned, { t₁ with host := t.host.withLogs logs }) :=
    Act.exec_work_of (Prod.ext howned hquiet)
  refine ⟨logs, ?_⟩
  rw [runBetween, Act.exec_bind_ok (Act.exec_session t), Act.exec_bind_ok (resolve_exec hresolved),
    Act.exec_bind_ok (Act.exec_setSession _ _)]
  cases owned with
  | error e => rw [Act.exec_bind_error howns, Act.exec_throw]
  | ok owned => cases owned <;> rw [Act.exec_bind_ok howns] <;> rfl

end Resolving

/-! ## With nothing in between -/

/-- Nothing in between. -/
def quiet : Gap → Act σ Unit := fun _ => pure ()

theorem superviseBetween_quiet (waits : Nat) (deadline : Deadline) :
    superviseBetween script quiet waits deadline = supervise script waits deadline := by
  induction waits generalizing deadline with
  | zero => rfl
  | succ waits ih =>
    rw [superviseBetween, show superviseBetween script quiet waits = supervise script waits from
      funext ih]
    rfl

theorem startBetween_quiet : startBetween script quiet = start script := by
  have hend : ∀ command, (endStart script command >>= fun _ => quiet .started) =
      endStart script command := fun command => bind_pure_unit
  rw [startBetween]
  simp only [hend]
  rfl

theorem generateAndStartBetween_quiet (entry : Path) (language : Preview.Language) :
    generateAndStartBetween script quiet entry language = generateAndStart script entry language := by
  rw [generateAndStartBetween, startBetween_quiet]
  rfl

theorem occupyBetween_quiet (entry : Path) (language : Preview.Language) :
    occupyBetween script quiet entry language = occupy script entry language := by
  rw [occupyBetween, occupy, install_eq_prepare, generateAndStartBetween_quiet, bind_assoc]
  simp only [superviseBetween_quiet]
  rfl

theorem tearDownBetween_quiet (entry : Path) :
    tearDownBetween script quiet entry = tearDown script entry := by
  rfl

theorem replaceEntryBetween_quiet (entry : Path) (language : Preview.Language) :
    replaceEntryBetween script quiet entry language = replaceEntry script entry language := by
  rw [replaceEntryBetween, replaceEntry, occupyBetween_quiet, tearDownBetween_quiet]
  rfl

/-- With nothing in between, a session is the session itself. -/
theorem runBetween_quiet : runBetween script quiet = run script := by
  rw [run_eq, runBetween]
  simp only [replaceEntryBetween_quiet]

theorem run_of_unresolved {t : Scene σ} {e : Error}
    (h : ((Preview.resolveEntry t.session.configFile t.session.settings
      t.session.entryDirectory).exec t.host).1 = .error e) :
    (run script).exec t = (.error e, t) := by
  rw [← runBetween_quiet]
  exact runBetween_of_unresolved script quiet h

theorem run_decides {t : Scene σ} {entry : Path} {language : Preview.Language}
    {owned : Result Bool}
    (hresolved : ((Preview.resolveEntry t.session.configFile t.session.settings
      t.session.entryDirectory).exec t.host).1 = .ok (entry, language))
    (howned : ((t.session.instances.isOwned entry).exec t.host).1 = owned) :
    ∃ logs, (run script).exec t = (match owned with
      | .error e => throw e
      | .ok true => do
        Act.enter .aborted
        throw (.conflict entry)
      | .ok false => do
        Act.enter .installing
        replaceEntry script entry language : Act σ Unit).exec { t with
          host := t.host.withLogs logs
          session := { t.session with entry := some (entry, language) } } := by
  rw [← runBetween_quiet, ← replaceEntryBetween_quiet]
  exact runBetween_decides script quiet hresolved howned

/-! ## While the dev server runs -/

variable {script gap} {I J : Scene σ → Prop} {t : Scene σ}

/-- What goes on in the gaps may change whatever the property does not depend on. -/
theorem Indifferent.keeps_superviseBetween (hI : Indifferent script I)
    (hwait : ∀ n t, I t → I (script.duringWait n t)) (hgap : ∀ g, Act.Keeps I (gap g)) (n : Nat)
    (d : Deadline) : Act.Keeps I (superviseBetween script gap n d) := by
  induction n generalizing d with
  | zero => exact Act.keeps_throw _
  | succ n ih =>
    refine (hgap _).bind fun _ => (hI.keeps_wait hwait _).bind fun waited => ?_
    cases waited with
    | ended code => exact Act.keeps_pure _
    | timedOut =>
      refine (hgap _).bind fun _ => Act.keeps_session.bind fun s => Act.Keeps.ite (ih _) ?_
      refine (hgap _).bind fun _ => Act.keeps_server.bind fun v => ?_
      cases d with
      | unset => exact ih _
      | passed => exact ih _
      | due time =>
        refine Act.Keeps.ite ?_ (ih _)
        exact (hI.keeps_quiet (Work.quiet_warn _)).bind fun _ => (hgap _).bind fun _ =>
          hI.keeps_kill.bind fun _ => (hgap _).bind fun _ => ih _

/-! ## The end of the dev server -/

/-- A dev server is ended without failure if it can be waited for once it was asked to end. -/
theorem endServerBetween_ok (h : I t)
    (hterminate : t.session.started = true → ∃ u, (gap .asking).exec t = (.ok (), u) ∧
      J ((terminate script).exec u).2)
    (hwait : ∀ limit t, J t → ∃ w u, (wait script limit).exec t = (.ok w, u) ∧ J u)
    (hkill : Act.Keeps J kill) (hgap : ∀ g t, J t → ∃ u, (gap g).exec t = (.ok (), u) ∧ J u)
    (hJ : ∀ t, J t → I t) : ∃ u, (endServerBetween script gap).exec t = (.ok (), u) ∧ I u := by
  rw [endServerBetween, Act.exec_bind_ok (Act.exec_session t), Act.exec_bind_ok (Act.exec_server t)]
  by_cases hend : (t.session.started && t.server.ended.isNone) = true
  · obtain ⟨t₁, ht₁, hasked⟩ := hterminate (Bool.and_eq_true_iff.mp hend).1
    obtain ⟨t₂, ht₂⟩ : ∃ v, (terminate script).exec t₁ = (.ok (), v) := ⟨_, terminate_exec t₁⟩
    rw [ht₂] at hasked
    obtain ⟨t₃, ht₃, h₃⟩ := hgap .asked t₂ hasked
    obtain ⟨w, u, hu, hwaited⟩ := hwait (some grace) t₃ h₃
    rw [if_pos hend, Act.exec_bind_ok ht₁, Act.exec_bind_ok ht₂, Act.exec_bind_ok ht₃,
      Act.exec_bind_ok hu]
    cases w with
    | ended code => exact ⟨u, rfl, hJ u hwaited⟩
    | timedOut =>
      obtain ⟨u₁, hu₁, h₁⟩ := hgap .outlasted u hwaited
      obtain ⟨u₂, hu₂⟩ : ∃ v, kill.exec u₁ = (.ok (), v) := ⟨_, Act.exec_setServer _ u₁⟩
      have h₂ := hkill u₁ h₁
      rw [hu₂] at h₂
      obtain ⟨u₃, hu₃, h₃⟩ := hgap .ending u₂ h₂
      obtain ⟨w, v, hv, hlast⟩ := hwait none u₃ h₃
      refine ⟨v, ?_, hJ v hlast⟩
      show (gap .outlasted >>= _ : Act σ Unit).exec u = _
      rw [Act.exec_bind_ok hu₁, Act.exec_bind_ok hu₂, Act.exec_bind_ok hu₃, Act.exec_bind_ok hv]
      rfl
  · rw [if_neg hend]
    exact ⟨t, rfl, h⟩

theorem endServer_ok (h : I t)
    (hterminate : t.session.started = true → J ((terminate script).exec t).2)
    (hwait : ∀ limit t, J t → ∃ w u, (wait script limit).exec t = (.ok w, u) ∧ J u)
    (hkill : Act.Keeps J kill) (hJ : ∀ t, J t → I t) :
    ∃ u, (endServer script).exec t = (.ok (), u) ∧ I u := by
  show ∃ u, (endServerBetween script quiet).exec t = (.ok (), u) ∧ I u
  exact endServerBetween_ok h (fun hs => ⟨t, rfl, hterminate hs⟩) hwait hkill
    (fun _ t ht => ⟨t, rfl, ht⟩) hJ

end Session
end Vitrine
