import Vitrine.Proofs.Session.Arrival
import Vitrine.Proofs.Session.Safekeeping
import Vitrine.Proofs.Session.Termination

/-!
# How a session reports its end

Signals may arrive wherever a session is, but between its installation and its tearing down. Tearing down
never fails, so that a session ends with what its installation and its dev server came to: with the error
of the installation, with the first signal, or with the exit code of the dev server
(`runBetween_reports`). One thing comes before a signal: an error that waiting for the dev server ends in
(`run_unheeded`).
-/
namespace Vitrine
namespace Session

variable {ρ : Type} {script : Script (Chronicle ρ)} {gap : Gap → Act (Chronicle ρ) Unit}
  {x : Path × Preview.Language} {t u : Scene (Chronicle ρ)} {early : List Nat}

open Act (Ensures never ensures_pure ensures_throw ensures_modify ensures_setSession
  ensures_setServer ensures_work ensures_unfailing ensures_session)

/-! ## A dev server that is waited for -/

/-- A property of a dev server and of the signal that is remembered, which lasts when the server is
asked to end and when a first signal is remembered. -/
def Enduring (F : Option Nat → DevServer → Prop) : Prop :=
  ∀ n n' s requests terminated, (n' = none → n = none) → F n s →
    F n' { s with requests, terminated }

/-- A session whose dev server was started. It has asked the server to end only behind a signal. -/
structure Serving (early : List Nat) (x : Path × Preview.Language) (F : Option Nat → DevServer → Prop)
    (t : Scene (Chronicle ρ)) : Prop extends Remembers early x t where
  started : t.session.started = true
  asked : t.server.terminated = true → t.session.signal ≠ none
  server : F t.session.signal t.server

variable {F : Option Nat → DevServer → Prop} {E : Error → Scene (Chronicle ρ) → Prop}

theorem Serving.mindful (hF : Enduring F) : Mindful x (Serving (ρ := ρ) early x F) where
  entry _ h := h.entry
  around _ host rest watcher _ h hg :=
    ⟨h.toRemembers.around host rest watcher hg, h.started, h.asked, h.server⟩
  heard n t h :=
    ⟨h.toRemembers.heard n, h.started, fun _ => signal_heard n t,
      hF _ _ t.server _ _ (fun hn => absurd hn (signal_heard n t)) h.server⟩
  asked t h hsignal :=
    ⟨h.toRemembers.withServer _, h.started, fun _ => hsignal, hF _ _ t.server _ _ id h.server⟩

/-- Signals do not stop a session whose dev server was started. -/
theorem Serving.undisturbed (hs : Eventful script gap) (hF : Enduring F) :
    Undisturbed script x (Serving early x F) E :=
  (Serving.mindful hF).undisturbed hs fun n t h _ hst => by
    cases h.started.symm.trans hst

/-- A dev server that was started and not waited for. -/
structure Started (timeouts : Nat) (s : DevServer) : Prop where
  running : s.ended = none
  waits : s.waits = 0
  alive : s.killed = false
  timeouts : s.timeouts = timeouts

theorem enduring_started (timeouts : Nat) : Enduring fun _ => Started timeouts :=
  fun _ _ _ _ _ _ h => ⟨h.running, h.waits, h.alive, h.timeouts⟩

/-- As many waits as it takes from a signal on until a dev server has ended that has to be killed. -/
def lateWaits : Nat := grace / waitSpan + 3

/-- A number of waits is enough to go on from a deadline. -/
def Deadline.Allows (n : Nat) (s : DevServer) : Deadline → Prop
  | .unset => s.timeouts + lateWaits ≤ n
  | .due time => ∃ k, k + 2 ≤ n ∧ time ≤ s.clock + k * waitSpan
  | .passed => s.killed = true ∧ 0 < n

/-- What is left of a deadline when a wait was in vain. -/
def Deadline.Left (n : Nat) (signal : Option Nat) (s : DevServer) : Deadline → Prop
  | .unset => lateWaits ≤ n + 1 ∧ (signal = none → Deadline.unset.Allows n s)
  | .due time => 0 < n ∧ (¬ time ≤ s.clock → (Deadline.due time).Allows n s)
  | .passed => False

/-- A dev server is waited for, with so many waits left. -/
structure Runs (n : Nat) (d : Deadline) (signal : Option Nat) (s : DevServer) : Prop where
  running : s.ended = none
  killed : s.killed = true → signal ≠ none
  late : d ≠ .unset → signal ≠ none
  allows : d.Allows n s

/-- A wait was in vain, and so many are left. -/
structure Vain (n : Nat) (d : Deadline) (signal : Option Nat) (s : DevServer) : Prop where
  running : s.ended = none
  alive : s.killed = false
  late : d ≠ .unset → signal ≠ none
  left : d.Left n signal s

/-- A dev server has ended, without a signal by itself. -/
structure Spent (script : Script (Chronicle ρ)) (code : Int) (signal : Option Nat) (s : DevServer) :
    Prop where
  ended : s.ended = some code
  code : signal = none → code = script.exitCode

theorem enduring_runs (n : Nat) (d : Deadline) : Enduring (Runs n d) := by
  intro _ _ s _ _ hn h
  refine ⟨h.running, fun hk hnone => h.killed hk (hn hnone), fun hd hnone => h.late hd (hn hnone), ?_⟩
  have hallows := h.allows
  cases d <;> exact hallows

theorem enduring_vain (n : Nat) (d : Deadline) : Enduring (Vain n d) := by
  intro _ _ s _ _ hn h
  refine ⟨h.running, h.alive, fun hd hnone => h.late hd (hn hnone), ?_⟩
  have hleft := h.left
  cases d with
  | unset => exact ⟨hleft.1, fun hnone => hleft.2 (hn hnone)⟩
  | due time => exact hleft
  | passed => exact hleft

/-- What a wait that is under way comes to. -/
theorem Runs.settle {n : Nat} {d : Deadline} {signal : Option Nat} {s : DevServer}
    (h : Runs (n + 1) d signal s) (script : Script (Chronicle ρ))
    (hasked : s.terminated = true → signal ≠ none) :
    let x := s.settleWait script.ignoresTermination script.exitCode (some waitSpan)
    x.2.terminated = s.terminated ∧
      match x.1 with
      | .ended code => Spent script code signal x.2
      | .timedOut => Vain n d signal x.2 := by
  dsimp only
  unfold DevServer.settleWait
  split
  · next hkilled => exact ⟨rfl, rfl, fun hnone => absurd hnone (h.killed hkilled)⟩
  next hkilled =>
  split
  · next hends => exact ⟨rfl, rfl, fun hnone => absurd hnone (hasked (Bool.and_eq_true_iff.mp hends).1)⟩
  split
  · next hlasts =>
    refine ⟨rfl, h.running, Bool.eq_false_iff.mpr hkilled, h.late, ?_⟩
    have hallows := h.allows
    cases d with
    | unset =>
      have hwaits : s.timeouts + lateWaits ≤ n + 1 := hallows
      refine ⟨by omega, fun hnone => ?_⟩
      have hterminated : s.terminated = false := Bool.eq_false_iff.mpr fun ht => hasked ht hnone
      rw [hterminated, Bool.false_or, decide_eq_true_eq] at hlasts
      show s.timeouts - 1 + lateWaits ≤ n
      omega
    | due time =>
      obtain ⟨k, hk, htime⟩ := hallows
      refine ⟨by omega, fun hlate => ?_⟩
      cases k with
      | zero => exact absurd (htime.trans (by simp)) hlate
      | succ k =>
        refine ⟨k, by omega, ?_⟩
        rw [Nat.succ_mul, Nat.add_comm (k * waitSpan), ← Nat.add_assoc] at htime
        exact htime
    | passed => exact absurd hallows.1 hkilled
  · exact ⟨rfl, rfl, fun _ => rfl⟩

section Supervising

variable (hs : Eventful script gap)
include hs

theorem Serving.ensures_gap (hF : Enduring F) {g : Gap} (hg : g ∉ [Gap.spawning, .leaving]) :
    Ensures (Serving early x F) (gap g) (fun _ => Serving early x F) E :=
  (Serving.undisturbed hs hF).ensures fun t => hs.between g t hg

/-- A wait ends with the dev server or in vain. -/
theorem wait_ensures (hfails : script.waitFails = false) (n : Nat) (d : Deadline) :
    Ensures (Serving early x (Runs (n + 1) d)) (wait script (some waitSpan)) (fun waited =>
      match waited with
      | .ended code => Serving early x (Spent script code)
      | .timedOut => Serving early x (Vain n d)) never := by
  intro t h
  let t₁ : Scene (Chronicle ρ) := { t with
    server := { t.server.request (.wait (some waitSpan)) with waits := t.server.waits + 1 } }
  have h₁ : Serving early x (Runs (n + 1) d) t₁ := by
    refine ⟨h.toRemembers.withServer _, h.started, h.asked, h.server.running, h.server.killed,
      h.server.late, ?_⟩
    have hallows := h.server.allows
    cases d <;> exact hallows
  let t₂ := script.duringWait t.server.waits t₁
  have h₂ : Serving early x (Runs (n + 1) d) t₂ :=
    (hs.duringWait t.server.waits t₁ h₁.started).ends (E := never)
      (Serving.undisturbed hs (enduring_runs _ d)) h₁
  obtain ⟨hterminated, hsettled⟩ := h₂.server.settle script h₂.asked
  generalize hx : t₂.server.settleWait script.ignoresTermination script.exitCode (some waitSpan) = y
    at hterminated hsettled
  have hexec : (wait script (some waitSpan)).exec t = (.ok y.1, { t₂ with server := y.2 }) := by
    rw [wait_of_running h.server.running, endWait, Act.exec_bind_ok (Act.exec_modify _ _),
      if_neg (by simp [hfails]), ← hx]
    rfl
  rw [hexec]
  have hasked : y.2.terminated = true → t₂.session.signal ≠ none := by
    rw [hterminated]
    exact h₂.asked
  obtain ⟨waited, server⟩ := y
  cases waited with
  | ended code => exact ⟨h₂.toRemembers.withServer _, h₂.started, hasked, hsettled⟩
  | timedOut => exact ⟨h₂.toRemembers.withServer _, h₂.started, hasked, hsettled⟩

/-- Behind a wait in vain the session goes on to the next wait, once a signal is found. -/
theorem pressBetween_ensures {n : Nat} {d : Deadline} {K : Int → Scene (Chronicle ρ) → Prop}
    (hnext : ∀ d, Ensures (Serving early x (Runs n d)) (superviseBetween script gap n d) K never) :
    Ensures (Serving early x fun signal s => Vain n d signal s ∧ signal ≠ none)
      (pressBetween script gap n d) K never := by
  have hF : Enduring fun signal s => Vain n d signal s ∧ signal ≠ none :=
    fun _ _ _ _ _ hn h => ⟨enduring_vain n d _ _ _ _ _ hn h.1, fun hnone => h.2 (hn hnone)⟩
  refine (Serving.ensures_gap hs hF (by simp)).bind fun _ => ?_
  intro t h
  rw [Act.exec_bind_ok (Act.exec_server t)]
  obtain ⟨hvain, hsignal⟩ := h.server
  have hgo : ∀ d', d'.Allows n t.server → Serving early x (Runs n d') t := fun d' hallows =>
    ⟨h.toRemembers, h.started, h.asked, hvain.running, fun _ => hsignal, fun _ => hsignal, hallows⟩
  have hleft := hvain.left
  cases d with
  | unset =>
    refine hnext _ t (hgo _ ⟨grace / waitSpan, ?_, ?_⟩)
    · have hwaits : lateWaits ≤ n + 1 := hleft.1
      rw [lateWaits] at hwaits
      omega
    · exact Nat.add_le_add_left (by decide) _
  | passed => exact hleft.elim
  | due time =>
    by_cases hlate : time ≤ t.server.clock
    · show Act.Ends _ never ((ite _ _ _ : Act (Chronicle ρ) Int).exec t)
      rw [if_pos hlate]
      refine (ensures_unfailing (Serving.mindful hF).host (Work.fails_warn _)).bind (fun _ => ?_) t h
      refine (Serving.ensures_gap hs hF (by simp)).bind fun _ => ?_
      refine Ensures.bind (J := fun _ => Serving early x (Runs n .passed))
        (ensures_setServer fun t h => ?_) fun _ => ?_
      · exact ⟨h.toRemembers.withServer _, h.started, h.asked, h.server.1.running, fun _ => h.server.2,
          fun _ => h.server.2, rfl, h.server.1.left.1⟩
      · exact (Serving.ensures_gap hs (enduring_runs n .passed) (by simp)).bind fun _ =>
          hnext _
    · show Act.Ends _ never ((ite _ _ _ : Act (Chronicle ρ) Int).exec t)
      rw [if_neg hlate]
      exact hnext _ t (hgo _ (hleft.2 hlate))

/-- Waiting ends with the dev server before the waits run out. -/
theorem superviseBetween_ensures (hfails : script.waitFails = false) (n : Nat) (d : Deadline) :
    Ensures (Serving early x (Runs n d)) (superviseBetween script gap n d)
      (fun code => Serving early x (Spent script code)) never := by
  induction n generalizing d with
  | zero =>
    intro t h
    have hallows := h.server.allows
    cases d with
    | unset => exact absurd hallows (by simp [Deadline.Allows, lateWaits])
    | due time =>
      obtain ⟨k, hk, -⟩ := hallows
      omega
    | passed => exact absurd hallows.2 (Nat.lt_irrefl 0)
  | succ n ih =>
    rw [superviseBetween_succ]
    refine (Serving.ensures_gap hs (enduring_runs _ d) (by simp)).bind fun _ =>
      (wait_ensures hs hfails n d).bind fun waited => ?_
    cases waited with
    | ended code => exact ensures_pure fun t h => h
    | timedOut =>
      refine (Serving.ensures_gap hs (enduring_vain n d) (by simp)).bind fun _ => ?_
      intro t h
      rw [Act.exec_bind_ok (Act.exec_session t)]
      cases hsignal : t.session.signal with
      | none =>
        refine ih d t ⟨h.toRemembers, h.started, h.asked, h.server.running,
          fun hk => absurd (h.server.alive.symm.trans hk) (by simp), h.server.late, ?_⟩
        have hleft := h.server.left
        cases d with
        | unset => exact hleft.2 hsignal
        | due time => exact absurd hsignal (h.server.late (by simp))
        | passed => exact hleft.elim
      | some m =>
        exact pressBetween_ensures hs ih t
          ⟨h.toRemembers, h.started, h.asked, h.server, by simp [hsignal]⟩

/-- The first wait may end in a fault. -/
theorem superviseBetween_fails (hfails : script.waitFails = true) (n : Nat) (d : Deadline)
    {timeouts : Nat} : Ensures (Serving early x fun _ => Started timeouts)
      (superviseBetween script gap (n + 1) d) (fun _ _ => False)
      (fun e t => e = .fault .runtime ∧ Serving early x (fun _ s => 0 < s.waits) t) := by
  have hF : Enduring fun _ s => 0 < s.waits := fun _ _ _ _ _ _ h => h
  intro t h
  obtain ⟨⟨⟩, t₁, ht₁, h₁⟩ :=
    (Serving.ensures_gap hs (enduring_started timeouts) (by simp) (g := .waiting n) t h).ok
  let t₂ : Scene (Chronicle ρ) := { t₁ with
    server := { t₁.server.request (.wait (some waitSpan)) with waits := t₁.server.waits + 1 } }
  have h₂ : Serving early x (fun _ s => 0 < s.waits) t₂ :=
    ⟨h₁.toRemembers.withServer _, h₁.started, h₁.asked, Nat.succ_pos _⟩
  have h₃ : Serving early x (fun _ s => 0 < s.waits) (script.duringWait t₁.server.waits t₂) :=
    (hs.duringWait _ t₂ h₂.started).ends (E := never) (Serving.undisturbed hs hF) h₂
  have hwait : (wait script (some waitSpan)).exec t₁ =
      (.error (.fault .runtime), script.duringWait t₁.server.waits t₂) := by
    rw [wait_of_running h₁.server.running, endWait, Act.exec_bind_ok (Act.exec_modify _ _),
      if_pos (by simp [hfails, h₁.server.waits])]
    rfl
  rw [superviseBetween_succ, Act.exec_bind_ok ht₁, Act.exec_bind_error hwait]
  exact ⟨rfl, h₃⟩

end Supervising

/-! ## Installing -/

/-- A session that is installing, and that no signal has reached. -/
structure Installing (timeouts : Nat) (x : Path × Preview.Language) (t : Scene (Chronicle ρ)) : Prop
    extends Remembers [] x t where
  phase : t.session.phase = .installing
  started : t.session.started = false
  arrived : t.outside.arrived = []
  unasked : t.server.terminated = false
  server : Started timeouts t.server

/-- An installation that has failed, for the first signal if one has reached it. -/
structure Failed (x : Path × Preview.Language) (e : Error) (t : Scene (Chronicle ρ)) : Prop
    extends Remembers [] x t where
  started : t.session.started = false
  reason : ∀ n, t.outside.arrived.head? = some n → e = .interrupted n

variable {timeouts : Nat}

namespace Installing

theorem aside : Aside x (Installing (ρ := ρ) timeouts x) where
  entry _ h := h.entry
  around _ host rest watcher _ h hg :=
    ⟨h.toRemembers.around host rest watcher hg, h.phase, h.started, h.arrived, h.unasked, h.server⟩

/-- An installation fails for other reasons than signals, too. -/
theorem failed (e : Error) (t : Scene (Chronicle ρ)) (h : Installing timeouts x t) : Failed x e t := by
  refine ⟨h.toRemembers, h.started, fun n hn => ?_⟩
  rw [h.arrived] at hn
  cases hn

/-- A signal stops an installation. -/
theorem undisturbed : Undisturbed script x (Installing timeouts x) (Failed x) := by
  refine ⟨aside, fun n t h => ?_⟩
  rw [arrive_exec, if_neg (by simp [h.phase]), if_neg (by simp [h.started])]
  refine ⟨h.toRemembers.heard n, h.started, fun m hm => ?_⟩
  have harrived : (heard n t).outside.arrived = [n] := by
    show t.outside.arrived ++ [n] = [n]
    rw [h.arrived]
    rfl
  rw [harrived] at hm
  rw [Option.some.inj hm]

theorem ensures_any {α : Type} (w : Work α) :
    Ensures (Installing timeouts x) (Act.work w)
      (fun a t => Installing (ρ := ρ) timeouts x t ∧ ∃ h k, w.exec h = (.ok a, k)) (Failed x) :=
  ensures_work aside.host failed w

end Installing

theorem leaveMarker_ensures (entry : Path) (language : Preview.Language) (s : Session) :
    Ensures (Installing timeouts x) (leaveMarker entry language s)
      (fun _ => Installing (ρ := ρ) timeouts x) (Failed x) := by
  refine ensures_session fun t _ => (Installing.ensures_any _).bind fun m =>
    Ensures.of_and fun ⟨h, k, hm⟩ => ensures_setSession fun t ht => ?_
  refine ⟨⟨ht.entry, ht.onward, ht.first, ht.backup, ?_, ht.generated⟩, ht.phase, ht.started, ht.arrived,
    ht.unasked, ht.server⟩
  rintro _ ⟨⟩
  exact Instances.isSound_of_writeMarker hm

theorem prepare_ensures (entry : Path) (language : Preview.Language) :
    Ensures (Installing timeouts x) (prepare entry language)
      (fun _ => Installing (ρ := ρ) timeouts x) (Failed x) := by
  refine ensures_session fun t _ => (Installing.ensures_any _).bind fun there =>
    Ensures.of_and fun _ => Ensures.ite ?_ (leaveMarker_ensures entry language _)
  refine (Installing.ensures_any _).bind fun b => Ensures.of_and fun ⟨h, k, hb⟩ => ?_
  refine Ensures.bind (ensures_setSession fun t ht => ?_) fun _ => leaveMarker_ensures entry language _
  refine ⟨⟨ht.entry, ht.onward, ht.first, ?_, ht.marker, ht.generated⟩, ht.phase, ht.started, ht.arrived,
    ht.unasked, ht.server⟩
  rintro _ ⟨⟩
  exact Backup.isSound_of_capture hb

/-- A session up to the end of its installation. -/
def installBetween (script : Script (Chronicle ρ)) (gap : Gap → Act (Chronicle ρ) Unit) (entry : Path)
    (language : Preview.Language) : Act (Chronicle ρ) Unit := do
  prepare entry language
  generateAndStartBetween script gap entry language

theorem startBetween_eq : startBetween script gap = (do
    let s ← Act.session
    let command ← Act.work s.settings.command
    gap .commanded
    Act.setServer fun v => { v with command := some (command, s.settings.workingDirectory) }
    modify script.duringStart
    spawning script gap
    endStart script command
    gap .started) := by
  rw [startBetween]
  cases hsignal : script.signalAtStart <;> simp [spawning, hsignal, bind_assoc]

section InstallingBetween

variable (hs : Eventful script gap)
include hs

theorem Installing.ensures_gap {g : Gap} (hg : g ∉ [Gap.spawning, .leaving]) :
    Ensures (Installing timeouts x) (gap g) (fun _ => Installing timeouts x) (Failed x) :=
  Installing.undisturbed.ensures fun t => hs.between g t hg

theorem writeGeneratedBetween_ensures : Ensures (Installing timeouts x)
    (writeGeneratedBetween gap x.1 x.2) (fun _ => Installing timeouts x) (Failed x) := by
  refine ensures_session fun t _ => (Installing.ensures_any _).bind fun code =>
    Ensures.of_and fun ⟨h, k, hcode⟩ => ?_
  have hsound := Preview.isSound_of_generate hcode
  refine (Installing.ensures_gap hs (by simp)).bind fun _ =>
    Ensures.bind (J := fun _ => Installing timeouts x) (ensures_setSession fun t h => ?_) fun _ => ?_
  · exact ⟨⟨h.entry, h.onward, h.first, h.backup, h.marker, fun _ => hsound⟩, h.phase, h.started,
      h.arrived, h.unasked, h.server⟩
  · refine (Installing.ensures_gap hs (by simp)).bind fun _ =>
      (Installing.ensures_any _).bind fun written => Ensures.of_and fun _ => ?_
    cases written with
    | ok _ => exact ensures_pure fun t h => h
    | error e => exact ensures_throw fun t h => h.failed _ t

/-- A dev server is started, or a signal comes before that, or something else fails. -/
theorem startBetween_ensures : Ensures (Installing timeouts x) (startBetween script gap)
    (fun _ => Serving [] x fun _ => Started timeouts) (Failed x) := by
  rw [startBetween_eq]
  refine ensures_session fun t _ => (Installing.ensures_any _).bind fun command =>
    Ensures.of_and fun _ => (Installing.ensures_gap hs (by simp)).bind fun _ => ?_
  refine Ensures.bind (J := fun _ => Installing timeouts x) (ensures_setServer fun t h => ?_)
    fun _ => ?_
  · exact ⟨h.toRemembers.withServer _, h.phase, h.started, h.arrived, h.unasked, h.server.running,
      h.server.waits, h.server.alive, h.server.timeouts⟩
  refine (ensures_modify fun t h => ?_).bind fun _ => ?_
  · exact (hs.duringStart t h.started).ends Installing.undisturbed h
  refine (Installing.undisturbed.ensures hs.spawning).bind fun _ => ?_
  rw [endStart]
  cases script.startError with
  | some e =>
    exact Ensures.bind (J := fun _ _ => False) (ensures_throw fun t h => h.failed _ t)
      fun _ _ h => h.elim
  | none =>
    refine Ensures.bind (J := fun _ => Serving [] x fun _ => Started timeouts)
      (ensures_setSession fun t h => ?_) fun _ => ?_
    · exact ⟨⟨h.entry, h.onward, h.first, h.backup, h.marker, h.generated⟩, rfl,
        fun ht => absurd (h.unasked.symm.trans ht) (by simp), h.server⟩
    · exact Serving.ensures_gap hs (enduring_started timeouts) (by simp)

theorem installBetween_ensures : Ensures (Installing timeouts x) (installBetween script gap x.1 x.2)
    (fun _ => Serving [] x fun _ => Started timeouts) (Failed x) := by
  refine (prepare_ensures x.1 x.2).bind fun _ => ?_
  refine (Installing.ensures_gap hs (by simp)).bind fun _ =>
    (writeGeneratedBetween_ensures hs).bind fun _ =>
    (Installing.ensures_gap hs (by simp)).bind fun _ => ?_
  intro t h
  rw [Act.exec_bind_ok (Act.exec_get t), Act.exec_bind_ok (Act.exec_setSession _ t)]
  refine ((Installing.ensures_gap hs (by simp)).bind fun _ => startBetween_ensures hs) _ ?_
  exact Installing.aside.watcher t _ h

end InstallingBetween

/-! ## Tearing down -/

/-- A session that can be torn down: if its dev server was started, the end of that was waited for. -/
structure Leaving (early : List Nat) (x : Path × Preview.Language) (t : Scene (Chronicle ρ)) : Prop
    extends Remembers early x t where
  awaited : t.session.started = true → Awaited t

/-- A session that is being torn down, with a dev server that was started or without one. -/
structure Restoring (early : List Nat) (x : Path × Preview.Language) (started : Bool)
    (t : Scene (Chronicle ρ)) : Prop extends Leaving early x t where
  phase : t.session.phase = .restoring
  started : t.session.started = started

theorem Leaving.mindful : Mindful x (Leaving (ρ := ρ) early x) where
  entry _ h := h.entry
  around _ host rest watcher _ h hg := ⟨h.toRemembers.around host rest watcher hg, h.awaited⟩
  heard n _ h := ⟨h.toRemembers.heard n, h.awaited⟩
  asked _ h _ := ⟨h.toRemembers.withServer _, h.awaited⟩

/-- What is left to do once the copy is gone. -/
def unmarkBetween (gap : Gap → Act (Chronicle ρ) Unit) (marker : Option Marker) :
    Act (Chronicle ρ) Unit := do
  gap .discarded
  match marker with
  | some marker => Act.work (Instances.removeMarker marker)
  | none => pure ()
  gap .unmarked
  Act.enter .idle

namespace Restoring

variable {started : Bool}

theorem mindful : Mindful x (Restoring (ρ := ρ) early x started) where
  entry _ h := h.entry
  around t host rest watcher generated h hg :=
    ⟨Leaving.mindful.around t host rest watcher generated h.toLeaving hg, h.phase, h.started⟩
  heard n t h := ⟨Leaving.mindful.heard n t h.toLeaving, h.phase, h.started⟩
  asked t h hsignal := ⟨Leaving.mindful.asked t h.toLeaving hsignal, h.phase, h.started⟩

theorem withHost (t : Scene (Chronicle ρ)) (host : Host) (h : Restoring early x started t) :
    Restoring early x started { t with host } :=
  mindful.host t host h

theorem kill_ensures : Ensures (Restoring early x true) (kill : Act (Chronicle ρ) Unit)
    (fun _ => Restoring early x true) never :=
  fun _ h => ⟨⟨h.toRemembers.withServer _, h.awaited⟩, h.phase, h.started⟩

/-- Putting the entry file back fails at most with a warning. -/
theorem restoreEntry_ensures : Ensures (Restoring early x started)
    (restoreEntry x.1 : Act (Chronicle ρ) Bool) (fun _ => Restoring early x started) never := by
  have hwarn : ∀ text (b : Bool), Ensures (Restoring early x started)
      (Act.work (Work.warn text) >>= fun _ => pure b : Act (Chronicle ρ) Bool)
      (fun _ => Restoring early x started) never :=
    fun text b => (ensures_unfailing withHost (Work.fails_warn text)).bind fun _ =>
      ensures_pure fun _ h => h
  refine ensures_session fun t h => ?_
  cases hb : t.session.backup with
  | some b =>
    obtain ⟨hentry, hcopy⟩ := h.backup b hb
    intro t' h'
    obtain ⟨k, hk, -⟩ | ⟨logs, hk⟩ := b.restore_decides hentry hcopy t'.host
    · rw [Act.exec_bind_ok (Act.exec_outcome _ t'), Act.exec_work_of hk]
      exact withHost t' k h'
    · rw [Act.exec_bind_ok (Act.exec_outcome _ t'), Act.exec_work_of hk]
      exact hwarn _ false _ (withHost t' _ h')
  | none =>
    cases hg : t.session.generated with
    | false => exact ensures_pure fun _ h => h
    | true =>
      refine (ensures_unfailing withHost (fails_attempt_discard (h.generated hg))).bind fun removed => ?_
      cases removed with
      | ok _ => exact ensures_pure fun _ h => h
      | error e => exact hwarn _ false

variable (hs : Eventful script gap)
include hs

/-- Signals do not stop a session that is being torn down. -/
theorem undisturbed : Undisturbed script x (Restoring early x started) never :=
  mindful.undisturbed hs fun _ _ h hp _ => hp h.phase

theorem ensures_gap {g : Gap} (hg : g ∉ [Gap.spawning, .leaving]) :
    Ensures (Restoring early x started) (gap g) (fun _ => Restoring early x started) never :=
  (undisturbed hs).ensures fun t => hs.between g t hg

/-- Waiting does not fail once the dev server was waited for. -/
theorem wait_ensures (limit : Option Milliseconds) : Ensures (Restoring early x true)
    (Session.wait script limit) (fun _ => Restoring early x true) never := by
  intro t h
  have hawaited := h.awaited h.started
  cases hended : t.server.ended with
  | some code =>
    rw [wait_of_ended hended]
    exact ⟨⟨h.toRemembers.withServer _, h.awaited⟩, h.phase, h.started⟩
  | none =>
    let t₁ : Scene (Chronicle ρ) := { t with
      server := { t.server.request (.wait limit) with waits := t.server.waits + 1 } }
    have h₁ : Restoring early x true t₁ :=
      ⟨⟨h.toRemembers.withServer _, fun _ => Or.inl (Nat.succ_pos _)⟩, h.phase, h.started⟩
    have h₂ : Restoring early x true (script.duringWait t.server.waits t₁) :=
      (hs.duringWait _ t₁ h.started).ends (undisturbed hs) h₁
    have hpast : t.server.waits ≠ 0 := by
      rcases hawaited with hwaits | hsome
      · exact Nat.ne_of_gt hwaits
      · rw [hended] at hsome
        cases hsome
    rw [wait_of_running hended, endWait, Act.exec_bind_ok (Act.exec_modify _ _),
      if_neg (by simp [hpast])]
    refine ⟨⟨h₂.toRemembers.withServer _, fun hst => ?_⟩, h₂.phase, h₂.started⟩
    have hprecedes := DevServer.precedes_settleWait (script.duringWait t.server.waits t₁).server
      script.ignoresTermination script.exitCode limit
    exact (h₂.awaited hst).imp (fun hw => Nat.lt_of_lt_of_le hw hprecedes.waits) hprecedes.ended

theorem terminate_ensures : Ensures (Restoring early x true) (terminate script)
    (fun _ => Restoring early x true) never := by
  intro t h
  have hafter := mindful.terminate hs h.started
    (⟨⟨h.toRemembers.withServer _, h.awaited⟩, h.phase, h.started⟩ : Restoring early x true (asked t))
  rw [terminate_exec] at hafter ⊢
  exact hafter

theorem endServerBetween_ensures : Ensures (Restoring early x started)
    (endServerBetween script gap) (fun _ => Restoring early x started) never := by
  intro t h
  rw [endServerBetween, Act.exec_bind_ok (Act.exec_session t), Act.exec_bind_ok (Act.exec_server t)]
  by_cases hend : (t.session.started && t.server.ended.isNone) = true
  · rw [if_pos hend]
    obtain rfl : started = true := h.started.symm.trans (Bool.and_eq_true_iff.mp hend).1
    refine ((ensures_gap hs (by simp)).bind fun _ => (terminate_ensures hs).bind fun _ =>
      (ensures_gap hs (by simp)).bind fun _ => (wait_ensures hs _).bind fun waited => ?_) t h
    cases waited with
    | ended code => exact ensures_pure fun _ h => h
    | timedOut =>
      exact (ensures_gap hs (by simp)).bind fun _ => kill_ensures.bind fun _ =>
        (ensures_gap hs (by simp)).bind fun _ => (wait_ensures hs none).bind fun _ =>
          ensures_pure fun _ h => h
  · rw [if_neg hend]
    exact h

theorem unmarkBetween_ensures {marker : Option Marker}
    (hmarker : ∀ m, marker = some m → m.file.isSound = true) :
    Ensures (Restoring early x started) (unmarkBetween gap marker) (fun _ => Leaving early x) never := by
  have hlast : Ensures (Restoring early x started) (do
      gap .unmarked
      Act.enter .idle : Act (Chronicle ρ) Unit) (fun _ => Leaving early x) never :=
    (ensures_gap hs (by simp)).bind fun _ =>
      ensures_setSession fun t h => ⟨h.toRemembers.withPhase _, h.awaited⟩
  refine (ensures_gap hs (by simp)).bind fun _ => ?_
  cases marker with
  | none => exact hlast
  | some m =>
    exact (ensures_unfailing withHost (Instances.removeMarker_fails (hmarker m rfl))).bind
      fun _ => hlast

theorem releaseBetween_ensures : Ensures (Restoring early x started) (releaseBetween gap x.1)
    (fun _ => Leaving early x) never := by
  refine restoreEntry_ensures.bind fun restored => (ensures_gap hs (by simp)).bind fun _ =>
    ensures_session fun t h => ?_
  have hmarked : Ensures (Restoring early x started) (unmarkBetween gap t.session.marker)
      (fun _ => Leaving early x) never := unmarkBetween_ensures hs h.marker
  cases hb : t.session.backup with
  | none => exact hmarked
  | some b =>
    cases restored with
    | false => exact hmarked
    | true =>
      exact (ensures_unfailing withHost (Backup.discard_fails (h.backup b hb).2)).bind fun _ => hmarked

end Restoring

/-- Tearing down never fails. -/
theorem tearDownBetween_ensures (hs : Eventful script gap) : Ensures (Leaving early x)
    (tearDownBetween script gap x.1) (fun _ => Leaving early x) never := by
  intro t h
  have hrestoring : Restoring early x t.session.started
      { t with session := { t.session with phase := .restoring } } :=
    ⟨⟨h.toRemembers.withPhase _, h.awaited⟩, rfl, rfl⟩
  rw [tearDownBetween, Act.exec_bind_ok (Act.exec_enter _ t)]
  refine ((Restoring.ensures_gap hs (by simp)).bind fun _ => ?_) _ hrestoring
  refine Ensures.bind (J := fun _ => Restoring early x t.session.started)
    (ensures_setSession fun t h => Restoring.mindful.watcher t none h) fun _ => ?_
  refine (Restoring.ensures_gap hs (by simp)).bind fun _ =>
    (ensures_modify fun t h => ?_).bind fun _ => (Restoring.endServerBetween_ensures hs).bind fun _ =>
    (Restoring.ensures_gap hs (by simp)).bind fun _ => Restoring.releaseBetween_ensures hs
  exact (hs.duringRestoration t h.phase).ends (Restoring.undisturbed hs) h

/-! ## The end -/

/-- What a session reports: the error that its installation or its dev server came to, or else the first
signal, or else an exit code that is not zero. -/
def verdict : Result Int → Option Nat → Result Unit
  | .error e, _ => .error e
  | .ok _, some n => .error (.interrupted n)
  | .ok code, none => if code = 0 then .ok () else .error (.exited code)

theorem report_verdict (outcome : Result Int) (t : Scene (Chronicle ρ)) :
    (report outcome).exec t = (verdict outcome t.session.signal, t) := by
  cases outcome with
  | error e => rfl
  | ok code =>
    rw [report, Act.exec_bind_ok (Act.exec_session t)]
    cases t.session.signal with
    | some n => rfl
    | none =>
      by_cases hcode : code = 0
      · rw [verdict, if_pos hcode]
        show (ite _ _ _ : Act (Chronicle ρ) Unit).exec t = _
        rw [if_neg (by simp [hcode])]
        rfl
      · rw [verdict, if_neg hcode]
        show (ite _ _ _ : Act (Chronicle ρ) Unit).exec t = _
        rw [if_pos hcode]
        rfl

/-- However a session fares, it is torn down and reports what it has come to. -/
theorem replaceEntryBetween_verdict (hs : Eventful script gap) {outcome : Result Int}
    {w : Scene (Chronicle ρ)} (ho : (occupyBetween script gap x.1 x.2).exec t = (outcome, w))
    (hw : Leaving early x w) :
    ∃ u, Remembers w.outside.arrived x u ∧ (replaceEntryBetween script gap x.1 x.2).exec t =
      (verdict outcome u.outside.arrived.head?, u) := by
  have hsince : Leaving w.outside.arrived x w := ⟨hw.since, hw.awaited⟩
  obtain ⟨w₁, hleave, hoccurs⟩ := hs.leaving w
  have h₁ : Leaving w.outside.arrived x w₁ :=
    hoccurs.ends (Leaving.mindful.undisturbed (E := fun _ _ => True) hs
      fun _ _ _ _ _ => trivial) hsince
  obtain ⟨⟨⟩, u, hu, hlast⟩ := (tearDownBetween_ensures hs w₁ h₁).ok
  refine ⟨u, hlast.toRemembers, ?_⟩
  rw [replaceEntryBetween, Act.exec_bind_ok (Act.exec_outcome _ t), ho, Act.exec_bind_ok hleave,
    Act.exec_bind_ok hu, report_verdict, hlast.first]

theorem occupyBetween_eq (entry : Path) (language : Preview.Language) :
    occupyBetween script gap entry language = (do
      installBetween script gap entry language
      Act.enter .active
      gap .active
      superviseBetween script gap (waitBound script) .unset) := by
  rw [occupyBetween, installBetween, bind_assoc]

section Attending

variable (hs : Eventful script gap)
include hs

/-- A dev server that was started ends, or the first wait for it ends in a fault. -/
theorem Serving.occupies {v : Scene (Chronicle ρ)} {entry : Path} {language : Preview.Language}
    (hi : (installBetween script gap entry language).exec t = (.ok (), v))
    (h : Serving early x (fun _ => Started script.timeouts) v) :
    ∃ outcome w, (occupyBetween script gap entry language).exec t = (outcome, w) ∧
      Leaving early x w ∧
      (script.waitFails = true → outcome = .error (.fault .runtime)) ∧
      (script.waitFails = false →
        ∃ code, outcome = .ok code ∧ (w.session.signal = none → code = script.exitCode)) := by
  let v' : Scene (Chronicle ρ) := { v with session := { v.session with phase := .active } }
  obtain ⟨⟨⟩, v₁, hv₁, h₁⟩ := (Serving.ensures_gap hs (enduring_started script.timeouts)
    (g := .active) (E := never) (by simp) v'
    ⟨h.toRemembers.withPhase _, h.started, h.asked, h.server⟩).ok
  have hbound : waitBound script = script.timeouts + 19 + 1 := rfl
  rw [occupyBetween_eq, Act.exec_bind_ok hi, Act.exec_bind_ok (Act.exec_enter _ v),
    Act.exec_bind_ok hv₁, hbound]
  cases hfails : script.waitFails with
  | true =>
    have hends := superviseBetween_fails hs hfails (script.timeouts + 19) .unset v₁ h₁
    rcases hx : (superviseBetween script gap (script.timeouts + 19 + 1) .unset).exec v₁ with
      ⟨e | code, w⟩
    · rw [hx] at hends
      obtain ⟨rfl, hw⟩ := hends
      exact ⟨_, w, rfl, ⟨hw.toRemembers, fun _ => Or.inl hw.server⟩, fun _ => rfl, nofun⟩
    · rw [hx] at hends
      exact hends.elim
  | false =>
    have hruns : Serving early x (Runs (script.timeouts + 19 + 1) .unset) v₁ := by
      refine ⟨h₁.toRemembers, h₁.started, h₁.asked, h₁.server.running, fun hk => ?_, nofun, ?_⟩
      · exact absurd (h₁.server.alive.symm.trans hk) (by simp)
      · have hlate : lateWaits = 13 := by decide
        show v₁.server.timeouts + lateWaits ≤ _
        rw [h₁.server.timeouts, hlate]
        omega
    obtain ⟨code, w, hw, hspent⟩ := (superviseBetween_ensures hs hfails _ .unset v₁ hruns).ok
    refine ⟨.ok code, w, hw, ⟨hspent.toRemembers, fun _ => Or.inr ?_⟩, nofun,
      fun _ => ⟨code, rfl, hspent.server.code⟩⟩
    rw [hspent.server.ended]
    rfl

end Attending

theorem exitCode_interrupted (n : Nat) :
    (Error.interrupted n).exitCode? = some (128 + (n : Int)) := rfl

theorem exitCode_exited (k : Nat) : (Error.exited k).exitCode? = some (k : Int) := by
  rw [Error.exitCode?, if_neg (by omega)]

/-- A dev server that a signal ended is reported as shells do. -/
theorem exitCode_killed {k : Nat} (hk : k ≠ 0) :
    (Error.exited (-k)).exitCode? = some (128 + (k : Int)) := by
  rw [Error.exitCode?, if_pos (by omega), sub_neg_eq_add]

/-- Without a signal, the exit code of the dev server is reported. -/
theorem verdict_ended (code : Int) : (code = 0 → verdict (.ok code) none = .ok ()) ∧
    (∀ k : Nat, k ≠ 0 → code = k → verdict (.ok code) none = .error (.exited k) ∧
      (Error.exited k).exitCode? = some (k : Int)) ∧
    ∀ k : Nat, k ≠ 0 → code = -k → verdict (.ok code) none = .error (.exited (-k)) ∧
      (Error.exited (-k)).exitCode? = some (128 + (k : Int)) := by
  refine ⟨fun hzero => if_pos hzero, fun k hk hcode => ⟨?_, exitCode_exited k⟩,
    fun k hk hcode => ⟨?_, exitCode_killed hk⟩⟩
  · rw [hcode]
    exact if_neg (by omega)
  · rw [hcode]
    exact if_neg (by omega)

/-- What a session reports in the scene `u`, of which the installation has come to `x` in the scene
`v`. -/
structure Reports (script : Script (Chronicle ρ)) (x : Result Unit) (v : Scene (Chronicle ρ))
    (r : Result Unit) (u : Scene (Chronicle ρ)) : Prop where
  onward : v.outside.arrived <+: u.outside.arrived
  /-- The installation failed. -/
  failed : ∀ e, x = .error e → r = .error e
  /-- The installation succeeded, or failed for a signal, and a signal is the first to arrive. -/
  interrupted : ∀ n, u.outside.arrived.head? = some n → (v.outside.arrived = [] → x = .ok ()) →
    (x = .ok () → script.waitFails = false) →
      r = .error (.interrupted n) ∧ (Error.interrupted n).exitCode? = some (128 + n)
  /-- The dev server ended with a code, and no signal arrived. -/
  ended : x = .ok () → script.waitFails = false → u.outside.arrived = [] →
    (script.exitCode = 0 → r = .ok ()) ∧
    (∀ k : Nat, k ≠ 0 → script.exitCode = k →
      r = .error (.exited k) ∧ (Error.exited k).exitCode? = some (k : Int)) ∧
    ∀ k : Nat, k ≠ 0 → script.exitCode = -k →
      r = .error (.exited (-k)) ∧ (Error.exited (-k)).exitCode? = some (128 + (k : Int))
  /-- Waiting for the dev server ended in a fault. -/
  unwaited : x = .ok () → script.waitFails = true → r = .error (.fault .runtime)

/-- An installation that has failed is reported, and that is for the first signal if one has reached it. -/
theorem Failed.reports (hs : Eventful script gap) {e : Error} {v : Scene (Chronicle ρ)}
    (hi : (installBetween script gap x.1 x.2).exec t = (.error e, v)) (hv : Failed x e v) :
    ∃ r u, (replaceEntryBetween script gap x.1 x.2).exec t = (r, u) ∧
      Reports script (.error e) v r u := by
  have hoccupy : (occupyBetween script gap x.1 x.2).exec t = (.error e, v) := by
    rw [occupyBetween_eq, Act.exec_bind_error hi]
  obtain ⟨u, hu, hexec⟩ := replaceEntryBetween_verdict hs hoccupy
    ⟨hv.toRemembers, fun hst => absurd (hst.symm.trans hv.started) (by simp)⟩
  refine ⟨_, u, hexec, hu.onward, ?_, fun n hn hfirst _ => ⟨?_, exitCode_interrupted n⟩, nofun, nofun⟩
  · rintro _ ⟨⟩
    rfl
  · cases harrived : v.outside.arrived with
    | nil => cases hfirst harrived
    | cons m rest =>
      obtain ⟨more, hmore⟩ := hu.onward
      rw [← hmore, harrived] at hn
      obtain rfl := Option.some.inj hn
      rw [hv.reason m (by rw [harrived]; rfl)]
      rfl

/-- A dev server that was started is reported by the first signal or by its exit code. -/
theorem Serving.reports (hs : Eventful script gap) {v : Scene (Chronicle ρ)}
    (hi : (installBetween script gap x.1 x.2).exec t = (.ok (), v))
    (hv : Serving [] x (fun _ => Started script.timeouts) v) :
    ∃ r u, (replaceEntryBetween script gap x.1 x.2).exec t = (r, u) ∧
      Reports script (.ok ()) v r u := by
  have hsince : Serving v.outside.arrived x (fun _ => Started script.timeouts) v :=
    ⟨hv.since, hv.started, hv.asked, hv.server⟩
  obtain ⟨outcome, w, hoccupy, hw, hfault, hcode⟩ := hsince.occupies hs hi
  obtain ⟨u, hu, hexec⟩ := replaceEntryBetween_verdict hs hoccupy hw
  refine ⟨_, u, hexec, hw.onward.trans hu.onward, fun e he => ?_,
    fun n hn _ hwaits => ⟨?_, exitCode_interrupted n⟩, fun _ hwaits harrived => ?_,
    fun _ hwaits => ?_⟩
  · cases he
  · obtain ⟨code, rfl, -⟩ := hcode (hwaits rfl)
    rw [hn]
    rfl
  · obtain ⟨code, rfl, hsilent⟩ := hcode hwaits
    have hnone : w.session.signal = none := by
      have hearly := hu.onward
      rw [harrived, List.prefix_nil] at hearly
      rw [hw.first, hearly]
      rfl
    rw [hsilent hnone, harrived]
    exact verdict_ended script.exitCode
  · rw [hfault hwaits]
    rfl

theorem replaceEntryBetween_reports (hs : Eventful script gap) {y : Result Unit}
    {v : Scene (Chronicle ρ)} (h : Installing script.timeouts x t)
    (hi : (installBetween script gap x.1 x.2).exec t = (y, v)) :
    ∃ r u, (replaceEntryBetween script gap x.1 x.2).exec t = (r, u) ∧ Reports script y v r u := by
  have hends := installBetween_ensures hs t h
  rw [hi] at hends
  cases y with
  | error e =>
    have hv : Failed x e v := hends
    exact hv.reports hs hi
  | ok _ =>
    have hv : Serving [] x (fun _ => Started script.timeouts) v := hends
    exact hv.reports hs hi

/-! ## From the beginning -/

/-- A session up to the end of its installation, and what that has come to. It finds its entry file, and
no other session owns that. -/
def opening (script : Script (Chronicle ρ)) (gap : Gap → Act (Chronicle ρ) Unit) :
    Act (Chronicle ρ) (Result Unit) := do
  let s ← Act.session
  let x ← Act.work (Preview.resolveEntry s.configFile s.settings s.entryDirectory)
  Act.setSession fun s => { s with entry := some (x.1, x.2) }
  let owned ← Act.work (s.instances.isOwned x.1)
  if owned then
    Act.enter .aborted
    throw (.conflict x.1)
  else
    Act.enter .installing
    Act.outcome (installBetween script gap x.1 x.2)

theorem runBetween_of_opening {y : Result Unit} {v : Scene (Chronicle ρ)}
    (ho : (opening script gap).exec t = (.ok y, v)) : ∃ x host,
      let t' : Scene (Chronicle ρ) := { t with
        host, session := { t.session with phase := .installing, entry := some x } }
      (installBetween script gap x.1 x.2).exec t' = (y, v) ∧
        (runBetween script gap).exec t = (replaceEntryBetween script gap x.1 x.2).exec t' := by
  obtain ⟨s, t₁, hsession, hrest⟩ := Act.exec_bind_eq_ok ho
  obtain ⟨x, t₂, hresolve, hrest⟩ := Act.exec_bind_eq_ok hrest
  obtain ⟨⟨⟩, t₃, hentry, hrest⟩ := Act.exec_bind_eq_ok hrest
  obtain ⟨owned, t₄, howned, hrest⟩ := Act.exec_bind_eq_ok hrest
  cases owned with
  | true => cases (Prod.mk.inj hrest).1
  | false =>
    obtain ⟨k, -, rfl⟩ := Act.exec_work_eq_ok hresolve
    obtain ⟨l, -, rfl⟩ := Act.exec_work_eq_ok howned
    obtain ⟨-, rfl⟩ := Prod.mk.inj hsession
    obtain ⟨-, rfl⟩ := Prod.mk.inj hentry
    refine ⟨x, l, ?_, ?_⟩
    · have houtcome := (Act.exec_outcome (installBetween script gap x.1 x.2) _).symm.trans hrest
      obtain ⟨hy, hv⟩ := Prod.mk.inj houtcome
      exact Prod.ext (Except.ok.inj hy) hv
    · rw [runBetween, Act.exec_bind_ok hsession, Act.exec_bind_ok hresolve, Act.exec_bind_ok hentry,
        Act.exec_bind_ok howned]
      rfl

/-- A session before it runs, with a dev server that is not started and lasts as long as the script
says. No signal has arrived. -/
structure Unbegun (script : Script (Chronicle ρ)) (t : Scene (Chronicle ρ)) : Prop where
  session : t.session.IsNew
  signal : t.session.signal = none
  server : t.server = .fresh script.timeouts
  arrived : t.outside.arrived = []

theorem Unbegun.installing (h : Unbegun script t) (host : Host) :
    Installing script.timeouts x { t with
      host, session := { t.session with phase := .installing, entry := some x } } where
  entry := rfl
  onward := List.nil_prefix
  first := by rw [h.signal, h.arrived]; rfl
  backup b hb := by cases h.session.backup.symm.trans hb
  marker m hm := by cases h.session.marker.symm.trans hm
  generated hg := by cases h.session.generated.symm.trans hg
  phase := rfl
  started := h.session.started
  arrived := h.arrived
  unasked := by rw [h.server]; rfl
  server := by rw [h.server]; exact ⟨rfl, rfl, rfl, rfl⟩

/-- Whatever signals arrive and whatever happens around it, a session that gets to its installation
reports what that and the dev server have come to. -/
theorem runBetween_reports (hs : Eventful script gap) (ht : Unbegun script t) {y : Result Unit}
    {v : Scene (Chronicle ρ)} (ho : (opening script gap).exec t = (.ok y, v)) :
    ∃ r u, (runBetween script gap).exec t = (r, u) ∧ Reports script y v r u := by
  obtain ⟨x, host, hinstall, hrun⟩ := runBetween_of_opening ho
  rw [hrun]
  exact replaceEntryBetween_reports hs (ht.installing host) hinstall

/-! ### The sample -/

/-- A dev server that ends at once. -/
def briskScript : Script (Chronicle Unit) where
  exitCode := 0
  timeouts := 0
  ignoresTermination := false
  startError := none
  signalAtStart := none
  waitFails := false
  duringStart := id
  duringWait := fun _ => id
  onTermination := id
  duringRestoration := id

/-- The scene of the sample, with nothing written down. -/
def briskScene : Scene (Chronicle Unit) :=
  { sampleScene with server := .fresh 0, outside := ⟨[], ()⟩ }

/-- A signal while the dev server is spawned, and another one when the entry file was put back. -/
def twoSignals : Gap → Act (Chronicle Unit) Unit
  | .spawning => arrive briskScript 2
  | .restored => arrive briskScript 15
  | _ => pure ()

/-- A dev server that cannot be waited for, and a signal during the wait. -/
def deafScript : Script (Chronicle Unit) := { briskScript with
  waitFails := true
  duringWait := fun n t => if n = 0 then ((arrive briskScript 2).exec t).2 else t }

theorem occurs_arrive (n : Nat) (t : Scene (Chronicle ρ)) :
    Occurs script t ((arrive script n).exec t).1 ((arrive script n).exec t).2 := by
  rcases hx : (arrive script n).exec t with ⟨e | ⟨⟩, u⟩
  · exact .stopped n hx
  · exact .signal n hx (.nothing u)

theorem briskScript_eventful : Eventful briskScript twoSignals where
  between g t hg := by
    cases g with
    | spawning => exact absurd List.mem_cons_self hg
    | restored => exact occurs_arrive 15 t
    | _ => exact .nothing t
  spawning t := by
    have hspawning : spawning briskScript twoSignals = arrive briskScript 2 := bind_pure_unit
    rw [hspawning]
    exact occurs_arrive 2 t
  leaving t := ⟨t, rfl, .nothing t⟩
  duringStart t _ := .nothing t
  duringWait _ t _ := .nothing t
  onTermination t _ _ := .nothing t
  duringRestoration t _ := .nothing t

theorem deafScript_eventful : Eventful deafScript quiet where
  between _ t _ := .nothing t
  spawning t := .nothing t
  leaving t := ⟨t, rfl, .nothing t⟩
  duringStart t _ := .nothing t
  duringWait n t h := by
    show Occurs deafScript t (.ok ()) (ite _ ((arrive deafScript 2).exec t).2 t)
    split
    · have hok : ((arrive deafScript 2).exec t).1 = .ok () := by
        rw [arrive_exec, if_pos h, terminate_exec]
        split_ifs <;> rfl
      rw [← hok]
      exact occurs_arrive 2 t
    · exact .nothing t
  onTermination t _ _ := .nothing t
  duringRestoration t _ := .nothing t

/-- The scene of the sample when the dev server is about to be spawned. -/
def commandedScene (h : Host) : Scene (Chronicle Unit) where
  host := h
  session := { briefBefore.session with
    backup := some sampleBackup
    marker := some sampleLease.marker
    generated := true
    watcher := some (Watcher.start h [pairTarget.file]) }
  server := { DevServer.fresh 0 with command := some (["start"], sampleSettings.workingDirectory) }
  outside := ⟨[], ()⟩

/-- In the sample all goes well until the dev server is spawned. -/
theorem sample_commanded {script : Script (Chronicle Unit)} {gap : Gap → Act (Chronicle Unit) Unit}
    (hgap : ∀ g, g ≠ .spawning → g ≠ .restored → gap g = pure ()) :
    ∃ h, (opening script gap).exec briskScene = (Act.outcome (do
      modify script.duringStart
      spawning script gap
      endStart script ["start"])).exec (commandedScene h) := by
  obtain ⟨c, code, -, hc, hcode, -⟩ := sample_codes
  let t : Scene (Chronicle Unit) := { briskScene with session := briefBefore.session }
  obtain ⟨k, h, mode, -, hprepare, hwrite⟩ := sample_written (t := t) rfl rfl hc hcode
  have hwrites : writeGeneratedBetween gap sampleLease.entry .js =
      writeGenerated sampleLease.entry .js := by
    simp only [writeGeneratedBetween, hgap .rendered, hgap .touched, ne_eq, reduceCtorEq,
      not_false_eq_true, pure_bind]
    rfl
  have hinstall : (installBetween script gap sampleLease.entry .js).exec t = (do
      modify script.duringStart
      spawning script gap
      endStart script ["start"] : Act (Chronicle Unit) Unit).exec (commandedScene h) := by
    rw [installBetween, Act.exec_bind_ok hprepare, generateAndStartBetween, startBetween_eq, hwrites]
    simp only [hgap .marked, hgap .written, hgap .watching, hgap .commanded, hgap .started, ne_eq,
      reduceCtorEq, not_false_eq_true, pure_bind, bind_pure_unit]
    rw [Act.exec_bind_ok hwrite]
    rfl
  refine ⟨h, ?_⟩
  rw [opening, Act.exec_bind_ok (Act.exec_session _),
    Act.exec_bind_ok (resolve_exec (t := briskScene) sample_resolved),
    Act.exec_bind_ok (Act.exec_setSession _ _), Act.exec_bind_ok (Act.exec_work_of sample_unowned),
    if_neg Bool.false_ne_true, Act.exec_bind_ok (Act.exec_enter _ _), Act.exec_outcome,
    Act.exec_outcome, ← hinstall]
  rfl

theorem twoSignals_opening : ∃ h, (opening briskScript twoSignals).exec briskScene =
    (.ok (.error (.interrupted 2)), heard 2 (commandedScene h)) := by
  refine sample_commanded fun g hspawning hrestored => ?_
  cases g with
  | spawning => exact absurd rfl hspawning
  | restored => exact absurd rfl hrestored
  | _ => rfl

theorem briskScene_unbegun {script : Script (Chronicle Unit)} (h : script.timeouts = 0) :
    Unbegun script briskScene :=
  ⟨⟨rfl, rfl, rfl, rfl, rfl⟩, rfl, by rw [h]; rfl, rfl⟩

/-- A session whose installation is interrupted reports the signal that interrupted it. -/
theorem runBetween_reports_sample : ∃ v u : Scene (Chronicle Unit),
    (opening briskScript twoSignals).exec briskScene = (.ok (.error (.interrupted 2)), v) ∧
      (runBetween briskScript twoSignals).exec briskScene = (.error (.interrupted 2), u) := by
  obtain ⟨h, hopening⟩ := twoSignals_opening
  obtain ⟨r, u, hrun, hreports⟩ :=
    runBetween_reports briskScript_eventful (briskScene_unbegun rfl) hopening
  obtain ⟨more, hmore⟩ := hreports.onward
  have hfirst : u.outside.arrived.head? = some 2 := by
    rw [← hmore]
    rfl
  obtain ⟨rfl, -⟩ := hreports.interrupted 2 hfirst (fun h => by cases h) fun h => by cases h
  exact ⟨_, u, hopening, hrun⟩

/-- An error that waiting for the dev server ends in is reported, although a signal came before it. -/
theorem run_unheeded : ∃ v u : Scene (Chronicle Unit),
    (opening deafScript quiet).exec briskScene = (.ok (.ok ()), v) ∧
      (run deafScript).exec briskScene = (.error (.fault .runtime), u) ∧
      u.outside.arrived.head? = some 2 := by
  obtain ⟨h, hcommanded⟩ : ∃ h, (opening deafScript quiet).exec briskScene =
      (Act.outcome (endStart deafScript ["start"])).exec (commandedScene h) :=
    sample_commanded fun _ _ _ => rfl
  let v : Scene (Chronicle Unit) :=
    { commandedScene h with session := { (commandedScene h).session with started := true } }
  have hopening : (opening deafScript quiet).exec briskScene = (.ok (.ok ()), v) := hcommanded
  obtain ⟨x, host, hinstall, hrun⟩ := runBetween_of_opening hopening
  have hunbegun : Unbegun deafScript briskScene := briskScene_unbegun rfl
  have hends := installBetween_ensures deafScript_eventful _ (hunbegun.installing (x := x) host)
  rw [hinstall] at hends
  have hv : Serving [] x (fun _ => Started 0) v := hends
  let w : Scene (Chronicle Unit) :=
    ((superviseBetween deafScript quiet (waitBound deafScript) .unset).exec
      { v with session := { v.session with phase := .active } }).2
  have hw : Leaving [] x w :=
    ⟨⟨hv.entry, List.nil_prefix, rfl, hv.backup, hv.marker, hv.generated⟩, fun _ => Or.inl Nat.one_pos⟩
  have hoccupy : (occupyBetween deafScript quiet x.1 x.2).exec { briskScene with
      host, session := { briskScene.session with phase := .installing, entry := some x } } =
        (.error (.fault .runtime), w) := by
    rw [occupyBetween_eq, Act.exec_bind_ok hinstall]
    rfl
  obtain ⟨u, hu, hexec⟩ := replaceEntryBetween_verdict deafScript_eventful hoccupy hw
  refine ⟨v, u, hopening, ?_, ?_⟩
  · rw [← runBetween_quiet, hrun, hexec]
    rfl
  · obtain ⟨more, hmore⟩ := hu.onward
    rw [← hmore]
    rfl

end Session
end Vitrine
