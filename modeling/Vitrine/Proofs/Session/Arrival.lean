import Vitrine.Proofs.Session.Turns
import Vitrine.Proofs.Session.Vault

/-!
# Signals that are written down

A session among surroundings in which every signal that arrives is written down before it is handled.
The session remembers the first of them (`Remembers`), whatever else happens: others may change any file,
and changes of the preview file may be told. What a property of scenes has to be like in order not to be
disturbed by that is said once (`Mindful`).
-/
namespace Vitrine

open Work Host

/-! ## Paths that were used -/

/-- A path that generated code was made for holds no NUL. -/
theorem Preview.isSound_of_generate {configFile entry : Path} {language : Preview.Language}
    {h k : Host} {code : String}
    (hg : (Preview.generate configFile entry language).exec h = (.ok code, k)) :
    entry.isSound = true := by
  obtain ⟨d, h₁, hresolve, -⟩ := exec_bind_eq_ok hg
  obtain ⟨c, h₂, -, hresolve⟩ := exec_bind_eq_ok hresolve
  obtain ⟨component, h₃, -, hresolve⟩ := exec_bind_eq_ok hresolve
  obtain ⟨isFile, h₄, -, hresolve⟩ := exec_bind_eq_ok hresolve
  cases isFile with
  | false => cases (Prod.mk.inj hresolve).1
  | true =>
    obtain ⟨name, h₅, -, hresolve⟩ := exec_bind_eq_ok hresolve
    obtain ⟨props, h₆, -, hresolve⟩ := exec_bind_eq_ok hresolve
    obtain ⟨path, h₇, himport, -⟩ := exec_bind_eq_ok hresolve
    obtain ⟨there, h₈, -, himport⟩ := exec_bind_eq_ok himport
    obtain ⟨here, h₉, hhere, -⟩ := exec_bind_eq_ok himport
    rw [Work.realPath, exec_look] at hhere
    exact (realPath_eq_ok (Prod.mk.inj hhere).1).1

/-- What a capture has copied lies under paths that hold no NUL. -/
theorem Backup.isSound_of_capture {directory entry workingDirectory : Path} {b : Backup} {h k : Host}
    (hc : (Backup.capture directory entry workingDirectory).exec h = (.ok b, k)) :
    b.entry.isSound = true ∧ b.copy.isSound = true := by
  obtain ⟨m, c, -, hentry, -, hbytes, hwriting, -⟩ := Backup.capture_eq_ok hc
  obtain ⟨q, -, ht, -⟩ := targets_of_bytes hbytes
  obtain ⟨place, hcopy, -⟩ := leaf_of_writing hwriting
  rw [hentry]
  exact ⟨ht.sound, hcopy.sound⟩

/-- A marker that was written lies under a path that holds no NUL. -/
theorem Instances.isSound_of_writeMarker {i : Instances} {entry workingDirectory : Path}
    {language : Preview.Language} {backup : Option Backup} {m : Marker} {h k : Host}
    (hm : (i.writeMarker entry workingDirectory language backup).exec h = (.ok m, k)) :
    m.file.isSound = true := by
  obtain ⟨⟨⟩, l, hmake, -⟩ := exec_bind_eq_ok hm
  rw [Instances.writeMarker_exec i entry workingDirectory language backup hmake (exec_issue l)] at hm
  cases hw : Host.writing { l with issued := l.issued + 1 }
      (i.numbered entry workingDirectory language backup l (l.issued + 1)).file
      (i.numbered entry workingDirectory language backup l (l.issued + 1)).content with
  | error e =>
    obtain ⟨e', he⟩ := Marker.record_error hw
    rw [he] at hm
    cases (Prod.mk.inj hm).1
  | ok c =>
    rw [Marker.record_ok hw] at hm
    obtain rfl := Except.ok.inj (Prod.mk.inj hm).1
    obtain ⟨q, ht, -⟩ := leaf_of_writing hw
    exact ht.sound

namespace Session

/-! ## Signals and other things -/

/-- Surroundings in which the signals that arrive are written down. -/
structure Chronicle (ρ : Type) where
  arrived : List Nat
  rest : ρ

variable {ρ : Type} {script : Script (Chronicle ρ)} {gap : Gap → Act (Chronicle ρ) Unit}
  {x : Path × Preview.Language} {t u : Scene (Chronicle ρ)} {r : Result Unit}

/-- A signal arrives: it is written down, and then it is handled. -/
def arrive (script : Script (Chronicle ρ)) (n : Nat) : Act (Chronicle ρ) Unit := do
  modify fun t => { t with outside := { t.outside with arrived := t.outside.arrived ++ [n] } }
  receive script n

/-- What happens around a session, one thing after the other, up to a signal that stops it. -/
inductive Occurs (script : Script (Chronicle ρ)) :
    Scene (Chronicle ρ) → Result Unit → Scene (Chronicle ρ) → Prop
  | nothing (t : Scene (Chronicle ρ)) : Occurs script t (.ok ()) t
  | others {t u : Scene (Chronicle ρ)} {r : Result Unit} (host : Host) (rest : ρ)
      (after : Occurs script { t with host, outside := { t.outside with rest } } r u) :
      Occurs script t r u
  | poll {t u : Scene (Chronicle ρ)} {r : Result Unit}
      (after : Occurs script (Session.poll.exec t).2 r u) : Occurs script t r u
  | notify {t u : Scene (Chronicle ρ)} {r : Result Unit} (file : Path)
      (after : Occurs script ((followChangeOrWarn file).exec t).2 r u) : Occurs script t r u
  | signal {t u v : Scene (Chronicle ρ)} {r : Result Unit} (n : Nat)
      (handled : (arrive script n).exec t = (.ok (), v)) (after : Occurs script v r u) :
      Occurs script t r u
  | stopped {t u : Scene (Chronicle ρ)} {e : Error} (n : Nat)
      (handled : (arrive script n).exec t = (.error e, u)) : Occurs script t (.error e) u

/-- What happens while the dev server is spawned. -/
def spawning (script : Script (Chronicle ρ)) (gap : Gap → Act (Chronicle ρ) Unit) :
    Act (Chronicle ρ) Unit := do
  gap .spawning
  match script.signalAtStart with
  | some signal => receive script signal
  | none => pure ()

/-- A session around which nothing else happens, and that no signal stops between its installation and
its tearing down. -/
structure Eventful (script : Script (Chronicle ρ)) (gap : Gap → Act (Chronicle ρ) Unit) : Prop where
  between : ∀ g t, g ∉ [Gap.spawning, .leaving] →
    Occurs script t ((gap g).exec t).1 ((gap g).exec t).2
  spawning : ∀ t, Occurs script t ((spawning script gap).exec t).1 ((spawning script gap).exec t).2
  leaving : ∀ t, ∃ u, (gap .leaving).exec t = (.ok (), u) ∧ Occurs script t (.ok ()) u
  duringStart : ∀ t, t.session.started = false → Occurs script t (.ok ()) (script.duringStart t)
  duringWait : ∀ n t, t.session.started = true → Occurs script t (.ok ()) (script.duringWait n t)
  onTermination : ∀ t, t.session.started = true → t.server.terminated = true →
    Occurs script t (.ok ()) (script.onTermination t)
  duringRestoration : ∀ t, t.session.phase = .restoring →
    Occurs script t (.ok ()) (script.duringRestoration t)

/-! ## What is not disturbed -/

/-- A signal is written down and remembered if it is the first. -/
def heard (n : Nat) (t : Scene (Chronicle ρ)) : Scene (Chronicle ρ) := { t with
  session := { t.session with signal := t.session.signal.or (some n) }
  outside := { t.outside with arrived := t.outside.arrived ++ [n] } }

/-- The dev server is asked to end. -/
def asked (t : Scene (Chronicle ρ)) : Scene (Chronicle ρ) :=
  { t with server := { t.server.request .terminate with terminated := true } }

theorem signal_heard (n : Nat) (t : Scene (Chronicle ρ)) : (heard n t).session.signal ≠ none := by
  cases hs : t.session.signal <;> simp [heard, hs]

theorem arrive_exec (n : Nat) (t : Scene (Chronicle ρ)) : (arrive script n).exec t =
    if t.session.phase = .restoring then (.ok (), heard n t)
    else if t.session.started then
      if t.server.ended.isNone then (terminate script).exec (heard n t) else (.ok (), heard n t)
    else (.error (.interrupted n), heard n t) := by
  rw [arrive, Act.exec_bind_ok (Act.exec_modify _ t), receive,
    Act.exec_bind_ok (Act.exec_setSession _ _), Act.exec_bind_ok (Act.exec_session _)]
  show (ite (t.session.phase = .restoring) _ _ : Act (Chronicle ρ) Unit).exec (heard n t) = _
  split
  · rfl
  · show (ite (t.session.started = true) _ _ : Act (Chronicle ρ) Unit).exec (heard n t) = _
    split
    · rw [Act.exec_bind_ok (Act.exec_server _)]
      show (ite (t.server.ended.isNone = true) _ _ : Act (Chronicle ρ) Unit).exec (heard n t) = _
      split <;> rfl
    · rfl

/-- A property of the scenes of a session that depends neither on files nor on what happens outside,
but for the signals. Generated code is only written to a path that can be used. -/
structure Aside (x : Path × Preview.Language) (I : Scene (Chronicle ρ) → Prop) : Prop where
  entry : ∀ t, I t → t.session.entry = some x
  around : ∀ t host rest watcher generated, I t →
    (generated = true → t.session.generated = true ∨ x.1.isSound = true) →
    I { t with
      host, session := { t.session with watcher, generated }, outside := { t.outside with rest } }

/-- That property is not disturbed by signals either, unless one stops the session. -/
structure Undisturbed (script : Script (Chronicle ρ)) (x : Path × Preview.Language)
    (I : Scene (Chronicle ρ) → Prop) (E : Error → Scene (Chronicle ρ) → Prop) : Prop
    extends Aside x I where
  arrive : ∀ n, Act.Ensures I (arrive script n) (fun _ => I) E

variable {I : Scene (Chronicle ρ) → Prop} {E : Error → Scene (Chronicle ρ) → Prop}

theorem Aside.host (hI : Aside x I) (t : Scene (Chronicle ρ)) (host : Host) (h : I t) :
    I { t with host } :=
  hI.around t host t.outside.rest t.session.watcher t.session.generated h Or.inl

theorem Aside.watcher (hI : Aside x I) (t : Scene (Chronicle ρ)) (w : Option Watcher) (h : I t) :
    I { t with session := { t.session with watcher := w } } :=
  hI.around t t.host t.outside.rest w t.session.generated h Or.inl

theorem Aside.attentive (hI : Aside x I) : Attentive x.1 x.2 I where
  target := hI.entry
  watcher := hI.watcher
  logs t logs h := hI.host t (t.host.withLogs logs) h
  writes t h := by
    obtain ⟨host, generated, hscene, -⟩ := writeGenerated_scene x.1 x.2 t
    rw [hscene]
    refine hI.around t host t.outside.rest t.session.watcher generated h fun hg => ?_
    cases hc : (Preview.generate t.session.configFile x.1 x.2).outcome t.host with
    | ok code =>
      have hexec := Still.exec_eq (Preview.generate_moves t.session.configFile x.1 x.2) t.host
      rw [hc] at hexec
      exact Or.inr (Preview.isSound_of_generate hexec)
    | error e =>
      rw [writeGenerated, Act.exec_bind_ok (Act.exec_session t), Act.exec_bind,
        Act.exec_work_still (Preview.generate_moves _ _ _), hc] at hscene
      exact Or.inl ((congrArg (fun s => s.session.generated) hscene).trans hg)

theorem Occurs.ends (ho : Occurs script t r u) (hI : Undisturbed script x I E) (h : I t) :
    Act.Ends (fun _ => I) E (r, u) := by
  induction ho with
  | nothing t => exact h
  | @others t u r host rest _ ih =>
    exact ih (hI.around t host rest t.session.watcher t.session.generated h Or.inl)
  | poll _ ih => exact ih (hI.attentive.keeps_poll _ h)
  | notify file _ ih => exact ih (hI.attentive.keeps_followChangeOrWarn file _ h)
  | signal n handled _ ih =>
    have hends := hI.arrive n _ h
    rw [handled] at hends
    exact ih hends
  | stopped n handled =>
    have hends := hI.arrive n _ h
    rw [handled] at hends
    exact hends

/-- A property that is not disturbed is kept in the gaps. -/
theorem Undisturbed.ensures (hI : Undisturbed script x I E) {a : Act (Chronicle ρ) Unit}
    (ha : ∀ t, Occurs script t (a.exec t).1 (a.exec t).2) : Act.Ensures I a (fun _ => I) E :=
  fun t h => (ha t).ends hI h

/-- A property that lasts when a signal is remembered, and when the dev server is asked to end after
that. -/
structure Mindful (x : Path × Preview.Language) (I : Scene (Chronicle ρ) → Prop) : Prop
    extends Aside x I where
  heard : ∀ n t, I t → I (heard n t)
  asked : ∀ t, I t → t.session.signal ≠ none → I (asked t)

theorem Mindful.terminate (hI : Mindful x I) (hs : Eventful script gap)
    (hstarted : t.session.started = true) (h : I (Session.asked t)) :
    I ((Session.terminate script).exec t).2 := by
  rw [terminate_exec]
  show I (ite _ (Session.asked t) (script.onTermination (Session.asked t)))
  split
  · exact h
  -- A server that was asked to end already is asked again, and nothing follows.
  let J : Scene (Chronicle ρ) → Prop :=
    fun t => I t ∧ t.session.started = true ∧ t.server.terminated = true
  have hJ : Undisturbed script x J fun _ _ => True := by
    refine ⟨⟨fun t h => hI.entry t h.1, fun t host rest watcher generated h hg =>
      ⟨hI.around t host rest watcher generated h.1 hg, h.2⟩⟩, fun n t h => ?_⟩
    have hheard : J (Session.heard n t) := ⟨hI.heard n t h.1, h.2⟩
    rw [arrive_exec, if_pos h.2.1]
    split
    · exact hheard
    split
    · rw [terminate_exec, hheard.2.2]
      exact ⟨hI.asked _ hheard.1 (signal_heard n t), h.2.1, rfl⟩
    · exact hheard
  exact ((hs.onTermination (Session.asked t) hstarted rfl).ends hJ ⟨h, hstarted, rfl⟩).1

/-- Whoever is mindful is not disturbed. -/
theorem Mindful.undisturbed (hI : Mindful x I) (hs : Eventful script gap)
    (hstop : ∀ n t, I t → t.session.phase ≠ .restoring → t.session.started = false →
      E (.interrupted n) (Session.heard n t)) : Undisturbed script x I E := by
  refine ⟨hI.toAside, fun n t h => ?_⟩
  have hheard := hI.heard n t h
  rw [arrive_exec]
  by_cases hp : t.session.phase = .restoring
  · rw [if_pos hp]
    exact hheard
  rw [if_neg hp]
  cases hst : t.session.started with
  | false => exact hstop n t h hp hst
  | true =>
    rw [if_pos rfl]
    split
    · have hasked := hI.terminate hs (t := Session.heard n t) hst
        (hI.asked _ hheard (signal_heard n t))
      rw [terminate_exec] at hasked ⊢
      exact hasked
    · exact hheard

/-! ## What lasts all through a session -/

/-- A session that remembers the first signal that has arrived, and that has only put aside what lies
under paths that can be used. The signals `early` have arrived before. -/
structure Remembers (early : List Nat) (x : Path × Preview.Language) (t : Scene (Chronicle ρ)) :
    Prop where
  entry : t.session.entry = some x
  onward : early <+: t.outside.arrived
  first : t.session.signal = t.outside.arrived.head?
  backup : ∀ b, t.session.backup = some b → b.entry.isSound = true ∧ b.copy.isSound = true
  marker : ∀ m, t.session.marker = some m → m.file.isSound = true
  generated : t.session.generated = true → x.1.isSound = true

namespace Remembers

variable {early : List Nat}

theorem around (h : Remembers early x t) (host : Host) (rest : ρ) (watcher : Option Watcher)
    {generated : Bool} (hg : generated = true → t.session.generated = true ∨ x.1.isSound = true) :
    Remembers early x { t with
      host, session := { t.session with watcher, generated }, outside := { t.outside with rest } } :=
  ⟨h.entry, h.onward, h.first, h.backup, h.marker, fun hgen => (hg hgen).elim h.generated id⟩

theorem heard (h : Remembers early x t) (n : Nat) : Remembers early x (heard n t) := by
  refine ⟨h.entry, h.onward.trans (List.prefix_append _ _), ?_, h.backup, h.marker, h.generated⟩
  show t.session.signal.or (some n) = (t.outside.arrived ++ [n]).head?
  rw [h.first, List.head?_append]
  rfl

theorem withServer (h : Remembers early x t) (s : DevServer) :
    Remembers early x { t with server := s } :=
  ⟨h.entry, h.onward, h.first, h.backup, h.marker, h.generated⟩

theorem withPhase (h : Remembers early x t) (phase : Phase) :
    Remembers early x { t with session := { t.session with phase } } :=
  ⟨h.entry, h.onward, h.first, h.backup, h.marker, h.generated⟩

/-- What has arrived by now has arrived before all that follows. -/
theorem since (h : Remembers early x t) : Remembers t.outside.arrived x t :=
  ⟨h.entry, List.prefix_rfl, h.first, h.backup, h.marker, h.generated⟩

end Remembers

end Session
end Vitrine
