import Vitrine.Proofs.Session.Vault

/-!
# A backup in custody

While a session goes on, its backup stays in the vault: the session itself writes generated code only
where the entry path leads, and what happens around it spares the directory of markers. `approach` is
all that a session does before it puts its entry file back, and it ends with the backup still there
(`approach_ends`).
-/
namespace Vitrine
namespace Session

open Host

variable {σ : Type} {script : Script σ} {v : Vault} {x : Path × Preview.Language}
  {F : Bool → DevServer → Prop} {t u : Scene σ}

/-! ## What happens around a session -/

/-- The backup of a session, if it has one, lies in the vault. -/
structure Secure (v : Vault) (x : Path × Preview.Language) (t : Scene σ) : Prop where
  entry : t.session.entry = some x
  keeps : ∀ b, t.session.backup = some b → v.Keeps x.1 b
  holds : ∀ b, t.session.backup = some b → v.Holds b.content t.session.marker t.host

/-- The entry path does not lead to the copy of the entry file. -/
def IsApart (v : Vault) (t : Scene σ) : Prop :=
  ∀ b, t.session.backup = some b → ¬ t.host.Targets b.entry v.copyPlace

/-- What may happen around a session: anything that spares the vault, signals, and, where it is
allowed, that changes of the preview file are told. -/
inductive Around (v : Vault) (allowed : Scene σ → Prop) (script : Script σ) : Scene σ → Scene σ → Prop
  | refl (t : Scene σ) : Around v allowed script t t
  | trans {t u w : Scene σ} (before : Around v allowed script t u)
      (after : Around v allowed script u w) : Around v allowed script t w
  | others (t : Scene σ) (host : Host) (outside : σ) (spares : v.Spares t.host host) :
      Around v allowed script t { t with host, outside }
  | poll (t : Scene σ) (may : allowed t) : Around v allowed script t (Session.poll.exec t).2
  | notify (t : Scene σ) (file : Path) (may : allowed t) :
      Around v allowed script t ((followChangeOrWarn file).exec t).2
  | signal (t : Scene σ) (n : Nat) : Around v allowed script t ((receive script n).exec t).2

/-- A script in which nothing else happens around a session whose backup lies in the vault. -/
structure Considerate (v : Vault) (allowed : Scene σ → Prop) (script : Script σ) : Prop where
  duringStart : ∀ x t, Secure v x t → Around v allowed script t (script.duringStart t)
  duringWait : ∀ n x t, Secure v x t → Around v allowed script t (script.duringWait n t)
  onTermination : ∀ x t, Secure v x t → Around v allowed script t (script.onTermination t)
  duringRestoration : ∀ x t, Secure v x t → Around v allowed script t (script.duringRestoration t)

/-! ### What it leaves -/

theorem Secure.of_differs {P : Place → Prop} {host : Host} (h : Secure v x t)
    (hd : DiffersOn P t.host host) (hP : ∀ b, t.session.backup = some b → ¬ P v.copyPlace) :
    Secure v x { t with host } :=
  ⟨h.entry, h.keeps, fun b hb => (h.holds b hb).of_differs hd (hP b hb)⟩

/-- A secure session of which more is known that never goes back. -/
def Stays (v : Vault) (x : Path × Preview.Language) (F : Bool → DevServer → Prop) (t : Scene σ) :
    Prop :=
  Secure v x t ∧ F t.session.started t.server

theorem stays_attentive (v : Vault) (x : Path × Preview.Language) (F : Bool → DevServer → Prop) :
    Attentive x.1 x.2 fun t : Scene σ => Stays v x F t ∧ IsApart v t where
  target t h := h.1.1.entry
  watcher t w h := ⟨⟨⟨h.1.1.entry, h.1.1.keeps, h.1.1.holds⟩, h.1.2⟩, h.2⟩
  logs t logs h :=
    ⟨⟨⟨h.1.1.entry, h.1.1.keeps, fun b hb => (h.1.1.holds b hb).withLogs logs⟩, h.1.2⟩,
      fun b hb ht => h.2 b hb ⟨ht.sound, ht.leads⟩⟩
  writes t h := by
    obtain ⟨host, generated, hscene, hwritten⟩ := writeGenerated_scene x.1 x.2 t
    have hd : DiffersAlong x.1 t.host host := by
      rcases hwritten with rfl | ⟨code, rfl⟩
      · exact .refl _ _
      · exact attempt_writeText_differs x.1 code t.host
    have hapart : ∀ b, t.session.backup = some b → ¬ t.host.Targets x.1 v.copyPlace := by
      intro b hb ht
      rw [← (h.1.1.keeps b hb).same] at ht
      exact h.2 b hb ht
    have hsecure := h.1.1.of_differs hd hapart
    rw [hscene]
    refine ⟨⟨⟨hsecure.entry, hsecure.keeps, hsecure.holds⟩, h.1.2⟩, fun b hb ht => ?_⟩
    exact h.2 b hb (hd.targets_iff.mp ht)

/-- What never goes back is not lost either. -/
def Lasting (F : Bool → DevServer → Prop) : Prop := ∀ b s s', DevServer.Precedes s s' → F b s → F b s'

/-- A session stays secure whatever happens around it, if asking the server to end leaves it so. -/
theorem Around.keeps_of (ha : Around v (IsApart v) script t u)
    (hterminate : Act.Keeps (Stays v x F) (terminate script)) (h : Stays v x F t) :
    Stays v x F u := by
  have hattentive := stays_attentive v x F (σ := σ)
  induction ha with
  | refl t => exact h
  | trans _ _ ihbefore ihafter => exact ihafter (ihbefore h)
  | others t host outside spares =>
    exact ⟨⟨h.1.entry, h.1.keeps, fun b hb => (h.1.holds b hb).of_spares spares⟩, h.2⟩
  | poll t may => exact (hattentive.keeps_poll t ⟨h, may⟩).1
  | notify t file may => exact (hattentive.keeps_followChangeOrWarn file t ⟨h, may⟩).1
  | signal t n =>
    exact keeps_receive_of (fun t n h => ⟨⟨h.1.entry, h.1.keeps, h.1.holds⟩, h.2⟩) hterminate n t h

section Considerate

variable (hs : Considerate v (IsApart v) script) (hF : Lasting F)
include hs hF

theorem stays_indifferent (x : Path × Preview.Language) : Indifferent script (Stays v x F) where
  server t s h hp := ⟨⟨h.1.entry, h.1.keeps, h.1.holds⟩, hF _ _ _ hp h.2⟩
  signal t n h := ⟨⟨h.1.entry, h.1.keeps, h.1.holds⟩, h.2⟩
  logs t logs h := ⟨⟨h.1.entry, h.1.keeps, fun b hb => (h.1.holds b hb).withLogs logs⟩, h.2⟩
  onTermination t h hterminated := by
    -- While the server was already asked to end, a signal asks it again and nothing follows.
    have hstays : Stays v x (fun b s => F b s ∧ s.terminated = true) (script.onTermination t) := by
      refine (hs.onTermination x t h.1).keeps_of (fun t h => ?_) ⟨h.1, h.2, hterminated⟩
      have hasked : Stays v x (fun b s => F b s ∧ s.terminated = true)
          { t with server := { t.server.request .terminate with terminated := true } } :=
        ⟨⟨h.1.entry, h.1.keeps, h.1.holds⟩, hF _ t.server _ ⟨le_rfl, id, fun _ => rfl⟩ h.2.1, rfl⟩
      rw [terminate_exec, h.2.2]
      exact hasked
    exact ⟨hstays.1, hstays.2.1⟩

theorem Around.keeps (ha : Around v (IsApart v) script t u) (h : Stays v x F t) : Stays v x F u :=
  ha.keeps_of (stays_indifferent hs hF x).keeps_terminate h

theorem stays_wait (n : Nat) (h : Stays v x F t) : Stays v x F (script.duringWait n t) :=
  (hs.duringWait n x t h.1).keeps hs hF h

end Considerate

/-! ## A session under way -/

/-- That the end of the server was waited for lasts. -/
theorem lasting_awaited : Lasting fun _ s => 0 < s.waits ∨ s.ended.isSome = true :=
  fun _ _ _ hp h => h.imp (fun h => Nat.lt_of_lt_of_le h hp.waits) hp.ended

/-- A session that counts its server as started has waited for its end. -/
def Waits (b : Bool) (s : DevServer) : Prop := b = true → 0 < s.waits ∨ s.ended.isSome = true

theorem lasting_waits : Lasting Waits := fun b _ _ hp h hb => lasting_awaited b _ _ hp (h hb)

/-- How an installation ends: the server is not started, or nothing has failed. -/
def Starts (v : Vault) (x : Path × Preview.Language) (r : Result Unit) (u : Scene σ) : Prop :=
  Secure v x u ∧ (r = .ok () ∨ u.session.started = false)

section Secure

variable (hs : Considerate v (IsApart v) script)
include hs

theorem Secure.start (h : Secure v x t) (hstarted : t.session.started = false) :
    Starts v x ((Session.start script).exec t).1 ((Session.start script).exec t).2 := by
  have hF : Lasting fun b _ => b = false := fun _ _ _ _ hb => hb
  have hi := stays_indifferent hs hF x
  have hfail : ∀ e (w : Scene σ), Stays v x (fun b _ => b = false) w → Starts v x (.error e) w :=
    fun e w hw => ⟨hw.1, Or.inr hw.2⟩
  refine Act.keeps_session.bind_ends hfail (fun s => ?_) t ⟨h, hstarted⟩
  refine (hi.keeps_quiet s.settings.command_quiet).bind_ends hfail fun command => ?_
  refine Act.Keeps.bind_ends (hi.keeps_setServer fun _ => ⟨le_rfl, id, id⟩) hfail fun _ => ?_
  refine Act.Keeps.bind_ends (Act.keeps_modify fun t h => (hs.duringStart x t h.1).keeps hs hF h)
    hfail fun _ => ?_
  have hend : ∀ w : Scene σ, Stays v x (fun b _ => b = false) w → Starts v x
      ((endStart script command).exec w).1 ((endStart script command).exec w).2 := by
    intro w hw
    rw [endStart]
    cases script.startError with
    | some e => exact hfail _ w hw
    | none => exact ⟨⟨hw.1.entry, hw.1.keeps, hw.1.holds⟩, Or.inl rfl⟩
  cases script.signalAtStart with
  | none => exact hend
  | some n => exact (hi.keeps_receive n).bind_ends hfail fun _ => hend

theorem Secure.generateAndStart (h : Secure v x t) (ha : IsApart v t)
    (hstarted : t.session.started = false) :
    Starts v x ((Session.generateAndStart script x.1 x.2).exec t).1
      ((Session.generateAndStart script x.1 x.2).exec t).2 := by
  have hattentive := stays_attentive v x (fun b _ => b = false) (σ := σ)
  have hfail : ∀ e (w : Scene σ), Stays v x (fun b _ => b = false) w ∧ IsApart v w → Starts v x (.error e) w :=
    fun e w hw => ⟨hw.1.1, Or.inr hw.1.2⟩
  refine hattentive.writes.bind_ends hfail (fun _ => ?_) t ⟨⟨h, hstarted⟩, ha⟩
  refine Act.keeps_get.bind_ends hfail fun s => ?_
  refine Act.Keeps.bind_ends (Act.keeps_setSession fun t h => hattentive.watcher t _ h) hfail
    fun _ w hw => ?_
  exact hw.1.1.start hs hw.1.2

theorem Secure.supervise (h : Secure v x t) :
    Stays v x (fun _ s => 0 < s.waits ∨ s.ended.isSome = true)
      ((Session.supervise script (waitBound script) .unset).exec t).2 := by
  have hj := stays_indifferent hs lasting_awaited x
  have hbound : waitBound script ≠ 0 := by
    have hwaits : 2 * (grace / waitSpan) = 20 := by decide
    rw [waitBound, hwaits]
    omega
  have hwait := fun n t h => stays_wait (t := t) (x := x) hs lasting_awaited n h
  have hfirst : ∀ t, Secure v x t → Stays v x (fun _ s => 0 < s.waits ∨ s.ended.isSome = true)
      ((Session.wait script (some waitSpan)).exec t).2 := fun t h =>
    hj.wait_ends hwait (fun t s h hp hw => ⟨⟨h.entry, h.keeps, h.holds⟩, hw⟩) (some waitSpan) h
  exact hj.supervise_ends hwait hfirst hbound .unset h

/-- The server is ended without failure if its end was waited for. -/
theorem Stays.endServer (h : Stays v x Waits t) :
    ∃ u, (Session.endServer script).exec t = (.ok (), u) ∧ Secure v x u := by
  have hj := stays_indifferent hs lasting_awaited x
  have hwait := fun n t h => stays_wait (t := t) (x := x) hs lasting_awaited n h
  refine endServer_ok (I := Secure v x) (J := Stays v x _) h.1
    (fun hstarted => hj.keeps_terminate t ⟨h.1, h.2 hstarted⟩) (fun limit t ht => ?_) hj.keeps_kill
    fun t ht => ht.1
  obtain ⟨w, u, hu⟩ := Awaited.wait_ok ht.2 script limit
  have hafter := hj.keeps_wait hwait limit t ht
  rw [hu] at hafter
  exact ⟨w, u, hu, hafter⟩

end Secure

/-! ## Putting aside -/

/-- A session that is about to replace its entry file. -/
structure Faces (v : Vault) (x : Path × Preview.Language) (t : Scene σ) : Prop where
  host : ∃ logs, t.host = v.start.withLogs logs
  directory : t.session.settings.temporary = v.directory
  entry : t.session.entry = some x
  backup : t.session.backup = none
  started : t.session.started = false

/-- A session that has put aside what it needs, or has failed to. -/
structure Prepared (v : Vault) (x : Path × Preview.Language) (t : Scene σ) : Prop where
  secure : Secure v x t
  apart : IsApart v t
  started : t.session.started = false

/-- There is nothing to put aside. -/
theorem prepared_of_none (hentry : t.session.entry = some x) (hbackup : t.session.backup = none)
    (hstarted : t.session.started = false) : Prepared v x t := by
  have hnone : ∀ b, t.session.backup ≠ some b := by
    intro b hb
    rw [hbackup] at hb
    cases hb
  exact ⟨⟨hentry, fun b hb => absurd hb (hnone b), fun b hb => absurd hb (hnone b)⟩,
    fun b hb => absurd hb (hnone b), hstarted⟩

theorem leaveMarker_scene (entry : Path) (language : Preview.Language) (s : Session) (t : Scene σ) :
    let r := (s.instances.writeMarker entry s.settings.workingDirectory language
      t.session.backup).exec t.host
    ((leaveMarker entry language s).exec t).2 = { t with
      host := r.2, session := { t.session with marker := r.1.toOption.or t.session.marker } } := by
  intro r
  rw [leaveMarker, Act.exec_bind_ok (Act.exec_session t), Act.exec_bind, Act.exec_work]
  show _ = ({ t with host := r.2, session := _ } : Scene σ)
  cases hr : r.1 <;> rfl

/-- An entry file that is there is captured before the marker is left. -/
theorem prepare_of_captured {entry : Path} {language : Preview.Language} {b : Backup} {k : Host}
    (hthere : t.host.isNode (fun _ => true) entry = .ok true)
    (hc : (Backup.capture t.session.instances.directory entry
      t.session.settings.workingDirectory).exec t.host = (.ok b, k)) :
    (Session.prepare entry language).exec t = (leaveMarker entry language t.session).exec
      { t with host := k, session := { t.session with backup := some b } } := by
  have hexists : (Work.exists_ entry).exec t.host = (.ok true, t.host) := by
    rw [Work.exists_, Work.exec_look, hthere]
  rw [Session.prepare, Act.exec_bind_ok (Act.exec_session t),
    Act.exec_bind_ok (Act.exec_work_of hexists), if_pos rfl, Act.exec_bind_ok (Act.exec_work_of hc),
    Act.exec_bind_ok (Act.exec_setSession _ _)]

theorem Faces.prepare (hv : v.IsReady) (h : Faces v x t) (hmarker : t.session.marker = none) :
    Prepared v x ((Session.prepare x.1 x.2).exec t).2 := by
  have hunmarked : ∀ host, Prepared v x { t with host } :=
    fun host => prepared_of_none h.entry h.backup h.started
  have hexists : ∀ {r}, t.host.isNode (fun _ => true) x.1 = r →
      (Act.work (Work.exists_ x.1)).exec t = (r, t) :=
    fun hr => Act.exec_work_of (by rw [Work.exists_, Work.exec_look, hr])
  have hleave : Prepared v x ((leaveMarker x.1 x.2 t.session).exec t).2 := by
    rw [leaveMarker_scene]
    exact prepared_of_none h.entry h.backup h.started
  obtain ⟨logs, hhost⟩ := h.host
  cases hthere : t.host.isNode (fun _ => true) x.1 with
  | error e =>
    rw [Session.prepare, Act.exec_bind_ok (Act.exec_session t), Act.exec_bind_error (hexists hthere)]
    exact hunmarked t.host
  | ok there =>
    cases there with
    | false =>
      rw [Session.prepare, Act.exec_bind_ok (Act.exec_session t), Act.exec_bind_ok (hexists hthere)]
      exact hleave
    | true =>
      rcases hc : (Backup.capture t.session.instances.directory x.1
        t.session.settings.workingDirectory).exec t.host with ⟨e | b, k⟩
      · rw [Session.prepare, Act.exec_bind_ok (Act.exec_session t),
          Act.exec_bind_ok (hexists hthere), if_pos rfl, Act.exec_bind_error (Act.exec_work_of hc)]
        exact hunmarked k
      rw [prepare_of_captured hthere hc, leaveMarker_scene]
      have hinstances : t.session.instances = ⟨v.directory⟩ := congrArg Instances.mk h.directory
      rw [hhost] at hc hthere
      rw [hinstances] at hc ⊢
      have hb : v.Captures x.1 b k := hv.capture hthere hc
      obtain ⟨r, k', hmark, hholds, hapart⟩ := hb.writeMarker
        t.session.settings.workingDirectory x.2 (some b)
      dsimp only
      rw [hmark, hmarker, Option.or_none]
      refine ⟨⟨h.entry, ?_, ?_⟩, ?_, h.started⟩
      · rintro b' ⟨⟩
        exact hb.toKeeps
      · rintro b' ⟨⟩
        exact hholds
      · rintro b' ⟨⟩
        rw [hb.same]
        exact hapart

/-! ## Until the entry file is put back -/

/-- What a session does until it is about to put its entry file back: the entry path, and how the dev
server ended. -/
def approach (script : Script σ) : Act σ (Path × Result Int) := do
  let s ← Act.session
  let x ← Act.work (Preview.resolveEntry s.configFile s.settings s.entryDirectory)
  Act.setSession fun s => { s with entry := some (x.1, x.2) }
  let owned ← Act.work (s.instances.isOwned x.1)
  if owned then
    Act.enter .aborted
    throw (.conflict x.1)
  else
    Act.enter .installing
    let outcome ← Act.outcome (occupy script x.1 x.2)
    Act.setSession fun s => { s with phase := .restoring, watcher := none }
    modify script.duringRestoration
    endServer script
    return (x.1, outcome)

section Approaching

variable (hs : Considerate v (IsApart v) script)
include hs

/-- However the session fares until it is torn down. -/
theorem Faces.occupy (hv : v.IsReady) (h : Faces v x t) (hmarker : t.session.marker = none) :
    Stays v x Waits ((Session.occupy script x.1 x.2).exec t).2 := by
  have hprepared := h.prepare hv hmarker
  have hunstarted : ∀ w : Scene σ, Secure v x w → w.session.started = false → Stays v x Waits w :=
    fun w hw hst => ⟨hw, fun hb => by rw [hst] at hb; cases hb⟩
  rw [Session.occupy, install_eq_prepare, bind_assoc, Act.exec_bind]
  rcases hp : (Session.prepare x.1 x.2).exec t with ⟨e | ⟨⟩, u⟩
  · rw [hp] at hprepared
    exact hunstarted u hprepared.secure hprepared.started
  rw [hp] at hprepared
  have hstarts := hprepared.secure.generateAndStart hs hprepared.apart hprepared.started
  show Stays v x Waits ((_ >>= _ : Act σ Int).exec u).2
  rw [Act.exec_bind]
  rcases hg : (Session.generateAndStart script x.1 x.2).exec u with ⟨e | ⟨⟩, w⟩
  · rw [hg] at hstarts
    refine hunstarted w hstarts.1 (hstarts.2.resolve_left fun he => ?_)
    cases he
  rw [hg] at hstarts
  show Stays v x Waits ((_ >>= _ : Act σ Int).exec w).2
  rw [Act.exec_bind_ok (Act.exec_enter _ w)]
  have hactive : Secure v x { w with session := { w.session with phase := .active } } :=
    ⟨hstarts.1.entry, hstarts.1.keeps, hstarts.1.holds⟩
  have hawaited := hactive.supervise hs
  exact ⟨hawaited.1, fun _ => hawaited.2⟩

/-- A session that has not run yet, with a vault that is ready for it. -/
structure Enters (v : Vault) (t : Scene σ) : Prop where
  session : t.session.IsNew
  host : t.host = v.start
  directory : t.session.settings.temporary = v.directory
  ready : v.IsReady

/-- A session that gets as far as its entry file is secure when it is about to put that back. -/
theorem approach_ends (ha : Enters v t) :
    (∃ e u, (approach script).exec t = (.error e, u) ∧ u.session.backup = none) ∨
      ∃ x outcome w, (approach script).exec t = (.ok (x.1, outcome), w) ∧ Secure v x w := by
  rw [approach, Act.exec_bind_ok (Act.exec_session t)]
  cases hx : ((Preview.resolveEntry t.session.configFile t.session.settings
      t.session.entryDirectory).exec t.host).1 with
  | error e =>
    rw [Act.exec_bind_error (resolve_exec hx)]
    exact Or.inl ⟨e, t, rfl, ha.session.backup⟩
  | ok x =>
    let t₁ : Scene σ := { t with session := { t.session with entry := some (x.1, x.2) } }
    obtain ⟨logs, hquiet⟩ := t.session.instances.isOwned_quiet x.1 t.host
    rw [Act.exec_bind_ok (resolve_exec hx), Act.exec_bind_ok (Act.exec_setSession _ t)]
    rcases ho : ((t.session.instances.isOwned x.1).exec t.host).1 with e | _ | _
    · refine Or.inl ⟨e, { t₁ with host := t.host.withLogs logs }, ?_, ha.session.backup⟩
      exact Act.exec_bind_error (Act.exec_work_of (Prod.ext ho hquiet))
    · have howned : (Act.work (t.session.instances.isOwned x.1)).exec t₁ =
          (.ok false, { t₁ with host := t.host.withLogs logs }) :=
        Act.exec_work_of (Prod.ext ho hquiet)
      let t₂ : Scene σ := { t₁ with
        host := t.host.withLogs logs, session := { t₁.session with phase := .installing } }
      have hfaces : Faces v x t₂ :=
        ⟨⟨logs, by rw [← ha.host]⟩, ha.directory, rfl, ha.session.backup, ha.session.started⟩
      have hstays := hfaces.occupy hs ha.ready ha.session.marker
      let t₃ := ((Session.occupy script x.1 x.2).exec t₂).2
      let t₄ : Scene σ := { t₃ with session := { t₃.session with phase := .restoring, watcher := none } }
      have hrestoring : Stays v x Waits t₄ :=
        ⟨⟨hstays.1.entry, hstays.1.keeps, hstays.1.holds⟩, hstays.2⟩
      have hlast := (hs.duringRestoration x t₄ hrestoring.1).keeps hs lasting_waits hrestoring
      obtain ⟨w, hended, hsecure⟩ := hlast.endServer hs
      refine Or.inr ⟨x, ((Session.occupy script x.1 x.2).exec t₂).1, w, ?_, hsecure⟩
      rw [Act.exec_bind_ok howned, if_neg Bool.false_ne_true, Act.exec_bind_ok (Act.exec_enter _ _),
        Act.exec_bind_ok (Act.exec_outcome _ t₂), Act.exec_bind_ok (Act.exec_setSession _ t₃),
        Act.exec_bind_ok (Act.exec_modify _ t₄), Act.exec_bind_ok hended]
      rfl
    · have howned : (Act.work (t.session.instances.isOwned x.1)).exec t₁ =
          (.ok true, { t₁ with host := t.host.withLogs logs }) :=
        Act.exec_work_of (Prod.ext ho hquiet)
      rw [Act.exec_bind_ok howned]
      exact Or.inl ⟨_, _, rfl, ha.session.backup⟩

end Approaching

end Session
end Vitrine
