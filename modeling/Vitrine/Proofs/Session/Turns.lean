import Vitrine.Proofs.Session.Restoration

/-!
# Taking turns

While a session starts its dev server, waits for it or ends it, other sessions may come to run on the
same files. `Amid` says what may happen then, and each turn of the others is noted with the files as
they were left and as they were found. As long as the others respect what belongs to the session, its
own steps are confined to that, and in the end it has put everything back (`run_turns`).
-/
namespace Vitrine

/-- A turn of other sessions: the files as they were left to them, and as they were found then. -/
structure Turn where
  left : Store
  found : Store

namespace Lease

variable {l : Lease} {s : Store} {h : Host}

/-- A session leaves files to others when it has its marker and its copy, and has changed nothing but
what belongs to it. If the others respect that, it goes on so, and a property holds of the files that
it found last. -/
def Follows (l : Lease) (P : Store → Prop) : Store → List Turn → Prop
  | s, [] => P s
  | s, x :: xs => (l.Standing x.left ∧ l.Confined s x.left) ∧
      (l.Respected x.left x.found → Follows l P x.found xs)

theorem Follows.mono {P Q : Store → Prop} (hpq : ∀ s, P s → Q s) {xs : List Turn} {s : Store}
    (h : l.Follows P s xs) : l.Follows Q s xs := by
  induction xs generalizing s with
  | nil => exact hpq s h
  | cons x xs ih => exact ⟨h.1, fun hr => ih (h.2 hr)⟩

theorem Follows.concat {P Q : Store → Prop} {x : Turn}
    (hx : ∀ s, P s → (l.Standing x.left ∧ l.Confined s x.left) ∧
      (l.Respected x.left x.found → Q x.found)) {xs : List Turn} {s : Store}
    (h : l.Follows P s xs) : l.Follows Q s (xs ++ [x]) := by
  induction xs generalizing s with
  | nil => exact hx s h
  | cons y ys ih => exact ⟨h.1, fun hr => ih (h.2 hr)⟩

/-! ## What a session does with its files -/

/-- A host on which a session holds its lease, and has changed nothing but what belongs to it since it
found some files. -/
structure Tended (l : Lease) (s : Store) (h : Host) : Prop where
  located : l.Located h
  standing : l.Standing h.store
  confined : l.Confined s h.store

/-- Since a session found some files, everything that belongs to it became what it was before. -/
structure Finished (l : Lease) (s t : Store) : Prop where
  confined : l.Confined s t
  returned : ∀ q, l.Owns q → t.seen q = l.made.store.seen q

theorem Tended.withLogs (ht : l.Tended s h) (logs : List LogEntry) : l.Tended s (h.withLogs logs) :=
  ⟨ht.located.of_eq rfl, ht.standing, ht.confined⟩

/-- The entry file changes. -/
theorem Tended.change (ht : l.Tenable) (hs : l.Tended s h) {c : Change}
    (hd : Store.DiffersAt l.place h.store (c.apply h.store)) : l.Tended s (h.change c) :=
  ⟨hs.located.of_eq rfl, hs.standing.of_differsAt ht hd, hs.confined.own owns_place hd⟩

theorem Tended.writeText_exec (ht : l.Tenable) (hs : l.Tended s h) (code : String) :
    ∃ k, (Work.writeText l.entry code).exec h = (.ok (), k) ∧ l.Tended s k := by
  have hhome := hs.standing.home
  refine ⟨_, ?_, hs.change ht (Change.differsAt_write hhome.leaf (Text.toBytes code)
    (Host.Leads.writtenMode (h.store.seen l.place)))⟩
  rw [Work.writeText, Work.writeBytes, Work.exec_perform,
    (hhome.entry_leads ht hs.located).writing_of_leaf hhome.leaf]

theorem Tended.restore_exec (ht : l.Tenable) (hs : l.Tended s h) {b : Backup}
    (hb : l.backup = some b) :
    ∃ k, b.restore.exec h = (.ok (), k) ∧ l.Tended s k ∧ l.Untouched k.store := by
  have hleaf := hs.standing.home.leaf
  obtain ⟨content, mode, ho, hexec⟩ := restore_eq ht hs.located hs.standing.home hb
  have hwritten := hs.change ht (Change.differsAt_write hleaf content
    (Host.Leads.writtenMode (h.store.seen l.place)))
  exact ⟨_, hexec, hwritten.change ht (Change.differsAt_setMode hwritten.standing.home.leaf mode),
    seen_restored hleaf ho _⟩

theorem Tended.discardEntry_exec (ht : l.Tenable) (hs : l.Tended s h) (ho : l.original = none) :
    ∃ k, (Work.discard l.entry).exec h = (.ok (), k) ∧ l.Tended s k ∧ l.Untouched k.store := by
  have hhome := hs.standing.home
  obtain ⟨k, hk, hdirectory, hd, hgone⟩ :=
    Work.discard_differsAt (hhome.entry_leads ht hs.located) hhome.leaf
  exact ⟨k, hk, ⟨hs.located.of_eq hdirectory, hs.standing.of_differsAt ht hd,
    hs.confined.own owns_place hd⟩, hgone.trans ho.symm⟩

/-- The entry file is back and the copy is gone, and only the marker is left. -/
structure Settled (l : Lease) (s : Store) (h : Host) : Prop where
  located : l.Located h
  home : l.Home h.store
  mark : l.HasMark h.store
  confined : l.Confined s h.store
  untouched : l.Untouched h.store
  uncopied : l.original ≠ none → h.store.seen l.copyPlace = none

theorem Tended.settled_of_none (hs : l.Tended s h) (ho : l.original = none)
    (hu : l.Untouched h.store) : l.Settled s h :=
  ⟨hs.located, hs.standing.home, hs.standing.mark, hs.confined, hu, fun hn => absurd ho hn⟩

theorem Tended.discardCopy_exec (ht : l.Tenable) (hs : l.Tended s h) (hu : l.Untouched h.store)
    {b : Backup} (hb : l.backup = some b) :
    ∃ k, b.discard.exec h = (.ok (), k) ∧ l.Settled s k := by
  obtain ⟨-, mode, ho⟩ := original_of_backup ht hb
  have hcopied : l.HasCopy h.store := hs.standing.copy.resolve_right fun hn => by
    rw [hn] at ho
    cases ho
  have howns := hcopied.owns
  obtain ⟨content, mode, kept, -, hfile⟩ := hcopied
  have hleaf : h.store.IsLeaf l.copyPlace := Or.inr ⟨content, kept, hfile⟩
  obtain ⟨k, hdiscard, hdirectory, hd, hgone⟩ :=
    Work.discard_differsAt (hs.standing.home.copy_leads ht hs.located hleaf) hleaf
  refine ⟨k, ?_, hs.located.of_eq hdirectory, hs.standing.home.of_sameWays hd.ways, ?_,
    hs.confined.own howns hd, ?_, fun _ => hgone⟩
  · rw [Backup.discard, copy_of_backup hb, Work.exec_bind_ok (Work.exec_attempt_ok hdiscard)]
    rfl
  · rw [HasMark, hd.others _ copyPlace_ne_markPlace.symm]
    exact hs.standing.mark
  · rw [Untouched, hd.others _ (ht.ne_place base_isPrefix_copyPlace)]
    exact hu

theorem Settled.removeMarker_exec (ht : l.Tenable) (hs : l.Settled s h) :
    ∃ k, (Instances.removeMarker l.marker).exec h = (.ok (), k) ∧ l.Finished s k.store := by
  have hleaf : h.store.IsLeaf l.markPlace := Or.inr ⟨_, _, hs.mark⟩
  obtain ⟨k, hdiscard, -, hd, hgone⟩ :=
    Work.discard_differsAt (hs.home.mark_leads ht hs.located hleaf) hleaf
  refine ⟨k, ?_, hs.confined.own owns_markPlace hd, ?_⟩
  · rw [Instances.removeMarker, Work.exec_bind_ok (Work.exec_attempt_ok hdiscard)]
    rfl
  · rintro q (rfl | rfl | ⟨ho, rfl⟩)
    · show k.store.seen l.place = l.original
      rw [hd.others _ (ht.ne_place base_isPrefix_markPlace)]
      exact hs.untouched
    · exact hgone.trans ht.markPlace_free.symm
    · rw [hd.others _ copyPlace_ne_markPlace, ht.copyPlace_free]
      exact hs.uncopied ho

end Lease

namespace Session

variable {σ : Type} {l : Lease} {script : Script σ} {turns : σ → List Turn} {I : Scene σ → Prop}
  {t u : Scene σ}

/-! ## What happens around a session -/

/-- What may happen around a session: other sessions come to run, changes of the preview file are
told, and signals arrive. `turns` knows the turns that the others had. -/
inductive Amid (script : Script σ) (turns : σ → List Turn) : Scene σ → Scene σ → Prop
  | refl (t : Scene σ) : Amid script turns t t
  | trans {t u v : Scene σ} (before : Amid script turns t u) (after : Amid script turns u v) :
      Amid script turns t v
  | pass (t : Scene σ) (outside : σ) (same : turns outside = turns t.outside) :
      Amid script turns t { t with outside }
  | others (t : Scene σ) (host : Host) (outside : σ)
      (process : host.workingDirectory = t.host.workingDirectory)
      (noted : turns outside = turns t.outside ++ [⟨t.host.store, host.store⟩]) :
      Amid script turns t { t with host, outside }
  | poll (t : Scene σ) : Amid script turns t (Session.poll.exec t).2
  | notify (t : Scene σ) (file : Path) :
      Amid script turns t ((followChangeOrWarn file).exec t).2
  | signal (t : Scene σ) (n : Nat) : Amid script turns t ((receive script n).exec t).2

/-- A script in which nothing else happens around the session. -/
structure Shares (script : Script σ) (turns : σ → List Turn) : Prop where
  duringStart : ∀ t, Amid script turns t (script.duringStart t)
  duringWait : ∀ n t, Amid script turns t (script.duringWait n t)
  onTermination : ∀ t, Amid script turns t (script.onTermination t)
  duringRestoration : ∀ t, Amid script turns t (script.duringRestoration t)

/-- A property of scenes that nothing around the session breaks. -/
structure Stable (l : Lease) (turns : σ → List Turn) (I : Scene σ → Prop) : Prop
    extends Attentive l.entry l.language I where
  server : ∀ t s, I t → t.server.Precedes s → I { t with server := s }
  signal : ∀ t n, I t → I { t with session := { t.session with signal := n } }
  pass : ∀ t outside, I t → turns outside = turns t.outside → I { t with outside }
  others : ∀ t host outside, I t → host.workingDirectory = t.host.workingDirectory →
    turns outside = turns t.outside ++ [⟨t.host.store, host.store⟩] → I { t with host, outside }

/-- Generated code is written to the entry path, if at all. -/
theorem writeGenerated_scene (entry : Path) (language : Preview.Language) (t : Scene σ) :
    ∃ host generated, ((writeGenerated entry language).exec t).2 =
        { t with host, session := { t.session with generated } } ∧
      (host = t.host ∨
        ∃ code, host = ((Work.attempt (Work.writeText entry code)).exec t.host).2) := by
  rw [writeGenerated, Act.exec_bind_ok (Act.exec_session t), Act.exec_bind,
    Act.exec_work_still (Preview.generate_moves t.session.configFile entry language)]
  cases (Preview.generate t.session.configFile entry language).outcome t.host with
  | error e => exact ⟨t.host, t.session.generated, rfl, Or.inl rfl⟩
  | ok code =>
    refine ⟨((Work.attempt (Work.writeText entry code)).exec t.host).2, true, ?_,
      Or.inr ⟨code, rfl⟩⟩
    show ((Act.setSession _ >>= _ : Act σ Unit).exec t).2 = _
    rw [Act.exec_bind_ok (Act.exec_setSession _ t), Act.exec_bind, Act.exec_work]
    dsimp only
    cases ((Work.attempt (Work.writeText entry code)).exec t.host).1 with
    | error e => rfl
    | ok x => cases x <;> rfl

namespace Stable

/-- Whether the session counts its server as started, and how far that is, nothing breaks either. -/
theorem and (hI : Stable l turns I) {F : Bool → DevServer → Prop}
    (hF : ∀ b s s', DevServer.Precedes s s' → F b s → F b s') :
    Stable l turns fun t => I t ∧ F t.session.started t.server where
  target t h := hI.target t h.1
  watcher t w h := ⟨hI.watcher t w h.1, h.2⟩
  logs t logs h := ⟨hI.logs t logs h.1, h.2⟩
  writes t h := by
    refine ⟨hI.writes t h.1, ?_⟩
    obtain ⟨host, generated, hscene, -⟩ := writeGenerated_scene l.entry l.language t
    rw [hscene]
    exact h.2
  server t s h hs := ⟨hI.server t s h.1 hs, hF _ _ _ hs h.2⟩
  signal t n h := ⟨hI.signal t n h.1, h.2⟩
  pass t outside h same := ⟨hI.pass t outside h.1 same, h.2⟩
  others t host outside h process noted := ⟨hI.others t host outside h.1 process noted, h.2⟩

end Stable

/-- Nothing around the session breaks a stable property, if asking the server to end does not. -/
theorem Amid.keeps_of (hm : Amid script turns t u) (hI : Stable l turns I)
    (hterminate : Act.Keeps I (terminate script)) (h : I t) : I u := by
  induction hm with
  | refl t => exact h
  | trans _ _ ihbefore ihafter => exact ihafter (ihbefore h)
  | pass t outside same => exact hI.pass t outside h same
  | others t host outside process noted => exact hI.others t host outside h process noted
  | poll t => exact hI.keeps_poll t h
  | notify t file => exact hI.keeps_followChangeOrWarn file t h
  | signal t n => exact keeps_receive_of hI.signal hterminate n t h

/-- While the server was already asked to end, a signal asks it again and nothing follows. -/
theorem Amid.keeps_of_terminated (hm : Amid script turns t u) (hI : Stable l turns I)
    (hterminated : ∀ t, I t → t.server.terminated = true) (h : I t) : I u := by
  refine hm.keeps_of hI (fun t h => ?_) h
  rw [terminate_exec, hterminated t h]
  exact hI.server t _ h ⟨le_rfl, id, fun _ => rfl⟩

theorem Stable.indifferent (hI : Stable l turns I) (hs : Shares script turns) :
    Indifferent script I where
  server := hI.server
  signal := hI.signal
  logs := hI.logs
  onTermination t h hterminated :=
    ((hs.onTermination t).keeps_of_terminated
      (hI.and (F := fun _ s => s.terminated = true) fun _ _ _ hp => hp.terminated)
      (fun _ h => h.2) ⟨h, hterminated⟩).1

theorem Amid.keeps (hm : Amid script turns t u) (hI : Stable l turns I) (hs : Shares script turns)
    (h : I t) : I u :=
  hm.keeps_of hI (hI.indifferent hs).keeps_terminate h

/-! ## A session under way -/

/-- A session that has its marker and its backup, and takes turns with others. -/
structure Engaged (l : Lease) (turns : σ → List Turn) (t : Scene σ) : Prop where
  entry : t.session.entry = some (l.entry, l.language)
  backup : t.session.backup = l.backup
  marker : t.session.marker = some l.marker
  course : l.Follows (fun s => l.Tended s t.host ∧
    (t.session.generated = false → l.Untouched t.host.store)) l.made.store (turns t.outside)

theorem Engaged.writeGenerated (ht : l.Tenable) :
    Act.Keeps (Engaged l turns) (Session.writeGenerated l.entry l.language) := by
  intro t h
  obtain ⟨host, generated, hscene, -⟩ := writeGenerated_scene l.entry l.language t
  rw [hscene]
  refine ⟨h.entry, h.backup, h.marker, h.course.mono fun s hs => ?_⟩
  rw [Session.writeGenerated, Act.exec_bind_ok (Act.exec_session t), Act.exec_bind,
    Act.exec_work_still (Preview.generate_moves t.session.configFile l.entry l.language)] at hscene
  cases hg : (Preview.generate t.session.configFile l.entry l.language).outcome t.host with
  | error e =>
    rw [hg] at hscene
    obtain ⟨rfl, hsession⟩ := Scene.mk.inj hscene
    rw [← hsession.1]
    exact hs
  | ok code =>
    rw [hg] at hscene
    obtain ⟨k, hk, htended⟩ := hs.1.writeText_exec ht code
    let v : Scene σ := { t with session := { t.session with generated := true } }
    have hwork : (Act.work (Work.attempt (Work.writeText l.entry code))).exec v =
        (.ok (.ok ()), { v with host := k }) := Act.exec_work_of (Work.exec_attempt_ok hk)
    change ((Act.setSession _ >>= _ : Act σ Unit).exec _).2 = _ at hscene
    rw [Act.exec_bind_ok (Act.exec_setSession _ _), Act.exec_bind_ok hwork] at hscene
    obtain ⟨rfl, hsession⟩ := Scene.mk.inj hscene
    rw [← hsession.1]
    exact ⟨htended, fun hg => by cases hg⟩

theorem Engaged.stable (ht : l.Tenable) : Stable l turns (Engaged l turns) where
  target _ h := h.entry
  watcher _ _ h := ⟨h.entry, h.backup, h.marker, h.course⟩
  logs _ logs h := ⟨h.entry, h.backup, h.marker, h.course.mono fun s hs => ⟨hs.1.withLogs logs, hs.2⟩⟩
  writes := Engaged.writeGenerated ht
  server _ _ h _ := ⟨h.entry, h.backup, h.marker, h.course⟩
  signal _ _ h := ⟨h.entry, h.backup, h.marker, h.course⟩
  pass t outside h same := by
    refine ⟨h.entry, h.backup, h.marker, ?_⟩
    show l.Follows _ l.made.store (turns outside)
    rw [same]
    exact h.course
  others t host outside h process noted := by
    refine ⟨h.entry, h.backup, h.marker, ?_⟩
    show l.Follows _ l.made.store (turns outside)
    rw [noted]
    refine h.course.concat fun s hs => ⟨⟨hs.1.standing, hs.1.confined⟩, fun hr => ?_⟩
    exact ⟨⟨hs.1.located.of_eq process, hs.1.standing.of_respected hr, .refl l _⟩,
      fun hg => (hr.own _ Lease.owns_place).trans (hs.2 hg)⟩

/-- That the end of the server was waited for is not broken either. -/
theorem Awaited.stable (turns : σ → List Turn) (ht : l.Tenable) :
    Stable l turns fun t : Scene σ => Engaged l turns t ∧ Awaited t :=
  (Engaged.stable ht).and (F := fun _ s => 0 < s.waits ∨ s.ended.isSome = true)
    fun _ _ _ hs hw => hw.imp (fun h => Nat.lt_of_lt_of_le h hs.waits) hs.ended

theorem Engaged.wait (ht : l.Tenable) (hs : Shares script turns) (h : Engaged l turns t)
    (limit : Option Milliseconds) :
    Engaged l turns ((Session.wait script limit).exec t).2 ∧
      Awaited ((Session.wait script limit).exec t).2 := by
  have hJ := Awaited.stable turns ht
  exact (hJ.indifferent hs).wait_ends (fun n _ h => (hs.duringWait n _).keeps hJ hs h)
    (fun t s h hp hw => ⟨(Engaged.stable ht).server t s h hp, hw⟩) limit h

/-- Only the first wait may fail. -/
theorem Awaited.wait_ok (h : Awaited t) (script : Script σ) (limit : Option Milliseconds) :
    ∃ w u, (wait script limit).exec t = (.ok w, u) := by
  cases hend : t.server.ended with
  | some code => exact ⟨_, _, wait_of_ended hend limit⟩
  | none =>
    have hwaits : ¬ (script.waitFails && t.server.waits = 0) = true := by
      rcases h with h | h
      · simp only [Bool.and_eq_true, decide_eq_true_eq, not_and]
        omega
      · rw [hend] at h
        cases h
    rw [wait_of_running hend, endWait, Act.exec_bind_ok (Act.exec_modify _ _), if_neg hwaits]
    exact ⟨_, _, rfl⟩

/-- How an installation ends: the server is not started, or nothing has failed. -/
def Engaged.Starts (l : Lease) (turns : σ → List Turn) (x : Result Unit) (u : Scene σ) : Prop :=
  Engaged l turns u ∧ (x = .ok () ∨ u.session.started = false)

theorem Engaged.start (ht : l.Tenable) (hs : Shares script turns) (h : Engaged l turns t)
    (hstarted : t.session.started = false) :
    Engaged.Starts l turns ((Session.start script).exec t).1 ((Session.start script).exec t).2 := by
  have hI : Stable l turns fun t => Engaged l turns t ∧ t.session.started = false :=
    (Engaged.stable ht).and (F := fun b _ => b = false) fun _ _ _ _ hb => hb
  have hi := hI.indifferent hs
  have hfail : ∀ e v, (Engaged l turns v ∧ v.session.started = false) →
      Engaged.Starts l turns (.error e) v := fun e v hv => ⟨hv.1, Or.inr hv.2⟩
  refine Act.keeps_session.bind_ends hfail (fun s => ?_) t ⟨h, hstarted⟩
  refine (hi.keeps_quiet s.settings.command_quiet).bind_ends hfail fun command => ?_
  refine Act.Keeps.bind_ends (hi.keeps_setServer fun _ => ⟨le_rfl, id, id⟩) hfail fun _ => ?_
  refine Act.Keeps.bind_ends (Act.keeps_modify fun t h => (hs.duringStart t).keeps hI hs h) hfail
    fun _ => ?_
  have hend : ∀ v, (Engaged l turns v ∧ v.session.started = false) → Engaged.Starts l turns
      ((endStart script command).exec v).1 ((endStart script command).exec v).2 := by
    intro v hv
    rw [endStart]
    cases script.startError with
    | some e => exact hfail _ v hv
    | none => exact ⟨⟨hv.1.entry, hv.1.backup, hv.1.marker, hv.1.course⟩, Or.inl rfl⟩
  cases script.signalAtStart with
  | none => exact hend
  | some n => exact (hi.keeps_receive n).bind_ends hfail fun _ => hend

theorem Engaged.generateAndStart (ht : l.Tenable) (hs : Shares script turns)
    (h : Engaged l turns t) (hstarted : t.session.started = false) :
    Engaged.Starts l turns ((Session.generateAndStart script l.entry l.language).exec t).1
      ((Session.generateAndStart script l.entry l.language).exec t).2 := by
  have hI : Stable l turns fun t => Engaged l turns t ∧ t.session.started = false :=
    (Engaged.stable ht).and (F := fun b _ => b = false) fun _ _ _ _ hb => hb
  have hfail : ∀ e v, (Engaged l turns v ∧ v.session.started = false) →
      Engaged.Starts l turns (.error e) v := fun e v hv => ⟨hv.1, Or.inr hv.2⟩
  refine hI.writes.bind_ends hfail (fun _ => ?_) t ⟨h, hstarted⟩
  refine Act.keeps_get.bind_ends hfail fun s => ?_
  refine Act.Keeps.bind_ends (Act.keeps_setSession fun t h => hI.watcher t _ h) hfail fun _ v hv => ?_
  exact hv.1.start ht hs hv.2

/-- However the session fares until it is torn down. -/
theorem occupy_engaged (ht : l.Tenable) (hs : Shares script turns)
    (h : Fresh l (fun _ => []) t) (hturns : turns t.outside = []) :
    Engaged l turns ((occupy script l.entry l.language).exec t).2 ∧
      (((occupy script l.entry l.language).exec t).2.session.started = true →
        Awaited ((occupy script l.entry l.language).exec t).2) := by
  obtain ⟨k, hk, hready⟩ := install_exec script ht h
  let t₁ : Scene σ := { t with
    host := k, session := { t.session with backup := l.backup, marker := some l.marker } }
  have h₁ : Engaged l turns t₁ := by
    refine ⟨h.entry, rfl, rfl, ?_⟩
    show l.Follows _ l.made.store (turns t.outside)
    rw [hturns]
    exact ⟨⟨hready.tracks.located, hready.occupied.standing, hready.confined⟩,
      fun _ => hready.untouched⟩
  have hstarts := h₁.generateAndStart ht hs h.started
  rw [occupy, Act.exec_bind, hk]
  rcases hx : (generateAndStart script l.entry l.language).exec t₁ with ⟨e | ⟨⟩, u⟩
  · rw [hx] at hstarts
    refine ⟨hstarts.1, fun hst => ?_⟩
    rcases hstarts.2 with hx | hx
    · cases hx
    · exact absurd (hst.symm.trans hx) (by decide)
  · rw [hx] at hstarts
    let v : Scene σ := { u with session := { u.session with phase := .active } }
    have hv : Engaged l turns v :=
      ⟨hstarts.1.entry, hstarts.1.backup, hstarts.1.marker, hstarts.1.course⟩
    have hbound : waitBound script ≠ 0 := by
      have hwaits : 2 * (grace / waitSpan) = 20 := by decide
      rw [waitBound, hwaits]
      omega
    have hJ := Awaited.stable turns ht
    have hends := (hJ.indifferent hs).supervise_ends (fun n _ h => (hs.duringWait n _).keeps hJ hs h)
      (fun _ h => h.wait ht hs (some waitSpan)) hbound .unset hv
    exact ⟨hends.1, fun _ => hends.2⟩

/-! ## Tearing down -/

/-- The server is ended without failure if its end was waited for. -/
theorem endServer_engaged (ht : l.Tenable) (hs : Shares script turns) (h : Engaged l turns t)
    (hw : t.session.started = true → Awaited t) :
    ∃ u, (endServer script).exec t = (.ok (), u) ∧ Engaged l turns u := by
  have hJ := Awaited.stable turns ht
  have hj := hJ.indifferent hs
  refine endServer_ok h (fun hstarted => hj.keeps_terminate t ⟨h, hw hstarted⟩)
    (fun limit t ht' => ?_) hj.keeps_kill fun t ht' => ht'.1
  obtain ⟨w, u, hu⟩ := ht'.2.wait_ok script limit
  have hafter := hj.keeps_wait (fun n _ h => (hs.duringWait n _).keeps hJ hs h) limit t ht'
  rw [hu] at hafter
  exact ⟨w, u, hu, hafter⟩

/-- Once the server is ended, the session puts everything back. -/
theorem release_finished (ht : l.Tenable) (hbackup : t.session.backup = l.backup)
    (hmarker : t.session.marker = some l.marker) {s : Store} (h : l.Tended s t.host)
    (hu : t.session.generated = false → l.Untouched t.host.store) :
    l.Finished s ((release l.entry).exec t).2.host.store := by
  have hrestored := restoreEntry_ok ht hbackup (fun b hb => h.restore_exec ht hb)
    (fun ho => h.discardEntry_exec ht ho) (fun hg => ⟨h, hu hg⟩)
  obtain ⟨n, k, hreleased, hfinished⟩ := release_ok ht hbackup hmarker hrestored
    (fun k hp ho => hp.1.settled_of_none ho hp.2)
    (fun k b hp hb => hp.1.discardCopy_exec ht hp.2 hb)
    (fun k hq => hq.removeMarker_exec ht)
  rw [hreleased]
  exact hfinished

/-- How a session ends: it has captured its entry file, and as long as others respected what belongs
to it, it has put everything back. -/
structure Ended (l : Lease) (turns : σ → List Turn) (t : Scene σ) : Prop where
  backup : t.session.backup = l.backup
  course : l.Follows (fun s => l.Finished s t.host.store) l.made.store (turns t.outside)

theorem tearDown_ended (ht : l.Tenable) (hs : Shares script turns) (h : Engaged l turns t)
    (hw : t.session.started = true → Awaited t) :
    Ended l turns ((tearDown script l.entry).exec t).2 := by
  let t₁ : Scene σ :=
    { t with session := { t.session with phase := .restoring, watcher := none } }
  have hI : Stable l turns fun t : Scene σ => Engaged l turns t ∧
      (t.session.started = true → 0 < t.server.waits ∨ t.server.ended.isSome = true) :=
    (Engaged.stable ht).and (F := fun b s => b = true → 0 < s.waits ∨ s.ended.isSome = true)
      fun _ _ _ hs hw hb => (hw hb).imp (fun h => Nat.lt_of_lt_of_le h hs.waits) hs.ended
  have h₂ := (hs.duringRestoration t₁).keeps hI hs
    ⟨⟨h.entry, h.backup, h.marker, h.course⟩, hw⟩
  obtain ⟨u, hu, hengaged⟩ := endServer_engaged ht hs h₂.1 h₂.2
  rw [tearDown_eq, Act.exec_bind_ok (Act.exec_setSession _ t),
    Act.exec_bind_ok (Act.exec_modify _ t₁), Act.exec_bind_ok hu]
  have hdetached : Detached fun v : Scene σ =>
      v.session.backup = l.backup ∧ turns v.outside = turns u.outside :=
    ⟨fun _ _ h => h, fun _ _ h => h⟩
  obtain ⟨hbackup, hturns⟩ := hdetached.keeps_release l.entry u ⟨hengaged.backup, rfl⟩
  refine ⟨hbackup, ?_⟩
  rw [hturns]
  exact hengaged.course.mono fun s hs =>
    release_finished ht hengaged.backup hengaged.marker hs.1 hs.2

/-! ## Running -/

theorem replaceEntry_ended (ht : l.Tenable) (hs : Shares script turns)
    (h : Fresh l (fun _ => []) t) (hturns : turns t.outside = []) :
    Ended l turns ((replaceEntry script l.entry l.language).exec t).2 := by
  obtain ⟨hengaged, hawaited⟩ := occupy_engaged ht hs h hturns
  have hended := tearDown_ended ht hs hengaged hawaited
  rw [replaceEntry, Act.exec_bind_ok (Act.exec_outcome _ t), Act.exec_bind]
  rcases hx : (tearDown script l.entry).exec ((occupy script l.entry l.language).exec t).2 with ⟨e | ⟨⟩, u⟩
  · rw [hx] at hended
    exact hended
  · rw [hx] at hended
    show Ended l turns ((report _).exec u).2
    rw [report_exec]
    exact hended

/-- A session whose entry file is owned is refused before it changes anything. -/
theorem run_refused {entry : Path} {language : Preview.Language}
    (hresolved : ((Preview.resolveEntry t.session.configFile t.session.settings
      t.session.entryDirectory).exec t.host).1 = .ok (entry, language))
    (howned : ((t.session.instances.isOwned entry).exec t.host).1 = .ok true) :
    ∃ logs, (run script).exec t = (.error (.conflict entry), { t with
      host := t.host.withLogs logs
      session := { t.session with entry := some (entry, language), phase := .aborted } }) := by
  obtain ⟨logs, hrun⟩ := run_decides script hresolved howned
  exact ⟨logs, hrun⟩

/-- A session that is about to run on the host where its lease begins. -/
structure Arrives (l : Lease) (turns : σ → List Turn) (t : Scene σ) : Prop where
  session : t.session.IsNew
  host : t.host = l.start
  directory : t.session.settings.temporary = l.directory
  workingDirectory : t.session.settings.workingDirectory = l.workingDirectory
  turns : turns t.outside = []
  resolved : ∀ x, ((Preview.resolveEntry t.session.configFile t.session.settings
    t.session.entryDirectory).exec t.host).1 = .ok x → x = (l.entry, l.language)

/-- A session that ends before it changes anything. -/
structure Turned (turns : σ → List Turn) (t u : Scene σ) : Prop where
  store : u.host.store = t.host.store
  backup : u.session.backup = none
  turns : turns u.outside = []

/-- A session that finds its entry file owned, or cannot find it out, changes nothing. Otherwise it
takes turns with the others, and in the end it has put everything back. -/
theorem run_turns (ht : l.Tenable) (hs : Shares script turns) (h : Arrives l turns t)
    (hu : ((run script).exec t).2 = u) :
    Turned turns t u ∨
      ((Instances.isOwned ⟨l.directory⟩ l.entry).exec l.start).1 = .ok false ∧ Ended l turns u := by
  have hearly : ∀ (logs : List LogEntry) (s : Session), s.backup = none →
      { t with host := t.host.withLogs logs, session := s } = u → Turned turns t u := by
    rintro logs s hb rfl
    exact ⟨rfl, hb, h.turns⟩
  cases hx : ((Preview.resolveEntry t.session.configFile t.session.settings
      t.session.entryDirectory).exec t.host).1 with
  | error e =>
    rw [run_of_unresolved script hx] at hu
    exact Or.inl (hearly t.host.logs t.session h.session.backup hu)
  | ok x =>
    obtain rfl := h.resolved x hx
    cases ho : ((t.session.instances.isOwned l.entry).exec t.host).1 with
    | error e =>
      obtain ⟨logs, hrun⟩ := run_decides script hx ho
      rw [hrun] at hu
      exact Or.inl (hearly logs { t.session with entry := some (l.entry, l.language) }
        h.session.backup hu)
    | ok owned =>
      obtain ⟨logs, hrun⟩ := run_decides script hx ho
      rw [hrun] at hu
      cases owned with
      | true =>
        exact Or.inl (hearly logs { t.session with
          entry := some (l.entry, l.language), phase := .aborted } h.session.backup hu)
      | false =>
        have hfresh : Fresh l (fun _ => []) { t with
            host := t.host.withLogs logs
            session := { t.session with
              entry := some (l.entry, l.language), phase := .installing } } :=
          ⟨⟨logs, by rw [h.host]⟩, h.directory, h.workingDirectory, rfl, h.session.backup,
            h.session.marker, h.session.started, h.session.generated, rfl⟩
        rw [Session.instances, h.directory, h.host] at ho
        refine Or.inr ⟨ho, ?_⟩
        rw [← hu]
        exact replaceEntry_ended ht hs hfresh h.turns

end Session
end Vitrine
