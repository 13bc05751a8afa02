import Vitrine.Proofs.Session.Delivery
import Vitrine.Proofs.Session.Steps

/-!
# Restoration

A session puts its entry file back however it ends. The invariant holds from the writing of the marker
on (`occupyBetween_held`), and from any scene where it holds the session is torn down without a trace
(`tearDownBetween_exec`). Signals may arrive between any two statements all that time.
-/
namespace Vitrine
namespace Session

variable {σ : Type} {l : Lease} {script : Script σ} {journal : σ → List Change} {r t u : Scene σ}
  {a : Act σ Unit} {gap : Gap → Act σ Unit}

/-! ## Waiting -/

/-- The end of the dev server was waited for. -/
def Awaited (t : Scene σ) : Prop := 0 < t.server.waits ∨ t.server.ended.isSome = true

/-- A session that has written generated code. -/
structure Busy (l : Lease) (journal : σ → List Change) (started : Bool) (t : Scene σ) : Prop
    extends Held l journal t where
  generated : t.session.generated = true
  started : t.session.started = started

theorem Held.withServer (h : Held l journal t) (s : DevServer) :
    Held l journal { t with server := s } :=
  ⟨h.tracks, h.occupied, h.entry, h.backup, h.marker, h.untouched, h.spawned⟩

theorem Busy.withServer {started : Bool} (h : Busy l journal started t) (s : DevServer) :
    Busy l journal started { t with server := s } := ⟨h.toHeld.withServer s, h.generated, h.started⟩

theorem Busy.warned {started : Bool} (h : Busy l journal started t) (text : String) :
    Busy l journal started { t with host := t.host.log .warning text } :=
  ⟨⟨h.tracks.withLogs _, h.occupied, h.entry, h.backup, h.marker, h.untouched, h.spawned⟩,
    h.generated, h.started⟩

theorem Busy.continues {started : Bool} (h : Busy l journal started t)
    (k : Continues l journal t u) : Busy l journal started u :=
  ⟨k.toHeld, k.generated h.generated, k.started.trans h.started⟩

theorem Continues.awaited (k : Continues l journal t u) (h : Awaited t) : Awaited u := by
  rw [Awaited, k.waits, k.ended]
  exact h

theorem waits_settleWait (s : DevServer) (ignores : Bool) (code : Int)
    (limit : Option Milliseconds) : (s.settleWait ignores code limit).2.waits = s.waits := by
  unfold DevServer.settleWait
  split
  · rfl
  · split
    · rfl
    · split <;> rfl

/-- A wait keeps the invariant; only the first one may fail. -/
theorem wait_exec (ht : l.Tenable) (hs : Spares l journal script) (limit : Option Milliseconds)
    {started : Bool} (h : Busy l journal started t) :
    ∃ x u, (wait script limit).exec t = (x, u) ∧ Busy l journal started u ∧ Awaited u ∧
      (Awaited t → ∃ w, x = .ok w) ∧ u.session.phase = t.session.phase := by
  let t₁ : Scene σ := { t with server := t.server.request (.wait limit) }
  have h₁ : Busy l journal started t₁ := h.withServer _
  rw [wait, Act.exec_bind_ok (Act.exec_setServer _ t), Act.exec_bind_ok (Act.exec_server t₁)]
  cases hend : t₁.server.ended with
  | some code =>
    refine ⟨.ok (.ended code), t₁, rfl, h₁, Or.inr ?_, fun _ => ⟨_, rfl⟩, rfl⟩
    rw [hend]
    rfl
  | none =>
    let t₂ : Scene σ := { t₁ with server := { t₁.server with waits := t₁.server.waits + 1 } }
    have h₂ : Busy l journal started t₂ := h₁.withServer _
    let t₃ := script.duringWait t₁.server.waits t₂
    have hk : Continues l journal t₂ t₃ :=
      (hs.duringWait _ t₂ h₂.toHeld h₂.generated).continues ht hs h₂.toHeld.continues
    have h₃ : Busy l journal started t₃ := h₂.continues hk
    have hwaits : 0 < t₃.server.waits := by
      rw [hk.waits]
      exact Nat.succ_pos _
    show ∃ x u, (Act.setServer _ >>= _ : Act σ Vitrine.Waited).exec t₁ = _ ∧ _
    rw [Act.exec_bind_ok (Act.exec_setServer _ t₁), Act.exec_bind_ok (Act.exec_modify _ t₂)]
    by_cases hfail : (script.waitFails && decide (t₁.server.waits = 0)) = true
    · rw [if_pos hfail]
      refine ⟨_, t₃, rfl, h₃, Or.inl hwaits, fun hw => ?_, hk.phase⟩
      have hzero : t.server.waits = 0 := of_decide_eq_true (Bool.and_eq_true_iff.mp hfail).2
      rcases hw with hw | hw
      · omega
      · rw [show t.server.ended = none from hend] at hw
        cases hw
    · rw [if_neg hfail]
      refine ⟨_, _, rfl, h₃.withServer _, Or.inl ?_, fun _ => ⟨_, rfl⟩, hk.phase⟩
      show 0 < (t₃.server.settleWait _ _ _).2.waits
      rw [waits_settleWait]
      exact hwaits

/-- A session that holds its lease and has not started its dev server. -/
structure Unstarted (l : Lease) (journal : σ → List Change) (t : Scene σ) : Prop
    extends Held l journal t where
  started : t.session.started = false

theorem Unstarted.continues (h : Unstarted l journal t) (k : Continues l journal t u) :
    Unstarted l journal u :=
  ⟨k.toHeld, k.started.trans h.started⟩

theorem Busy.unstarted (h : Busy l journal false t) : Unstarted l journal t := ⟨h.toHeld, h.started⟩

/-! ## In between -/

section Delivers

variable (hd : Delivers script a) (ht : l.Tenable) (hs : Spares l journal script)
include hd ht hs

theorem Delivers.keeps_unstarted : Act.Keeps (Unstarted l journal) a := by
  intro t h
  obtain ⟨u, hu, he | ⟨-, -, n, he⟩⟩ := hd.continues ht hs h.toHeld
  · rw [he]
    exact h.continues hu
  · rw [he]
    exact h.continues hu

theorem Delivers.keeps_busy {started : Bool} : Act.Keeps (Busy l journal started) a := by
  intro t h
  obtain ⟨u, hu, he | ⟨-, -, n, he⟩⟩ := hd.continues ht hs h.toHeld
  · rw [he]
    exact h.continues hu
  · rw [he]
    exact h.continues hu

/-- A session with a dev server is not stopped. -/
theorem Delivers.exec_of_started (h : Held l journal t) (hstarted : t.session.started = true) :
    ∃ u, a.exec t = (.ok (), u) ∧ Continues l journal t u := by
  obtain ⟨u, hu, he | ⟨-, hnot, -⟩⟩ := hd.continues ht hs h
  · exact ⟨u, he, hu⟩
  · cases hstarted.symm.trans hnot

end Delivers

/-- Supervising keeps the invariant, and it does not end before the server was waited for. -/
theorem superviseBetween_busy (ht : l.Tenable) (hs : Spares l journal script)
    (hd : ∀ g, Delivers script (gap g)) (n : Nat) (d : Deadline) (h : Busy l journal true t)
    (hn : n ≠ 0 ∨ Awaited t) :
    Busy l journal true ((superviseBetween script gap n d).exec t).2 ∧
      Awaited ((superviseBetween script gap n d).exec t).2 := by
  induction n generalizing d t with
  | zero => exact ⟨h, hn.resolve_left fun h0 => h0 rfl⟩
  | succ n ih =>
    have hgap : ∀ {g v}, Busy l journal true v → ∃ w, (gap g).exec v = (.ok (), w) ∧
        Busy l journal true w ∧ (Awaited v → Awaited w) := by
      intro g v hv
      obtain ⟨w, hw, hk⟩ := (hd g).exec_of_started ht hs hv.toHeld hv.started
      exact ⟨w, hw, hv.continues hk, hk.awaited⟩
    obtain ⟨t₁, ht₁, hbusy₁, -⟩ := hgap (g := .waiting n) h
    obtain ⟨x, u, hu, hbusy, hwaited, -⟩ := wait_exec ht hs (some waitSpan) hbusy₁
    rw [superviseBetween, Act.exec_bind_ok ht₁]
    cases x with
    | error e =>
      rw [Act.exec_bind_error hu]
      exact ⟨hbusy, hwaited⟩
    | ok w =>
      rw [Act.exec_bind_ok hu]
      cases w with
      | ended code => exact ⟨hbusy, hwaited⟩
      | timedOut =>
        obtain ⟨u₁, hu₁, hbusy₁, hwaited₁⟩ := hgap (g := .waited n) hbusy
        show Busy l journal true ((gap (.waited n) >>= _ : Act σ Int).exec u).2 ∧
          Awaited ((gap (.waited n) >>= _ : Act σ Int).exec u).2
        rw [Act.exec_bind_ok hu₁, Act.exec_bind_ok (Act.exec_session u₁)]
        split
        · exact ih d hbusy₁ (Or.inr (hwaited₁ hwaited))
        · obtain ⟨u₂, hu₂, hbusy₂, hwaited₂⟩ := hgap (g := .late n) hbusy₁
          have hw₂ := hwaited₂ (hwaited₁ hwaited)
          rw [Act.exec_bind_ok hu₂, Act.exec_bind_ok (Act.exec_server u₂)]
          cases d with
          | unset => exact ih _ hbusy₂ (Or.inr hw₂)
          | passed => exact ih _ hbusy₂ (Or.inr hw₂)
          | due time =>
            dsimp only
            split
            · have hwarned := hbusy₂.warned "Dev server ignored termination, killing it"
              obtain ⟨u₃, hu₃, hbusy₃, hwaited₃⟩ := hgap (g := .warned n) hwarned
              obtain ⟨u₄, hu₄, hbusy₄, hwaited₄⟩ := hgap (g := .killed n)
                (hbusy₃.withServer { u₃.server.request .kill with killed := true })
              rw [Act.exec_bind_ok (Act.exec_work_of (Work.exec_warn _ _)), Act.exec_bind_ok hu₃,
                Act.exec_bind_ok (exec_kill u₃), Act.exec_bind_ok hu₄]
              exact ih .passed hbusy₄ (Or.inr (hwaited₄ (hwaited₃ hw₂)))
            · exact ih _ hbusy₂ (Or.inr hw₂)

/-! ## Installing -/

theorem Busy.receive (ht : l.Tenable) (hs : Spares l journal script) {started : Bool}
    (h : Busy l journal started t) (signal : Nat) :
    Busy l journal started ((receive script signal).exec t).2 :=
  h.continues ((Meanwhile.signal t signal).continues ht hs h.toHeld.continues)

/-- A session that is about to replace its entry file. -/
structure Fresh (l : Lease) (journal : σ → List Change) (t : Scene σ) : Prop where
  host : ∃ logs, t.host = l.start.withLogs logs
  directory : t.session.settings.temporary = l.directory
  workingDirectory : t.session.settings.workingDirectory = l.workingDirectory
  entry : t.session.entry = some (l.entry, l.language)
  backup : t.session.backup = none
  marker : t.session.marker = none
  started : t.session.started = false
  generated : t.session.generated = false
  journal : journal t.outside = []

/-- A host on which all is in place for a session to replace its entry file. -/
structure Ready (l : Lease) (k : Host) : Prop where
  tracks : l.Tracks [] k
  occupied : l.Occupied k.store
  untouched : l.Untouched k.store
  confined : l.Confined l.made.store k.store

/-- The marker is written on a host where all else is prepared. -/
theorem leaveMarker_exec (ht : l.Tenable) {h : Host} (hp : l.Prepared h)
    (hmake : (Work.makeDirectories l.directory).exec t.host = (.ok (), h))
    (hdirectory : t.session.settings.temporary = l.directory)
    (hworking : t.session.settings.workingDirectory = l.workingDirectory)
    (hbackup : t.session.backup = l.backup) (s : Session)
    (hsettings : s.settings = t.session.settings) :
    ∃ k, (leaveMarker l.entry l.language s).exec t = (.ok (), { t with
      host := k
      session := { t.session with backup := l.backup, marker := some l.marker } }) ∧ Ready l k := by
  obtain ⟨k, hk, htracks, hoccupied, huntouched, hconfined⟩ := Lease.writeMarker_exec ht hp hmake
  have hmarker : (Act.work (s.instances.writeMarker l.entry s.settings.workingDirectory l.language
      t.session.backup)).exec t = (.ok l.marker, { t with host := k }) := by
    rw [Session.instances, hsettings, hdirectory, hworking, hbackup]
    exact Act.exec_work_of hk
  refine ⟨k, ?_, htracks, hoccupied, huntouched, hconfined⟩
  rw [leaveMarker, Act.exec_bind_ok (Act.exec_session t), Act.exec_bind_ok hmarker,
    Act.exec_setSession, ← hbackup]

/-- Before the generated code is written, the backup and the marker are made. -/
theorem prepare_exec (ht : l.Tenable) (h : Fresh l journal t) :
    ∃ k, (prepare l.entry l.language).exec t = (.ok (), { t with
      host := k
      session := { t.session with backup := l.backup, marker := some l.marker } }) ∧ Ready l k := by
  obtain ⟨logs, hhost⟩ := h.host
  have hentry : t.host.Leads l.entry l.place := by
    rw [hhost]
    exact ⟨ht.entry.sound, ht.entry.leads⟩
  have hseen : t.host.store.seen l.place = l.original := by
    rw [hhost]
    exact ht.seen_start
  have hexists : (Act.work (Work.exists_ l.entry)).exec t = (.ok l.original.isSome, t) := by
    refine Act.exec_work_of ?_
    rw [Work.exists_, Work.exec_look, hentry.exists_eq, hseen]
  rw [prepare, Act.exec_bind_ok (Act.exec_session t), Act.exec_bind_ok hexists]
  rcases ht.original_cases with ho | ⟨content, mode, ho⟩
  · have hb : l.backup = none := by
      rw [Lease.backup, ho]
    obtain ⟨logs', hmake⟩ := Lease.makeDirectories_start ht logs
    rw [← hhost] at hmake
    rw [if_neg (by simp [ho])]
    exact leaveMarker_exec ht (Lease.prepared_of_none ht ho logs') hmake h.directory
      h.workingDirectory (h.backup.trans hb.symm) _ rfl
  · obtain ⟨b, k, hk, hb, hprepared⟩ := Lease.prepared_of_file ht ho logs
    have hcapture : (Act.work (Backup.capture t.session.instances.directory l.entry
        t.session.settings.workingDirectory)).exec t = (.ok b, { t with host := k }) := by
      rw [Session.instances, h.directory, h.workingDirectory]
      refine Act.exec_work_of ?_
      rw [hhost]
      exact hk
    rw [if_pos (by simp [ho]), Act.exec_bind_ok hcapture,
      Act.exec_bind_ok (Act.exec_setSession _ _)]
    exact leaveMarker_exec (t := { t with
      host := k, session := { t.session with backup := some b } }) ht hprepared
      (Lease.makeDirectories_home ht hprepared.home hprepared.tracks.workingDirectory) h.directory
      h.workingDirectory hb.symm _ rfl

theorem install_exec (script : Script σ) (ht : l.Tenable) (h : Fresh l journal t) :
    ∃ k, (install script l.entry l.language).exec t =
      (generateAndStart script l.entry l.language).exec { t with
        host := k
        session := { t.session with backup := l.backup, marker := some l.marker } } ∧ Ready l k := by
  obtain ⟨k, hk, hready⟩ := prepare_exec ht h
  exact ⟨k, by rw [install_eq_prepare, Act.exec_bind_ok hk], hready⟩

/-- Once the marker is written, the session holds its lease. -/
theorem Fresh.unstarted (h : Fresh l journal t) {k : Host} (hready : Ready l k) :
    Unstarted l journal { t with
      host := k
      session := { t.session with backup := l.backup, marker := some l.marker } } := by
  refine ⟨⟨?_, hready.occupied, h.entry, rfl, rfl, fun _ => hready.untouched, fun hst => ?_⟩,
    h.started⟩
  · show l.Tracks (journal t.outside) k
    rw [h.journal]
    exact hready.tracks
  · exact absurd (hst.symm.trans h.started) (by decide)

/-- How a part of an installation ends: it fails, and no dev server was started, or generated code was
written. -/
def Reaches (l : Lease) (journal : σ → List Change) (started : Bool) (x : Result Unit)
    (u : Scene σ) : Prop :=
  (∃ e, x = .error e) ∧ Unstarted l journal u ∨ x = .ok () ∧ Busy l journal started u

theorem Unstarted.reaches (h : Unstarted l journal t) (started : Bool) (e : Error) :
    Reaches l journal started (.error e) t :=
  Or.inl ⟨⟨e, rfl⟩, h⟩

section Installing

variable (ht : l.Tenable) (hs : Spares l journal script) (hd : ∀ g, Delivers script (gap g))
include ht hs hd

theorem writeGeneratedBetween_ends (h : Unstarted l journal t) :
    Reaches l journal false ((writeGeneratedBetween gap l.entry l.language).exec t).1
      ((writeGeneratedBetween gap l.entry l.language).exec t).2 := by
  rw [writeGeneratedBetween, Act.exec_bind_ok (Act.exec_session t), Act.exec_bind,
    Act.exec_work_still (Preview.generate_moves t.session.configFile l.entry l.language)]
  cases hg : (Preview.generate t.session.configFile l.entry l.language).outcome t.host with
  | error e => exact h.reaches false e
  | ok code =>
    refine ((hd .rendered).keeps_unstarted ht hs).bind_ends (fun e u hu => hu.reaches false e)
      (fun _ u hu => ?_) t h
    rw [Act.exec_bind_ok (Act.exec_setSession _ u)]
    have hbusy : Busy l journal false { u with session := { u.session with generated := true } } :=
      ⟨⟨hu.tracks, hu.occupied, hu.entry, hu.backup, hu.marker, (by intro hf; cases hf),
        fun _ => rfl⟩, rfl, hu.started⟩
    refine ((hd .touched).keeps_busy ht hs).bind_ends (fun e v hv => hv.unstarted.reaches false e)
      (fun _ v hv => ?_) _ hbusy
    obtain ⟨k', hw, htracks, hoccupied⟩ := writeText_exec ht hv.tracks hv.occupied code
      (ht.allows code (Preview.isMarked_of_generate hg))
    rw [Act.exec_bind_ok (Act.exec_work_of (Work.exec_attempt_ok hw))]
    exact Or.inr ⟨rfl, ⟨htracks, hoccupied, hv.entry, hv.backup, hv.marker,
      (fun hg => absurd (hv.generated.symm.trans hg) (by decide)), hv.spawned⟩, hv.generated,
      hv.started⟩

theorem startBetween_ends (h : Busy l journal false t) :
    Reaches l journal true ((startBetween script gap).exec t).1
      ((startBetween script gap).exec t).2 := by
  have hfail : ∀ e u, Busy l journal false u → Reaches l journal true (.error e) u :=
    fun e u hu => hu.unstarted.reaches true e
  have hbetween : ∀ g, Act.Keeps (Busy l journal false) (gap g) := fun g => (hd g).keeps_busy ht hs
  have hend : ∀ command v, Busy l journal false v → Reaches l journal true
      ((endStart script command >>= fun _ => gap .started).exec v).1
      ((endStart script command >>= fun _ => gap .started).exec v).2 := by
    intro command v hv
    rw [endStart]
    cases script.startError with
    | some e => exact hfail _ v hv
    | none =>
      have hstarted : Busy l journal true { v with session := { v.session with started := true } } :=
        ⟨⟨hv.tracks, hv.occupied, hv.entry, hv.backup, hv.marker, hv.untouched,
          fun _ => hv.generated⟩, hv.generated, rfl⟩
      show Reaches l journal true ((Act.setSession _ >>= fun _ => gap .started).exec v).1
        ((Act.setSession _ >>= fun _ => gap .started).exec v).2
      rw [Act.exec_bind_ok (Act.exec_setSession _ v)]
      obtain ⟨w, hw, hk⟩ := (hd .started).exec_of_started ht hs hstarted.toHeld rfl
      rw [hw]
      exact Or.inr ⟨rfl, hstarted.continues hk⟩
  rw [startBetween, Act.exec_bind_ok (Act.exec_session t)]
  refine Act.Keeps.bind_ends (Act.keeps_work t.session.settings.command_quiet fun v logs hv =>
    hv.continues (hv.toHeld.continues.withLogs logs)) hfail (fun command v hv => ?_) t h
  refine (hbetween .commanded).bind_ends hfail (fun _ v hv => ?_) v hv
  refine Act.Keeps.bind_ends (Act.keeps_setServer fun v hv => hv.withServer _) hfail
    (fun _ v hv => ?_) v hv
  refine Act.Keeps.bind_ends (Act.keeps_modify fun v hv => hv.continues
    ((hs.duringStart v hv.toHeld hv.generated).continues ht hs hv.toHeld.continues)) hfail
    (fun _ v hv => ?_) v hv
  refine (hbetween .spawning).bind_ends hfail (fun _ v hv => ?_) v hv
  cases script.signalAtStart with
  | none => exact hend command v hv
  | some n =>
    exact Act.Keeps.bind_ends (fun w hw => hw.receive ht hs n) hfail
      (fun _ w hw => hend command w hw) v hv

theorem generateAndStartBetween_ends (h : Unstarted l journal t) :
    Reaches l journal true ((generateAndStartBetween script gap l.entry l.language).exec t).1
      ((generateAndStartBetween script gap l.entry l.language).exec t).2 := by
  have hfail : ∀ e u, Unstarted l journal u → Reaches l journal true (.error e) u :=
    fun e u hu => hu.reaches true e
  have hbusy : ∀ e u, Busy l journal false u → Reaches l journal true (.error e) u :=
    fun e u hu => hfail e u hu.unstarted
  refine ((hd .marked).keeps_unstarted ht hs).bind_ends hfail (fun _ u hu => ?_) t h
  have hwrote := writeGeneratedBetween_ends ht hs hd hu
  rw [Act.exec_bind]
  rcases hw : (writeGeneratedBetween gap l.entry l.language).exec u with ⟨e | ⟨⟩, v⟩
  · rw [hw] at hwrote
    obtain ⟨-, hv⟩ | ⟨hx, -⟩ := hwrote
    · exact hfail e v hv
    · cases hx
  · rw [hw] at hwrote
    obtain ⟨⟨e, hx⟩, -⟩ | ⟨-, hv⟩ := hwrote
    · cases hx
    refine ((hd .written).keeps_busy ht hs).bind_ends hbusy (fun _ w hw => ?_) v hv
    rw [Act.exec_bind_ok (Act.exec_get w), Act.exec_bind_ok (Act.exec_setSession _ w)]
    refine ((hd .watching).keeps_busy ht hs).bind_ends hbusy (fun _ w hw => ?_) _
      ⟨⟨hw.tracks, hw.occupied, hw.entry, hw.backup, hw.marker, hw.untouched, hw.spawned⟩,
        hw.generated, hw.started⟩
    exact startBetween_ends ht hs hd hw

/-- However the session fares until it is torn down, the invariant holds then. -/
theorem occupyBetween_held (h : Fresh l journal t) :
    Held l journal ((occupyBetween script gap l.entry l.language).exec t).2 ∧
      (((occupyBetween script gap l.entry l.language).exec t).2.session.started = true →
        Awaited ((occupyBetween script gap l.entry l.language).exec t).2) := by
  obtain ⟨k, hk, hready⟩ := prepare_exec ht h
  rw [occupyBetween, Act.exec_bind_ok hk]
  have hinstalled := generateAndStartBetween_ends ht hs hd (h.unstarted hready)
  rw [Act.exec_bind]
  rcases hx : (generateAndStartBetween script gap l.entry l.language).exec _ with ⟨e | ⟨⟩, u⟩
  · rw [hx] at hinstalled
    obtain ⟨-, hu⟩ | ⟨hok, -⟩ := hinstalled
    · exact ⟨hu.toHeld, fun hst => absurd (hst.symm.trans hu.started) (by decide)⟩
    · cases hok
  · rw [hx] at hinstalled
    obtain ⟨⟨e, he⟩, -⟩ | ⟨-, hu⟩ := hinstalled
    · cases he
    let v : Scene σ := { u with session := { u.session with phase := .active } }
    have hv : Busy l journal true v :=
      ⟨⟨hu.tracks, hu.occupied, hu.entry, hu.backup, hu.marker, hu.untouched, hu.spawned⟩,
        hu.generated, hu.started⟩
    obtain ⟨w, hw, hk⟩ := (hd .active).exec_of_started ht hs hv.toHeld hv.started
    have hbound : waitBound script ≠ 0 := by
      have hwaits : 2 * (grace / waitSpan) = 20 := by decide
      rw [waitBound, hwaits]
      omega
    obtain ⟨hbusy, hawaited⟩ := superviseBetween_busy ht hs hd (waitBound script) .unset
      (hv.continues hk) (Or.inl hbound)
    dsimp only
    rw [Act.exec_bind_ok (Act.exec_enter .active u), Act.exec_bind_ok hw]
    exact ⟨hbusy.toHeld, fun _ => hawaited⟩

end Installing

/-! ## Tearing down -/

section TearingDown

variable (hd : ∀ g, Delivers script (gap g))
include hd

/-- A dev server whose end was waited for is ended without failure. -/
theorem endServerBetween_exec (ht : l.Tenable) (hs : Spares l journal script) (h : Held l journal t)
    (hp : t.session.phase = .restoring) (hw : t.session.started = true → Awaited t) :
    ∃ u, (endServerBetween script gap).exec t = (.ok (), u) ∧ Held l journal u ∧
      u.session.phase = .restoring := by
  refine endServerBetween_ok
    (I := fun t => Held l journal t ∧ t.session.phase = .restoring)
    (J := fun t => Busy l journal true t ∧ Awaited t ∧ t.session.phase = .restoring)
    ⟨h, hp⟩ (fun hstarted => ?_) (fun limit t ht' => ?_)
    (fun t ht' => ⟨ht'.1.withServer _, ht'.2⟩) (fun g t ht' => ?_)
    fun t ht' => ⟨ht'.1.toHeld, ht'.2.2⟩
  · obtain ⟨n, hn⟩ := (hd .asking).restoring hp
    have hk := Continues.terminate ht hs (h.withSignal n).continues hstarted
    exact ⟨_, hn, ⟨hk.toHeld, hk.generated (h.spawned hstarted), hk.started.trans hstarted⟩,
      hk.awaited (hw hstarted), hk.phase.trans hp⟩
  · obtain ⟨x, u, hu, hbusy, hwaited, hok, hphase⟩ := wait_exec ht hs limit ht'.1
    obtain ⟨w, rfl⟩ := hok ht'.2.1
    exact ⟨w, u, hu, hbusy, hwaited, hphase.trans ht'.2.2⟩
  · obtain ⟨n, hn⟩ := (hd g).restoring ht'.2.2
    exact ⟨_, hn, ⟨ht'.1.withSignal n, ht'.1.generated, ht'.1.started⟩, ht'.2⟩

end TearingDown

/-- The entry file is put back if the work that this takes succeeds. -/
theorem restoreEntry_ok {P : Host → Prop} (ht : l.Tenable) (hbackup : t.session.backup = l.backup)
    (hrestore : ∀ b, l.backup = some b → ∃ k, b.restore.exec t.host = (.ok (), k) ∧ P k)
    (hdiscard : l.original = none → ∃ k, (Work.discard l.entry).exec t.host = (.ok (), k) ∧ P k)
    (hkept : t.session.generated = false → P t.host) :
    ∃ k, (restoreEntry l.entry).exec t = (.ok true, { t with host := k }) ∧ P k := by
  rw [restoreEntry, Act.exec_bind_ok (Act.exec_session t), hbackup]
  cases hb : l.backup with
  | none =>
    cases hg : t.session.generated with
    | false => exact ⟨t.host, rfl, hkept hg⟩
    | true =>
      obtain ⟨k, hk, hafter⟩ := hdiscard (Lease.original_of_no_backup ht hb)
      refine ⟨k, ?_, hafter⟩
      show (Act.work (Work.attempt (Work.discard l.entry)) >>= _ : Act σ Bool).exec t = _
      rw [Act.exec_bind_ok (Act.exec_work_of (Work.exec_attempt_ok hk))]
      rfl
  | some b =>
    obtain ⟨k, hk, hafter⟩ := hrestore b hb
    refine ⟨k, ?_, hafter⟩
    show (Act.outcome (Act.work b.restore) >>= _ : Act σ Bool).exec t = _
    have hout : (Act.outcome (Act.work b.restore)).exec t = (.ok (.ok ()), { t with host := k }) := by
      rw [Act.exec_outcome, Act.exec_work_of hk]
    rw [Act.exec_bind_ok hout]
    rfl

/-- Everything is released if the work that this takes succeeds, whatever signals are remembered. -/
theorem releaseBetween_ok {P Q R : Host → Prop} (ht : l.Tenable)
    (hgap : ∀ g v, v.session.phase = t.session.phase → ∃ n, (gap g).exec v = (.ok (), v.withSignal n))
    (hbackup : t.session.backup = l.backup) (hmarker : t.session.marker = some l.marker)
    (hrestore : ∃ k, (restoreEntry l.entry).exec t = (.ok true, { t with host := k }) ∧ P k)
    (hnone : ∀ k, P k → l.original = none → Q k)
    (hdiscard : ∀ k b, P k → l.backup = some b → ∃ k', b.discard.exec k = (.ok (), k') ∧ Q k')
    (hremove : ∀ k, Q k → ∃ k', (Instances.removeMarker l.marker).exec k = (.ok (), k') ∧ R k') :
    ∃ n k, (releaseBetween gap l.entry).exec t = (.ok (), { t with
      host := k, session := { t.session with phase := .idle, signal := n } }) ∧ R k := by
  obtain ⟨k, hrestored, hp⟩ := hrestore
  obtain ⟨n₁, hn₁⟩ := hgap .restored { t with host := k } rfl
  let v : Scene σ := Scene.withSignal { t with host := k } n₁
  have hbackedUp : v.session.backup = l.backup := hbackup
  have hmarked : v.session.marker = some l.marker := hmarker
  have hlast : ∀ k', Q k' → ∃ n k'', (do
      gap .discarded
      Act.work (Instances.removeMarker l.marker)
      gap .unmarked
      Act.enter .idle : Act σ Unit).exec { v with host := k' } = (.ok (), { t with
        host := k'', session := { t.session with phase := .idle, signal := n } }) ∧ R k'' := by
    intro k' hq
    obtain ⟨k'', hexec, hr⟩ := hremove k' hq
    obtain ⟨n₂, hn₂⟩ := hgap .discarded { v with host := k' } rfl
    obtain ⟨n₃, hn₃⟩ := hgap .unmarked
      { Scene.withSignal { v with host := k' } n₂ with host := k'' } rfl
    rw [Act.exec_bind_ok hn₂, Act.exec_bind_ok (Act.exec_work_of hexec), Act.exec_bind_ok hn₃]
    exact ⟨n₃, k'', rfl, hr⟩
  rw [releaseBetween, Act.exec_bind_ok hrestored, Act.exec_bind_ok hn₁,
    Act.exec_bind_ok (Act.exec_session v), hmarked, hbackedUp]
  cases hb : l.backup with
  | none => exact hlast k (hnone k hp (Lease.original_of_no_backup ht hb))
  | some b =>
    obtain ⟨k', hdiscarded, hq⟩ := hdiscard k b hp hb
    show ∃ n k'', (Act.work b.discard >>= _ : Act σ Unit).exec v = _ ∧ _
    rw [Act.exec_bind_ok (Act.exec_work_of hdiscarded)]
    exact hlast k' hq

theorem release_ok {P Q R : Host → Prop} (ht : l.Tenable)
    (hbackup : t.session.backup = l.backup) (hmarker : t.session.marker = some l.marker)
    (hrestore : ∃ k, (restoreEntry l.entry).exec t = (.ok true, { t with host := k }) ∧ P k)
    (hnone : ∀ k, P k → l.original = none → Q k)
    (hdiscard : ∀ k b, P k → l.backup = some b → ∃ k', b.discard.exec k = (.ok (), k') ∧ Q k')
    (hremove : ∀ k, Q k → ∃ k', (Instances.removeMarker l.marker).exec k = (.ok (), k') ∧ R k') :
    ∃ n k, (release l.entry).exec t = (.ok (), { t with
      host := k, session := { t.session with phase := .idle, signal := n } }) ∧ R k := by
  show ∃ n k, (releaseBetween quiet l.entry).exec t = _ ∧ _
  exact releaseBetween_ok ht (fun _ v _ => ⟨v.session.signal, rfl⟩) hbackup hmarker hrestore hnone
    hdiscard hremove

/-- A session that holds its lease gives it up without a trace. -/
theorem tearDownBetween_exec (ht : l.Tenable) (hs : Spares l journal script)
    (hd : ∀ g, Delivers script (gap g)) (h : Held l journal t)
    (hw : t.session.started = true → Awaited t) :
    ∃ u, (tearDownBetween script gap l.entry).exec t = (.ok (), u) ∧ u.session.phase = .idle ∧
      l.Tracks (journal u.outside) u.host ∧ l.Vacated u.host.store := by
  let t₁ : Scene σ := { t with session := { t.session with phase := .restoring } }
  obtain ⟨n, hn⟩ := (hd .restoring).restoring (t := t₁) rfl
  let t₂ : Scene σ := { t₁.withSignal n with
    session := { (t₁.withSignal n).session with watcher := none } }
  obtain ⟨m, hm⟩ := (hd .unwatched).restoring (t := t₂) rfl
  let t₃ : Scene σ := t₂.withSignal m
  have h₃ : Held l journal t₃ :=
    ⟨h.tracks, h.occupied, h.entry, h.backup, h.marker, h.untouched, h.spawned⟩
  have hk : Continues l journal t₃ (script.duringRestoration t₃) :=
    (hs.duringRestoration t₃ h₃).continues ht hs h₃.continues
  obtain ⟨u, hu, hheld, hphase⟩ := endServerBetween_exec hd ht hs hk.toHeld hk.phase fun hst =>
    hk.awaited (hw (hk.started.symm.trans hst))
  obtain ⟨n', hn'⟩ := (hd .ended).restoring hphase
  have htracks := hheld.tracks
  have hoccupied := hheld.occupied
  -- what is to be kept of the host while the entry file, the copy and the marker go
  have hrestored := restoreEntry_ok (t := u.withSignal n') ht hheld.backup
    (fun b hb => Lease.restore_exec ht htracks hoccupied hb)
    (fun ho => Lease.discardEntry_exec ht htracks hoccupied ho)
    (fun hg => ⟨htracks, hoccupied, hheld.untouched hg⟩)
  obtain ⟨m', k, hreleased, hvacated⟩ := releaseBetween_ok (t := u.withSignal n') ht
    (fun g v hv => (hd g).restoring (hv.trans hphase)) hheld.backup hheld.marker hrestored
    (fun k hp ho => ⟨hp.1, Lease.restored_of_none hp.2.1 ho hp.2.2⟩)
    (fun k b hp hb => Lease.discardCopy_exec ht hp.1 hp.2.1 hp.2.2 hb)
    (fun k hq => Lease.removeMarker_exec ht hq.1 hq.2)
  rw [tearDownBetween, Act.exec_bind_ok (Act.exec_enter _ t), Act.exec_bind_ok hn,
    Act.exec_bind_ok (Act.exec_setSession _ _), Act.exec_bind_ok hm,
    Act.exec_bind_ok (Act.exec_modify _ t₃), Act.exec_bind_ok hu, Act.exec_bind_ok hn']
  exact ⟨_, hreleased, rfl, hvacated⟩

/-! ## Running -/

/-- A session that has not run yet. -/
structure IsNew (s : Session) : Prop where
  phase : s.phase = .idle
  backup : s.backup = none
  marker : s.marker = none
  started : s.started = false
  generated : s.generated = false

theorem isNew_of_create {configFile : Path} {settings : Settings} {entryDirectory : Option Path}
    {h k : Host} {s : Session}
    (hc : (create configFile settings entryDirectory).exec h = (.ok s, k)) : s.IsNew := by
  rw [create, Work.exec_bind, Work.realPath, Work.exec_look] at hc
  cases hr : h.realPath configFile with
  | error e =>
    rw [hr] at hc
    cases hc
  | ok p =>
    rw [hr] at hc
    cases hc
    exact ⟨rfl, rfl, rfl, rfl, rfl⟩

/-- A session before it runs, on the host where its lease begins. The entry file that it finds is the
one of the lease, and no session owns that one. -/
structure Begins (l : Lease) (journal : σ → List Change) (t : Scene σ) : Prop where
  session : t.session.IsNew
  host : t.host = l.start
  directory : t.session.settings.temporary = l.directory
  workingDirectory : t.session.settings.workingDirectory = l.workingDirectory
  journal : journal t.outside = []
  resolved : ∀ x, ((Preview.resolveEntry t.session.configFile t.session.settings
    t.session.entryDirectory).exec t.host).1 = .ok x → x = (l.entry, l.language)
  unowned : ((t.session.instances.isOwned l.entry).exec t.host).1 ≠ .ok true

theorem Begins.fresh (h : Begins l journal t) (logs : List LogEntry) (phase : Phase) :
    Fresh l journal { t with
      host := t.host.withLogs logs
      session := { t.session with entry := some (l.entry, l.language), phase } } :=
  ⟨⟨logs, by rw [h.host]⟩, h.directory, h.workingDirectory, rfl, h.session.backup,
    h.session.marker, h.session.started, h.session.generated, h.journal⟩

/-- A host after a session: its entry file is as it was, nothing but new directories was left in its
directory, and all that was changed elsewhere was changed by others. -/
structure Released (l : Lease) (outer : List Change) (h : Host) : Prop where
  entry : h.found l.entry = l.start.found l.entry
  base : ∀ q, l.base <+: q → h.store.seen q = l.start.store.seen q ∨
    l.start.store.seen q = none ∧ h.store.IsDirectory q
  foreign : h.history.filter l.isForeign =
    l.start.history.filter l.isForeign ++ outer.filter l.isForeign

theorem tracks_start : l.Tracks [] l.start :=
  ⟨rfl, Host.passes_refl (Or.inl ⟨.refl _, Lease.grows.extends⟩), (List.append_nil _).symm⟩

theorem released_start (l : Lease) (logs : List LogEntry) :
    Released l [] (l.start.withLogs logs) :=
  ⟨rfl, fun _ _ => Or.inl rfl, (List.append_nil _).symm⟩

theorem released_of_vacated (ht : l.Tenable) {outer : List Change} {h : Host}
    (hk : l.Tracks outer h) (hv : l.Vacated h.store) : Released l outer h where
  entry := by
    rw [(hv.home.entry_leads ht hk.located).found, ht.entry.found, ht.seen_start]
    exact hv.untouched
  base := by
    intro q hq
    rw [Store.IsDirectory, hv.base q hq]
    exact Lease.grows.extends q
  foreign := hk.foreign

/-- A session that a signal stopped before it was torn down. -/
structure Stopped (l : Lease) (journal : σ → List Change) (gap : Gap → Act σ Unit) (x : Result Unit)
    (u : Scene σ) : Prop extends Unstarted l journal u where
  signal : ∃ n v, (gap .leaving).exec v = (.error (.interrupted n), u) ∧ x = .error (.interrupted n)

/-- How a session ends: everything is as it was, or it was stopped. -/
def Concludes (l : Lease) (journal : σ → List Change) (gap : Gap → Act σ Unit) (x : Result Unit)
    (u : Scene σ) : Prop :=
  (u.session.phase = .idle ∧ l.Tracks (journal u.outside) u.host ∧
    Released l (journal u.outside) u.host) ∨ Stopped l journal gap x u

section Running

variable (ht : l.Tenable) (hs : Spares l journal script) (hd : ∀ g, Delivers script (gap g))
include ht hs hd

theorem replaceEntryBetween_ends (h : Fresh l journal t) :
    Concludes l journal gap ((replaceEntryBetween script gap l.entry l.language).exec t).1
      ((replaceEntryBetween script gap l.entry l.language).exec t).2 := by
  obtain ⟨hheld, hawaited⟩ := occupyBetween_held ht hs hd h
  obtain ⟨u, hk, hu | ⟨-, hstarted, n, hu⟩⟩ := (hd .leaving).continues ht hs hheld
  · obtain ⟨v, hv, hphase, htracks, hvacated⟩ := tearDownBetween_exec ht hs hd hk.toHeld
      fun hst => hk.awaited (hawaited (hk.started.symm.trans hst))
    rw [replaceEntryBetween, Act.exec_bind_ok (Act.exec_outcome _ t), Act.exec_bind_ok hu,
      Act.exec_bind_ok hv]
    refine Or.inl ?_
    rw [report_exec]
    exact ⟨hphase, htracks, released_of_vacated ht htracks hvacated⟩
  · rw [replaceEntryBetween, Act.exec_bind_ok (Act.exec_outcome _ t), Act.exec_bind_error hu]
    exact Or.inr ⟨⟨hk.toHeld, hk.started.trans hstarted⟩, n, _, hu, rfl⟩

theorem runBetween_ends (h : Begins l journal t) :
    Concludes l journal gap ((runBetween script gap).exec t).1 ((runBetween script gap).exec t).2 := by
  -- Before the entry file is known to be free, only the log changes.
  have hearly : ∀ (x : Result Unit) (logs : List LogEntry) (s : Session), s.phase = .idle →
      Concludes l journal gap x { t with host := t.host.withLogs logs, session := s } := by
    intro x logs s hs
    refine Or.inl ?_
    show _ ∧ l.Tracks (journal t.outside) _ ∧ Released l (journal t.outside) _
    rw [h.journal, h.host]
    exact ⟨hs, tracks_start.withLogs logs, released_start l logs⟩
  cases hx : ((Preview.resolveEntry t.session.configFile t.session.settings
      t.session.entryDirectory).exec t.host).1 with
  | error e =>
    rw [runBetween_of_unresolved script gap hx]
    exact hearly _ t.host.logs t.session h.session.phase
  | ok x =>
    obtain rfl := h.resolved x hx
    cases ho : ((t.session.instances.isOwned l.entry).exec t.host).1 with
    | error e =>
      obtain ⟨logs, hrun⟩ := runBetween_decides script gap hx ho
      rw [hrun]
      exact hearly _ logs { t.session with entry := some (l.entry, l.language) } h.session.phase
    | ok owned =>
      cases owned with
      | true => exact absurd ho h.unowned
      | false =>
        obtain ⟨logs, hrun⟩ := runBetween_decides script gap hx ho
        rw [hrun]
        exact replaceEntryBetween_ends ht hs hd (h.fresh logs .installing)

end Running

/-- Without signals in between, a session is not stopped. -/
theorem run_exec (ht : l.Tenable) (hs : Spares l journal script) (h : Begins l journal t)
    (hu : ((run script).exec t).2 = u) :
    u.session.phase = .idle ∧ l.Tracks (journal u.outside) u.host ∧
      Released l (journal u.outside) u.host := by
  rw [← runBetween_quiet] at hu
  have hends : Concludes l journal quiet ((runBetween script quiet).exec t).1
      ((runBetween script quiet).exec t).2 := runBetween_ends ht hs (fun _ => .none) h
  rw [hu] at hends
  obtain hreleased | hstopped := hends
  · exact hreleased
  · obtain ⟨n, v, hv, -⟩ := hstopped.signal
    cases hv

/-- However a session ends, its entry file is what it was before, neither its marker nor its copy is
left, what was changed elsewhere was not changed by it, and it is idle. -/
theorem run_restores (ht : l.Tenable) (hs : Spares l journal script) (h : Begins l journal t) :
    ((run script).exec t).2.session.phase = .idle ∧
      Released l (journal ((run script).exec t).2.outside) ((run script).exec t).2.host := by
  obtain ⟨hphase, -, hreleased⟩ := run_exec ht hs h rfl
  exact ⟨hphase, hreleased⟩

/-! ### A run -/

/-- A host with a preview file, a component and an entry file. -/
def sampleHost : Host where
  store := ⟨[(["w"], .directory 0o755 (.counted 0)), (["w", "src"], .directory 0o755 (.counted 1)),
    (["w", "src", "index.jsx"], .file [79, 76, 68] 0o600 (.counted 2)),
    (["w", "App.js"], .file [] 0o644 (.counted 3)),
    (["w", "p.yml"], .file (Text.toBytes "source: App.js\n") 0o644 (.counted 4))], 5⟩
  history := []
  workingDirectory := ⟨.absolute, ["w"]⟩
  logs := []
  issued := 0
  processId := 7
  running := []
  now := "2024-05-01T00:00:00"

def sampleSettings : Settings := ⟨⟨.absolute, ["w", "state"]⟩, ⟨.absolute, ["w"]⟩, ["start"]⟩

def sampleLease : Lease where
  start := sampleHost
  directory := sampleSettings.temporary
  base := ["w", "state", "temp"]
  entry := ⟨.absolute, ["w", "src", "index.jsx"]⟩
  place := ["w", "src", "index.jsx"]
  workingDirectory := sampleSettings.workingDirectory
  language := .js
  may := fun _ => True

/-- A dev server that writes over the entry file during the first wait. -/
def sampleScript : Script (List Change) where
  exitCode := 1
  timeouts := 2
  ignoresTermination := false
  startError := none
  signalAtStart := none
  waitFails := false
  duringStart := id
  duringWait := fun n t =>
    if n = 0 then
      let c : Change := .write sampleLease.place [1, 2] 0o644
      { t with host := t.host.change c, outside := t.outside ++ [c] }
    else t
  onTermination := id
  duringRestoration := id

def sampleScene : Scene (List Change) where
  host := sampleHost
  session := {
    configFile := ⟨.absolute, ["w", "p.yml"]⟩
    settings := sampleSettings
    entryDirectory := none, phase := .idle, entry := none, backup := none, marker := none
    started := false, watcher := none, generated := false, signal := none }
  server := .fresh 2
  outside := []

theorem sample_text : sampleHost.text ⟨.absolute, ["w", "p.yml"]⟩ = .ok "source: App.js\n" := by cbv

theorem sample_spares : Spares sampleLease id sampleScript where
  duringStart := fun t _ _ => .refl t
  duringWait := by
    intro n t h hg
    show Meanwhile _ _ _ t (ite _ _ _)
    split
    · refine .change t _ _ (h.occupied.home.of_sameWays
        (Change.differsAt_write h.occupied.home.leaf _ _).ways) (by decide) (fun _ => ⟨hg, ?_⟩) rfl
      right
      refine ⟨[1, 2], 0o644, ?_, trivial⟩
      rw [Change.seen_write _ _ _ _ h.occupied.home.leaf.ne_root, if_pos rfl]
    · exact .refl t
  onTermination := fun t _ _ => .refl t
  duringRestoration := fun t _ => .refl t

/-- The files of the sample with the directory of markers. -/
def sampleStore : Store where
  nodes := [(["w"], .directory 0o755 (.counted 5)), (["w", "src"], .directory 0o755 (.counted 1)),
    (["w", "src", "index.jsx"], .file [79, 76, 68] 0o600 (.counted 2)),
    (["w", "App.js"], .file [] 0o644 (.counted 3)),
    (["w", "p.yml"], .file (Text.toBytes "source: App.js\n") 0o644 (.counted 4)),
    (["w", "state"], .directory 0o755 (.counted 6)),
    (["w", "state", "temp"], .directory 0o755 (.counted 6))]
  clock := 7

theorem sample_made : sampleLease.made.store = sampleStore := by cbv

theorem sample_original :
    sampleLease.original = some (.file [79, 76, 68] 0o600 (.counted 0)) := by
  rw [Lease.original, sample_made]
  cbv

theorem sample_tenable : sampleLease.Tenable where
  made := by cbv
  parts := by decide
  sound := by decide
  directory := by
    rw [sample_made]
    exact .of_reach (x := .there sampleLease.base (.directory 0o755 (.counted 6))) (by cbv)
  isDirectory := by
    rw [sample_made]
    exact ⟨0o755, by cbv⟩
  short := by decide
  copyPlace_free := by
    rw [sample_made]
    cbv
  markPlace_free := by
    rw [sample_made]
    cbv
  entry := by
    refine ⟨by decide, fun follow => ?_⟩
    cases follow <;>
      exact .of_reach (x := .there sampleLease.place (.file [79, 76, 68] 0o600 (.counted 2))) (by cbv)
  leaf := by
    rw [sample_made]
    exact Or.inr ⟨[79, 76, 68], 0o600, by cbv⟩
  mode := by
    intro content mode h
    rw [sample_original] at h
    cases h
    decide
  apart := by decide
  allows := fun _ _ => trivial

/-- The preview file of the sample names a component, and neither an entry file nor a language. -/
theorem sample_config : (match (Preview.readEntries ⟨.absolute, ["w", "p.yml"]⟩
    "source: App.js\n").bind (Preview.readConfig ⟨.absolute, ["w", "p.yml"]⟩) with
    | .ok c => c.source == "App.js" && c.output.isNone && c.language.isNone
    | .error _ => false) = true := by
  decide +kernel

theorem sample_load : ∃ c, (Preview.loadConfig ⟨.absolute, ["w", "p.yml"]⟩).exec sampleHost =
    (.ok c, sampleHost) ∧ c.source = "App.js" ∧ c.output = none ∧ c.language = none := by
  have hconfig := sample_config
  have hread : (Work.attempt (Work.readText ⟨.absolute, ["w", "p.yml"]⟩)).exec sampleHost =
      (.ok (.ok "source: App.js\n"), sampleHost) := by
    refine Work.exec_attempt_ok ?_
    rw [Work.readText, Work.exec_look, sample_text]
  cases he : Preview.readEntries ⟨.absolute, ["w", "p.yml"]⟩ "source: App.js\n" with
  | error e => simp [he, Except.bind] at hconfig
  | ok entries =>
    cases hc : Preview.readConfig ⟨.absolute, ["w", "p.yml"]⟩ entries with
    | error e => simp [he, hc, Except.bind] at hconfig
    | ok c =>
      simp only [he, hc, Except.bind, Bool.and_eq_true, beq_iff_eq, Option.isNone_iff_eq_none,
        and_assoc] at hconfig
      have hentries : (Preview.loadEntries ⟨.absolute, ["w", "p.yml"]⟩).exec sampleHost =
          (.ok entries, sampleHost) := by
        rw [Preview.loadEntries, Work.exec_bind_ok hread]
        show (Work.look _).exec sampleHost = _
        rw [Work.exec_look, he]
      refine ⟨c, ?_, hconfig⟩
      rw [Preview.loadConfig, Work.exec_bind_ok hentries, Work.exec_look, hc]

theorem sample_resolved : ((Preview.resolveEntry ⟨.absolute, ["w", "p.yml"]⟩ sampleSettings
    none).exec sampleHost).1 = .ok (sampleLease.entry, sampleLease.language) := by
  obtain ⟨c, hload, -, houtput, hlanguage⟩ := sample_load
  rw [Preview.resolveEntry, Work.exec_bind_ok hload, houtput, hlanguage]
  show ((Preview.detectEntry none sampleSettings.workingDirectory none).exec sampleHost).1 = _
  cbv

theorem sample_begins : Begins sampleLease id sampleScene where
  session := ⟨rfl, rfl, rfl, rfl, rfl⟩
  host := rfl
  directory := rfl
  workingDirectory := rfl
  journal := rfl
  resolved := by
    intro x hx
    exact (Except.ok.inj (sample_resolved.symm.trans hx)).symm
  unowned := by
    cbv
    simp

theorem run_restores_sample :
    ((run sampleScript).exec sampleScene).2.session.phase = .idle ∧
      Released sampleLease ((run sampleScript).exec sampleScene).2.outside
        ((run sampleScript).exec sampleScene).2.host :=
  run_restores sample_tenable sample_spares sample_begins

end Session
end Vitrine
