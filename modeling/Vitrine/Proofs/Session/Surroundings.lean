import Vitrine.Proofs.Session.Deposit
import Vitrine.Proofs.Session.Indifference

/-!
# What goes on around a session

`Held` is the invariant of a session between the writing of its marker and the restoring of its entry
file. `Meanwhile` says what may happen around the session all that time: files change, changes of the
preview file are told, and signals arrive. None of that breaks the invariant.
-/
namespace Vitrine

/-- A scene in which a signal is remembered, or none. -/
def Scene.withSignal {σ : Type} (t : Scene σ) (n : Option Nat) : Scene σ :=
  { t with session := { t.session with signal := n } }

namespace Session

variable {σ : Type}

/-- A session that has its marker and its backup, and knows whether it touched its entry file.
`journal` knows what others have changed. -/
structure Held (l : Lease) (journal : σ → List Change) (t : Scene σ) : Prop where
  tracks : l.Tracks (journal t.outside) t.host
  occupied : l.Occupied t.host.store
  entry : t.session.entry = some (l.entry, l.language)
  backup : t.session.backup = l.backup
  marker : t.session.marker = some l.marker
  untouched : t.session.generated = false → l.Untouched t.host.store
  spawned : t.session.started = true → t.session.generated = true

/-- What may happen around a session. Others may change all but the directory of markers, and as long
as that redirects neither the session's entry file nor its directory; the entry file itself they may
change once there is generated code in its place. -/
inductive Meanwhile (l : Lease) (script : Script σ) (journal : σ → List Change) :
    Scene σ → Scene σ → Prop
  | refl (t : Scene σ) : Meanwhile l script journal t t
  | trans {t u v : Scene σ} (before : Meanwhile l script journal t u)
      (after : Meanwhile l script journal u v) : Meanwhile l script journal t v
  | pass (t : Scene σ) (outside : σ) (same : journal outside = journal t.outside) :
      Meanwhile l script journal t { t with outside }
  | change (t : Scene σ) (c : Change) (outside : σ)
      (home : l.Home (c.apply t.host.store)) (apart : ¬ l.base <+: c.place)
      (own : c.place = l.place → t.session.generated = true ∧ l.Replaced (c.apply t.host.store))
      (noted : journal outside = journal t.outside ++ [c]) :
      Meanwhile l script journal t { t with host := t.host.change c, outside }
  | poll (t : Scene σ) : Meanwhile l script journal t (Session.poll.exec t).2
  | notify (t : Scene σ) (file : Path) :
      Meanwhile l script journal t ((followChangeOrWarn file).exec t).2
  | signal (t : Scene σ) (n : Nat) : Meanwhile l script journal t ((receive script n).exec t).2

/-- A script in which nothing else happens around the session. -/
structure Spares (l : Lease) (journal : σ → List Change) (script : Script σ) : Prop where
  duringStart : ∀ t, Held l journal t → t.session.generated = true →
    Meanwhile l script journal t (script.duringStart t)
  duringWait : ∀ n t, Held l journal t → t.session.generated = true →
    Meanwhile l script journal t (script.duringWait n t)
  onTermination : ∀ t, Held l journal t → t.session.generated = true →
    Meanwhile l script journal t (script.onTermination t)
  duringRestoration : ∀ t, Held l journal t → Meanwhile l script journal t (script.duringRestoration t)

/-- A scene that may follow another one while the session waits. -/
structure Continues (l : Lease) (journal : σ → List Change) (r t : Scene σ) : Prop
    extends Held l journal t where
  phase : t.session.phase = r.session.phase
  started : t.session.started = r.session.started
  waits : t.server.waits = r.server.waits
  ended : t.server.ended = r.server.ended
  generated : r.session.generated = true → t.session.generated = true
  terminated : r.server.terminated = true → t.server.terminated = true

variable {l : Lease} {script : Script σ} {journal : σ → List Change} {r t u : Scene σ}

theorem Held.continues (h : Held l journal t) : Continues l journal t t :=
  ⟨h, rfl, rfl, rfl, rfl, id, id⟩

theorem Held.withSignal (h : Held l journal t) (n : Option Nat) : Held l journal (t.withSignal n) :=
  ⟨h.tracks, h.occupied, h.entry, h.backup, h.marker, h.untouched, h.spawned⟩

theorem Continues.withSignal (h : Continues l journal r t) (n : Option Nat) :
    Continues l journal r (t.withSignal n) :=
  ⟨h.toHeld.withSignal n, h.phase, h.started, h.waits, h.ended, h.generated, h.terminated⟩

theorem Continues.trans (h : Continues l journal r t) (k : Continues l journal t u) :
    Continues l journal r u :=
  ⟨k.toHeld, k.phase.trans h.phase, k.started.trans h.started, k.waits.trans h.waits,
    k.ended.trans h.ended, fun hr => k.generated (h.generated hr),
    fun hr => k.terminated (h.terminated hr)⟩

theorem Continues.withLogs (h : Continues l journal r t) (logs : List LogEntry) :
    Continues l journal r { t with host := t.host.withLogs logs } :=
  ⟨⟨h.tracks.withLogs logs, h.occupied, h.entry, h.backup, h.marker, h.untouched, h.spawned⟩,
    h.phase, h.started, h.waits, h.ended, h.generated, h.terminated⟩

/-! ## Following changes -/

theorem writeText_exec (ht : l.Tenable) {outer : List Change} {h : Host} (hk : l.Tracks outer h)
    (ho : l.Occupied h.store) (code : String) (hm : l.may (Text.toBytes code)) :
    ∃ k, (Work.writeText l.entry code).exec h = (.ok (), k) ∧ l.Tracks outer k ∧
      l.Occupied k.store := by
  have hentry := ho.home.entry_leads ht hk.located
  let c : Change :=
    .write l.place (Text.toBytes code) (Host.Leads.writtenMode (h.store.seen l.place))
  have hwritten : l.Occupied (c.apply h.store) := by
    refine ho.of_differsAt ht (Change.differsAt_write ho.home.leaf _ _) fun _ => ?_
    right
    refine ⟨Text.toBytes code, Host.Leads.writtenMode (h.store.seen l.place), ?_, hm⟩
    rw [Change.seen_write h.store l.place _ _ ho.home.leaf.ne_root, if_pos rfl]
  refine ⟨h.change c, ?_, hk.own (Or.inl rfl) hwritten.safe, hwritten⟩
  rw [Work.writeText, Work.writeBytes, Work.exec_perform, hentry.writing_of_leaf ho.home.leaf]

theorem keeps_writeGenerated (ht : l.Tenable) :
    Act.Keeps (Continues l journal r) (writeGenerated l.entry l.language) := by
  intro t h
  rw [writeGenerated, Act.exec_bind_ok (Act.exec_session t), Act.exec_bind,
    Act.exec_work_still (Preview.generate_moves t.session.configFile l.entry l.language)]
  cases hg : (Preview.generate t.session.configFile l.entry l.language).outcome t.host with
  | error e => exact h
  | ok code =>
    obtain ⟨k', hw, htracks, hoccupied⟩ := writeText_exec ht h.tracks h.occupied code
      (ht.allows code (Preview.isMarked_of_generate hg))
    let u : Scene σ := { t with session := { t.session with generated := true } }
    have hwork : (Act.work (Work.attempt (Work.writeText l.entry code))).exec u =
        (.ok (.ok ()), { u with host := k' }) := Act.exec_work_of (Work.exec_attempt_ok hw)
    show Continues l journal r ((Act.setSession _ >>= _ : Act σ Unit).exec _).2
    rw [Act.exec_bind_ok (Act.exec_setSession _ _), Act.exec_bind_ok hwork]
    exact ⟨⟨htracks, hoccupied, h.entry, h.backup, h.marker, (by intro hf; cases hf),
      fun _ => rfl⟩,
      h.phase, h.started, h.waits, h.ended, fun _ => rfl, h.terminated⟩

theorem attentive (ht : l.Tenable) :
    Attentive l.entry l.language (Continues l journal r) where
  target _ h := h.entry
  watcher _ _ h := ⟨⟨h.tracks, h.occupied, h.entry, h.backup, h.marker, h.untouched, h.spawned⟩,
    h.phase, h.started, h.waits, h.ended, h.generated, h.terminated⟩
  logs _ logs h := h.withLogs logs
  writes := keeps_writeGenerated ht

/-! ## Changes made by others -/

theorem Continues.change (h : Continues l journal r t) {c : Change} {outside : σ}
    (home : l.Home (c.apply t.host.store)) (apart : ¬ l.base <+: c.place)
    (own : c.place = l.place → t.session.generated = true ∧ l.Replaced (c.apply t.host.store))
    (noted : journal outside = journal t.outside ++ [c]) :
    Continues l journal r { t with host := t.host.change c, outside } := by
  have ho : l.Occupied (c.apply t.host.store) := h.occupied.apply home apart fun hp => (own hp).2
  refine ⟨⟨?_, ho, h.entry, h.backup, h.marker, fun hg => ?_, h.spawned⟩, h.phase, h.started,
    h.waits, h.ended, h.generated, h.terminated⟩
  · show l.Tracks (journal outside) (t.host.change c)
    rw [noted]
    exact h.tracks.others ho.safe
  · by_cases hp : c.place = l.place
    · rw [(own hp).1] at hg
      cases hg
    · exact (home.seen_apply_place apart (Ne.symm hp)).trans (h.untouched hg)

/-! ## Signals -/

theorem keeps_receive (signal : Nat)
    (hterminate : ∀ t, Continues l journal r t → t.session.started = true →
      Continues l journal r ((terminate script).exec t).2) :
    Act.Keeps (Continues l journal r) (receive script signal) := by
  intro t h
  let t' : Scene σ :=
    { t with session := { t.session with signal := t.session.signal.or (some signal) } }
  have h' : Continues l journal r t' := h.withSignal _
  rw [receive, Act.exec_bind_ok (Act.exec_setSession _ t), Act.exec_bind_ok (Act.exec_session t')]
  by_cases hp : t'.session.phase = .restoring
  · rw [if_pos hp]
    exact h'
  · rw [if_neg hp]
    cases hs : t'.session.started with
    | false => exact h'
    | true =>
      show Continues l journal r ((Act.server >>= _ : Act σ Unit).exec t').2
      rw [Act.exec_bind_ok (Act.exec_server t')]
      split
      · exact hterminate t' h' hs
      · exact h'

theorem Continues.asked (h : Continues l journal r t) : Continues l journal r
    { t with server := { t.server.request .terminate with terminated := true } } :=
  ⟨⟨h.tracks, h.occupied, h.entry, h.backup, h.marker, h.untouched, h.spawned⟩, h.phase, h.started,
    h.waits, h.ended, h.generated, fun _ => rfl⟩

/-- What happens around the session leaves it its lease, if asking its server to end does. -/
theorem Meanwhile.continues_of (ht : l.Tenable) (hm : Meanwhile l script journal t u)
    (hterminate : ∀ t, Continues l journal r t → t.session.started = true →
      Continues l journal r ((terminate script).exec t).2)
    (h : Continues l journal r t) : Continues l journal r u := by
  induction hm with
  | refl t => exact h
  | trans _ _ ihbefore ihafter => exact ihafter (ihbefore h)
  | pass t outside same =>
    have hk := h.tracks
    rw [← same] at hk
    exact ⟨⟨hk, h.occupied, h.entry, h.backup, h.marker, h.untouched, h.spawned⟩, h.phase, h.started,
      h.waits, h.ended, h.generated, h.terminated⟩
  | change t c outside home apart own noted => exact h.change home apart own noted
  | poll t => exact (attentive ht).keeps_poll t h
  | notify t file => exact (attentive ht).keeps_followChangeOrWarn file t h
  | signal t n => exact keeps_receive n hterminate t h

/-- A server that was asked to end already is asked again, and nothing follows. -/
theorem Meanwhile.continues_of_terminated (ht : l.Tenable) (hm : Meanwhile l script journal t u)
    (hr : r.server.terminated = true) (h : Continues l journal r t) : Continues l journal r u := by
  refine hm.continues_of ht (fun t' h' _ => ?_) h
  rw [terminate_exec, h'.terminated hr]
  exact h'.asked

theorem Continues.terminate (ht : l.Tenable) (hs : Spares l journal script)
    (h : Continues l journal r t) (hstarted : t.session.started = true) :
    Continues l journal r ((terminate script).exec t).2 := by
  rw [terminate_exec]
  have hasked := h.asked
  show Continues l journal r (ite _ _ _)
  split
  · exact hasked
  · have hm := hs.onTermination _ hasked.toHeld (h.spawned hstarted)
    exact hasked.trans (hm.continues_of_terminated ht rfl hasked.toHeld.continues)

/-- What happens around the session leaves it its lease. -/
theorem Meanwhile.continues (ht : l.Tenable) (hs : Spares l journal script)
    (hm : Meanwhile l script journal t u) (h : Continues l journal r t) :
    Continues l journal r u :=
  hm.continues_of ht (fun _ h' hstarted => h'.terminate ht hs hstarted) h

end Session
end Vitrine
