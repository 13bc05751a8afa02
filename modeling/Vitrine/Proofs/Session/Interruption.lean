import Vitrine.Proofs.Session.Restoration

/-!
# Interruption

Signals may arrive between any two statements of a session. It puts its entry file back all the same
(`runBetween_restores`), but for one gap: behind an installation that failed or was interrupted, before
the first statement of what is done at the end, a signal stops the session where it is. Two signals are
enough for that, one during the installation and one in the gap (`runBetween_stopped`).
-/
namespace Vitrine
namespace Session

variable {σ : Type} {l : Lease} {script : Script σ} {journal : σ → List Change} {t u : Scene σ}
  {gap : Gap → Act σ Unit}

/-- Wherever and however often signals arrive, a session puts its entry file back before it ends, and
neither its marker nor its copy is left, unless one stopped it before it began with that. -/
theorem runBetween_restores (ht : l.Tenable) (hs : Spares l journal script)
    (hd : ∀ g, Delivers script (gap g)) (h : Begins l journal t) :
    (((runBetween script gap).exec t).2.session.phase = .idle ∧
      Released l (journal ((runBetween script gap).exec t).2.outside)
        ((runBetween script gap).exec t).2.host) ∨
      Stopped l journal gap ((runBetween script gap).exec t).1 ((runBetween script gap).exec t).2 := by
  obtain ⟨hphase, -, hreleased⟩ | hstopped := runBetween_ends ht hs hd h
  · exact Or.inl ⟨hphase, hreleased⟩
  · exact Or.inr hstopped

/-- The marker of a session that was stopped is still there. -/
theorem Stopped.not_released {x : Result Unit} (hx : Stopped l journal gap x u) (ht : l.Tenable)
    (outer : List Change) : ¬ Released l outer u.host := by
  intro hr
  have hmark : u.host.store.seen l.markPlace = some (.file l.markContent Node.fileMode (.counted 0)) :=
    hx.occupied.mark
  have hstart : l.start.store.seen l.markPlace = none := by
    obtain he | ⟨hnone, -⟩ := Lease.grows.extends l.markPlace
    · exact he.symm.trans ht.markPlace_free
    · exact hnone
  obtain he | ⟨-, mode, hd⟩ := hr.base l.markPlace Lease.base_isPrefix_markPlace
  · rw [hmark, hstart] at he
    cases he
  · cases hmark.symm.trans hd

/-- One signal once the marker is written, and another one behind the installation. -/
def twice (script : Script σ) (n : Nat) : Gap → Act σ Unit
  | .marked | .leaving => receiveBetween script (fun _ => pure ()) n >>= fun _ => pure ()
  | _ => pure ()

theorem twice_delivers (script : Script σ) (n : Nat) (g : Gap) : Delivers script (twice script n g) := by
  cases g with
  | marked => exact .signal n (fun _ => .none) .none
  | leaving => exact .signal n (fun _ => .none) .none
  | _ => exact .none

/-- A session that is installing stops where it is. -/
theorem receive_of_installing (n : Nat) (hp : t.session.phase = .installing)
    (hstarted : t.session.started = false) :
    (receive script n).exec t =
      (.error (.interrupted n), t.withSignal (t.session.signal.or (some n))) := by
  rw [receive, Act.exec_bind_ok (Act.exec_setSession _ t), Act.exec_bind_ok (Act.exec_session _)]
  rw [if_neg (by simp [hp]), if_neg (by simp [hstarted])]
  rfl

theorem twice_exec {g : Gap} (hg : g = .marked ∨ g = .leaving) (n : Nat)
    (hp : t.session.phase = .installing) (hstarted : t.session.started = false) :
    (twice script n g).exec t =
      (.error (.interrupted n), t.withSignal (t.session.signal.or (some n))) := by
  have hreceive : (receiveBetween script (fun _ => pure ()) n).exec t =
      (.error (.interrupted n), t.withSignal (t.session.signal.or (some n))) :=
    (receiveBetween_quiet n t).trans (receive_of_installing n hp hstarted)
  obtain rfl | rfl := hg
  · exact Act.exec_bind_error hreceive
  · exact Act.exec_bind_error hreceive

theorem replaceEntryBetween_stopped (ht : l.Tenable) (h : Fresh l journal t)
    (hp : t.session.phase = .installing) (n : Nat) : Stopped l journal (twice script n)
      ((replaceEntryBetween script (twice script n) l.entry l.language).exec t).1
      ((replaceEntryBetween script (twice script n) l.entry l.language).exec t).2 := by
  obtain ⟨k, hk, hready⟩ := prepare_exec ht h
  let v : Scene σ := { t with
    host := k, session := { t.session with backup := l.backup, marker := some l.marker } }
  have hv : Unstarted l journal v := h.unstarted hready
  let w : Scene σ := v.withSignal (v.session.signal.or (some n))
  have hfirst : (twice script n .marked).exec v = (.error (.interrupted n), w) :=
    twice_exec (Or.inl rfl) n hp hv.started
  have hsecond : (twice script n .leaving).exec w =
      (.error (.interrupted n), w.withSignal (w.session.signal.or (some n))) :=
    twice_exec (Or.inr rfl) n hp hv.started
  have hoccupy : (occupyBetween script (twice script n) l.entry l.language).exec t =
      (.error (.interrupted n), w) := by
    rw [occupyBetween, Act.exec_bind_ok hk]
    exact Act.exec_bind_error (Act.exec_bind_error hfirst)
  have houtcome : (Act.outcome (occupyBetween script (twice script n) l.entry l.language)).exec t =
      (.ok (.error (.interrupted n)), w) := by
    rw [Act.exec_outcome, hoccupy]
  rw [replaceEntryBetween, Act.exec_bind_ok houtcome, Act.exec_bind_error hsecond]
  exact ⟨⟨(hv.toHeld.withSignal _).withSignal _, hv.started⟩, n, w, hsecond, rfl⟩

/-- Two signals stop a session before it puts its entry file back. -/
theorem runBetween_stopped (ht : l.Tenable) (h : Begins l journal t)
    (hresolved : ((Preview.resolveEntry t.session.configFile t.session.settings
      t.session.entryDirectory).exec t.host).1 = .ok (l.entry, l.language))
    (hunowned : ((t.session.instances.isOwned l.entry).exec t.host).1 = .ok false) (n : Nat) :
    Stopped l journal (twice script n) ((runBetween script (twice script n)).exec t).1
      ((runBetween script (twice script n)).exec t).2 := by
  obtain ⟨logs, hrun⟩ := runBetween_decides script (twice script n) hresolved hunowned
  rw [hrun]
  exact replaceEntryBetween_stopped ht (h.fresh logs .installing) rfl n

/-! ### The sample -/

/-- A signal in every gap but the one behind the installation. -/
def elsewhere (script : Script σ) (n : Nat) : Gap → Act σ Unit
  | .leaving => pure ()
  | _ => receiveBetween script (fun _ => pure ()) n >>= fun _ => pure ()

theorem elsewhere_delivers (script : Script σ) (n : Nat) (g : Gap) :
    Delivers script (elsewhere script n g) := by
  cases g with
  | leaving => exact .none
  | _ => exact .signal n (fun _ => .none) .none

theorem runBetween_restores_sample :
    ((runBetween sampleScript (elsewhere sampleScript 2)).exec sampleScene).2.session.phase = .idle ∧
      Released sampleLease
        ((runBetween sampleScript (elsewhere sampleScript 2)).exec sampleScene).2.outside
        ((runBetween sampleScript (elsewhere sampleScript 2)).exec sampleScene).2.host := by
  obtain hreleased | hstopped := runBetween_restores sample_tenable sample_spares
    (elsewhere_delivers sampleScript 2) sample_begins
  · exact hreleased
  · obtain ⟨n, v, hv, -⟩ := hstopped.signal
    cases hv

theorem sample_free :
    ((sampleScene.session.instances.isOwned sampleLease.entry).exec sampleScene.host).1 =
      .ok false := by
  cbv

theorem sample_stopped : ¬ Released sampleLease
    ((runBetween sampleScript (twice sampleScript 2)).exec sampleScene).2.outside
    ((runBetween sampleScript (twice sampleScript 2)).exec sampleScene).2.host :=
  (runBetween_stopped sample_tenable sample_begins sample_resolved sample_free 2).not_released
    sample_tenable _

end Session
end Vitrine
