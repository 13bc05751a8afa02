import Vitrine.Proofs.Instance.Listing

/-!
# Recovering markers one by one

Recovery goes through the markers in their order. It changes files, but neither the working directory
nor the processes.
-/
namespace Vitrine

/-- Hosts with the same processes and the same working directory. -/
structure SameProcess (h k : Host) : Prop where
  workingDirectory : k.workingDirectory = h.workingDirectory
  running : k.running = h.running
  processId : k.processId = h.processId

instance : Std.Refl SameProcess := ⟨fun _ => ⟨rfl, rfl, rfl⟩⟩

instance : Trans SameProcess SameProcess SameProcess :=
  ⟨fun h k => ⟨k.workingDirectory.trans h.workingDirectory, k.running.trans h.running,
    k.processId.trans h.processId⟩⟩

namespace Work

variable {α : Type}

theorem sameProcess_perform (f : Host → Result Change) : Moves SameProcess (perform f) :=
  moves_perform fun _ _ _ => ⟨rfl, rfl, rfl⟩

theorem sameProcess_warn (text : String) : Moves SameProcess (warn text) :=
  fun _ => ⟨rfl, rfl, rfl⟩

theorem sameProcess_discard (p : Path) : Moves SameProcess (Work.discard p) := by
  refine (sameProcess_perform _).attempt.bind fun r => ?_
  split
  · exact moves_pure _
  · exact moves_pure _
  · exact moves_throw _

end Work

open Work

namespace Marker

variable {m : Marker}

/-- Whether a marker is live depends on the processes alone. -/
theorem isLive_exec {h k : Host} (hk : SameProcess h k) :
    m.isLive.exec k = ((m.isLive.exec h).1, k) := by
  have hrunning : ∀ g : Host, SameProcess h g →
      (isRunning m.processId).exec g = (((isRunning m.processId).exec h).1, g) := by
    intro g hg
    rw [isRunning]
    by_cases hneg : m.processId ≤ 0
    · rw [if_pos hneg]
      rfl
    · rw [if_neg hneg]
      by_cases hlimit : processIdLimit < m.processId
      · rw [if_pos hlimit]
        rfl
      · rw [if_neg hlimit]
        show (Except.ok (g.running.contains m.processId), g) = _
        rw [hg.running]
        rfl
  rw [isLive, exec_bind, exec_bind, hrunning k hk, hrunning h (Std.Refl.refl h)]
  match ((isRunning m.processId).exec h).1 with
  | .error e => rfl
  | .ok running =>
    show (Except.ok (running && decide (m.processId ≠ k.processId)), k) = _
    rw [hk.processId]
    rfl

theorem sameProcess_isLive : Moves SameProcess m.isLive := by
  intro h
  rw [isLive_exec (Std.Refl.refl h)]
  exact Std.Refl.refl h

theorem sameProcess_restoreMode (target : Path) (j : Json) :
    Moves SameProcess (restoreMode target j) := by
  cases j with
  | null => exact moves_pure _
  | bool b => exact sameProcess_perform _
  | int n => exact Moves.ite (moves_throw _) (sameProcess_perform _)
  | _ => exact moves_throw _

theorem sameProcess_isGenerated (p : Path) : Moves SameProcess (isGenerated p) := by
  refine ((moves_look _).bind fun _ => moves_pure _).tryCatch fun e => ?_
  split
  · exact moves_pure _
  · exact moves_pure _
  · exact moves_throw _

theorem sameProcess_bringBack : Moves SameProcess m.bringBack := by
  rw [bringBack]
  split
  · next copy _ =>
    refine (moves_look _).bind fun isFile => Moves.ite ?_ (sameProcess_warn _)
    refine ((sameProcess_perform _).bind fun _ => sameProcess_restoreMode _ _).attempt.bind
      fun r => ?_
    split
    · exact sameProcess_discard _
    · exact moves_throw _
  · refine (moves_look _).bind fun there => Moves.ite ?_ (moves_pure _)
    exact (sameProcess_isGenerated _).bind fun _ => Moves.ite (sameProcess_perform _) (moves_pure _)

end Marker

namespace Instances

theorem sameProcess_removeMarker (m : Marker) : Moves SameProcess (removeMarker m) := by
  refine (sameProcess_discard _).attempt.bind fun r => ?_
  split
  · exact moves_pure _
  · exact sameProcess_warn _

theorem sameProcess_recoverAmong (ms : List Marker) : Moves SameProcess (recoverAmong ms) := by
  induction ms with
  | nil => exact moves_pure _
  | cons m ms ih =>
    refine Marker.sameProcess_isLive.bind fun live => Moves.ite ih ?_
    refine Marker.sameProcess_bringBack.bind fun _ => ?_
    exact (sameProcess_removeMarker m).bind fun _ => ih.bind fun _ => moves_pure _

/-- Markers are recovered one after the other. -/
theorem recoverAmong_append (ms ms' : List Marker) :
    recoverAmong (ms ++ ms') = (do
      let r ← recoverAmong ms
      let r' ← recoverAmong ms'
      return r ++ r') := by
  induction ms with
  | nil =>
    rw [List.nil_append, recoverAmong, pure_bind]
    exact (bind_pure _).symm
  | cons m ms ih =>
    rw [List.cons_append, recoverAmong, recoverAmong, ih, bind_assoc m.isLive]
    refine congrArg _ (funext fun live => ?_)
    cases live with
    | true => rfl
    | false =>
      simp only [Bool.false_eq_true, if_false, bind_assoc, pure_bind, List.cons_append]

/-- The first marker is recovered, and then the others. -/
theorem recoverAmong_cons {m : Marker} {ms r rs : List Marker} {h k k' : Host}
    (hfirst : (recoverAmong [m]).exec h = (.ok r, k))
    (hothers : (recoverAmong ms).exec k = (.ok rs, k')) :
    (recoverAmong (m :: ms)).exec h = (.ok (r ++ rs), k') := by
  rw [← List.singleton_append, recoverAmong_append, exec_bind_ok hfirst, exec_bind_ok hothers]
  rfl

/-- A marker that is not live is recovered by bringing its entry file back and removing it. -/
theorem recoverAmong_single {m : Marker} {h k k' : Host}
    (hlive : (m.isLive.exec h).1 = .ok false) (hback : m.bringBack.exec h = (.ok (), k))
    (hremove : (removeMarker m).exec k = (.ok (), k')) :
    (recoverAmong [m]).exec h = (.ok [m], k') := by
  have hlook : m.isLive.exec h = (.ok false, h) := by
    rw [Marker.isLive_exec (Std.Refl.refl h), hlive]
  rw [recoverAmong, exec_bind_ok hlook]
  show (m.bringBack >>= fun _ => removeMarker m >>= fun _ =>
    recoverAmong [] >>= fun rs => pure (m :: rs)).exec h = _
  rw [exec_bind_ok hback, exec_bind_ok hremove]
  rfl

end Instances
end Vitrine
