import Vitrine.Proofs.Instance.Damage
import Vitrine.Proofs.Session.Turns

/-!
# Going by the markers

Looking for the owner of an entry file, running a session and recovering sessions all begin by listing
the markers of a directory, and fail with the listing (`listing_decides`). Recovery fails otherwise for
what a marker that was read says, and for what the system refuses.
-/
namespace Vitrine

namespace Host

/-- The errors of operations at a path: no name can hold a part of it, or the system refuses. -/
def Refuses (p : Path) (e : Error) : Prop :=
  (e = .fault .value ∧ p.isSound = false) ∨ ∃ n, e = .system n

variable {h : Host} {p : Path} {e : Error}

theorem refuses_of_reach {follow : Bool} (he : h.reach follow p = .error e) : Refuses p e :=
  (reach_errors he).imp id fun ⟨n, _, hn⟩ => ⟨n, hn⟩

theorem refuses_of_node (he : h.node p = .error e) : Refuses p e := by
  rw [node] at he
  cases hr : h.reach true p with
  | ok x =>
    rw [hr] at he
    cases x with
    | there place n => cases he
    | free place =>
      cases he
      exact .inr ⟨_, rfl⟩
  | error g =>
    rw [hr] at he
    cases he
    exact refuses_of_reach hr

theorem refuses_of_bytes (he : h.bytes p = .error e) : Refuses p e := by
  rw [bytes] at he
  split at he
  · cases he
  · cases he
    exact .inr ⟨_, rfl⟩
  · next hn =>
    cases he
    exact refuses_of_node hn

theorem refuses_of_writing {content : List UInt8} (he : h.writing p content = .error e) :
    Refuses p e := by
  rw [writing] at he
  split at he
  · cases he
  · cases he
  · cases he
    exact .inr ⟨_, rfl⟩
  · next hr =>
    cases he
    exact refuses_of_reach hr

theorem refuses_of_removing (he : h.removing p = .error e) : Refuses p e := by
  rw [removing] at he
  split at he
  · cases he
    exact .inr ⟨_, rfl⟩
  · cases he
    exact .inr ⟨_, rfl⟩
  · cases he
  · next hr =>
    cases he
    exact refuses_of_reach hr

theorem refuses_of_settingMode {mode : Int} (he : h.settingMode p mode = .error e) : Refuses p e := by
  rw [settingMode] at he
  split at he
  · cases he
  · next hn =>
    cases he
    exact refuses_of_node hn

theorem refuses_of_copying {source : Path} (he : h.copying source p = .error e) :
    Refuses source e ∨ Refuses p e := by
  have hcopy : ∀ {g}, (h.bytes source).bind (h.writing p) = .error g →
      Refuses source g ∨ Refuses p g := by
    intro g hg
    obtain hb | ⟨content, -, hw⟩ := bind_eq_error.mp hg
    · exact .inl (refuses_of_bytes hb)
    · exact .inr (refuses_of_writing hw)
  rw [copying] at he
  split at he
  · split at he
    · cases he
      exact .inl (.inr ⟨_, rfl⟩)
    · exact hcopy he
  · exact hcopy he

end Host

open Work Host

variable {S : Error → Prop}

theorem Work.fails_discard (p : Path) : Fails (Refuses p) (Work.discard p) := by
  have hremove : Fails (fun e => Refuses p e ∨ ∃ n, e = .system n) (remove p) :=
    fails_perform fun _ _ he => .inl (refuses_of_removing he)
  refine hremove.attempt.bind fun r => ?_
  split
  · exact fails_pure _
  · exact fails_pure _
  · exact fails_throw (.inr ⟨_, rfl⟩)

/-- What a path leads to that a name can hold is removed, or the system refuses that. -/
theorem fails_attempt_discard {p : Path} (hs : p.isSound = true) :
    Fails S (attempt (Work.discard p)) := by
  have hdiscard : Fails (fun e => S e ∨ ∃ n, e = .system n) (Work.discard p) := by
    refine (fails_discard p).mono fun e he => ?_
    obtain ⟨-, hu⟩ | hn := he
    · rw [hs] at hu
      cases hu
    · exact .inr hn
  exact hdiscard.attempt

theorem fails_isNode (kind : Node → Bool) (p : Path) :
    Fails (fun e => ∃ n, e = .system n) (look fun h => h.isNode kind p) :=
  fails_look fun _ _ he => ⟨_, (isNode_errors he).1⟩

/-! ## Recovering -/

/-- Why recovering the session of a marker fails: the marker names a process or a mode that there
cannot be or a path that no name can hold, or the system refuses. -/
inductive Marker.Upsets (m : Marker) : Error → Prop
  | process (large : processIdLimit < m.processId) : Upsets m (.fault .overflow)
  | mode (n : Int) (recorded : m.fileMode = .int n)
      (large : n < -processIdLimit - 1 ∨ processIdLimit < n) : Upsets m (.fault .overflow)
  | noMode (other : m.fileMode ≠ .null) (number : ∀ n, m.fileMode ≠ .int n)
      (truth : ∀ b, m.fileMode ≠ .bool b) : Upsets m (.fault .type)
  | path (unsound : m.entry.isSound = false) : Upsets m (.fault .value)
  | system (n : Errno) : Upsets m (.system n)
  | backup (n : Errno) : Upsets m (.backup (.recovery m.entry n))

namespace Marker

variable {m : Marker}

theorem upsets_of_refuses {e : Error} (he : Refuses m.entry e) : m.Upsets e := by
  obtain ⟨rfl, hs⟩ | ⟨n, rfl⟩ := he
  · exact .path hs
  · exact .system n

theorem isLive_fails : Fails m.Upsets m.isLive := by
  have hrunning : Fails m.Upsets (isRunning m.processId) := by
    rw [isRunning]
    by_cases hnone : m.processId ≤ 0
    · rw [if_pos hnone]
      exact fails_pure _
    · rw [if_neg hnone]
      by_cases hlarge : processIdLimit < m.processId
      · rw [if_pos hlarge]
        exact fails_throw (.process hlarge)
      · rw [if_neg hlarge]
        exact fun _ _ he => nomatch he
  exact hrunning.bind fun running _ _ he => nomatch he

theorem restoreMode_fails : Fails m.Upsets (restoreMode m.entry m.fileMode) := by
  have hset : ∀ n, Fails m.Upsets (setMode m.entry n) := fun n =>
    fails_perform fun _ _ he => upsets_of_refuses (refuses_of_settingMode he)
  cases hmode : m.fileMode with
  | null => exact fails_pure _
  | bool b => exact hset _
  | int n =>
    rw [restoreMode]
    split
    · next hlarge => exact fails_throw (.mode n hmode (by simpa using hlarge))
    · exact hset n
  | _ => exact fails_throw (.noMode (by simp [hmode]) (by simp [hmode]) (by simp [hmode]))

theorem isGenerated_fails (p : Path) : Fails (Refuses p) (isGenerated p) := by
  intro h e he
  rw [isGenerated, exec_tryCatch, exec_bind, readText, exec_look] at he
  cases ht : h.text p with
  | ok text =>
    rw [ht] at he
    cases he
  | error g =>
    rw [ht] at he
    obtain ⟨n, rfl⟩ | hvalue | ⟨rfl, -⟩ := text_errors ht
    · cases he
    · obtain ⟨rfl, hs⟩ := hvalue
      cases he
      exact .inl ⟨rfl, hs⟩
    · cases he

theorem bringBack_fails : Fails m.Upsets m.bringBack := by
  have hsystem : ∀ {e}, (∃ n, e = .system n) → m.Upsets e := by
    rintro e ⟨n, rfl⟩
    exact .system n
  rw [bringBack]
  split
  · next copy _ =>
    by_cases hs : copy.isSound = true
    · have hcopied : Fails m.Upsets (do
          Work.copy copy m.entry
          restoreMode m.entry m.fileMode) := by
        refine (fails_perform fun h e he => ?_).bind fun _ => restoreMode_fails
        obtain (⟨-, hu⟩ | hn) | he := refuses_of_copying he
        · rw [hs] at hu
          cases hu
        · exact hsystem hn
        · exact upsets_of_refuses he
      refine ((fails_isNode _ copy).mono fun _ => hsystem).bind fun isFile =>
        Fails.ite ?_ (fails_warn _)
      refine (hcopied.mono fun _ => Or.inl).attempt.bind fun r => ?_
      split
      · refine (fails_discard copy).mono fun e he => ?_
        obtain ⟨-, hu⟩ | hn := he
        · rw [hs] at hu
          cases hu
        · exact hsystem hn
      · exact fails_throw (.backup _)
    · -- No file can be there.
      intro h e he
      have hmissing : (isFile copy).exec h = (.ok false, h) := by
        rw [isFile, exec_look, isNode, node, reach, if_neg hs]
        rfl
      rw [exec_bind_ok hmissing] at he
      cases he
  · refine ((fails_isNode _ m.entry).mono fun _ => hsystem).bind fun there =>
      Fails.ite ?_ (fails_pure _)
    refine ((isGenerated_fails m.entry).mono fun _ => upsets_of_refuses).bind fun _ =>
      Fails.ite ?_ (fails_pure _)
    exact fails_perform fun _ _ he => upsets_of_refuses (refuses_of_removing he)

end Marker

namespace Instances

theorem removeMarker_fails {m : Marker} (hs : m.file.isSound = true) : Fails S (removeMarker m) := by
  refine (fails_attempt_discard hs).bind fun r => ?_
  split
  · exact fails_pure _
  · exact fails_warn _

/-- Recovery fails for no other reasons than those that one of the markers gives. -/
theorem recoverAmong_fails {ms : List Marker} (hs : ∀ m ∈ ms, m.file.isSound = true) :
    Fails (fun e => ∃ m ∈ ms, m.Upsets e) (recoverAmong ms) := by
  induction ms with
  | nil => exact fails_pure _
  | cons m ms ih =>
    have hfirst : ∀ e, m.Upsets e → ∃ m' ∈ m :: ms, m'.Upsets e :=
      fun e he => ⟨m, List.mem_cons_self, he⟩
    have hothers := (ih fun m' hm => hs m' (List.mem_cons_of_mem _ hm)).mono
      fun e ⟨m', hm, he⟩ => (⟨m', List.mem_cons_of_mem _ hm, he⟩ : ∃ m' ∈ m :: ms, m'.Upsets e)
    refine (Marker.isLive_fails.mono hfirst).bind fun live => Fails.ite hothers ?_
    refine (Marker.bringBack_fails.mono hfirst).bind fun _ => ?_
    exact (removeMarker_fails (hs m List.mem_cons_self)).bind fun _ =>
      hothers.bind fun _ => fails_pure _

/-! ## Listing decides -/

variable {i : Instances} {h : Host} {r : Result (List Marker)} {warnings : List LogEntry}

/-- Everything that begins by listing the markers of a directory goes by the result `r` of that, and
fails with it. -/
structure Consulted (i : Instances) (h : Host) (r : Result (List Marker)) (k : Host) : Prop where
  markers : i.markers.exec h = (r, k)
  find? : ∀ entry, (i.find? entry).exec h =
    (r.map fun ms => ms.find? fun m => m.entry.text = entry.text, k)
  isOwned : ∀ entry, (i.isOwned entry).exec h =
    (r.map fun ms => ms.any fun m => m.entry.text = entry.text, k)
  /-- A run is refused if a marker names its entry file, and otherwise goes on. -/
  run : ∀ {σ : Type} (script : Script σ) (t : Scene σ) (entry : Path) (language : Preview.Language),
    t.host = h → t.session.instances = i →
    ((Preview.resolveEntry t.session.configFile t.session.settings
      t.session.entryDirectory).exec h).1 = .ok (entry, language) →
    ∃ logs, (Session.run script).exec t = (match r with
      | .error e => throw e
      | .ok ms =>
        if ms.any fun m => m.entry.text = entry.text then do
          Act.enter .aborted
          throw (.conflict entry)
        else do
          Act.enter .installing
          Session.replaceEntry script entry language : Act σ Unit).exec { t with
            host := h.withLogs logs
            session := { t.session with entry := some (entry, language) } }
  /-- Recovery goes through the markers, and fails otherwise for what one of them says. -/
  recover : i.recover.exec h = (match r with
    | .error e => (.error e, k)
    | .ok ms => (recoverAmong ms).exec k)
  upset : ∀ ms, r = .ok ms → ∀ e, (i.recover.exec h).1 = .error e → ∃ m ∈ ms, m.Upsets e

theorem isSound_of_isFile {p : Path} (hf : h.isNode Node.isFile p = .ok true) :
    p.isSound = true := by
  refine Classical.byContradiction fun hs => ?_
  have hmissing : h.isNode Node.isFile p = .ok false := by
    rw [isNode, node, reach, if_neg hs]
    rfl
  rw [hmissing] at hf
  cases hf

theorem isSound_of_meets {directory : Path} {names : List String} {sights : List Sighting}
    (hall : List.Forall₂ (Meets h directory) names sights) {m : Marker}
    (hm : m ∈ sights.filterMap Sighting.marker?) : m.file.isSound = true := by
  induction hall with
  | nil => cases hm
  | cons hs _ ih =>
    cases hs with
    | nothing file other => exact ih hm
    | unreadable file named bytes undescribed unobstructed why => exact ih hm
    | marker file named bytes spells describes kept =>
      rcases List.mem_cons.mp hm with rfl | hm
      · rw [kept]
        exact isSound_of_isFile file
      · exact ih hm

theorem Lists.isSound (hl : i.Lists h r warnings) {ms : List Marker} (hr : r = .ok ms) {m : Marker}
    (hm : m ∈ ms) : m.file.isSound = true := by
  cases hl with
  | unreachable => cases hr
  | halted => cases hr
  | complete shows_ meets =>
    cases hr
    exact isSound_of_meets meets hm

end Instances
end Vitrine
