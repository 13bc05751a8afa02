import Vitrine.Proofs.Instance.Reading
import Vitrine.Proofs.Work

/-!
# Listing markers

Listing the markers of a state directory only reads files, and comes to the same whatever was logged.
It answers the markers that are found under the names there.
-/
namespace Vitrine
namespace Instances

open Work

theorem readMarker_quiet (file : Path) : (readMarker file).Quiet := by
  refine ((moves_look _).bind fun _ => moves_pure _).tryCatch fun e => ?_
  cases e with
  | system e => exact moves_pure _
  | fault f => exact moves_pure _
  | _ => exact moves_throw _

theorem markersAmong_quiet (directory : Path) (names : List String) :
    (markersAmong directory names).Quiet := by
  induction names with
  | nil => exact moves_pure _
  | cons name names ih =>
    rw [markersAmong]
    refine (moves_look _).bind fun isFile => Moves.ite ?_ ih
    refine (readMarker_quiet _).bind fun r => ?_
    split
    · exact ih.bind fun _ => moves_pure _
    · exact (quiet_warn _).bind fun _ => ih
    · exact moves_throw _

theorem markers_quiet (i : Instances) : i.markers.Quiet := by
  refine (moves_look _).bind fun isDirectory => Moves.ite (moves_pure _) ?_
  exact (moves_look _).bind fun _ => markersAmong_quiet _ _

theorem isOwned_quiet (i : Instances) (entry : Path) : (i.isOwned entry).Quiet :=
  (i.markers_quiet.bind fun _ => moves_pure _).bind fun _ => moves_pure _

theorem readMarker_blind (file : Path) : (readMarker file).Blind := by
  refine ((blind_look fun _ _ => rfl).bind fun _ => blind_pure _).tryCatch fun e => ?_
  cases e with
  | system e => exact blind_pure _
  | fault f => exact blind_pure _
  | _ => exact blind_throw _

theorem markersAmong_blind (directory : Path) (names : List String) :
    (markersAmong directory names).Blind := by
  induction names with
  | nil => exact blind_pure _
  | cons name names ih =>
    rw [markersAmong]
    refine (blind_look fun _ _ => rfl).bind fun isFile => Blind.ite ?_ ih
    refine (readMarker_blind _).bind fun r => ?_
    split
    · exact ih.bind fun _ => blind_pure _
    · exact (blind_warn _).bind fun _ => ih
    · exact blind_throw _

/-! ## What is found under a name -/

/-- What a name in a directory comes to: no marker, one that is left out, or one that is read. -/
inductive Finds (h : Host) (directory : Path) (name : String) : Option Marker → Prop
  | nothing {isFile : Bool} (file : h.isNode Node.isFile (directory.child name) = .ok isFile)
      (other : isFile = true → Marker.isName name = false) : Finds h directory name none
  | skipped {content : List UInt8} {reason : String}
      (file : h.isNode Node.isFile (directory.child name) = .ok true)
      (named : Marker.isName name = true) (bytes : h.bytes (directory.child name) = .ok content)
      (unread : Marker.ofContent (directory.child name) content = .error (.skipped reason)) :
      Finds h directory name none
  | marker {content : List UInt8} {m : Marker}
      (file : h.isNode Node.isFile (directory.child name) = .ok true)
      (named : Marker.isName name = true) (bytes : h.bytes (directory.child name) = .ok content)
      (read : Marker.ofContent (directory.child name) content = .ok m) :
      Finds h directory name (some m)

variable {h : Host} {directory : Path} {name : String} {names : List String}

theorem Finds.unique {a b : Option Marker} (ha : Finds h directory name a)
    (hb : Finds h directory name b) : a = b := by
  cases ha with
  | nothing file other =>
    cases hb with
    | marker file' named =>
      rw [file] at file'
      rw [other (Except.ok.inj file')] at named
      cases named
    | _ => rfl
  | skipped file named bytes unread =>
    cases hb with
    | marker file' named' bytes' read =>
      rw [bytes] at bytes'
      rw [Except.ok.inj bytes', read] at unread
      cases unread
    | _ => rfl
  | marker file named bytes read =>
    cases hb with
    | nothing file' other =>
      rw [file] at file'
      rw [other (Except.ok.inj file').symm] at named
      cases named
    | skipped file' named' bytes' unread =>
      rw [bytes] at bytes'
      rw [← Except.ok.inj bytes', read] at unread
      cases unread
    | marker file' named' bytes' read' =>
      rw [bytes] at bytes'
      rw [← Except.ok.inj bytes', read] at read'
      rw [Except.ok.inj read']

theorem exec_isFile {p : Path} {isFile : Bool} (hf : h.isNode Node.isFile p = .ok isFile) :
    (Work.isFile p).exec h = (.ok isFile, h) := by
  rw [Work.isFile, exec_look, hf]

theorem markersAmong_cons_nothing {isFile : Bool}
    (hf : h.isNode Node.isFile (directory.child name) = .ok isFile)
    (ho : isFile = true → Marker.isName name = false) :
    (markersAmong directory (name :: names)).exec h = (markersAmong directory names).exec h := by
  have hno : ¬ (isFile && Marker.isName name) = true := by
    rw [Bool.and_eq_true]
    rintro ⟨ht, hn⟩
    rw [ho ht] at hn
    cases hn
  rw [markersAmong, exec_bind_ok (exec_isFile hf), if_neg hno]

theorem markersAmong_cons_read {content : List UInt8}
    (hf : h.isNode Node.isFile (directory.child name) = .ok true)
    (hn : Marker.isName name = true) (hb : h.bytes (directory.child name) = .ok content) :
    (markersAmong directory (name :: names)).exec h =
      (match Marker.ofContent (directory.child name) content with
      | .ok m => (do return m :: (← markersAmong directory names) : Work (List Marker))
      | .error (.skipped reason) => do
        warn ("Ignoring unreadable marker " ++ (directory.child name).text ++ ": " ++ reason)
        markersAmong directory names
      | .error (.fault f) => throw (Error.fault f)).exec h := by
  rw [markersAmong, exec_bind_ok (exec_isFile hf), if_pos (by rw [hn]; rfl)]
  exact exec_bind_ok (readMarker_exec hb)

/-- The markers under some names are those that are found there. -/
theorem markersAmong_exec (hall : ∀ name ∈ names, ∃ o, Finds h directory name o) :
    ∃ ms logs, (markersAmong directory names).exec h = (.ok ms, h.withLogs logs) ∧
      ∀ m, m ∈ ms ↔ ∃ name ∈ names, Finds h directory name (some m) := by
  induction names with
  | nil => exact ⟨[], h.logs, rfl, by simp⟩
  | cons name names ih =>
    obtain ⟨ms, logs, hexec, hmem⟩ := ih fun n hn => hall n (List.mem_cons_of_mem _ hn)
    obtain ⟨o, ho⟩ := hall name List.mem_cons_self
    have hnone : ∀ {ms' : List Marker}, o = none → ms' = ms →
        ∀ m, m ∈ ms' ↔ ∃ n ∈ name :: names, Finds h directory n (some m) := by
      rintro _ rfl rfl m
      rw [hmem]
      constructor
      · rintro ⟨n, hn, hm⟩
        exact ⟨n, List.mem_cons_of_mem _ hn, hm⟩
      · rintro ⟨n, hn, hm⟩
        rcases List.mem_cons.mp hn with rfl | hn
        · cases ho.unique hm
        · exact ⟨n, hn, hm⟩
    cases ho with
    | nothing file other =>
      refine ⟨ms, logs, ?_, hnone rfl rfl⟩
      rw [markersAmong_cons_nothing file other]
      exact hexec
    | @skipped content reason file named bytes unread =>
      let text := "Ignoring unreadable marker " ++ (directory.child name).text ++ ": " ++ reason
      obtain ⟨logs', hblind⟩ := markersAmong_blind directory names h (h.log .warning text).logs
      refine ⟨ms, logs', ?_, hnone rfl rfl⟩
      rw [markersAmong_cons_read file named bytes, unread]
      show (warn text >>= fun _ => markersAmong directory names).exec h = _
      rw [exec_bind_ok (exec_warn text h)]
      show (markersAmong directory names).exec (h.withLogs (h.log .warning text).logs) = _
      rw [hblind, hexec]
      rfl
    | @marker content m file named bytes read =>
      refine ⟨m :: ms, logs, ?_, fun m' => ?_⟩
      · rw [markersAmong_cons_read file named bytes, read]
        show (markersAmong directory names >>= fun ms => pure (m :: ms)).exec h = _
        rw [exec_bind_ok hexec]
        rfl
      · rw [List.mem_cons, hmem]
        constructor
        · rintro (rfl | ⟨n, hn, hm⟩)
          · exact ⟨name, List.mem_cons_self, .marker file named bytes read⟩
          · exact ⟨n, List.mem_cons_of_mem _ hn, hm⟩
        · rintro ⟨n, hn, hm⟩
          rcases List.mem_cons.mp hn with rfl | hn
          · left
            exact Option.some.inj (hm.unique (.marker file named bytes read))
          · exact Or.inr ⟨n, hn, hm⟩

theorem bytes_of_isFile {p : Path} (hf : h.isNode Node.isFile p = .ok true) :
    ∃ content, h.bytes p = .ok content := by
  rw [Host.isNode] at hf
  rw [Host.bytes]
  cases hn : h.node p with
  | error e =>
    rw [hn] at hf
    dsimp only at hf
    split at hf <;> cases hf
  | ok found =>
    obtain ⟨q, n⟩ := found
    rw [hn] at hf
    cases n with
    | file content mode changed => exact ⟨content, rfl⟩
    | directory mode changed => cases hf
    | link target => cases hf

/-- Listing only ends well if every name comes to something. -/
theorem finds_of_markersAmong {ms : List Marker}
    (hm : ((markersAmong directory names).exec h).1 = .ok ms) :
    ∀ name ∈ names, ∃ o, Finds h directory name o := by
  induction names generalizing ms with
  | nil => simp
  | cons name names ih =>
    have hcons : ∀ o, Finds h directory name o →
        (∃ ms, ((markersAmong directory names).exec h).1 = .ok ms) →
        ∀ n ∈ name :: names, ∃ o, Finds h directory n o := by
      rintro o ho ⟨ms', hms'⟩ n hn
      rcases List.mem_cons.mp hn with rfl | hn
      · exact ⟨o, ho⟩
      · exact ih hms' n hn
    cases hfile : h.isNode Node.isFile (directory.child name) with
    | error e =>
      have hlook : (Work.isFile (directory.child name)).exec h = (.error e, h) := by
        rw [Work.isFile, exec_look, hfile]
      rw [markersAmong, exec_bind_error hlook] at hm
      cases hm
    | ok isFile =>
      by_cases hname : isFile = true ∧ Marker.isName name = true
      · obtain ⟨rfl, hname⟩ := hname
        obtain ⟨content, hb⟩ := bytes_of_isFile hfile
        rw [markersAmong_cons_read hfile hname hb] at hm
        cases hr : Marker.ofContent (directory.child name) content with
        | error trouble =>
          rw [hr] at hm
          cases trouble with
          | skipped reason =>
            refine hcons _ (.skipped hfile hname hb hr) ⟨ms, ?_⟩
            let text :=
              "Ignoring unreadable marker " ++ (directory.child name).text ++ ": " ++ reason
            change ((warn text >>= fun _ => markersAmong directory names).exec h).1 = _ at hm
            obtain ⟨logs', hblind⟩ := markersAmong_blind directory names h (h.log .warning text).logs
            rw [exec_bind_ok (exec_warn text h)] at hm
            change ((markersAmong directory names).exec
              (h.withLogs (h.log .warning text).logs)).1 = _ at hm
            rwa [hblind] at hm
          | fault f => cases hm
        | ok m =>
          rw [hr] at hm
          refine hcons _ (.marker hfile hname hb hr) ?_
          change ((markersAmong directory names >>= fun ms => pure (m :: ms)).exec h).1 = _ at hm
          rw [exec_bind] at hm
          rcases he : (markersAmong directory names).exec h with ⟨e | ms', k⟩
          · rw [he] at hm
            cases hm
          · exact ⟨ms', rfl⟩
      · have hother : isFile = true → Marker.isName name = false := by
          intro ht
          rw [← Bool.not_eq_true]
          exact fun hn => hname ⟨ht, hn⟩
        rw [markersAmong_cons_nothing hfile hother] at hm
        exact hcons _ (.nothing hfile hother) ⟨ms, hm⟩

/-! ## The markers of a directory -/

variable {i : Instances}

theorem markers_of_absent (hd : h.isNode Node.isDirectory i.directory = .ok false) :
    i.markers.exec h = (.ok [], h) := by
  have hlook : (Work.isDirectory i.directory).exec h = (.ok false, h) := by
    rw [Work.isDirectory, exec_look, hd]
  rw [markers, exec_bind_ok hlook]
  rfl

theorem markers_of_directory (hd : h.isNode Node.isDirectory i.directory = .ok true)
    (hn : h.names i.directory = .ok names) :
    i.markers.exec h = (markersAmong i.directory names).exec h := by
  have hlook : (Work.isDirectory i.directory).exec h = (.ok true, h) := by
    rw [Work.isDirectory, exec_look, hd]
  have hnames : (Work.names i.directory).exec h = (.ok names, h) := by
    rw [Work.names, exec_look, hn]
  rw [markers, exec_bind_ok hlook]
  show (Work.names i.directory >>= fun names => markersAmong i.directory names).exec h = _
  rw [exec_bind_ok hnames]

theorem isOwned_exec {k : Host} {ms : List Marker} (hm : i.markers.exec h = (.ok ms, k))
    (entry : Path) :
    (i.isOwned entry).exec h = (.ok (ms.any fun m => m.entry.text = entry.text), k) := by
  have hfind : (i.find? entry).exec h = (.ok (ms.find? fun m => m.entry.text = entry.text), k) := by
    rw [find?, exec_bind_ok hm]
    rfl
  rw [isOwned, exec_bind_ok hfind]
  show (Except.ok (ms.find? fun m => m.entry.text = entry.text).isSome, k) = _
  rw [List.isSome_find?]

/-- A host on which no session owns a file can list its markers. -/
theorem markers_of_isOwned {entry : Path} {owned : Bool}
    (ho : ((i.isOwned entry).exec h).1 = .ok owned) :
    ∃ ms, (i.markers.exec h).1 = .ok ms ∧ owned = ms.any fun m => m.entry.text = entry.text := by
  match hm : i.markers.exec h with
  | (.ok ms, k) =>
    rw [isOwned_exec hm] at ho
    exact ⟨ms, rfl, (Except.ok.inj ho).symm⟩
  | (.error e, k) =>
    rw [isOwned, find?, exec_bind, exec_bind, hm] at ho
    cases ho

end Instances
end Vitrine
