import Vitrine.Instance.Recovery
import Vitrine.Proofs.Files.Differences
import Vitrine.Proofs.Session.Ownership

/-!
# Deposits

How a session makes its copy and its marker, and how it takes them back. `Tracks` is what holds of
the history of its host all the while: every store on the way is safe, and what is changed elsewhere
is changed by others.
-/
namespace Vitrine
namespace Lease

open Work

variable (l : Lease)

/-- Changes that a session does not make: outside its directory and not at its entry file. New
directories are not counted. -/
def isForeign (c : Change) : Bool :=
  match c with
  | .makeDirectory _ => false
  | c => c.place ≠ l.place && !l.base.isPrefixOf c.place

/-- A host on which others have made some changes since the session began. -/
structure Tracks (outer : List Change) (h : Host) : Prop where
  workingDirectory : h.workingDirectory = l.start.workingDirectory
  passes : Host.Passes l.Safe l.start h
  foreign : h.history.filter l.isForeign =
    l.start.history.filter l.isForeign ++ outer.filter l.isForeign

/-- A host on which only the marker is still missing. -/
structure Prepared (h : Host) : Prop where
  tracks : l.Tracks [] h
  confined : l.Confined l.made.store h.store
  home : l.Home h.store
  rest : l.Rest h.store
  unmarked : h.store.seen l.markPlace = none
  copy : l.HasCopy h.store ∨ l.original = none ∧ h.store.seen l.copyPlace = none
  untouched : l.Untouched h.store
  issued : h.issued + 1 = l.start.issued + l.count
  now : h.now = l.start.now
  processId : h.processId = l.start.processId

variable {l} {outer : List Change} {h : Host}

namespace Tracks

theorem located (hk : l.Tracks outer h) : l.Located h := located_of h hk.workingDirectory

theorem withLogs (hk : l.Tracks outer h) (logs : List LogEntry) : l.Tracks outer (h.withLogs logs) :=
  ⟨hk.workingDirectory, hk.passes.withLogs logs, hk.foreign⟩

theorem issuing (hk : l.Tracks outer h) (n : Nat) : l.Tracks outer { h with issued := n } :=
  ⟨hk.workingDirectory, hk.passes, hk.foreign⟩

/-- The session changes what it disposes of. -/
theorem own (hk : l.Tracks outer h) {c : Change} (hc : c.place = l.place ∨ l.base <+: c.place)
    (hs : l.Safe (c.apply h.store)) : l.Tracks outer (h.change c) := by
  refine ⟨hk.workingDirectory, hk.passes.change hs, ?_⟩
  have hforeign : l.isForeign c = false := by
    have hp : c.place = l.place ∨ l.base.isPrefixOf c.place = true := by
      rwa [List.isPrefixOf_iff_prefix]
    unfold isForeign
    split
    · rfl
    · rcases hp with hp | hp <;> simp [hp]
  show (h.history ++ [c]).filter l.isForeign = _
  rw [List.filter_append, hk.foreign, List.filter_cons_of_neg (by simp [hforeign]),
    List.filter_nil, List.append_nil]

/-- Others change something. -/
theorem others (hk : l.Tracks outer h) {c : Change} (hs : l.Safe (c.apply h.store)) :
    l.Tracks (outer ++ [c]) (h.change c) := by
  refine ⟨hk.workingDirectory, hk.passes.change hs, ?_⟩
  show (h.history ++ [c]).filter l.isForeign = _
  rw [List.filter_append, hk.foreign, List.filter_append, List.append_assoc]

end Tracks

/-! ## Making -/

theorem makeDirectories_start (ht : l.Tenable) (logs : List LogEntry) : ∃ logs',
    (makeDirectories l.directory).exec (l.start.withLogs logs) =
      (.ok (), l.made.withLogs logs') := by
  obtain ⟨logs', hl⟩ := makeDirectories_blind l.directory l.start logs
  refine ⟨logs', ?_⟩
  rw [hl, ht.made]
  rfl

theorem makeDirectories_home (ht : l.Tenable) (hh : l.Home h.store)
    (hd : h.workingDirectory = l.start.workingDirectory) :
    (makeDirectories l.directory).exec h = (.ok (), h) := by
  refine makeDirectories_of_isDirectory ht.parts ht.sound ?_ hh.isDirectory
  rw [Host.absolute, hd]
  exact hh.directory

theorem tracks_made : l.Tracks [] l.made := by
  refine ⟨workingDirectory_made, grows.passes.mono fun s hs => Or.inl hs, ?_⟩
  obtain ⟨cs, hk, hall⟩ := (grows (l := l)).eq
  have hcs : cs.filter l.isForeign = [] := by
    rw [List.filter_eq_nil_iff]
    intro c hc
    obtain ⟨q, rfl⟩ := hall c hc
    simp [isForeign]
  rw [hk]
  show (l.start.history ++ cs).filter l.isForeign = _
  rw [List.filter_append, hcs]
  rfl

theorem made_eq : l.made.issued = l.start.issued ∧ l.made.now = l.start.now ∧
    l.made.processId = l.start.processId := by
  obtain ⟨cs, hk, -⟩ := (grows (l := l)).eq
  rw [hk]
  exact ⟨rfl, rfl, rfl⟩

/-- Without an entry file there is nothing to keep. -/
theorem prepared_of_none (ht : l.Tenable) (ho : l.original = none) (logs : List LogEntry) :
    l.Prepared (l.made.withLogs logs) where
  tracks := tracks_made.withLogs logs
  confined := .refl l l.made.store
  home := ht.home
  rest := fun _ _ _ _ => rfl
  unmarked := ht.markPlace_free
  copy := Or.inr ⟨ho, ht.copyPlace_free⟩
  untouched := rfl
  issued := by
    show l.made.issued + 1 = _
    rw [made_eq.1, count, ho]
    rfl
  now := made_eq.2.1
  processId := made_eq.2.2

/-- An entry file is copied. -/
theorem prepared_of_file (ht : l.Tenable) {content : List UInt8} {mode : Nat}
    (ho : l.original = some (.file content mode (.counted 0))) (logs : List LogEntry) :
    ∃ b k, (Backup.capture l.directory l.entry l.workingDirectory).exec (l.start.withLogs logs) =
      (.ok b, k) ∧ l.backup = some b ∧ l.Prepared k := by
  obtain ⟨logs', hmake⟩ := makeDirectories_start ht logs
  let h : Host := { l.made.withLogs logs' with issued := l.start.issued + 1 }
  let c : Change := .write l.copyPlace content Node.fileMode
  let b : Backup :=
    ⟨l.entry, content, mode + 0o100000, l.workingDirectory, l.copy, l.start.now⟩
  have hfree : h.store.seen l.copyPlace = none := ht.copyPlace_free
  have hleaf : h.store.IsLeaf l.copyPlace := Or.inl hfree
  have hfile : h.store.seen l.place = some (.file content mode (.counted 0)) := ho
  have hentry : h.Leads l.entry l.place :=
    Home.entry_leads (h := h) ht.home ht (located_of h workingDirectory_made)
  have hcopy : h.Leads l.copy l.copyPlace :=
    Home.copy_leads (h := h) ht.home ht (located_of h workingDirectory_made) hleaf
  have hdiffers : Store.DiffersAt l.copyPlace h.store (c.apply h.store) :=
    Change.differsAt_write hleaf content Node.fileMode
  have hseen : (c.apply h.store).seen l.copyPlace =
      some (.file content Node.fileMode (.counted 0)) := by
    rw [Change.seen_write h.store l.copyPlace content Node.fileMode hleaf.ne_root, if_pos rfl]
  have hmark : (c.apply h.store).seen l.markPlace = none := by
    rw [hdiffers.others _ copyPlace_ne_markPlace.symm]
    exact ht.markPlace_free
  have huntouched : l.Untouched (c.apply h.store) := by
    rw [Untouched, hdiffers.others _ (ht.ne_place base_isPrefix_copyPlace)]
    rfl
  have hhome : l.Home (c.apply h.store) := ht.home.of_sameWays hdiffers.ways
  have hrest : l.Rest (c.apply h.store) := Rest.of_differsAt (fun _ _ _ _ => rfl) hdiffers (Or.inl rfl)
  refine ⟨b, h.change c, ?_, ?_, ?_⟩
  · have hnumber : issue.exec (l.made.withLogs logs') = (.ok (l.start.issued + 1), h) := by
      rw [exec_issue]
      show (Except.ok (l.made.issued + 1), _) = _
      rw [show (l.made.withLogs logs').issued = l.start.issued from made_eq.1, made_eq.1]
    obtain ⟨changed, hnode⟩ := hentry.node_of_file hfile
    have hmode : (fullMode l.entry).exec h = (.ok (mode + 0o100000), h) := by
      rw [fullMode, exec_look, hnode]
      rfl
    have hbytes : (readBytes l.entry).exec h = (.ok content, h) := by
      rw [readBytes, exec_look, hentry.bytes_of_file hfile]
    have hcopying : (Work.copy l.entry l.copy).exec h = (.ok (), h.change c) := by
      rw [Work.copy, exec_perform, hentry.copying_of_file hfile hcopy hleaf
        (ht.ne_place base_isPrefix_copyPlace), hfree]
      rfl
    rw [Backup.capture, exec_bind_ok hmake, exec_bind_ok hnumber]
    show (attempt _ >>= _).exec h = _
    rw [exec_bind_ok (exec_attempt_ok (a := (content, mode + 0o100000)) (k := h.change c) ?_)]
    · show (Except.ok _, h.change c) = _
      rw [show (h.change c).now = l.start.now from made_eq.2.1]
      rfl
    · rw [exec_bind_ok hbytes, exec_bind_ok hmode]
      show (Work.copy l.entry l.copy >>= _).exec h = _
      rw [exec_bind_ok hcopying]
      rfl
  · rw [backup, ho]
  · exact {
      tracks := ((tracks_made.withLogs logs').issuing _).own (Or.inr base_isPrefix_copyPlace)
        (Or.inr ⟨hhome, hrest,
          Or.inl ⟨hmark, Or.inr ⟨content, Node.fileMode, hseen⟩, huntouched⟩⟩)
      confined :=
        (Confined.refl l l.made.store).own (Or.inr (Or.inr ⟨by simp [ho], rfl⟩)) hdiffers
      home := hhome
      rest := hrest
      unmarked := hmark
      copy := Or.inl ⟨content, mode, Node.fileMode, ho, hseen⟩
      untouched := huntouched
      issued := by
        show l.start.issued + 1 + 1 = _
        rw [count, ho]
        rfl
      now := made_eq.2.1
      processId := made_eq.2.2 }

/-- The marker is written. -/
theorem writeMarker_exec (ht : l.Tenable) {k : Host} (hp : l.Prepared h)
    (hmake : (makeDirectories l.directory).exec k = (.ok (), h)) :
    ∃ k', (Instances.writeMarker ⟨l.directory⟩ l.entry l.workingDirectory l.language
      l.backup).exec k = (.ok l.marker, k') ∧ l.Tracks [] k' ∧ l.Occupied k'.store ∧
      l.Untouched k'.store ∧ l.Confined l.made.store k'.store := by
  let g : Host := { h with issued := l.start.issued + l.count }
  let c : Change := .write l.markPlace l.markContent Node.fileMode
  have hleaf : g.store.IsLeaf l.markPlace := Or.inl hp.unmarked
  have hmark : g.Leads l.marker.file l.markPlace :=
    Home.mark_leads (h := g) hp.home ht (located_of g hp.tracks.workingDirectory) hleaf
  have hdiffers : Store.DiffersAt l.markPlace g.store (c.apply g.store) :=
    Change.differsAt_write hleaf l.markContent Node.fileMode
  have hcopyPlace := hdiffers.others _ copyPlace_ne_markPlace
  have hplace := hdiffers.others _ (ht.ne_place base_isPrefix_markPlace)
  have huntouched : l.Untouched (c.apply g.store) := by
    rw [Untouched, hplace]
    exact hp.untouched
  have hoccupied : l.Occupied (c.apply g.store) := by
    refine ⟨hp.home.of_sameWays hdiffers.ways, hp.rest.of_differsAt hdiffers (Or.inr (Or.inl rfl)),
      ?_, ?_, fun hn => ?_⟩
    · rw [HasMark, Change.seen_write g.store l.markPlace l.markContent Node.fileMode hleaf.ne_root,
        if_pos rfl]
    · rw [HasCopy, hcopyPlace]
      exact hp.copy
    · left
      rw [huntouched, hn]
  have hnumber : issue.exec h = (.ok (l.start.issued + l.count), g) := by
    rw [exec_issue, hp.issued]
  have hwrite : (writeText l.marker.file (l.marker.toJson.write Json.spaced)).exec g =
      (.ok (), g.change c) := by
    rw [writeText, writeBytes, exec_perform, hmark.writing_of_leaf hleaf, hp.unmarked]
    rfl
  refine ⟨g.change c, ?_, ?_, hoccupied, huntouched, hp.confined.own owns_markPlace hdiffers⟩
  · unfold Instances.writeMarker
    rw [exec_bind_ok hmake, exec_bind_ok (exec_get h), exec_bind_ok hnumber]
    rw [hp.now, hp.processId]
    exact exec_bind_ok (exec_attempt_ok hwrite)
  · exact (hp.tracks.issuing _).own (Or.inr base_isPrefix_markPlace) hoccupied.safe

/-! ## Taking back -/

theorem permissions_fullMode {mode : Nat} (h : mode < 0o10000) :
    Node.permissions ((mode + 0o100000 : Nat) : Int) = mode := by
  rw [Node.permissions]
  omega

/-- Putting the entry file back takes two changes. -/
theorem restore_eq (ht : l.Tenable) (hd : l.Located h) (hh : l.Home h.store) {b : Backup}
    (hb : l.backup = some b) :
    ∃ content mode, l.original = some (.file content mode (.counted 0)) ∧ b.restore.exec h =
      (.ok (), (h.change (.write l.place content
        (Host.Leads.writtenMode (h.store.seen l.place)))).change (.setMode l.place mode)) := by
  rcases ht.original_cases with hn | ⟨content, mode, hf⟩
  · simp [backup, hn] at hb
  rw [backup, hf] at hb
  obtain rfl := Option.some.inj hb
  have hentry := hh.entry_leads ht hd
  let c : Change := .write l.place content (Host.Leads.writtenMode (h.store.seen l.place))
  have hwrite : (writeBytes l.entry content).exec h = (.ok (), h.change c) := by
    rw [writeBytes, exec_perform, hentry.writing_of_leaf hh.leaf]
  have hfile : (h.change c).store.seen l.place =
      some (.file content (Host.Leads.writtenMode (h.store.seen l.place)) (.counted 0)) := by
    show (c.apply h.store).seen l.place = _
    rw [Change.seen_write h.store l.place content _ hh.leaf.ne_root, if_pos rfl]
  have hmode : (setMode l.entry ((mode + 0o100000 : Nat) : Int)).exec (h.change c) =
      (.ok (), (h.change c).change (.setMode l.place mode)) := by
    have hlead := Home.entry_leads (h := h.change c)
      (hh.of_sameWays (Change.differsAt_write hh.leaf _ _).ways) ht ⟨hd.entry, hd.directory⟩
    rw [setMode, exec_perform, hlead.settingMode_of_file hfile,
      permissions_fullMode (ht.mode content mode hf)]
  refine ⟨content, mode, hf, ?_⟩
  rw [Backup.restore, Backup.restoreBy, exec_bind_ok (exec_attempt_ok (a := ()) (?_))]
  · rfl
  · rw [exec_bind_ok hwrite]
    exact hmode

/-- What is seen at the entry file after that. -/
theorem seen_restored {s : Store} (hleaf : s.IsLeaf l.place) {content : List UInt8} {mode : Nat}
    (ho : l.original = some (.file content mode (.counted 0))) (written : Nat) :
    ((Change.setMode l.place mode).apply
      ((Change.write l.place content written).apply s)).seen l.place = l.original := by
  rw [Change.seen_setMode _ l.place mode hleaf.ne_root, if_pos rfl,
    Change.seen_write s l.place content _ hleaf.ne_root, if_pos rfl, ho]
  rfl

/-- The entry file is put back. -/
theorem restore_exec (ht : l.Tenable) (hk : l.Tracks outer h) (ho : l.Occupied h.store)
    {b : Backup} (hb : l.backup = some b) :
    ∃ k, b.restore.exec h = (.ok (), k) ∧ l.Tracks outer k ∧ l.Occupied k.store ∧
      l.Untouched k.store := by
  obtain ⟨content, mode, hf, hexec⟩ := restore_eq ht hk.located ho.home hb
  have hsome : l.original = none → ∀ s, l.Replaced s := by
    intro hn
    rw [hf] at hn
    cases hn
  have hwritten := ho.of_differsAt ht (Change.differsAt_write ho.home.leaf content
    (Host.Leads.writtenMode (h.store.seen l.place))) fun hn => hsome hn _
  have hset := hwritten.of_differsAt ht (Change.differsAt_setMode hwritten.home.leaf mode)
    fun hn => hsome hn _
  exact ⟨_, hexec, (hk.own (Or.inl rfl) hwritten.safe).own (Or.inl rfl) hset.safe, hset,
    seen_restored ho.home.leaf hf _⟩

/-- What was written in the place of a missing entry file is removed. -/
theorem discardEntry_exec (ht : l.Tenable) (hk : l.Tracks outer h) (ho : l.Occupied h.store)
    (hn : l.original = none) :
    ∃ k, (Work.discard l.entry).exec h = (.ok (), k) ∧ l.Tracks outer k ∧ l.Occupied k.store ∧
      l.Untouched k.store := by
  have hentry := ho.home.entry_leads ht hk.located
  rw [discard_exec hentry ho.home.leaf]
  by_cases hs : h.store.seen l.place = none
  · rw [if_pos hs]
    exact ⟨h, rfl, hk, ho, hs.trans hn.symm⟩
  · rw [if_neg hs]
    have hgone : ((Change.remove l.place).apply h.store).seen l.place = none := by
      rw [Change.seen_remove h.store l.place ho.home.leaf.ne_root, if_pos rfl]
    have hremoved : l.Occupied ((Change.remove l.place).apply h.store) :=
      ho.of_differsAt ht (Change.differsAt_remove ho.home.leaf) fun _ => Or.inl hgone
    exact ⟨_, rfl, hk.own (Or.inl rfl) hremoved.safe, hremoved, hgone.trans hn.symm⟩

/-- The entry file is back and the copy is gone. -/
structure Restored (l : Lease) (s : Store) : Prop where
  home : l.Home s
  rest : l.Rest s
  mark : l.HasMark s
  uncopied : s.seen l.copyPlace = none
  untouched : l.Untouched s

/-- Nothing is left of the session. -/
structure Vacated (l : Lease) (s : Store) : Prop where
  base : ∀ q, l.base <+: q → s.seen q = l.made.store.seen q
  home : l.Home s
  untouched : l.Untouched s

theorem Restored.safe {s : Store} (hr : l.Restored s) : l.Safe s :=
  Or.inr ⟨hr.home, hr.rest, Or.inr ⟨hr.mark, Or.inr ⟨hr.uncopied, Or.inl hr.untouched⟩⟩⟩

theorem restored_of_none {s : Store} (ho : l.Occupied s) (hn : l.original = none)
    (hu : l.Untouched s) : l.Restored s := by
  refine ⟨ho.home, ho.rest, ho.mark, ?_, hu⟩
  rcases ho.copy with ⟨content, mode, kept, hf, -⟩ | ⟨-, hc⟩
  · rw [hn] at hf
    cases hf
  · exact hc

theorem copy_of_backup {b : Backup} (hb : l.backup = some b) : b.copy = l.copy := by
  unfold backup at hb
  split at hb
  · rw [← Option.some.inj hb]
  · cases hb

theorem original_of_no_backup (ht : l.Tenable) (hb : l.backup = none) : l.original = none := by
  rcases ht.original_cases with ho | ⟨content, mode, ho⟩
  · exact ho
  · simp [backup, ho] at hb

/-- A backup holds what the entry file was. -/
theorem original_of_backup (ht : l.Tenable) {b : Backup} (hb : l.backup = some b) :
    b.entry = l.entry ∧ ∃ mode, l.original = some (.file b.content mode (.counted 0)) := by
  rcases ht.original_cases with hn | ⟨content, mode, hf⟩
  · simp [backup, hn] at hb
  · rw [backup, hf] at hb
    obtain rfl := Option.some.inj hb
    exact ⟨rfl, mode, hf⟩

/-- The copy is removed. -/
theorem discardCopy_exec (ht : l.Tenable) (hk : l.Tracks outer h) (ho : l.Occupied h.store)
    (hu : l.Untouched h.store) {b : Backup} (hb : l.backup = some b) :
    ∃ k, b.discard.exec h = (.ok (), k) ∧ l.Tracks outer k ∧ l.Restored k.store := by
  have hcopy := copy_of_backup hb
  obtain ⟨content, mode, kept, hf, hfile⟩ : l.HasCopy h.store := by
    rcases ho.copy with hc | ⟨hn, -⟩
    · exact hc
    · simp [backup, hn] at hb
  have hleaf : h.store.IsLeaf l.copyPlace := Or.inr ⟨content, kept, hfile⟩
  have hlead := ho.home.copy_leads ht hk.located hleaf
  have hdiffers := Change.differsAt_remove hleaf
  have hrestored : l.Restored ((Change.remove l.copyPlace).apply h.store) := by
    refine ⟨ho.home.of_sameWays hdiffers.ways, ho.rest.of_differsAt hdiffers (Or.inl rfl), ?_, ?_,
      ?_⟩
    · rw [HasMark, hdiffers.others _ copyPlace_ne_markPlace.symm]
      exact ho.mark
    · rw [Change.seen_remove h.store l.copyPlace hleaf.ne_root, if_pos rfl]
    · rw [Untouched, hdiffers.others _ (ht.ne_place base_isPrefix_copyPlace)]
      exact hu
  have hdiscard := discard_exec hlead hleaf
  rw [if_neg (by simp [hfile])] at hdiscard
  refine ⟨h.change (.remove l.copyPlace), ?_, hk.own (Or.inr base_isPrefix_copyPlace)
    hrestored.safe, hrestored⟩
  rw [Backup.discard, hcopy, exec_bind_ok (exec_attempt_ok hdiscard)]
  rfl

/-- The marker is removed. -/
theorem removeMarker_exec (ht : l.Tenable) (hk : l.Tracks outer h) (hr : l.Restored h.store) :
    ∃ k, (Instances.removeMarker l.marker).exec h = (.ok (), k) ∧ l.Tracks outer k ∧
      l.Vacated k.store := by
  have hleaf : h.store.IsLeaf l.markPlace := Or.inr ⟨_, _, hr.mark⟩
  have hlead := hr.home.mark_leads ht hk.located hleaf
  have hdiffers := Change.differsAt_remove hleaf
  let s := (Change.remove l.markPlace).apply h.store
  have hgone : s.seen l.markPlace = none := by
    rw [Change.seen_remove h.store l.markPlace hleaf.ne_root, if_pos rfl]
  have huncopied : s.seen l.copyPlace = none := by
    rw [hdiffers.others _ copyPlace_ne_markPlace]
    exact hr.uncopied
  have hhome : l.Home s := hr.home.of_sameWays hdiffers.ways
  have hrest : l.Rest s := hr.rest.of_differsAt hdiffers (Or.inr (Or.inl rfl))
  have huntouched : l.Untouched s := by
    rw [Untouched, hdiffers.others _ (ht.ne_place base_isPrefix_markPlace)]
    exact hr.untouched
  have hvacated : l.Vacated s := by
    refine ⟨fun q hq => ?_, hhome, huntouched⟩
    by_cases hqm : q = l.markPlace
    · rw [hqm, hgone, ht.markPlace_free]
    · by_cases hqc : q = l.copyPlace
      · rw [hqc, huncopied, ht.copyPlace_free]
      · exact hrest q hq hqc hqm
  have hdiscard := discard_exec hlead hleaf
  have hthere : h.store.seen l.markPlace ≠ none := by
    rw [hr.mark]
    exact Option.some_ne_none _
  rw [if_neg hthere] at hdiscard
  refine ⟨h.change (.remove l.markPlace), ?_, hk.own (Or.inr base_isPrefix_markPlace)
    (Or.inr ⟨hhome, hrest, Or.inl ⟨hgone, Or.inl huncopied, huntouched⟩⟩), hvacated⟩
  rw [Instances.removeMarker, exec_bind_ok (exec_attempt_ok hdiscard)]
  rfl

end Lease
end Vitrine
