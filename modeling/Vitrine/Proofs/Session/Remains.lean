import Vitrine.Proofs.Instance.Round
import Vitrine.Proofs.Session.Deposit

/-!
# What a session leaves when it dies

Its marker and its copy, or a part of them, and whatever stands in the place of its entry file. From
all of these the entry file is brought back.
-/
namespace Vitrine
namespace Lease

open Work Instances

variable (l : Lease)

/-- What others rely on who read the marker of a session: paths that are read back as they were
written, and a directory without links. -/
structure Legible : Prop where
  entry : l.entry.IsWritten
  directory : l.directory.IsWritten
  workingDirectory : l.workingDirectory.IsWritten
  processId : (Decimal.digitChars l.start.processId.natAbs).length ≤ Decimal.digitLimit
  fit : ∀ name, l.made.store.seen (l.base ++ [name]) ≠ none → l.IsFit name
  noLink : ∀ name target, l.made.store.seen (l.base ++ [name]) ≠ some (.link target)

/-- What recovery relies on: a legible marker, contents that are read back as they were written, and
a directory in which nothing belongs to another session with the same entry file. -/
structure Recoverable : Prop extends l.Legible where
  recognised : ∀ content, l.may content → IsRecognised content
  unowned : ((Instances.isOwned ⟨l.directory⟩ l.entry).exec l.made).1 = .ok false

/-- Hosts on which the process of the session is gone, and nothing was added to its directory but
what the session has left there. -/
structure Steady (h : Host) : Prop where
  located : l.Located h
  home : l.Home h.store
  fewer : ∀ q, l.base <+: q → q ≠ l.copyPlace → q ≠ l.markPlace →
    h.store.seen q = l.made.store.seen q ∨ h.store.seen q = none
  copy : h.store.IsLeaf l.copyPlace
  mark : h.store.IsLeaf l.markPlace
  dead : (l.marker.isLive.exec h).1 = .ok false

/-- The marker is gone and the entry file is as it was. -/
def Cleared (s : Store) : Prop := s.seen l.markPlace = none ∧ l.Untouched s

/-- The entry file is back and the copy is gone. -/
structure Returned (h : Host) : Prop where
  steady : l.Steady h
  untouched : l.Untouched h.store
  uncopied : h.store.seen l.copyPlace = none

variable {l} {h k : Host}

theorem Located.of_sameProcess (hl : l.Located h) (hk : SameProcess h k) : l.Located k :=
  hl.of_eq hk.workingDirectory

theorem Steady.withLogs (hs : l.Steady h) (logs : List LogEntry) : l.Steady (h.withLogs logs) := by
  have hsame : SameProcess h (h.withLogs logs) := ⟨rfl, rfl, rfl⟩
  refine ⟨hs.located.of_sameProcess hsame, hs.home, hs.fewer, hs.copy, hs.mark, ?_⟩
  rw [Marker.isLive_exec hsame]
  exact hs.dead

/-! ## The marker of the session -/

theorem marker_backup_of_file {content : List UInt8} {mode : Nat}
    (ho : l.original = some (.file content mode (.counted 0))) : l.marker.backup = some l.copy := by
  show l.backup.map (·.copy) = _
  rw [backup, ho]
  rfl

theorem marker_backup_of_none (ho : l.original = none) : l.marker.backup = none := by
  show l.backup.map (·.copy) = _
  rw [backup, ho]
  rfl

theorem marker_fileMode_of_none (ho : l.original = none) : l.marker.fileMode = .null := by
  rw [marker, backup, ho]

theorem marker_fileMode_of_file {content : List UInt8} {mode : Nat}
    (ho : l.original = some (.file content mode (.counted 0))) :
    l.marker.fileMode = .int (mode + 0o100000 : Nat) := by
  rw [marker, backup, ho]

theorem original_of_marker (ht : l.Tenable) (hb : l.marker.backup = none) : l.original = none := by
  rcases ht.original_cases with ho | ⟨content, mode, ho⟩
  · exact ho
  · rw [marker_backup_of_file ho] at hb
    cases hb

/-- With its copy the marker gives the mode of the entry file. -/
theorem marker_mode (ht : l.Tenable) (hb : l.marker.backup ≠ none) :
    ∃ n : Int, l.marker.fileMode = .int n ∧ 0 ≤ n ∧ n ≤ processIdLimit := by
  rcases ht.original_cases with ho | ⟨content, mode, ho⟩
  · exact absurd (marker_backup_of_none ho) hb
  · have hmode := ht.mode content mode ho
    refine ⟨_, marker_fileMode_of_file ho, by omega, ?_⟩
    rw [processIdLimit]
    omega

theorem length_digitChars_le {n : Nat} (h : n < 10 ^ 5) :
    (Decimal.digitChars n).length ≤ Decimal.digitLimit := by
  have hlength : (Decimal.digitChars n).length ≤ 5 :=
    (Nat.length_toDigits_le_iff (by decide) (by decide)).mpr h
  exact Nat.le_trans hlength (by decide)

/-- The marker is read from its file as it was written. -/
theorem marker_isWritten (ht : l.Tenable) (hr : l.Legible) : l.marker.IsWritten where
  entry := hr.entry
  workingDirectory := hr.workingDirectory
  backup := by
    intro p hp
    rcases ht.original_cases with ho | ⟨content, mode, ho⟩
    · rw [marker_backup_of_none ho] at hp
      cases hp
    · rw [marker_backup_of_file ho] at hp
      rw [← Option.some.inj hp]
      exact hr.directory.child (Backup.isPart_copyName _)
  language := trivial
  createdAt := trivial
  fileMode := by
    rcases ht.original_cases with ho | ⟨content, mode, ho⟩
    · rw [marker_fileMode_of_none ho]
      trivial
    · have hmode := ht.mode content mode ho
      rw [marker_fileMode_of_file ho]
      exact length_digitChars_le (by show ((mode + 0o100000 : Nat) : Int).natAbs < _; omega)
  processId := hr.processId

/-- Under its name the marker is found. -/
theorem finds_mark (ht : l.Tenable) (hr : l.Legible) (hd : l.Located h) (hh : l.Home h.store)
    (hm : l.HasMark h.store) : Finds h l.directory l.markName (some l.marker) :=
  have hlead := hh.mark_leads ht hd (Or.inr ⟨_, _, hm⟩)
  .marker (hlead.isFile_of_file hm) (Marker.isName_nameOf _) (hlead.bytes_of_file hm)
    (Marker.ofContent_toBytes (marker_isWritten ht hr))

/-- The copy is no marker. -/
theorem finds_copy (ht : l.Tenable) (hd : l.Located h) (hh : l.Home h.store)
    (hc : h.store.IsLeaf l.copyPlace) : Finds h l.directory l.copyName none :=
  .nothing (hh.copy_leads ht hd hc).isFile_eq fun _ => Marker.isName_copyName _

/-! ## Bringing the entry file back -/

theorem marker_paths : l.marker.paths = l.marker.file :: l.entry :: l.marker.backup.toList := rfl

theorem marker_backup (ht : l.Tenable) {p : Path} (hb : l.marker.backup = some p) :
    p = l.copy ∧ ∃ content mode, l.original = some (.file content mode (.counted 0)) := by
  rcases ht.original_cases with ho | ⟨content, mode, ho⟩
  · rw [marker_backup_of_none ho] at hb
    cases hb
  · rw [marker_backup_of_file ho] at hb
    exact ⟨(Option.some.inj hb).symm, content, mode, ho⟩

/-- The marker is one that sessions leave. -/
theorem marker_isLeft (ht : l.Tenable) (hp : l.start.processId ≤ processIdLimit) :
    l.marker.IsLeft l.directory where
  file := ⟨_, rfl⟩
  processId := hp
  copy := fun _ hb => ⟨_, (marker_backup ht hb).1⟩
  mode := marker_mode ht

/-- The marker is where the session left it. -/
theorem marker_placed (ht : l.Tenable) (hs : l.Steady h) : l.marker.Placed h := by
  have hmark := hs.home.mark_leads ht hs.located hs.mark
  have hcopy := hs.home.copy_leads ht hs.located hs.copy
  have hentry := hs.home.entry_leads ht hs.located
  refine ⟨⟨_, hmark, hs.mark⟩, fun p hb => ?_, fun _ q hq => ?_, ?_, marker_mode ht⟩
  · exact ⟨_, (marker_backup ht hb).1 ▸ hcopy⟩
  · exact hq.unique hentry.targets ▸ hentry
  · rw [marker_paths]
    refine List.pairwise_cons.mpr ⟨fun p hp q hq ht' => ?_,
      List.pairwise_cons.mpr ⟨fun p hp q hq ht' => ?_, ?_⟩⟩
    · have hqm := hq.unique hmark.targets
      rcases List.mem_cons.mp hp with rfl | hp
      · exact ht.ne_place base_isPrefix_markPlace ((hqm.symm.trans (ht'.unique hentry.targets)).symm)
      · have hb : l.marker.backup = some p := by simpa using hp
        rw [(marker_backup ht hb).1] at ht'
        exact copyPlace_ne_markPlace ((ht'.unique hcopy.targets).symm.trans hqm)
    · have hb : l.marker.backup = some p := by simpa using hp
      rw [(marker_backup ht hb).1] at ht'
      exact ht.ne_place base_isPrefix_copyPlace
        ((hq.unique hentry.targets).symm.trans (ht'.unique hcopy.targets))
    · cases l.marker.backup <;> simp

/-- Its entry file can be brought back. -/
theorem marker_not_blocked (ht : l.Tenable) (hs : l.Steady h) : ¬ l.marker.Blocked h := by
  have hentry := hs.home.entry_leads ht hs.located
  rw [Marker.Blocked]
  split
  · exact fun hb => hb.2 ⟨_, hentry.targets, hs.home.leaf⟩
  · rintro ⟨e, he⟩
    rw [show l.marker.entry = l.entry from rfl, hentry.exists_eq] at he
    cases he

theorem marker_owns (ht : l.Tenable) (hs : l.Steady h) {q : Place} (hq : l.marker.Owns h q) :
    q = l.markPlace ∨ q = l.place ∨ q = l.copyPlace ∧ l.original ≠ none := by
  obtain ⟨p, hp, hq⟩ := hq
  rw [marker_paths] at hp
  rcases List.mem_cons.mp hp with rfl | hp
  · exact Or.inl (hq.unique (hs.home.mark_leads ht hs.located hs.mark).targets)
  · rcases List.mem_cons.mp hp with rfl | hp
    · exact Or.inr (Or.inl (hq.unique (hs.home.entry_leads ht hs.located).targets))
    · have hb : l.marker.backup = some p := by simpa using hp
      obtain ⟨rfl, content, mode, ho⟩ := marker_backup ht hb
      refine Or.inr (Or.inr ⟨hq.unique (hs.home.copy_leads ht hs.located hs.copy).targets, ?_⟩)
      rw [ho]
      exact Option.some_ne_none _

/-- A host stays steady when what belongs to the session changes. -/
theorem Steady.of_differs (ht : l.Tenable) (hs : l.Steady h)
    (hd : Host.DiffersOn (l.marker.Owns h) h k) (hp : SameProcess h k) : l.Steady k where
  located := hs.located.of_sameProcess hp
  home := hs.home.of_sameWays hd.ways
  fewer := by
    intro q hq hc hm
    rw [hd.others q]
    · exact hs.fewer q hq hc hm
    · intro hown
      rcases marker_owns ht hs hown with rfl | rfl | ⟨rfl, -⟩
      · exact hm rfl
      · exact ht.ne_place hq rfl
      · exact hc rfl
  copy := hd.ways.isLeaf hs.copy
  mark := hd.ways.isLeaf hs.mark
  dead := by
    rw [Marker.isLive_exec hp]
    exact hs.dead

/-- An entry file that is settled after its session has left it is as it was before. -/
theorem untouched_of_settled (ht : l.Tenable) (hr : l.Recoverable) (hs : l.Steady h) (hk : l.Steady k)
    (hleft : l.Kept h.store) (hm : l.marker.Settled h k) :
    l.Untouched k.store ∧ (l.original ≠ none → k.store.seen l.copyPlace = none) := by
  have hfound : ∀ {g : Host}, l.Steady g → g.found l.marker.entry = g.store.seen l.place :=
    fun hg => (hg.home.entry_leads ht hg.located).found
  have hcopied : ∀ {g : Host}, l.Steady g → g.found l.copy = g.store.seen l.copyPlace :=
    fun hg => (hg.home.copy_leads ht hg.located hg.copy).found
  cases hm with
  | @restored copy content kept mode backup there given back gone =>
    obtain ⟨rfl, content', mode', ho⟩ := marker_backup ht backup
    rw [hcopied hs] at there
    rw [hcopied hk] at gone
    rw [hfound hk] at back
    refine ⟨?_, fun _ => gone⟩
    rcases hleft with ⟨content'', mode'', kept', ho', hcopy⟩ | ⟨hnone, -⟩
    · rw [there] at hcopy
      rw [marker_fileMode_of_file ho'] at given
      cases hcopy
      cases given
      rw [Untouched, back, ho', permissions_fullMode (ht.mode _ _ ho')]
    · rw [there] at hnone
      cases hnone
  | @lost copy backup missing same still =>
    obtain ⟨rfl, content', mode', ho⟩ := marker_backup ht backup
    rw [hcopied hk, hcopied hs] at still
    rw [hfound hk, hfound hs] at same
    rcases hleft with ⟨content, mode, kept, -, hcopy⟩ | ⟨hnone, hu | ⟨hn, -⟩⟩
    · exact absurd ((hcopied hs).trans hcopy) (missing content kept)
    · exact ⟨same.trans hu, fun _ => still.trans hnone⟩
    · rw [hn] at ho
      cases ho
  | removed backup there recognised gone =>
    have ho := original_of_marker ht backup
    rw [hfound hk] at gone
    exact ⟨gone.trans ho.symm, fun hn => absurd ho hn⟩
  | kept backup other same =>
    have ho := original_of_marker ht backup
    rw [hfound hk, hfound hs] at same
    refine ⟨?_, fun hn => absurd ho hn⟩
    rcases hleft with ⟨content, mode, kept, ho', -⟩ | ⟨-, hu | ⟨-, hn | ⟨content, mode, hf, hmay⟩⟩⟩
    · rw [ho] at ho'
      cases ho'
    · exact same.trans hu
    · exact same.trans (hn.trans ho.symm)
    · exact absurd (hr.recognised content hmay) (other content mode ((hfound hs).trans hf))

/-- Recovering the marker of the session brings its entry file back. -/
theorem recoverAmong_own (ht : l.Tenable) (hr : l.Recoverable) (hs : l.Steady h)
    (hk : l.Kept h.store) :
    ∃ k, (recoverAmong [l.marker]).exec h = (.ok [l.marker], k) ∧ l.Returned k ∧
      l.Cleared k.store := by
  obtain ⟨k, hexec, hd, hunmarked, hsettled⟩ :=
    recoverAmong_settles (marker_placed ht hs) hs.dead (marker_not_blocked ht hs)
  have hp := sameProcess_recoverAmong [l.marker] h
  rw [hexec] at hp
  have hsteady := hs.of_differs ht hd hp
  obtain ⟨huntouched, huncopied⟩ := untouched_of_settled ht hr hs hsteady hk hsettled
  rw [(hsteady.home.mark_leads ht hsteady.located hsteady.mark).found] at hunmarked
  refine ⟨k, hexec, ⟨hsteady, huntouched, ?_⟩, hunmarked, huntouched⟩
  by_cases ho : l.original = none
  · -- Without an entry file there was no copy, and none was made.
    rcases hk with ⟨content, mode, kept, ho', -⟩ | ⟨hnone, -⟩
    · rw [ho] at ho'
      cases ho'
    · rw [hd.others, hnone]
      intro hown
      rcases marker_owns ht hs hown with heq | heq | ⟨-, hne⟩
      · exact copyPlace_ne_markPlace heq
      · exact ht.ne_place base_isPrefix_copyPlace heq.symm
      · exact hne ho
  · exact huncopied ho

end Lease
end Vitrine
