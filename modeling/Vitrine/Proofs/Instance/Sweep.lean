import Vitrine.Proofs.Instance.Damage
import Vitrine.Proofs.Instance.Round

/-!
# Recovering all sessions of a directory

A recovery that succeeds answers exactly the markers whose session is gone, all of them are settled,
nothing that belongs to other sessions changes, and a second recovery finds nothing to do
(`recover_settles`). The first marker that is blocked ends it: those in front of it are settled, and
those behind it are left as they are (`recover_reaches`).
-/
namespace Vitrine

open Work Host

namespace Instances

variable {i : Instances} {base : Place} {h k : Host} {m : Marker} {ms before after : List Marker}
  {names : List String} {name : String}

/-! ## The listing in front -/

theorem Finds.file (hf : Finds h i.directory name (some m)) :
    m.file = i.directory.child name ∧ h.isNode Node.isFile m.file = .ok true := by
  cases hf with
  | marker file named bytes read =>
    obtain ⟨j, -, -, hkept⟩ := Marker.ofContent_eq_ok.mp read
    exact ⟨hkept, hkept ▸ file⟩

theorem Shows.increasing (hs : i.Shows h names) (hk : h.store.IsKeyed) : names.Pairwise (· < ·) := by
  cases hs with
  | absent missing => exact .nil
  | directory there listed =>
    rw [Host.names] at listed
    split at listed
    · cases listed
      exact hk.names_increasing _
    · cases listed
    · cases listed

/-- The markers are listed in the order of the names. -/
theorem sublist_of_meets {sights : List Sighting}
    (hall : List.Forall₂ (Meets h i.directory) names sights) :
    ((sights.filterMap Sighting.marker?).map fun m => m.file.name).Sublist names := by
  induction hall with
  | nil => exact .slnil
  | @cons name s names sights hs _ ih =>
    cases hs with
    | nothing file other => exact ih.cons name
    | unreadable file named bytes undescribed unobstructed why => exact ih.cons name
    | @marker content j m file named bytes spells describes kept =>
      have hname : m.file.name = name := by simp [kept, Path.name, Path.child]
      show (m.file.name :: (sights.filterMap Sighting.marker?).map fun m => m.file.name).Sublist _
      rw [hname]
      exact ih.cons_cons name

/-- The files of the markers stand in their order. -/
theorem increasing_of_markers (hk : h.store.IsKeyed) (hms : (i.markers.exec h).1 = .ok ms) :
    ms.Pairwise fun m m' => m.file.name < m'.file.name := by
  obtain ⟨r, warnings, hl⟩ := i.lists_exists h
  rw [hl.exec] at hms
  obtain rfl : r = .ok ms := hms
  cases hl with
  | complete shows_ meets =>
    exact List.pairwise_map.mp ((shows_.increasing hk).sublist (sublist_of_meets meets))

/-- What a listing has found under the names of the directory. -/
theorem finds_of_markers (ho : h.Opens i.directory base) (hms : (i.markers.exec h).1 = .ok ms) :
    (∀ name ∈ h.store.names base, ∃ o, Finds h i.directory name o) ∧
      ∀ m, m ∈ ms ↔ ∃ name ∈ h.store.names base, Finds h i.directory name (some m) := by
  rw [markers_of_directory ho.isNode ho.names] at hms
  have hfinds := finds_of_markersAmong hms
  obtain ⟨ms', logs, hexec, hmem⟩ := markersAmong_exec hfinds
  rw [hexec] at hms
  obtain rfl := Except.ok.inj hms
  exact ⟨hfinds, hmem⟩

/-- What is found under a name does not depend on other files. -/
theorem Finds.of_differs {P : Place → Prop} {o : Option Marker} (hd : DiffersOn P h k)
    (hp : DiffersOn.Spares P h (i.directory.child name)) (hf : Finds h i.directory name o) :
    Finds k i.directory name o := by
  have hfile : k.isNode Node.isFile (i.directory.child name) =
      h.isNode Node.isFile (i.directory.child name) := hd.isNode hp fun n => by cases n <;> rfl
  cases hf with
  | nothing file other => exact .nothing (hfile.trans file) other
  | skipped file named bytes unread =>
    exact .skipped (hfile.trans file) named (hd.bytes hp bytes) unread
  | marker file named bytes read => exact .marker (hfile.trans file) named (hd.bytes hp bytes) read

/-! ## Once more -/

/-- A recovery passes over markers that are live. -/
theorem recoverAmong_allLive (hall : ∀ m ∈ ms, m.processId ≤ processIdLimit ∧ m.livesOn h = true) :
    (recoverAmong ms).exec h = (.ok [], h) := by
  induction ms with
  | nil => rfl
  | cons m ms ih =>
    obtain ⟨hlimit, hlive⟩ := hall m List.mem_cons_self
    rw [recoverAmong_live hlimit hlive]
    exact ih fun m' hm' => hall m' (List.mem_cons_of_mem _ hm')

/-- A marker that was found is there. -/
theorem Finds.found_ne_none (hf : Finds h i.directory name (some m)) : h.found m.file ≠ none := by
  obtain ⟨q, n, hnode, -⟩ := isNode_eq_true hf.file.2
  rw [Host.found, hnode]
  exact Option.some_ne_none _

section Again

variable (hs : i.Stands base ms h) (hms : (i.markers.exec h).1 = .ok ms) (hk : Settles ms h k)
include hs hms hk

/-- Behind a recovery only live markers are found. -/
theorem Settles.finds (hn : k.store.seen (base ++ [name]) ≠ none) :
    ∃ o, Finds k i.directory name o ∧ ∀ m, o = some m → m ∈ ms ∧ m.livesOn h = true := by
  obtain ⟨hfinds, hmem⟩ := finds_of_markers hs.opens hms
  by_cases hq : ∃ m ∈ ms, m.livesOn h = false ∧ m.Owns h (base ++ [name])
  · obtain ⟨m, hm, hgone, howns⟩ := hq
    obtain ⟨_, -, hfound⟩ := (hmem m).mp hm
    rcases hs.owns hm howns with ⟨-, hout⟩ | ⟨name', heq, hname⟩
    · exact absurd (List.prefix_append _ _) hout
    · obtain rfl := List.singleton_inj.mp (List.append_cancel_left heq)
      have hplaced := hs.placed hm hfound.file.2
      rcases hname with ⟨hfile, -⟩ | ⟨hcopy, hnot⟩
      · -- Its file is gone.
        obtain ⟨q, hl, -⟩ := hplaced.file
        have hunmarked := (hk.recovered m hm hgone).unmarked
        obtain ⟨n, hn'⟩ := (hs.left m hm).file
        have hup : name ≠ ".." := by
          rintro rfl
          rw [hfile] at hn'
          simp only [Path.child, Path.mk.injEq, List.append_cancel_left_eq, List.cons.injEq] at hn'
          exact (Marker.isProper_nameOf n).up hn'.2.1.symm
        have ht : h.Targets (i.directory.child name) q := hfile ▸ hl.targets
        rw [(hk.differs.leads hl).found, hs.opens.targets_child hup (hs.noLink _) ht] at hunmarked
        exact absurd hunmarked hn
      · -- Its copy is no marker.
        obtain ⟨q, hl⟩ := hplaced.copy _ hcopy
        refine ⟨none, .nothing (hk.differs.leads hl).isFile_eq fun _ => hnot, fun m' hm' => ?_⟩
        cases hm'
  · have hspares : DiffersOn.Spares (Disposed ms h) h (i.directory.child name) := by
      rintro q ht ⟨hdisposed, hleaf⟩
      by_cases hup : name = ".."
      · subst hup
        exact hleaf.not_isDirectory (hs.opens.targets_up ht)
      · obtain rfl := hs.opens.targets_child hup (hs.noLink _) ht
        exact hq hdisposed
    have hthere : h.store.seen (base ++ [name]) ≠ none := by
      rw [← hk.differs.others _ hq]
      exact hn
    obtain ⟨o, ho⟩ := hfinds name (Store.mem_names.mpr hthere)
    have hok := ho.of_differs hk.differs hspares
    refine ⟨o, hok, ?_⟩
    rintro m rfl
    have hm : m ∈ ms := (hmem m).mpr ⟨name, Store.mem_names.mpr hthere, ho⟩
    refine ⟨hm, ?_⟩
    by_contra hdead
    exact hok.found_ne_none (hk.recovered m hm (Bool.eq_false_iff.mpr hdead)).unmarked

/-- Another recovery finds nothing to do. -/
theorem Settles.recover_again : ∃ logs, i.recover.exec k = (.ok [], k.withLogs logs) := by
  have hopens := hk.differs.opens hs.opens
  obtain ⟨ms', logs, hexec, hmem⟩ := markersAmong_exec fun name hname =>
    (hk.finds hs hms (Store.mem_names.mp hname)).imp fun _ ho => ho.1
  refine ⟨logs, ?_⟩
  rw [recover, exec_bind_ok ((markers_of_directory hopens.isNode hopens.names).trans hexec)]
  refine recoverAmong_allLive fun m hm => ?_
  obtain ⟨name, hname, hfound⟩ := (hmem m).mp hm
  obtain ⟨o, ho, hall⟩ := hk.finds hs hms (Store.mem_names.mp hname)
  obtain ⟨hm', hlive⟩ := hall m (ho.unique hfound)
  refine ⟨(hs.left m hm').processId, ?_⟩
  show m.livesOn k = true
  rw [Marker.livesOn_eq hk.process, hlive]

end Again

/-! ## The whole recovery -/

/-- Markers are listed in a directory, or there are none. -/
theorem opens_of_markers (hms : (i.markers.exec h).1 = .ok ms) :
    (∃ base, h.Opens i.directory base) ∨
      h.isNode Node.isDirectory i.directory = .ok false ∧ ms = [] := by
  cases hd : h.isNode Node.isDirectory i.directory with
  | error e =>
    have hlook : (Work.isDirectory i.directory).exec h = (.error e, h) := by
      rw [Work.isDirectory, exec_look, hd]
    rw [markers, exec_bind_error hlook] at hms
    cases hms
  | ok there =>
    cases there with
    | true => exact Or.inl (opens_of_isNode hd)
    | false =>
      rw [markers_of_absent hd] at hms
      exact Or.inr ⟨rfl, (Except.ok.inj hms).symm⟩

/-- A recovery goes through the markers that are listed. -/
theorem recover_exec (hms : (i.markers.exec h).1 = .ok ms) :
    ∃ logs, i.recover.exec h = (recoverAmong ms).exec (h.withLogs logs) := by
  obtain ⟨logs, hl⟩ := markers_quiet i h
  exact ⟨logs, exec_bind_ok (Prod.ext hms hl)⟩

section Logs

variable {logs : List LogEntry}

/-- What is in the log makes no difference to markers. -/
theorem Open.withLogs (ho : Open ms (h.withLogs logs)) : Open ms h := by
  have hd : DiffersOn (fun _ => False) h (h.withLogs logs) := (DiffersOn.refl _ h).withLogs logs
  exact fun m hm hgone hb => ho m hm hgone ((Marker.blocked_iff hd fun _ _ hp => hp).mpr hb)

theorem Settles.withLogs (hs : Settles ms (h.withLogs logs) k) : Settles ms h k := by
  have hd : DiffersOn (fun _ => False) h (h.withLogs logs) := (DiffersOn.refl _ h).withLogs logs
  have hp : SameProcess h (h.withLogs logs) := ⟨rfl, rfl, rfl⟩
  refine ⟨Trans.trans hp hs.process, (hd.mono fun _ hp => hp.elim).trans (hs.differs.mono ?_), fun m hm hgone => ?_⟩
  · rintro q ⟨m, hm, hgone, hq⟩
    exact ⟨m, hm, hgone, (Marker.owns_iff hd).mp hq⟩
  · exact (hs.recovered m hm hgone).congr (fun _ _ => rfl) fun _ _ => rfl

theorem Reaches.withLogs {x : Result (List Marker) × Host} (hr : Reaches ms (h.withLogs logs) x) :
    Reaches ms h x := by
  have hd : DiffersOn (fun _ => False) h (h.withLogs logs) := (DiffersOn.refl _ h).withLogs logs
  cases hr with
  | all open_ settles => exact .all open_.withLogs settles.withLogs
  | halted split open_ gone blocked settles =>
    exact .halted split open_.withLogs gone ((Marker.blocked_iff hd fun _ _ hp => hp).mp blocked)
      settles.withLogs

end Logs

/-- How far a recovery gets. -/
theorem recover_decides (hk : h.store.IsKeyed) (hms : (i.markers.exec h).1 = .ok ms)
    (hs : ∀ base, h.Opens i.directory base → i.Stands base ms h) :
    Reaches ms h (i.recover.exec h) := by
  obtain ⟨logs, hexec⟩ := recover_exec hms
  rw [hexec]
  have hd : DiffersOn (fun _ => False) h (h.withLogs logs) := (DiffersOn.refl _ h).withLogs logs
  obtain ⟨base, ho⟩ | ⟨-, rfl⟩ := opens_of_markers hms
  · have hstands := hs base ho
    refine Reaches.withLogs (recoverAmong_reaches (fun m hm => (hstands.left m hm).processId)
      (fun m hm => Marker.Placed.of_differs hd ?_) ?_)
    · obtain ⟨_, -, hfound⟩ := ((finds_of_markers ho hms).2 m).mp hm
      exact hstands.placed hm hfound.file.2
    · exact (hstands.apart (increasing_of_markers hk hms)).of_differs hd
  · exact Reaches.withLogs (recoverAmong_reaches (fun _ hm => absurd hm List.not_mem_nil)
      (fun _ hm => absurd hm List.not_mem_nil) .nil)

/-- A recovery that succeeds answers exactly the markers whose session is gone, in the order of their
files, and leaves nothing of them. It changes nothing that belongs to other sessions, and at once after
it another one does nothing. -/
theorem recover_settles {r : List Marker} (hk : h.store.IsKeyed)
    (hms : (i.markers.exec h).1 = .ok ms)
    (hs : ∀ base, h.Opens i.directory base → i.Stands base ms h)
    (hr : i.recover.exec h = (.ok r, k)) :
    r = ms.filter (fun m => !m.livesOn h) ∧
      r.Pairwise (fun m m' => m.file.name < m'.file.name) ∧
      (∀ m ∈ r, m.Recovered h k) ∧
      (∀ m ∈ ms, m.livesOn h = true → ∀ p ∈ m.paths, k.found p = h.found p) ∧
      ∃ logs, i.recover.exec k = (.ok [], k.withLogs logs) := by
  have hincreasing := increasing_of_markers hk hms
  have hreaches := recover_decides hk hms hs
  rw [hr] at hreaches
  obtain ⟨hopen, hsettles⟩ : Open ms h ∧ Settles ms h k ∧ r = ms.filter fun m => !m.livesOn h := by
    cases hreaches with
    | all open_ settles => exact ⟨open_, settles, rfl⟩
  obtain ⟨hsettles, rfl⟩ := hsettles
  refine ⟨rfl, hincreasing.filter _, fun m hm => ?_, fun m hm hlive p hp => ?_, ?_⟩
  · obtain ⟨hm, hgone⟩ := List.mem_filter.mp hm
    exact hsettles.recovered m hm (by simpa using hgone)
  · obtain ⟨base, ho⟩ | ⟨-, rfl⟩ := opens_of_markers hms
    · refine Marker.found_eq hsettles.differs (fun q hq => ?_) hp
      rintro ⟨m', hm', hgone, hq'⟩
      have hne : m ≠ m' := by
        rintro rfl
        rw [hlive] at hgone
        cases hgone
      exact ((hs base ho).apart hincreasing).disjoint hm hm' hne q hq hq'
    · exact absurd hm List.not_mem_nil
  · obtain ⟨base, ho⟩ | ⟨habsent, rfl⟩ := opens_of_markers hms
    · exact hsettles.recover_again (hs base ho) hms
    · have hspares : DiffersOn.Spares (Disposed [] h) h i.directory := by
        rintro q - ⟨⟨m, hm, -⟩, -⟩
        exact absurd hm List.not_mem_nil
      rw [← hsettles.differs.isNode hspares fun n => by cases n <;> rfl] at habsent
      exact ⟨k.logs, exec_bind_ok (markers_of_absent habsent)⟩

/-- Whether a recovery gets to a marker whose copy is there and whose entry file can be written depends
on the markers in front of it alone: if none of them is blocked, the entry file has the content and the
mode of the original again and the marker is gone, whatever the markers behind it are like; if one is,
recovery fails and all that belongs to the marker stays as it is. -/
theorem recover_reaches {copy : Path} {content : List UInt8} {kept : Nat} {mode : Int} {q : Place}
    (hk : h.store.IsKeyed) (hms : (i.markers.exec h).1 = .ok (before ++ m :: after))
    (hs : ∀ base, h.Opens i.directory base → i.Stands base (before ++ m :: after) h)
    (hgone : m.livesOn h = false) (hcopy : m.backup = some copy)
    (hintact : h.found copy = some (.file content kept (.counted 0)))
    (hmode : m.fileMode = .int mode) (hentry : h.Targets m.entry q) (hleaf : h.store.IsLeaf q) :
    (Open before h →
      (i.recover.exec h).2.found m.entry =
        some (.file content (Node.permissions mode) (.counted 0)) ∧
      (i.recover.exec h).2.found m.file = none ∧ (i.recover.exec h).2.found copy = none) ∧
    (¬ Open before h →
      (∃ e, (i.recover.exec h).1 = .error e) ∧
      ∀ p ∈ m.paths, (i.recover.exec h).2.found p = h.found p) := by
  have hunblocked : ¬ m.Blocked h := by
    rw [Marker.Blocked, hcopy]
    exact fun hb => hb.2 ⟨q, hentry, hleaf⟩
  rcases (recover_decides hk hms hs).of_unblocked hunblocked with
    ⟨hopen, done, hm, hsettles⟩ | ⟨hstuck, hfails, done, hdone, hsettles⟩
  · refine ⟨fun _ => ?_, fun hno => absurd hopen hno⟩
    obtain ⟨hunmarked, hsettled⟩ := hsettles.recovered m hm hgone
    obtain ⟨hback, hdiscarded⟩ := hsettled.of_copy hcopy hintact hmode
    exact ⟨hback, hunmarked, hdiscarded⟩
  · refine ⟨fun ho => absurd ho hstuck, fun _ => ⟨hfails, fun p hp => ?_⟩⟩
    obtain ⟨base, ho⟩ | ⟨-, hnil⟩ := opens_of_markers hms
    · have hapart := (hs base ho).apart (increasing_of_markers hk hms)
      obtain ⟨-, -, hcross⟩ := List.pairwise_append.mp hapart
      exact hsettles.found (fun m' hm' => hcross m' (hdone hm') m List.mem_cons_self) hp
    · simp at hnil

/-! ### Two sessions -/

def sampleDirectory : Path := ⟨.absolute, ["t"]⟩

/-- The marker of a session with a number, for an entry file in some directory. -/
def sampleMarker (n : Nat) (place : String) (processId : Int) : Marker where
  entry := ⟨.absolute, [place, "x.jsx"]⟩
  workingDirectory := ⟨.absolute, [place]⟩
  language := .str "javascript"
  createdAt := .str "2024-01-01"
  file := sampleDirectory.child (Marker.nameOf n)
  processId
  fileMode := .int 0o100600
  backup := some (sampleDirectory.child (Backup.copyName n))

def sampleFirst : Marker := sampleMarker 1 "a" 7

def sampleSecond : Marker := sampleMarker 2 "b" 8

/-- Two markers with their copies, with or without the directory of the first entry file. -/
def sampleStore (there : Bool) (first second : List UInt8) : Store where
  nodes := (if there then [(["a"], .directory 0o755 (.counted 0))] else []) ++
    [(["b"], .directory 0o755 (.counted 0)), (["b", "x.jsx"], .file [71] 0o644 (.counted 0)),
    (["t"], .directory 0o755 (.counted 0)),
    (["t", Backup.copyName 1], .file [79] 0o600 (.counted 0)),
    (["t", Backup.copyName 2], .file [80] 0o600 (.counted 0)),
    (["t", Marker.nameOf 1], .file first 0o644 (.counted 0)),
    (["t", Marker.nameOf 2], .file second 0o644 (.counted 0))]
  clock := 1

def sampleHost (there : Bool) (running : List Int) : Host where
  store := sampleStore there (Text.toBytes (sampleFirst.toJson.write Json.spaced))
    (Text.toBytes (sampleSecond.toJson.write Json.spaced))
  history := []
  workingDirectory := ⟨.absolute, []⟩
  logs := []
  issued := 0
  processId := 9
  running
  now := ""

variable (there : Bool) (running : List Int)

theorem sampleMarker_isWritten (n : Nat) {place : String} (hplace : Path.IsPart place) {processId : Int}
    (hp : (Decimal.digitChars processId.natAbs).length ≤ Decimal.digitLimit) :
    (sampleMarker n place processId).IsWritten where
  entry := by
    intro name hn
    simp only [sampleMarker, List.mem_cons, List.not_mem_nil, or_false] at hn
    rcases hn with rfl | rfl
    · exact hplace
    · exact ⟨by decide, by decide, by decide⟩
  workingDirectory := by
    intro name hn
    simp only [sampleMarker, List.mem_cons, List.not_mem_nil, or_false] at hn
    exact hn ▸ hplace
  backup := by
    rintro p hp
    obtain rfl := Option.some.inj hp
    refine Path.IsWritten.child (fun name hn => ?_) (Backup.isPart_copyName n)
    simp only [sampleDirectory, List.mem_cons, List.not_mem_nil, or_false] at hn
    subst hn
    exact ⟨by decide, by decide, by decide⟩
  language := trivial
  createdAt := trivial
  fileMode := by
    show (Decimal.digitChars _).length ≤ _
    decide
  processId := hp

theorem sample_names (first second : List UInt8) : (sampleStore there first second).names ["t"] =
    [Backup.copyName 1, Backup.copyName 2, Marker.nameOf 1, Marker.nameOf 2] := by
  have hfound : ((sampleStore there first second).nodes.filterMap fun e =>
      Store.nameIn? ["t"] e.1) =
        [Backup.copyName 1, Backup.copyName 2, Marker.nameOf 1, Marker.nameOf 2] := by
    cases there <;> rfl
  rw [Store.names, hfound]
  exact List.mergeSort_of_pairwise (by decide +kernel)

theorem sample_noLink (q : Place) (target : String) :
    (sampleHost there running).store.seen q ≠ some (.link target) := by
  have hnodes : ∀ first second, (sampleStore there first second).nodes.all
      (fun e => e.2.isFile || e.2.isDirectory) = true := by
    intro first second
    cases there <;> rfl
  intro hl
  rw [Store.seen_eq_link, Store.get?] at hl
  split at hl
  · cases hl
  · obtain ⟨l₁, l₂, hl, -⟩ := List.lookup_eq_some_iff.mp hl
    have hmem : (q, Node.link target) ∈ (sampleHost there running).store.nodes := by
      rw [hl]
      exact List.mem_append_right _ List.mem_cons_self
    exact absurd (List.all_eq_true.mp (hnodes _ _) _ hmem) (by simp [Node.isFile, Node.isDirectory])

theorem sample_opens : (sampleHost there running).Opens sampleDirectory ["t"] := by
  have hreach : ∀ first second, (sampleStore there first second).reach true sampleDirectory =
      .ok (.there ["t"] (.directory 0o755 (.counted 0))) := by
    intro first second
    cases there <;> cbv
  refine ⟨by decide, .of_reach (x := .there ["t"] (.directory 0o755 (.counted 0))) (hreach _ _),
    0o755, ?_⟩
  cases there <;> rfl

theorem sample_leads {name : String} (hname : Path.IsProper name) :
    (sampleHost there running).Leads (sampleDirectory.child name) ["t", name] := by
  refine (sample_opens there running).leads_child ⟨hname.up, hname.short.trans (by decide),
    hname.sound, (Path.text_child_le _ name).trans ?_⟩ (sample_noLink there running _)
  have hshort := hname.short
  have habsolute : (sampleHost there running).absolute sampleDirectory = sampleDirectory := rfl
  have hdirectory : sampleDirectory.text.utf8ByteSize = 2 := by decide
  rw [habsolute, hdirectory, Store.pathLimit]
  omega

theorem sample_markers : ((⟨sampleDirectory⟩ : Instances).markers.exec (sampleHost there running)).1 =
    .ok [sampleFirst, sampleSecond] := by
  have hcopy : ∀ n kept, (sampleHost there running).store.seen ["t", Backup.copyName n] =
      some (.file kept 0o600 (.counted 0)) → ∀ names,
      (markersAmong sampleDirectory (Backup.copyName n :: names)).exec (sampleHost there running) =
        (markersAmong sampleDirectory names).exec (sampleHost there running) := fun n kept hs names =>
    markersAmong_cons_nothing ((sample_leads there running (Backup.isProper_copyName n)).isFile_of_file hs)
      fun _ => Marker.isName_copyName n
  have hmarker : ∀ (m : Marker) n, m.file = sampleDirectory.child (Marker.nameOf n) → m.IsWritten →
      (sampleHost there running).store.seen ["t", Marker.nameOf n] =
        some (.file (Text.toBytes (m.toJson.write Json.spaced)) 0o644 (.counted 0)) →
      ∀ names, (markersAmong sampleDirectory (Marker.nameOf n :: names)).exec
          (sampleHost there running) =
        (markersAmong sampleDirectory names >>= fun ms => pure (m :: ms) : Work _).exec
          (sampleHost there running) := by
    intro m n hfile hw hs names
    have hl := sample_leads there running (Marker.isProper_nameOf n)
    rw [markersAmong_cons_read (hl.isFile_of_file hs) (Marker.isName_nameOf n) (hl.bytes_of_file hs),
      ← hfile, Marker.ofContent_toBytes hw]
  have hfirst : sampleFirst.IsWritten :=
    sampleMarker_isWritten 1 ⟨by decide, by decide, by decide⟩ (by decide)
  have hsecond : sampleSecond.IsWritten :=
    sampleMarker_isWritten 2 ⟨by decide, by decide, by decide⟩ (by decide)
  have hlist : (⟨sampleDirectory⟩ : Instances).markers.exec (sampleHost there running) =
      (markersAmong sampleDirectory [Backup.copyName 1, Backup.copyName 2, Marker.nameOf 1,
        Marker.nameOf 2]).exec (sampleHost there running) :=
    markers_of_directory (sample_opens there running).isNode
      ((sample_opens there running).names.trans (congrArg _ (sample_names there _ _)))
  rw [hlist]
  rw [hcopy 1 [79] (by cases there <;> rfl), hcopy 2 [80] (by cases there <;> rfl),
    hmarker sampleFirst 1 rfl hfirst (by cases there <;> rfl), exec_bind,
    hmarker sampleSecond 2 rfl hsecond (by cases there <;> rfl)]
  rfl

theorem sample_isKeyed : (sampleHost there running).store.IsKeyed := by
  have hplaces : ∀ first second, (sampleStore there first second).nodes.map Prod.fst =
      (sampleStore there [] []).nodes.map Prod.fst := by
    intro first second
    cases there <;> rfl
  rw [Store.IsKeyed]
  show (List.map Prod.fst (sampleStore there _ _).nodes).Nodup
  rw [hplaces]
  cases there <;> decide +kernel

theorem sample_first_free :
    (sampleHost true running).Targets sampleFirst.entry ["a", "x.jsx"] := by
  have hreach : ∀ first second, (sampleStore true first second).reach true sampleFirst.entry =
      .ok (.free ["a", "x.jsx"]) := by
    intro first second
    cbv
  exact ⟨by decide, .of_reach (x := .free ["a", "x.jsx"]) (hreach _ _)⟩

theorem sample_first_missing (q : Place) : ¬ (sampleHost false running).Targets sampleFirst.entry q := by
  have hreach : ∀ first second, (sampleStore false first second).reach true sampleFirst.entry =
      .error .noEntry := by
    intro first second
    cbv
  intro ht
  exact absurd (ht.leads.reach.symm.trans (hreach _ _)) (by simp)

theorem sample_second_there :
    (sampleHost there running).Targets sampleSecond.entry ["b", "x.jsx"] := by
  have hreach : ∀ first second, (sampleStore there first second).reach true sampleSecond.entry =
      .ok (.there ["b", "x.jsx"] (.file [71] 0o644 (.counted 0))) := by
    intro first second
    cases there <;> cbv
  exact ⟨by decide, .of_reach (x := .there ["b", "x.jsx"] (.file [71] 0o644 (.counted 0))) (hreach _ _)⟩

theorem sample_first_place {q : Place} (ht : (sampleHost there running).Targets sampleFirst.entry q) :
    q = ["a", "x.jsx"] := by
  cases there with
  | true => exact ht.unique (sample_first_free running)
  | false => exact absurd ht (sample_first_missing running q)

theorem sampleMarker_isLeft (n : Nat) (place : String) {processId : Int}
    (hp : processId ≤ processIdLimit) :
    (sampleMarker n place processId).IsLeft sampleDirectory where
  file := ⟨n, rfl⟩
  processId := hp
  copy := fun p hb => ⟨n, (Option.some.inj hb).symm⟩
  mode := fun _ => ⟨0o100600, rfl, by decide, by decide⟩

theorem sample_stands : (⟨sampleDirectory⟩ : Instances).Stands ["t"] [sampleFirst, sampleSecond]
    (sampleHost there running) where
  opens := sample_opens there running
  noLink := fun name => sample_noLink there running (["t"] ++ [name])
  left := by
    simp only [List.forall_mem_cons, List.not_mem_nil, false_implies, implies_true, and_true]
    exact ⟨sampleMarker_isLeft 1 "a" (by decide), sampleMarker_isLeft 2 "b" (by decide)⟩
  plain := by
    simp only [List.forall_mem_cons, List.not_mem_nil, false_implies, implies_true, and_true]
    exact ⟨fun hb => absurd hb (Option.some_ne_none _), fun hb => absurd hb (Option.some_ne_none _)⟩
  outside := by
    simp only [List.forall_mem_cons, List.not_mem_nil, false_implies, implies_true, and_true]
    refine ⟨fun q ht => ?_, fun q ht => ?_⟩
    · rw [sample_first_place there running ht]
      decide
    · rw [ht.unique (sample_second_there there running)]
      decide
  entries := by
    refine List.pairwise_pair.mpr fun q ht ht' => ?_
    exact absurd ((sample_first_place there running ht).symm.trans
      (ht'.unique (sample_second_there there running))) (by decide)
  copies := by
    refine List.pairwise_pair.mpr fun p hb hb' => ?_
    exact absurd (hb.trans hb'.symm) (by decide)

theorem sample_stands_all (base : Place) (ho : (sampleHost there running).Opens sampleDirectory base) :
    (⟨sampleDirectory⟩ : Instances).Stands base [sampleFirst, sampleSecond]
      (sampleHost there running) :=
  ho.unique (sample_opens there running) ▸ sample_stands there running

theorem sample_found_copy (n : Nat) (kept : List UInt8)
    (hs : (sampleHost there running).store.seen ["t", Backup.copyName n] =
      some (.file kept 0o600 (.counted 0))) :
    (sampleHost there running).found (sampleDirectory.child (Backup.copyName n)) =
      some (.file kept 0o600 (.counted 0)) :=
  (sample_leads there running (Backup.isProper_copyName n)).found.trans hs

/-- The first session has crashed, and the second one is running. -/
theorem recover_settles_sample : ∃ k,
    (⟨sampleDirectory⟩ : Instances).recover.exec (sampleHost true [8]) = (.ok [sampleFirst], k) ∧
      k.found sampleFirst.file = none ∧ k.found sampleSecond.entry = some (.file [71] 0o644 (.counted 0)) ∧
      ∃ logs, (⟨sampleDirectory⟩ : Instances).recover.exec k = (.ok [], k.withLogs logs) := by
  have hopen : Open [sampleFirst, sampleSecond] (sampleHost true [8]) := by
    intro m hm hgone hb
    rcases List.mem_cons.mp hm with rfl | hm
    · exact hb.2 ⟨_, sample_first_free [8], Or.inl rfl⟩
    · obtain rfl := List.mem_singleton.mp hm
      exact absurd hgone (by decide)
  have hr := (recover_decides (sample_isKeyed true [8]) (sample_markers true [8])
    (sample_stands_all true [8])).eq_of_open hopen
  obtain ⟨-, -, hrecovered, hlive, hagain⟩ := recover_settles (sample_isKeyed true [8])
    (sample_markers true [8]) (sample_stands_all true [8]) hr
  refine ⟨_, hr, (hrecovered sampleFirst List.mem_cons_self).unmarked, ?_, hagain⟩
  rw [hlive sampleSecond (by simp) rfl _ sampleSecond.mem_paths_entry,
    (sample_second_there true [8]).found]
  rfl

/-- Both sessions have crashed. Without the directory of its entry file the first one is blocked, and
the second one is not recovered. -/
theorem recover_reaches_sample :
    (∃ e, ((⟨sampleDirectory⟩ : Instances).recover.exec (sampleHost false [])).1 = .error e) ∧
      ((⟨sampleDirectory⟩ : Instances).recover.exec (sampleHost false [])).2.found sampleSecond.entry =
        some (.file [71] 0o644 (.counted 0)) := by
  have hblocked : ¬ Open [sampleFirst] (sampleHost false []) := by
    refine fun ho => ho sampleFirst List.mem_cons_self rfl ⟨⟨[79], 0o600, ?_⟩, ?_⟩
    · exact sample_found_copy false [] 1 [79] rfl
    · rintro ⟨q, ht, -⟩
      exact sample_first_missing [] q ht
  have hentry := sample_second_there false []
  have hms : ((⟨sampleDirectory⟩ : Instances).markers.exec (sampleHost false [])).1 =
      .ok ([sampleFirst] ++ sampleSecond :: []) := sample_markers false []
  obtain ⟨-, hstuck⟩ := recover_reaches (sample_isKeyed false []) hms (sample_stands_all false [])
    rfl rfl (sample_found_copy false [] 2 [80] rfl) rfl hentry (Or.inr ⟨[71], 0o644, rfl⟩)
  obtain ⟨herror, hkept⟩ := hstuck hblocked
  refine ⟨herror, ?_⟩
  rw [hkept _ sampleSecond.mem_paths_entry, hentry.found]
  rfl

end Instances
end Vitrine
