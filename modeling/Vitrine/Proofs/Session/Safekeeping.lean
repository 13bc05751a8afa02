import Vitrine.Proofs.Session.Custody
import Vitrine.Proofs.Session.Regeneration
import Vitrine.Proofs.Session.Rehearsal

/-!
# Safekeeping

A session that cannot put its entry file back keeps the copy, says so, and ends as it would have ended
otherwise. Around it a dev server may do what it likes outside the directory of markers: remove the entry
file, remove the directory that it lies in, or put something else in its place (`run_safekeeps`). Only
one thing must not happen: generated code is written where the entry path leads, and that may have been
made the copy itself (`link_loses`).
-/
namespace Vitrine

/-- What is said about an entry file that was not put back. -/
def Backup.keptText (b : Backup) : String :=
  (BackupProblem.restore b.entry b.copy).message ++
    "; restore it by hand from the backup kept at " ++ b.copy.text

namespace Session

open Host

variable {σ : Type} {script : Script σ} {v : Vault} {x : Path × Preview.Language} {t u : Scene σ}

/-! ## Putting the entry file back in some way -/

/-- Puts the entry file back as `restore` does it. -/
def restoreEntryBy (restore : Backup → Work Unit) (entry : Path) : Act σ Bool := do
  let s ← Act.session
  match s.backup with
  | some backup =>
    match ← Act.outcome (Act.work (restore backup)) with
    | .ok () => return true
    | .error (.backup problem) =>
      Act.work (Work.warn (problem.message ++ "; restore it by hand from the backup kept at " ++
        backup.copy.text))
      return false
    | .error e => throw e
  | none => restoreEntry entry

/-- What is left to do once the dev server is ended. -/
def releaseBy (restore : Backup → Work Unit) (entry : Path) : Act σ Unit := do
  let restored ← restoreEntryBy restore entry
  let s ← Act.session
  match s.backup with
  | some backup => if restored then Act.work backup.discard
  | none => pure ()
  Act.work (Vault.clear s.marker)
  Act.enter .idle

/-- A session that puts its entry file back as `restore` does it. -/
def runBy (restore : Backup → Work Unit) (script : Script σ) : Act σ Unit := do
  let (entry, outcome) ← approach script
  releaseBy restore entry
  report outcome

theorem restoreEntryBy_restore (entry : Path) :
    (restoreEntryBy Backup.restore entry : Act σ Bool) = restoreEntry entry := by
  funext t
  show (restoreEntryBy Backup.restore entry).exec t = (restoreEntry entry).exec t
  rw [restoreEntryBy, Act.exec_bind_ok (Act.exec_session t)]
  cases hb : t.session.backup with
  | none => rfl
  | some b =>
    rewrite [restoreEntry, Act.exec_bind_ok (Act.exec_session t), hb]
    rfl

theorem releaseBy_restore (entry : Path) :
    (releaseBy Backup.restore entry : Act σ Unit) = release entry := by
  rw [releaseBy, restoreEntryBy_restore]
  refine bind_congr fun restored => bind_congr fun s => ?_
  cases s.marker <;> rfl

/-- A session puts its entry file back as its backup does it. -/
theorem runBy_restore (script : Script σ) : runBy Backup.restore script = run script := by
  rw [runBy, approach, run_eq]
  simp only [bind_assoc, releaseBy_restore]
  refine bind_congr fun s => bind_congr fun x => bind_congr fun _ => bind_congr fun owned => ?_
  cases owned
  · simp [replaceEntry, tearDown_eq, bind_assoc]
  · simp [bind_assoc]

/-! ## Putting the entry file back -/

section Releasing

variable {restore : Backup → Work Unit} {entry : Path} {b : Backup} {k l : Host}

theorem releaseBy_of_ok (hb : t.session.backup = some b)
    (hr : (restore b).exec t.host = (.ok (), k))
    (hl : (do b.discard; Vault.clear t.session.marker : Work Unit).exec k = (.ok (), l)) :
    (releaseBy restore entry).exec t =
      (.ok (), { t with host := l, session := { t.session with phase := .idle } }) := by
  obtain ⟨⟨⟩, k₁, hdiscard, hclear⟩ := Work.exec_bind_eq_ok hl
  have hrestored : (restoreEntryBy restore entry).exec t = (.ok true, { t with host := k }) := by
    rw [restoreEntryBy, Act.exec_bind_ok (Act.exec_session t), hb]
    dsimp only
    rw [Act.exec_bind_ok (Act.exec_outcome _ t), Act.exec_work_of hr]
    rfl
  rw [releaseBy, Act.exec_bind_ok hrestored, Act.exec_bind_ok (Act.exec_session _)]
  dsimp only
  rw [hb]
  show (Act.work b.discard >>= _ : Act σ Unit).exec _ = _
  rw [Act.exec_bind_ok (Act.exec_work_of hdiscard), Act.exec_bind_ok (Act.exec_work_of hclear), ← hb]
  rfl

theorem releaseBy_of_error {problem : BackupProblem} (hb : t.session.backup = some b)
    (hr : (restore b).exec t.host = (.error (.backup problem), k))
    (hl : (Vault.clear t.session.marker).exec (k.log .warning (problem.message ++
      "; restore it by hand from the backup kept at " ++ b.copy.text)) = (.ok (), l)) :
    (releaseBy restore entry).exec t =
      (.ok (), { t with host := l, session := { t.session with phase := .idle } }) := by
  have hrestored : (restoreEntryBy restore entry).exec t = (.ok false, { t with
      host := k.log .warning (problem.message ++ "; restore it by hand from the backup kept at " ++
        b.copy.text) }) := by
    rw [restoreEntryBy, Act.exec_bind_ok (Act.exec_session t), hb]
    dsimp only
    rw [Act.exec_bind_ok (Act.exec_outcome _ t), Act.exec_work_of hr]
    rfl
  rw [releaseBy, Act.exec_bind_ok hrestored, Act.exec_bind_ok (Act.exec_session _)]
  dsimp only
  rw [hb]
  show (Act.work (Vault.clear _) >>= _ : Act σ Unit).exec _ = _
  rw [Act.exec_bind_ok (Act.exec_work_of hl), ← hb]
  rfl

end Releasing

/-- What is reported does not depend on files. -/
theorem report_congr (outcome : Result Int) (h : u.session = t.session) :
    ((report outcome).exec u).1 = ((report outcome).exec t).1 := by
  cases outcome with
  | error e => rfl
  | ok code =>
    rw [report, Act.exec_bind_ok (Act.exec_session u), Act.exec_bind_ok (Act.exec_session t), h]
    cases t.session.signal with
    | some signal => rfl
    | none =>
      dsimp only
      split <;> rfl

/-! ## The end -/

/-- The scene in which a session is about to put its entry file back. -/
def atRestoration (script : Script σ) (t : Scene σ) : Scene σ := ((approach script).exec t).2

/-- The scene in which a session ends. -/
def atEnd (script : Script σ) (t : Scene σ) : Scene σ := ((run script).exec t).2

/-- A session that gets as far as its entry file puts it back and reports how the dev server ended. -/
theorem runBy_of_approach {a : Path × Result Int} {w : Scene σ}
    (ha : (approach script).exec t = (.ok a, w)) (restore : Backup → Work Unit) :
    (runBy restore script).exec t = (do releaseBy restore a.1; report a.2 : Act σ Unit).exec w :=
  Act.exec_bind_ok ha

theorem atEnd_of_approach {a : Path × Result Int} {w : Scene σ}
    (ha : (approach script).exec t = (.ok a, w)) : atEnd script t = ((release a.1).exec w).2 := by
  rw [atEnd, ← runBy_restore, runBy_of_approach ha, releaseBy_restore, Act.exec_bind]
  cases (release a.1).exec w with
  | mk r u => cases r with
    | error e => rfl
    | ok _ => exact report_exec a.2

/-- Once the entry file is about to be put back, the backup stays the same. -/
theorem atEnd_backup (script : Script σ) (t : Scene σ) :
    (atEnd script t).session.backup = (atRestoration script t).session.backup := by
  rcases ha : (approach script).exec t with ⟨e | a, w⟩
  · rw [atEnd, atRestoration, ← runBy_restore, runBy, Act.exec_bind_error ha, ha]
  · have hdetached : Detached fun u : Scene σ => u.session.backup = w.session.backup :=
      ⟨fun _ _ h => h, fun _ _ h => h⟩
    rw [atEnd_of_approach ha, atRestoration, ha]
    exact hdetached.keeps_release a.1 w rfl

/-- How a session with a backup ends. Its copy is left if and only if the entry file could not be put
back; then the copy has the content that the entry file had before the session, and a warning says where
it is. The marker is gone in any case, and the session ends as if the entry file had been put back. -/
structure Safekept (script : Script σ) (t : Scene σ) (b : Backup) : Prop where
  original : t.host.bytes b.entry = .ok b.content
  left_iff : (∃ found, (atEnd script t).host.node b.copy = .ok found) ↔
    ∃ e, (b.restore.exec (atRestoration script t).host).1 = .error e
  kept : ∀ e, (b.restore.exec (atRestoration script t).host).1 = .error e →
    (atEnd script t).host.bytes b.copy = .ok b.content ∧
      (atEnd script t).host.logs = (b.restore.exec (atRestoration script t).host).2.logs ++
        [⟨.warning, b.keptText⟩]
  unmarked : ∀ m, (atEnd script t).session.marker = some m →
    (atEnd script t).host.node m.file = .error (.system .noEntry)
  outcome : ∀ restore : Backup → Work Unit,
    ((restore b).exec (atRestoration script t).host).1 = .ok () →
    ((run script).exec t).1 = ((runBy restore script).exec t).1

/-- How a session ends while its copy lies in the vault: the copy is removed, or it is left as it is,
with a warning. -/
theorem release_exec {b : Backup} {content : List UInt8} (hb : t.session.backup = some b)
    (hentry : b.entry.isSound = true) (hcopy : b.copy = v.copy)
    (hv : v.Holds content t.session.marker t.host) (entry : Path) :
    ∃ l, (release entry).exec t =
        (.ok (), { t with host := l, session := { t.session with phase := .idle } }) ∧
      (∀ m, t.session.marker = some m → l.node m.file = .error (.system .noEntry)) ∧
      ((b.restore.exec t.host).1 = .ok () ∧ l.node b.copy = .error (.system .noEntry) ∨
        ∃ e, (b.restore.exec t.host).1 = .error e ∧ l.bytes b.copy = .ok content ∧
          l.logs = (b.restore.exec t.host).2.logs ++ [⟨.warning, b.keptText⟩]) := by
  have hsound : b.copy.isSound = true := by
    rw [hcopy]
    exact hv.copy.isSound
  rw [← releaseBy_restore]
  obtain ⟨k, hr, hd⟩ | ⟨logs, hr⟩ := b.restore_decides hentry hsound t.host
  · -- Wherever the entry path led, the two names lead where they led before.
    have hreaches := hv.copy.of_differs hd
    obtain ⟨k₁, hdiscard, hd₁, hgone⟩ := hreaches.discard_exec hcopy
    obtain ⟨l, hclear, hdl, -, hunmarked⟩ := Vault.clear_exec fun m hm =>
      ⟨(hv.marker m hm).1, ((hv.marker m hm).2.of_differs hd).of_differs hd₁⟩
    refine ⟨l, releaseBy_of_ok hb hr ?_, hunmarked, Or.inl ⟨by rw [hr], ?_⟩⟩
    · rw [Work.exec_bind_ok hdiscard]
      exact hclear
    · rw [hcopy]
      refine ((hreaches.of_differs hd₁).of_differs hdl).leads.node_of_none ?_
      exact (hdl.others _ Vault.copyPlace_ne_markPlace).trans hgone
  · have hlogged : v.Holds content t.session.marker
        ((t.host.withLogs logs).log .warning b.keptText) := hv.withLogs _
    obtain ⟨l, hclear, hdl, hlogs, hunmarked⟩ := Vault.clear_exec hlogged.marker
    refine ⟨l, releaseBy_of_error hb hr hclear, hunmarked, Or.inr ⟨_, by rw [hr], ?_, ?_⟩⟩
    · rw [hcopy]
      exact (hlogged.of_differs hdl Vault.copyPlace_ne_markPlace).bytes
    · rw [hlogs, hr]
      rfl

theorem Secure.isSound (h : Secure v x t) {b : Backup} (hb : t.session.backup = some b) :
    b.entry.isSound = true := by
  rw [(h.keeps b hb).same]
  obtain ⟨q, -, ht, -⟩ := targets_of_bytes (h.keeps b hb).original
  exact ht.sound

/-- However the entry file is put back, a session that is secure reports its end in the same way. -/
theorem Secure.report_eq (h : Secure v x t) {b : Backup} (hb : t.session.backup = some b)
    {restore : Backup → Work Unit} (hr : ((restore b).exec t.host).1 = .ok ()) (entry : Path)
    (outcome : Result Int) : ((do releaseBy restore entry; report outcome : Act σ Unit).exec t).1 =
      ((report outcome).exec { t with session := { t.session with phase := .idle } }).1 := by
  have hcopy : b.copy.isSound = true := by
    rw [(h.keeps b hb).copy]
    exact (h.holds b hb).copy.isSound
  have hfile : ∀ m, t.session.marker = some m → m.file.isSound = true := by
    intro m hm
    obtain ⟨hfile, hreaches⟩ := (h.holds b hb).marker m hm
    rw [hfile]
    exact hreaches.isSound
  obtain ⟨l, hl⟩ : ∃ l, (do b.discard; Vault.clear t.session.marker : Work Unit).exec
      ((restore b).exec t.host).2 = (.ok (), l) := by
    have hnever : Work.Fails (fun _ => False) (do b.discard; Vault.clear t.session.marker) :=
      (b.discard_fails hcopy).bind fun _ => Vault.clear_fails hfile
    rcases hx : (do b.discard; Vault.clear t.session.marker : Work Unit).exec
      ((restore b).exec t.host).2 with ⟨e | ⟨⟩, l⟩
    · exact absurd (congrArg Prod.fst hx) (hnever _ e)
    · exact ⟨l, rfl⟩
  rw [Act.exec_bind_ok (releaseBy_of_ok hb (Prod.ext hr rfl) hl)]
  exact report_congr outcome rfl

/-- If a dev server does nothing in the directory of markers, and generated code is not written where the
copy is, no content is lost: a session that captured its entry file keeps the copy exactly if the entry
file cannot be put back. -/
theorem run_safekeeps (hv : Enters v t) (hs : Considerate v (IsApart v) script) {b : Backup}
    (hb : (atEnd script t).session.backup = some b) : Safekept script t b := by
  rw [atEnd_backup] at hb
  obtain ⟨e, u, happroach, hnone⟩ | ⟨x, outcome, w, happroach, hsecure⟩ := approach_ends hs hv
  · rw [atRestoration, happroach, hnone] at hb
    cases hb
  have hw : atRestoration script t = w := by
    rw [atRestoration, happroach]
  rw [hw] at hb
  have hkeeps := hsecure.keeps b hb
  obtain ⟨l, hrelease, hunmarked, hleft⟩ :=
    release_exec hb (hsecure.isSound hb) hkeeps.copy (hsecure.holds b hb) x.1
  have hend : atEnd script t =
      { w with host := l, session := { w.session with phase := .idle } } := by
    rw [atEnd_of_approach happroach, hrelease]
  refine ⟨?_, ?_, ?_, ?_, ?_⟩
  · rw [hv.host, hkeeps.same]
    exact hkeeps.original
  · rw [hw, hend]
    obtain ⟨hr, hgone⟩ | ⟨e, hr, hbytes, -⟩ := hleft
    · rw [hr]
      refine ⟨fun ⟨found, hfound⟩ => ?_, fun ⟨e, he⟩ => nomatch he⟩
      cases hgone.symm.trans hfound
    · refine ⟨fun _ => ⟨e, hr⟩, fun _ => ?_⟩
      obtain ⟨q, mode, ht, hfile⟩ := targets_of_bytes hbytes
      obtain ⟨changed, hn⟩ := ht.node_of_file hfile
      exact ⟨_, hn⟩
  · rw [hw, hend]
    intro e he
    obtain ⟨hr, -⟩ | ⟨-, -, hkept⟩ := hleft
    · rw [hr] at he
      cases he
    · exact hkept
  · rw [hend]
    exact hunmarked
  · rw [hw]
    intro restore hr
    rw [runBy_of_approach happroach, hsecure.report_eq hb hr, ← runBy_restore,
      runBy_of_approach happroach, releaseBy_restore, Act.exec_bind_ok hrelease]
    exact report_congr outcome rfl

section Sample

variable {allowed : Scene (List Change) → Prop} {f : Scene (List Change) → Scene (List Change)}
  {h : Host} {node : Option Node} {kept : List UInt8}

/-! ## The sample -/

/-- The directory of markers of the sample. -/
def sampleVault : Vault := ⟨sampleHost, sampleSettings.temporary, sampleLease.base⟩

/-- A dev server that ends with its first wait, during which something happens. -/
def briefly (f : Scene (List Change) → Scene (List Change)) : Script (List Change) :=
  { sampleScript with exitCode := 0, timeouts := 0, duringWait := fun n => if n = 0 then f else id }

/-- The scene of the sample with a dev server that ends at once. -/
def briefScene : Scene (List Change) := { sampleScene with server := .fresh 0 }

theorem brief_enters : Enters sampleVault briefScene where
  session := ⟨rfl, rfl, rfl, rfl, rfl⟩
  host := rfl
  directory := rfl
  ready := {
    opens := ⟨sample_tenable.sound, sample_tenable.directory, sample_tenable.isDirectory⟩
    copyFree := sample_tenable.copyPlace_free
    markFree := by
      have hfree := sample_tenable.markPlace_free
      rw [Lease.markPlace, Lease.markName, Lease.count, sample_original] at hfree
      exact hfree }

theorem considerate_briefly (hf : ∀ x t, Secure sampleVault x t →
    Around sampleVault allowed (briefly f) t (f t)) :
    Considerate sampleVault allowed (briefly f) where
  duringStart _ t _ := .refl t
  duringWait n x t h := by
    show Around _ _ _ t ((if n = 0 then f else id) t)
    split
    · exact hf x t h
    · exact .refl t
  onTermination _ t _ := .refl t
  duringRestoration _ t _ := .refl t

/-- The directory of the sample is spared by changes in the directory of the entry file. -/
theorem sample_spares_source {h : Host} {c : Change} (hc : ["w", "src"] <+: c.place) :
    sampleVault.Spares h (h.change c) := by
  obtain ⟨rest, hrest⟩ := hc
  refine Vault.spares_of_apart rfl (by decide) ?_ ?_ <;> rw [← hrest]
  · rintro ⟨_, h⟩
    exact absurd (List.cons.inj (List.cons.inj h).2).1 (by decide)
  · rintro ⟨_, h⟩
    exact absurd (List.cons.inj (List.cons.inj h).2).1 (by decide)

/-- A scene after some changes. -/
def altered (cs : List Change) (t : Scene (List Change)) : Scene (List Change) :=
  { t with host := cs.foldl Host.change t.host }

/-- Whatever happens in the directory of the entry file. -/
theorem around_altered {cs : List Change} (hcs : ∀ c ∈ cs, ["w", "src"] <+: c.place)
    {script : Script (List Change)} (t : Scene (List Change)) :
    Around sampleVault allowed script t (altered cs t) :=
  .others t _ t.outside (Vault.spares_foldl (fun c hc _ => sample_spares_source (hcs c hc)) t.host)

/-! ### Its files -/

def sampleBackup : Backup :=
  ⟨sampleLease.entry, [79, 76, 68], 0o100600, sampleSettings.workingDirectory, sampleVault.copy,
    sampleHost.now⟩

theorem backup_sampleLease : sampleLease.backup = some sampleBackup := by
  rw [Lease.backup, sample_original]
  rfl

theorem markName_sampleLease : sampleLease.markName = sampleVault.markName := by
  rw [Lease.markName, Lease.count, sample_original]
  rfl

/-- Places in which nothing changes but the names in a directory. -/
def sampleFixed : List Place := [["w"], ["w", "src"], ["w", "App.js"], ["w", "p.yml"], ["w", "state"]]

/-- A host of the sample while its session goes on: the node in the place of the entry file, and what
its copy has. -/
structure Stands (node : Option Node) (kept : List UInt8) (h : Host) : Prop where
  workingDirectory : h.workingDirectory = sampleHost.workingDirectory
  fixed : ∀ q ∈ sampleFixed, h.store.seen q = sampleStore.seen q
  base : h.store.IsDirectory sampleVault.base
  entry : h.store.seen sampleLease.place = node
  kept : ∃ mode, h.store.seen sampleVault.copyPlace = some (.file kept mode (.counted 0))
  mark : h.store.IsLeaf sampleVault.markPlace

/-- What a session puts aside leaves all else as it was. -/
theorem stands_of_ready {k : Host} (hk : Ready sampleLease k) :
    Stands (some (.file [79, 76, 68] 0o600 (.counted 0))) sampleBackup.content k where
  workingDirectory := hk.tracks.workingDirectory
  fixed := by
    intro q hq
    have hne : ¬ sampleLease.Owns q := by
      intro ho
      have hapart : ∀ q ∈ sampleFixed, q ≠ sampleLease.place ∧ ¬ sampleLease.base <+: q := by decide
      exact (hapart q hq).2 (ho.base (hapart q hq).1)
    rw [hk.confined.others q hne, sample_made]
  base := hk.occupied.home.isDirectory
  entry := hk.untouched.trans sample_original
  kept := by
    obtain ⟨content, mode, kept, horiginal, hcopy⟩ | ⟨hnone, -⟩ := hk.occupied.copy
    · rw [sample_original] at horiginal
      cases horiginal
      exact ⟨kept, hcopy⟩
    · rw [sample_original] at hnone
      cases hnone
  mark := by
    have hmark := hk.occupied.mark
    rw [Lease.HasMark, Lease.markPlace, markName_sampleLease] at hmark
    exact Or.inr ⟨_, _, hmark⟩

namespace Stands

theorem isWay_top (hs : Stands node kept h) : h.store.IsWay ["w"] :=
  h.store.isWay_root.child ⟨_, hs.fixed ["w"] (by decide)⟩

theorem isWay_source (hs : Stands node kept h) : h.store.IsWay ["w", "src"] :=
  hs.isWay_top.child ⟨_, hs.fixed ["w", "src"] (by decide)⟩

theorem isWay_base (hs : Stands node kept h) : h.store.IsWay sampleVault.base := by
  have hstate : h.store.IsWay ["w", "state"] :=
    hs.isWay_top.child ⟨_, hs.fixed ["w", "state"] (by decide)⟩
  exact hstate.child hs.base

theorem reaches (hs : Stands node kept h) {name : String} (hname : Path.IsProper name)
    (hleaf : h.store.IsLeaf (sampleVault.base ++ [name])) : sampleVault.Reaches name h where
  opens := by
    obtain ⟨mode, hd⟩ := hs.base
    obtain ⟨hleads, -⟩ := leads_of_seen (by decide) hs.isWay_base.dropLast hd (by simp)
    exact ⟨hleads.sound, hleads.leads true, hs.base⟩
  fit := by
    rw [Host.absolute, hs.workingDirectory]
    exact sample_tenable.isFit hname
  leaf := hleaf

theorem reaches_copy (hs : Stands node kept h) : sampleVault.Reaches sampleVault.copyName h := by
  obtain ⟨mode, hcopy⟩ := hs.kept
  exact hs.reaches (Backup.isProper_copyName _) (Or.inr ⟨kept, mode, hcopy⟩)

theorem holds (hs : Stands node kept h) : sampleVault.Holds kept (some sampleLease.marker) h where
  copy := hs.reaches_copy
  kept := hs.kept
  marker := by
    rintro m ⟨⟩
    refine ⟨?_, hs.reaches (Marker.isProper_nameOf _) hs.mark⟩
    exact congrArg sampleVault.directory.child markName_sampleLease

/-! What is changed in the place of the entry file. -/

theorem change {c : Change} (hs : Stands node kept h) (hc : c.place = sampleLease.place) :
    Stands ((c.apply h.store).seen sampleLease.place) kept (h.change c) := by
  have hothers : ∀ q, ¬ sampleLease.place <+: q → (c.apply h.store).seen q = h.store.seen q := by
    rw [← hc]
    exact fun q hq => (c.seen_apply_of_ne h.store fun heq => hq (heq ▸ List.prefix_rfl)).resolve_right
      fun hgone => hq hgone.1
  have hbelow : ∀ q, sampleVault.base <+: q → ¬ sampleLease.place <+: q := by
    intro q hq hplace
    have hapart : ¬ sampleLease.place <+: sampleVault.base ∧ ¬ sampleVault.base <+: sampleLease.place := by
      decide
    exact (List.prefix_or_prefix_of_prefix hplace hq).elim hapart.1 hapart.2
  have hfixed : ∀ q ∈ sampleFixed, ¬ sampleLease.place <+: q := by decide
  refine ⟨hs.workingDirectory, fun q hq => (hothers q (hfixed q hq)).trans (hs.fixed q hq), ?_, rfl, ?_,
    hs.mark.of_seen_eq (hothers _ (hbelow _ (List.prefix_append _ _))).symm⟩
  · obtain ⟨mode, hd⟩ := hs.base
    exact ⟨mode, (hothers _ (hbelow _ List.prefix_rfl)).trans hd⟩
  · obtain ⟨mode, hcopy⟩ := hs.kept
    exact ⟨mode, (hothers _ (hbelow _ (List.prefix_append _ _))).trans hcopy⟩

theorem write (hs : Stands node kept h) (content : List UInt8) (mode : Nat) :
    Stands (some (.file content mode (.counted 0))) kept
      (h.change (.write sampleLease.place content mode)) := by
  have hchanged := hs.change (c := .write sampleLease.place content mode) rfl
  rw [Change.seen_write _ _ _ _ (by decide), if_pos rfl] at hchanged
  exact hchanged

/-- A link takes the place of what is there. -/
theorem replace_link (hs : Stands node kept h) (target : String) :
    Stands (some (.link target)) kept
      ([.remove sampleLease.place, .link sampleLease.place target].foldl Host.change h) := by
  have hchanged := (hs.change (c := .remove sampleLease.place) rfl).change
    (c := .link sampleLease.place target) rfl
  rw [Change.seen_apply, Change.onNodes, Store.seen_put _ _ _ _ (by decide), if_pos rfl] at hchanged
  exact hchanged

/-- A directory takes the place of what is there. -/
theorem replace_directory (hs : Stands node kept h) :
    Stands (some (.directory Node.directoryMode (.counted 0))) kept
      ([.remove sampleLease.place, .makeDirectory sampleLease.place].foldl Host.change h) := by
  have hchanged := (hs.change (c := .remove sampleLease.place) rfl).change
    (c := .makeDirectory sampleLease.place) rfl
  rw [Change.seen_makeDirectory _ _ (by decide), if_pos rfl] at hchanged
  exact hchanged

/-- The copy is written over. -/
theorem overwrite (hs : Stands node kept h) (content : List UInt8) (mode : Nat) :
    Stands node content (h.change (.write sampleVault.copyPlace content mode)) := by
  have hleaf := hs.reaches_copy.leaf
  have hd := Change.differsAt_write hleaf content mode
  have hne : ∀ q, ¬ sampleVault.base <+: q → q ≠ sampleVault.copyPlace := by
    rintro q hq rfl
    exact hq (List.prefix_append _ _)
  have hfixed : ∀ q ∈ sampleFixed, ¬ sampleVault.base <+: q := by decide
  refine ⟨hs.workingDirectory,
    fun q hq => (hd.others q (hne q (hfixed q hq))).trans (hs.fixed q hq),
    hd.ways.isDirectory hs.base, (hd.others _ (hne _ (by decide))).trans hs.entry, ⟨mode, ?_⟩,
    hd.ways.isLeaf hs.mark⟩
  exact (Change.seen_write _ _ _ _ hleaf.ne_root).trans (if_pos rfl)

/-! Where the entry path leads. -/

theorem isStraight (hs : Stands node kept h) (hnode : ∀ target, node ≠ some (.link target)) :
    h.store.IsStraight sampleLease.place := by
  refine Store.isStraight_of_isWay (by decide) hs.isWay_source fun target ht => ?_
  exact hnode target (hs.entry.symm.trans ht)

theorem leads_entry (hs : Stands node kept h) (hnode : ∀ target, node ≠ some (.link target)) :
    h.Leads pairTarget.entry sampleLease.place :=
  leads_pathOf (by decide) (hs.isStraight hnode) hs.isWay_source

theorem targets_copy (hs : Stands (some (.link sampleVault.copy.text)) kept h) :
    h.Targets pairTarget.entry sampleVault.copyPlace := by
  have hcopy : Path.ofText sampleVault.copy.text = sampleVault.copy := Path.ofText_text (by decide)
  have hstraight : h.store.IsStraight ([] ++ sampleVault.copyPlace) :=
    hs.reaches_copy.leads.targets.settles.isStraight
  have hway : h.store.IsWay ([] ++ sampleVault.copyPlace).dropLast := by
    rw [List.nil_append, Vault.copyPlace, List.dropLast_concat]
    exact hs.isWay_base
  have hnext : h.store.Arrives true 39 [] (sampleVault.copyPlace ++ []) sampleVault.copyPlace := by
    rw [List.append_nil]
    exact hstraight.arrives_of_isWay hway (by decide)
  refine ⟨by decide, show pairTarget.entry.text.utf8ByteSize ≤ Store.pathLimit by decide, ?_⟩
  refine .into (by decide) (by decide) (by decide) (hs.isWay_source ["w"] ⟨["src"], rfl⟩) ?_
  refine .into (by decide) (by decide) (by decide) (hs.isWay_source _ List.prefix_rfl) ?_
  refine .through (by decide) (by decide) (Or.inr rfl) hs.entry ?_
  rw [hcopy]
  exact hnext

end Stands

/-! ### Its code -/

/-- The code for a configuration of the sample while its entry path leads to `here`. -/
def codeAt (here : Path) (c : Preview.Config) : Result String :=
  (Preview.descriptorOf c pairTarget.file appPath (Preview.modulePath here appPath)
    pairTarget.language).bind fun d => Result.ofFault d.code

theorem codes_check : (match pairRead "source: App.js\n" with
    | .ok c => c.source == "App.js" &&
      match codeAt pairTarget.entry c, codeAt sampleVault.copy c with
      | .ok _, .ok again => Text.toBytes again != sampleBackup.content
      | _, _ => false
    | .error _ => false) = true := by
  decide +kernel

/-- There is code for the entry file and for the copy, and that is not what the copy has. -/
theorem sample_codes : ∃ c code again, (pairRead "source: App.js\n" = .ok c ∧ c.source = "App.js") ∧
    codeAt pairTarget.entry c = .ok code ∧ codeAt sampleVault.copy c = .ok again ∧
      Text.toBytes again ≠ sampleBackup.content := by
  have h := codes_check
  cases hc : pairRead "source: App.js\n" with
  | error e => simp [hc] at h
  | ok c =>
    cases hcode : codeAt pairTarget.entry c with
    | error e => simp [hc, hcode] at h
    | ok code =>
      cases hagain : codeAt sampleVault.copy c with
      | error e => simp [hc, hcode, hagain] at h
      | ok again =>
        simp only [hc, hcode, hagain, Bool.and_eq_true, beq_iff_eq, bne_iff_ne] at h
        exact ⟨c, code, again, ⟨rfl, h.1⟩, hcode, hagain, h.2⟩

theorem code_sample (hs : Stands node kept h) {here : Place} {c : Preview.Config} {code : String}
    (hentry : h.Settles pairTarget.entry here)
    (hc : pairRead "source: App.js\n" = .ok c ∧ c.source = "App.js")
    (hcode : codeAt (Store.pathOf here) c = .ok code) : h.code pairTarget = some code := by
  have hfile : h.store.seen ["w", "p.yml"] = some (.file appText 0o644 (.counted 0)) :=
    hs.fixed _ (by decide)
  have hcomponent : h.store.seen ["w", "App.js"] = some (.file [] 0o644 (.counted 0)) :=
    hs.fixed _ (by decide)
  obtain ⟨hleads, -⟩ := leads_of_seen (by decide) hs.isWay_top hfile (by simp)
  obtain ⟨happ, hsettles⟩ := leads_of_seen (by decide) hs.isWay_top hcomponent (by simp)
  have hbytes : h.bytes pairTarget.file = .ok appText := hleads.bytes_of_file hfile
  have hreal : h.realPath appPath = .ok appPath := hsettles.realPath (by decide)
  have hisFile : h.isNode Node.isFile appPath = .ok true := happ.isFile_of_file hcomponent
  have hread : h.text pairTarget.file = .ok "source: App.js\n" := by
    rw [Host.text, hbytes]
    simp only [appText, Text.ofFile?_toBytes (s := "source: App.js\n") (by decide)]
  have hjoined : h.realPath (pairTarget.file.parent.join (Path.ofText c.source)) = .ok appPath := by
    rw [hc.2, appPath_eq]
    exact hreal
  have hgenerated : (Preview.generate pairTarget.file pairTarget.entry pairTarget.language).exec h =
      (codeAt (Store.pathOf here) c, h) :=
    Preview.exec_generate hread hc.1 hjoined hisFile hreal (hentry.realPath (by decide))
  rw [Host.code, hgenerated, hcode]
  rfl

/-! ### Its session -/

/-- The scene before the installation. -/
def briefBefore : Scene (List Change) := { briefScene with
  session := { briefScene.session with
    phase := .installing, entry := some (sampleLease.entry, .js) } }

/-- The scene after the installation. -/
def briefAfter (h : Host) : Scene (List Change) := { briefBefore with
  host := h
  session := { briefBefore.session with
    backup := some sampleBackup
    marker := some sampleLease.marker
    generated := true
    watcher := some (Watcher.start h [pairTarget.file])
    started := true }
  server := { DevServer.fresh 0 with command := some (["start"], sampleSettings.workingDirectory) } }

/-- The scene in which something happens while the session waits. -/
def briefWaiting (h : Host) : Scene (List Change) :=
  let t := briefAfter h
  { t with
    session := { t.session with phase := .active }
    server := { t.server with requests := [.wait (some waitSpan)], waits := 1 } }

/-- The sample is prepared, and generated code is written. -/
theorem sample_written {σ : Type} {t : Scene σ} (hhost : t.host = sampleHost)
    (hsession : t.session = briefBefore.session) {c : Preview.Config} {code : String}
    (hc : pairRead "source: App.js\n" = .ok c ∧ c.source = "App.js")
    (hcode : codeAt pairTarget.entry c = .ok code) :
    ∃ k h mode, Stands (some (.file (Text.toBytes code) mode (.counted 0))) sampleBackup.content h ∧
      let s : Session :=
        { t.session with backup := some sampleBackup, marker := some sampleLease.marker }
      (prepare sampleLease.entry .js).exec t = (.ok (), { t with host := k, session := s }) ∧
      (writeGenerated sampleLease.entry .js).exec { t with host := k, session := s } =
        (.ok (), { t with host := h, session := { s with generated := true } }) := by
  have hfresh : Fresh sampleLease (fun _ => []) t :=
    ⟨⟨sampleHost.logs, hhost⟩, by rw [hsession]; rfl, by rw [hsession]; rfl, by rw [hsession]; rfl,
      by rw [hsession]; rfl, by rw [hsession]; rfl, by rw [hsession]; rfl, by rw [hsession]; rfl, rfl⟩
  obtain ⟨k, hprepare, hready⟩ := prepare_exec sample_tenable hfresh
  have hstands := stands_of_ready hready
  have hleads := hstands.leads_entry (by simp)
  have hwritten : (Work.writeText pairTarget.entry code).exec k = (.ok (), k.change
      (.write sampleLease.place (Text.toBytes code) 0o600)) := by
    refine Work.exec_perform_ok ?_
    rw [hleads.writing_of_leaf (Or.inr ⟨_, _, hstands.entry⟩), hstands.entry]
    rfl
  rw [backup_sampleLease] at hprepare
  refine ⟨k, _, _, hstands.write (Text.toBytes code) 0o600, hprepare, ?_⟩
  refine writeGenerated_of_written (g := pairTarget) ?_
    (code_sample hstands hleads.targets.settles hc hcode) hwritten
  rw [hsession]
  rfl

theorem brief_installed {c : Preview.Config} {code : String}
    (f : Scene (List Change) → Scene (List Change))
    (hc : pairRead "source: App.js\n" = .ok c ∧ c.source = "App.js")
    (hcode : codeAt pairTarget.entry c = .ok code) :
    ∃ h mode, Stands (some (.file (Text.toBytes code) mode (.counted 0))) sampleBackup.content h ∧
      (install (briefly f) sampleLease.entry .js).exec briefBefore = (.ok (), briefAfter h) := by
  obtain ⟨k, h, mode, hstands, hprepare, hwrite⟩ :=
    sample_written (t := briefBefore) rfl rfl hc hcode
  refine ⟨h, mode, hstands, ?_⟩
  rw [install_eq_prepare, Act.exec_bind_ok hprepare, generateAndStart, Act.exec_bind_ok hwrite]
  rfl

/-- The dev server is waited for once. -/
theorem brief_waited {t u : Scene (List Change)} (hended : t.server.ended = none)
    (hwaits : t.server.waits = 0)
    (hf : f { t with server := { t.server.request (.wait (some waitSpan)) with waits := 1 } } = u)
    (hu : u.server.killed = false ∧ u.server.terminated = false ∧ u.server.timeouts = 0) :
    (supervise (briefly f) (waitBound (briefly f)) .unset).exec t =
      (.ok 0, { u with server := { u.server with ended := some 0 } }) := by
  have hsettled : u.server.settleWait false 0 (some waitSpan) = u.server.finish 0 := by
    obtain ⟨hkilled, hterminated, htimeouts⟩ := hu
    rw [DevServer.settleWait, hkilled, hterminated, htimeouts]
    rfl
  have hwait : (wait (briefly f) (some waitSpan)).exec t =
      (.ok (.ended 0), { u with server := { u.server with ended := some 0 } }) := by
    rw [wait_of_running hended, hwaits, endWait, Act.exec_bind_ok (Act.exec_modify _ _)]
    show (Act.server >>= _ : Act (List Change) Waited).exec (f _) = _
    rw [hf, Act.exec_bind_ok (Act.exec_server u)]
    calc _ = (Except.ok (u.server.settleWait false 0 (some waitSpan)).1,
          { u with server := (u.server.settleWait false 0 (some waitSpan)).2 }) := rfl
      _ = _ := by rw [hsettled, DevServer.finish]
  show (supervise (briefly f) (19 + 1) .unset).exec t = _
  rw [supervise_succ, Act.exec_bind_ok hwait]
  rfl

/-- The scene in which the entry file is about to be put back. -/
def briefLast (u : Scene (List Change)) : Scene (List Change) := { u with
  session := { u.session with phase := .restoring, watcher := none }
  server := { u.server with ended := some 0 } }

theorem brief_approach {c : Preview.Config} {code : String}
    (f : Scene (List Change) → Scene (List Change))
    (hc : pairRead "source: App.js\n" = .ok c ∧ c.source = "App.js")
    (hcode : codeAt pairTarget.entry c = .ok code) :
    ∃ h mode, Stands (some (.file (Text.toBytes code) mode (.counted 0))) sampleBackup.content h ∧
      ∀ u, f (briefWaiting h) = u → u.server = (briefWaiting h).server →
        (approach (briefly f)).exec briefScene =
          (.ok (sampleLease.entry, .ok 0), briefLast u) := by
  obtain ⟨h, mode, hstands, hinstall⟩ := brief_installed f hc hcode
  refine ⟨h, mode, hstands, fun u hu hserver => ?_⟩
  let t : Scene (List Change) := briefAfter h
  have hwaited : (supervise (briefly f) (waitBound (briefly f)) .unset).exec
      { t with session := { t.session with phase := .active } } =
        (.ok 0, { u with server := { u.server with ended := some 0 } }) :=
    brief_waited rfl rfl hu (by rw [hserver]; exact ⟨rfl, rfl, rfl⟩)
  have hoccupy : (occupy (briefly f) sampleLease.entry .js).exec briefBefore =
      (.ok 0, { u with server := { u.server with ended := some 0 } }) := by
    rw [occupy, Act.exec_bind_ok hinstall, Act.exec_bind_ok (Act.exec_enter _ _)]
    exact hwaited
  have hended : (endServer (briefly f)).exec (briefLast u) = (.ok (), briefLast u) := by
    rw [endServer, Act.exec_bind_ok (Act.exec_session _), Act.exec_bind_ok (Act.exec_server _)]
    show (ite _ _ _ : Act (List Change) Unit).exec _ = _
    rw [if_neg (by simp [briefLast])]
    rfl
  rw [approach, Act.exec_bind_ok (Act.exec_session _),
    Act.exec_bind_ok (resolve_exec (t := briefScene) sample_resolved),
    Act.exec_bind_ok (Act.exec_setSession _ _),
    Act.exec_bind_ok (Act.exec_work_of sample_unowned), if_neg Bool.false_ne_true,
    Act.exec_bind_ok (Act.exec_enter _ _)]
  show (Act.outcome (occupy (briefly f) sampleLease.entry .js) >>= _ : Act (List Change) _).exec
    briefBefore = _
  rw [Act.exec_bind_ok (Act.exec_outcome _ _), hoccupy, Act.exec_bind_ok (Act.exec_setSession _ _),
    Act.exec_bind_ok (Act.exec_modify _ _)]
  show (endServer (briefly f) >>= _ : Act (List Change) _).exec (briefLast u) = _
  rw [Act.exec_bind_ok hended]
  rfl

/-! ### A directory that is removed -/

/-- Removes the directory that the entry file lies in. -/
def razing : Scene (List Change) → Scene (List Change) := altered [.removeTree ["w", "src"]]

theorem considerate_razing : Considerate sampleVault (IsApart sampleVault) (briefly razing) :=
  considerate_briefly fun _ t _ => around_altered (by simp [Change.place]) t

theorem Stands.refuses_razed (hs : Stands node kept h)
    (hnode : ∀ target, node ≠ some (.link target)) (content : List UInt8) :
    ∃ e, (h.change (.removeTree ["w", "src"])).writing sampleBackup.entry content = .error e := by
  let k : Host := h.change (.removeTree ["w", "src"])
  have hseen : ∀ q, q ≠ [] → k.store.seen q = if ["w", "src"] <+: q then none else h.store.seen q :=
    fun q hq => (Change.seen_apply _ h.store q).trans (h.store.seen_eraseTree ["w", "src"] hq)
  have hstraight : k.store.IsStraight sampleLease.place := by
    refine ⟨by decide, fun r hr target ht => ?_⟩
    rcases eq_or_ne r [] with rfl | hr₀
    · cases k.store.seen_root.symm.trans ht
    · rw [hseen r hr₀] at ht
      split at ht
      · cases ht
      · exact (hs.isStraight hnode).unlinked r hr target ht
  refine writing_refused hstraight (fun hway => ?_) content
  obtain ⟨mode, hd⟩ := hway.1 ["w", "src"] List.prefix_rfl
  rw [hseen _ (by decide), if_pos List.prefix_rfl] at hd
  cases hd

/-- Without the directory that the entry file lay in, the copy is kept. -/
theorem run_safekeeps_razed :
    Enters sampleVault briefScene ∧
    Considerate sampleVault (IsApart sampleVault) (briefly razing) ∧
    (atEnd (briefly razing) briefScene).session.backup = some sampleBackup ∧
    (∃ e, (sampleBackup.restore.exec (atRestoration (briefly razing) briefScene).host).1 =
      .error e) ∧
    Safekept (briefly razing) briefScene sampleBackup := by
  obtain ⟨c, code, -, hc, hcode, -⟩ := sample_codes
  obtain ⟨h, mode, hstands, happroach⟩ := brief_approach razing hc hcode
  have happroach := happroach _ rfl rfl
  have hbackup : (atEnd (briefly razing) briefScene).session.backup = some sampleBackup := by
    rw [atEnd_backup, atRestoration, happroach]
    rfl
  refine ⟨brief_enters, considerate_razing, hbackup, ?_,
    run_safekeeps brief_enters considerate_razing hbackup⟩
  obtain ⟨e, he⟩ := hstands.refuses_razed (by simp) sampleBackup.content
  obtain ⟨logs, hr⟩ := Backup.restore_of_refused (by decide) (by decide) he
  rw [atRestoration, happroach]
  exact ⟨_, congrArg Prod.fst hr⟩

/-! ### A link to the copy -/

/-- Puts a link to the copy in the place of the entry file, lets the session follow a change of the
preview file, and puts a directory in the place of the link. -/
def linking (t : Scene (List Change)) : Scene (List Change) :=
  let linked := altered [.remove sampleLease.place, .link sampleLease.place sampleVault.copy.text] t
  altered [.remove sampleLease.place, .makeDirectory sampleLease.place]
    ((followChangeOrWarn pairTarget.file).exec linked).2

theorem considerate_linking : Considerate sampleVault (fun _ => True) (briefly linking) :=
  considerate_briefly fun _ t _ => .trans (around_altered (by decide) t) (.trans (.notify _ _ trivial)
    (around_altered (by decide) _))

/-- Then generated code is in the copy. -/
theorem linking_exec {c : Preview.Config} {again : String} (hs : Stands node kept h)
    (hc : pairRead "source: App.js\n" = .ok c ∧ c.source = "App.js")
    (hagain : codeAt sampleVault.copy c = .ok again) :
    ∃ k, Stands (some (.directory Node.directoryMode (.counted 0))) (Text.toBytes again) k ∧
      linking (briefWaiting h) = { briefWaiting h with host := k } := by
  let t : Scene (List Change) := altered
    [.remove sampleLease.place, .link sampleLease.place sampleVault.copy.text] (briefWaiting h)
  have hlinked : Stands (some (.link sampleVault.copy.text)) kept t.host := hs.replace_link _
  have htargets := hlinked.targets_copy
  obtain ⟨mode, hcopy⟩ := hlinked.kept
  have hwritten : (Work.writeText pairTarget.entry again).exec t.host = (.ok (), t.host.change
      (.write sampleVault.copyPlace (Text.toBytes again) mode)) := by
    refine Work.exec_perform_ok ?_
    rw [htargets.writing_of_leaf (Or.inr ⟨_, _, hcopy⟩), hcopy]
    rfl
  have hwrite : (writeGenerated sampleLease.entry .js).exec t = _ :=
    writeGenerated_of_written (g := pairTarget) rfl
      (code_sample hlinked htargets.settles hc hagain) hwritten
  have htold : ((followChangeOrWarn pairTarget.file).exec t).2 = { t with
      host := t.host.change (.write sampleVault.copyPlace (Text.toBytes again) mode) } := by
    have hfollow : (followChange pairTarget.file).exec t = (.ok (), { t with
        host := t.host.change (.write sampleVault.copyPlace (Text.toBytes again) mode) }) := by
      rw [followChange_of_active (t := t) rfl rfl, Act.exec_bind_ok (Act.exec_outcome _ _)]
      show (endFollow _ _).exec _ = _
      rw [hwrite]
      rfl
    rw [followChangeOrWarn, Act.exec_bind_ok (Act.exec_outcome _ _), hfollow]
    rfl
  refine ⟨_, (hlinked.overwrite (Text.toBytes again) mode).replace_directory, ?_⟩
  show altered _ ((followChangeOrWarn pairTarget.file).exec t).2 = _
  rw [htold]
  rfl

/-- A content is lost although nobody does anything in the directory of markers: the session itself
writes generated code over its copy. -/
theorem link_loses :
    Enters sampleVault briefScene ∧
    Considerate sampleVault (fun _ => True) (briefly linking) ∧
    (atEnd (briefly linking) briefScene).session.backup = some sampleBackup ∧
    ¬ Safekept (briefly linking) briefScene sampleBackup := by
  obtain ⟨c, code, again, hc, hcode, hagain, hne⟩ := sample_codes
  obtain ⟨h, mode, hstands, happroach⟩ := brief_approach linking hc hcode
  obtain ⟨k, hblocked, hlinking⟩ := linking_exec hstands hc hagain
  have happroach := happroach _ hlinking rfl
  let w := briefLast { briefWaiting h with host := k }
  refine ⟨brief_enters, considerate_linking, ?_, fun hkept => ?_⟩
  · rw [atEnd_backup, atRestoration, happroach]
    rfl
  have hleaf : ¬ (k.store.IsWay sampleLease.place.dropLast ∧ k.store.IsLeaf sampleLease.place) :=
    fun hway => hway.2.not_isDirectory ⟨_, hblocked.entry⟩
  obtain ⟨e, he⟩ := writing_refused (hblocked.isStraight (by simp)) hleaf sampleBackup.content
  obtain ⟨logs, hrefused⟩ := Backup.restore_of_refused (b := sampleBackup) (by decide) (by decide) he
  have hr : (sampleBackup.restore.exec (atRestoration (briefly linking) briefScene).host).1 =
      .error (.backup (.restore sampleBackup.entry sampleBackup.copy)) := by
    rw [atRestoration, happroach]
    exact congrArg Prod.fst hrefused
  obtain ⟨hbytes, -⟩ := hkept.kept _ hr
  obtain ⟨l, hrelease, -, ⟨hdone, -⟩ | ⟨-, -, hleft, -⟩⟩ := release_exec (t := w) rfl (by decide)
    (rfl : sampleBackup.copy = sampleVault.copy) hblocked.holds sampleLease.entry
  · rw [show sampleBackup.restore.exec w.host = _ from hrefused] at hdone
    cases hdone
  · rw [atEnd_of_approach happroach, hrelease] at hbytes
    exact hne (Except.ok.inj (hleft.symm.trans hbytes))

end Sample

end Session
end Vitrine
