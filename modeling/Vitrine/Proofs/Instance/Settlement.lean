import Vitrine.Proofs.Files.Differences
import Vitrine.Proofs.Instance.Recovery

/-!
# Recovering one marker

What recovering a marker comes to whose session is gone, by what is found at its copy and its entry
file: the entry file is settled in one of four ways and the marker goes (`recoverAmong_settles`), or the
marker is blocked and nothing changes (`recoverAmong_blocked`).
-/
namespace Vitrine

open Work Host

variable {h k : Host} {m : Marker} {p : Path} {q : Place}

theorem isGenerated_of_bytes {content : List UInt8} (hb : h.bytes p = .ok content)
    (hr : ¬ IsRecognised content) : (isGenerated p).exec h = (.ok false, h) := by
  rw [isGenerated, exec_tryCatch, exec_bind, readText, exec_look, Host.text, hb]
  dsimp only
  cases ht : Text.ofFile? content with
  | none => rfl
  | some text =>
    show (Except.ok (decide (firstLine text = Preview.generatedMarker)), h) = _
    rw [decide_eq_false fun hfirst => hr ⟨text, ht, hfirst⟩]

/-- What cannot be read is not generated. -/
theorem isGenerated_of_error {e : Errno} (hb : h.bytes p = .error (.system e)) :
    (isGenerated p).exec h = (.ok false, h) := by
  rw [isGenerated, exec_tryCatch, exec_bind, readText, exec_look, Host.text, hb]
  rfl

namespace Marker

/-! ## Processes -/

/-- Whether the session of a marker runs in another process. -/
def livesOn (m : Marker) (h : Host) : Bool :=
  decide (0 < m.processId) && h.running.contains m.processId && decide (m.processId ≠ h.processId)

theorem livesOn_eq (hk : SameProcess h k) (m : Marker) : m.livesOn k = m.livesOn h := by
  rw [livesOn, livesOn, hk.running, hk.processId]

theorem isLive_exec_livesOn (hm : m.processId ≤ processIdLimit) :
    m.isLive.exec h = (.ok (m.livesOn h), h) := by
  have hrunning : (isRunning m.processId).exec h =
      (.ok (decide (0 < m.processId) && h.running.contains m.processId), h) := by
    rw [isRunning]
    by_cases hpos : m.processId ≤ 0
    · rw [if_pos hpos, decide_eq_false (by omega)]
      rfl
    · rw [if_neg hpos, if_neg (by omega), decide_eq_true (by omega)]
      rfl
  rw [isLive, exec_bind_ok hrunning]
  rfl

/-! ## The paths of a marker -/

/-- What a marker is about: its file, its entry file and its copy. -/
def paths (m : Marker) : List Path := m.file :: m.entry :: m.backup.toList

/-- The places of its file, its entry file and its copy. -/
def Owns (m : Marker) (h : Host) (q : Place) : Prop := ∃ p ∈ m.paths, h.Targets p q

/-- A marker as sessions leave them: its file and its copy are no links, its three places are apart, and
it gives a mode with its copy. An entry file that was not there is no link either. -/
structure Placed (m : Marker) (h : Host) : Prop where
  file : ∃ q, h.Leads m.file q ∧ h.store.IsLeaf q
  copy : ∀ p, m.backup = some p → ∃ q, h.Leads p q
  plain : m.backup = none → ∀ q, h.Targets m.entry q → h.Leads m.entry q
  apart : m.paths.Pairwise fun p r => ∀ q, h.Targets p q → ¬ h.Targets r q
  mode : m.backup ≠ none → ∃ n : Int, m.fileMode = .int n ∧ 0 ≤ n ∧ n ≤ processIdLimit

theorem mem_paths_file (m : Marker) : m.file ∈ m.paths := List.mem_cons_self

theorem mem_paths_entry (m : Marker) : m.entry ∈ m.paths :=
  List.mem_cons_of_mem _ List.mem_cons_self

theorem mem_paths_copy (hb : m.backup = some p) : p ∈ m.paths := by
  simp [paths, hb]

/-- A copy that is there, for an entry file that cannot be written; or an entry file without a copy at a
path that cannot be looked at. -/
def Blocked (m : Marker) (h : Host) : Prop :=
  match m.backup with
  | some copy => (∃ content kept, h.found copy = some (.file content kept (.counted 0))) ∧
      ¬ ∃ q, h.Targets m.entry q ∧ h.store.IsLeaf q
  | none => ∃ e, h.isNode (fun _ => true) m.entry = .error e

/-- What becomes of an entry file. -/
inductive Settled (m : Marker) (h k : Host) : Prop
  /-- It is as the copy says, and the copy is gone. -/
  | restored {copy : Path} {content : List UInt8} {kept : Nat} {mode : Int}
      (backup : m.backup = some copy)
      (there : h.found copy = some (.file content kept (.counted 0)))
      (given : m.fileMode = .int mode)
      (back : k.found m.entry = some (.file content (Node.permissions mode) (.counted 0)))
      (gone : k.found copy = none)
  /-- The copy is missing, and nothing happens. -/
  | lost {copy : Path} (backup : m.backup = some copy)
      (missing : ∀ content kept, h.found copy ≠ some (.file content kept (.counted 0)))
      (same : k.found m.entry = h.found m.entry) (still : k.found copy = h.found copy)
  /-- There was no entry file, and what was generated in its place is removed. -/
  | removed {content : List UInt8} {mode : Nat} (backup : m.backup = none)
      (there : h.found m.entry = some (.file content mode (.counted 0)))
      (recognised : IsRecognised content) (gone : k.found m.entry = none)
  /-- There was no entry file, and what is in its place was not generated. -/
  | kept (backup : m.backup = none)
      (other : ∀ content mode, h.found m.entry = some (.file content mode (.counted 0)) →
        ¬ IsRecognised content)
      (same : k.found m.entry = h.found m.entry)

/-- Only what is found at the paths of the marker counts. -/
theorem Settled.congr {g l : Host} (hs : m.Settled h k) (hg : ∀ p ∈ m.paths, g.found p = h.found p)
    (hl : ∀ p ∈ m.paths, l.found p = k.found p) : m.Settled g l := by
  have hentry := m.mem_paths_entry
  cases hs with
  | restored backup there given back gone =>
    have hcopy := mem_paths_copy backup
    exact .restored backup (by rw [hg _ hcopy, there]) given (by rw [hl _ hentry, back])
      (by rw [hl _ hcopy, gone])
  | lost backup missing same still =>
    have hcopy := mem_paths_copy backup
    exact .lost backup (by rw [hg _ hcopy]; exact missing) (by rw [hl _ hentry, hg _ hentry, same])
      (by rw [hl _ hcopy, hg _ hcopy, still])
  | removed backup there recognised gone =>
    exact .removed backup (by rw [hg _ hentry, there]) recognised (by rw [hl _ hentry, gone])
  | kept backup other same =>
    exact .kept backup (by rw [hg _ hentry]; exact other) (by rw [hl _ hentry, hg _ hentry, same])

/-- Where the copy is intact the entry file has its content and the mode of the original again. -/
theorem Settled.of_copy {copy : Path} {content : List UInt8} {kept : Nat} {mode : Int}
    (hs : m.Settled h k) (hcopy : m.backup = some copy)
    (hintact : h.found copy = some (.file content kept (.counted 0)))
    (hmode : m.fileMode = .int mode) :
    k.found m.entry = some (.file content (Node.permissions mode) (.counted 0)) ∧
      k.found copy = none := by
  cases hs with
  | restored backup there given back gone =>
    obtain rfl := Option.some.inj (hcopy.symm.trans backup)
    rw [hintact] at there
    rw [hmode] at given
    cases there
    cases given
    exact ⟨back, gone⟩
  | lost backup missing same still =>
    obtain rfl := Option.some.inj (hcopy.symm.trans backup)
    exact absurd hintact (missing content kept)
  | removed backup there recognised gone =>
    rw [hcopy] at backup
    cases backup
  | kept backup other same =>
    rw [hcopy] at backup
    cases backup

/-! ## On hosts that differ elsewhere -/

section Differs

variable {P : Place → Prop}

theorem spares_of_owns (hm : ∀ q, m.Owns h q → ¬ P q) (hp : p ∈ m.paths) : DiffersOn.Spares P h p :=
  fun q hq hP => hm q ⟨p, hp, hq⟩ hP.1

variable (hd : DiffersOn P h k)
include hd

theorem Placed.of_differs (hm : m.Placed h) : m.Placed k where
  file := by
    obtain ⟨q, hl, hleaf⟩ := hm.file
    exact ⟨q, hd.leads hl, hd.ways.isLeaf hleaf⟩
  copy := fun p hp => by
    obtain ⟨q, hl⟩ := hm.copy p hp
    exact ⟨q, hd.leads hl⟩
  plain := fun hn q hq => hd.leads (hm.plain hn q (hd.targets_iff.mp hq))
  apart := hm.apart.imp fun hpr q hp hr => hpr q (hd.targets_iff.mp hp) (hd.targets_iff.mp hr)
  mode := hm.mode

theorem owns_iff : m.Owns k q ↔ m.Owns h q :=
  exists_congr fun _ => and_congr_right fun _ => hd.targets_iff

variable (hm : ∀ q, m.Owns h q → ¬ P q)
include hm

/-- Places of others do not matter to a marker. -/
theorem found_eq (hp : p ∈ m.paths) : k.found p = h.found p := hd.found (spares_of_owns hm hp)

theorem blocked_iff : m.Blocked k ↔ m.Blocked h := by
  rw [Blocked, Blocked]
  cases hb : m.backup with
  | some copy =>
    have hleaf : (∃ q, k.Targets m.entry q ∧ k.store.IsLeaf q) ↔
        ∃ q, h.Targets m.entry q ∧ h.store.IsLeaf q :=
      exists_congr fun q => and_congr hd.targets_iff ⟨hd.ways.symm.isLeaf, hd.ways.isLeaf⟩
    dsimp only
    rw [found_eq hd hm (mem_paths_copy hb), hleaf]
  | none =>
    dsimp only
    rw [hd.isNode (spares_of_owns hm m.mem_paths_entry) fun _ => rfl]

end Differs

/-! ## Bringing the entry file back -/

/-- Copying a file and setting its mode are two changes. -/
theorem copyBack_exec {copy : Path} {a : Place} {content : List UInt8} {kept : Nat} {mode : Int}
    (hcopy : h.Targets copy a) (hfile : h.store.seen a = some (.file content kept (.counted 0)))
    (ht : h.Targets p q) (hleaf : h.store.IsLeaf q) (hne : a ≠ q) (hmin : 0 ≤ mode)
    (hmax : mode ≤ processIdLimit) :
    ∃ k, (Work.copy copy p >>= fun _ => restoreMode p (.int mode)).exec h = (.ok (), k) ∧
      DiffersOn (· = q) h k ∧
      k.store.seen q = some (.file content (Node.permissions mode) (.counted 0)) := by
  let c : Change := .write q content (Leads.writtenMode (h.store.seen q))
  let d : Change := .setMode q (Node.permissions mode)
  have hwrite : DiffersOn (· = q) h (h.change c) :=
    .of_differsAt rfl (Change.differsAt_write hleaf _ _) rfl
  have hleaf' : (h.change c).store.IsLeaf q := hwrite.ways.isLeaf hleaf
  have hset : DiffersOn (· = q) (h.change c) ((h.change c).change d) :=
    .of_differsAt rfl (Change.differsAt_setMode hleaf' _) rfl
  have hwritten : (h.change c).store.seen q =
      some (.file content (Leads.writtenMode (h.store.seen q)) (.counted 0)) := by
    show (c.apply h.store).seen q = _
    rw [Change.seen_write h.store q content _ hleaf.ne_root, if_pos rfl]
  have hcopying : (Work.copy copy p).exec h = (.ok (), h.change c) := by
    rw [Work.copy, exec_perform, hcopy.copying_of_file hfile ht hleaf hne]
  have hrange : ¬ (decide (mode < -processIdLimit - 1) || decide (processIdLimit < mode)) = true := by
    rw [processIdLimit] at hmax ⊢
    rw [Bool.or_eq_true, decide_eq_true_eq, decide_eq_true_eq]
    omega
  refine ⟨(h.change c).change d, ?_, hwrite.trans hset, ?_⟩
  · rw [exec_bind_ok hcopying, restoreMode, if_neg hrange, setMode, exec_perform,
      (hwrite.targets ht).settingMode_of_file hwritten]
  · show (d.apply (h.change c).store).seen q = _
    rw [Change.seen_setMode _ q _ hleaf.ne_root, if_pos rfl, hwritten]
    rfl

/-- Without a copy, an entry file that is there is removed if it was generated. -/
theorem bringBack_exec_of_none {generated : Bool} (hb : m.backup = none)
    (hthere : h.isNode (fun _ => true) m.entry = .ok true)
    (hg : (isGenerated m.entry).exec h = (.ok generated, h)) :
    m.bringBack.exec h = (if generated then Work.remove m.entry else pure () : Work Unit).exec h := by
  have hexists : (Work.exists_ m.entry).exec h = (.ok true, h) := by
    rw [Work.exists_, exec_look, hthere]
  rw [bringBack, hb]
  show (Work.exists_ m.entry >>= _).exec h = _
  rw [exec_bind_ok hexists]
  exact exec_bind_ok hg

section Back

variable (hm : m.Placed h)
include hm

/-- The entry file is copied back. -/
theorem bringBack_of_copy {copy : Path} {content : List UInt8} {kept : Nat}
    (hb : m.backup = some copy) (hfound : h.found copy = some (.file content kept (.counted 0)))
    (ht : h.Targets m.entry q) (hleaf : h.store.IsLeaf q) :
    ∃ k, m.bringBack.exec h = (.ok (), k) ∧ DiffersOn (m.Owns h) h k ∧ m.Settled h k := by
  obtain ⟨a, ha⟩ := hm.copy copy hb
  have hfile : h.store.seen a = some (.file content kept (.counted 0)) := by
    rw [← ha.found, hfound]
  obtain ⟨mode, hmode, hmin, hmax⟩ := hm.mode (by rw [hb]; exact Option.some_ne_none _)
  have hapart := hm.apart
  rw [paths, hb] at hapart
  have hne : a ≠ q := by
    rintro rfl
    have hentry := (List.pairwise_cons.mp (List.pairwise_cons.mp hapart).2).1
    exact hentry copy (List.mem_singleton_self _) a ht ha.targets
  obtain ⟨g, hback, hg, hseen⟩ := copyBack_exec ha.targets hfile ht hleaf hne hmin hmax
  have hcopied : g.store.seen a = some (.file content kept (.counted 0)) := by
    rw [hg.others a hne, hfile]
  obtain ⟨k, hdiscard, hdirectory, hk, hgone⟩ :=
    discard_differsAt (hg.leads ha) (Or.inr ⟨content, kept, hcopied⟩)
  have howns : DiffersOn (m.Owns h) h g := hg.mono fun r hr => hr ▸ ⟨_, m.mem_paths_entry, ht⟩
  have hall : DiffersOn (m.Owns h) h k :=
    howns.trans (.of_differsAt hdirectory hk ⟨copy, mem_paths_copy hb, ha.targets⟩)
  refine ⟨k, ?_, hall, .restored hb hfound hmode ?_ ?_⟩
  · have hisFile : (Work.isFile copy).exec h = (.ok true, h) :=
      Instances.exec_isFile (ha.isFile_of_file hfile)
    rw [bringBack, hb]
    show (Work.isFile copy >>= _).exec h = _
    rw [exec_bind_ok hisFile]
    show (attempt (Work.copy copy m.entry >>= fun _ => restoreMode m.entry m.fileMode) >>= _).exec h = _
    rw [hmode, exec_bind_ok (exec_attempt_ok hback)]
    exact hdiscard
  · rw [(hall.targets ht).found, hk.others q hne.symm, hseen]
  · rw [(hall.leads ha).found, hgone]

/-- Without its copy an entry file is left as it is. -/
theorem bringBack_of_missing {copy : Path} (hb : m.backup = some copy)
    (hmissing : ∀ content kept, h.found copy ≠ some (.file content kept (.counted 0))) :
    ∃ k, m.bringBack.exec h = (.ok (), k) ∧ DiffersOn (m.Owns h) h k ∧ m.Settled h k := by
  obtain ⟨a, ha⟩ := hm.copy copy hb
  have hno : (h.store.seen a).any Node.isFile = false := by
    rw [← ha.found]
    cases hf : h.found copy with
    | none => rfl
    | some n =>
      obtain ⟨r, -, hr⟩ := targets_of_found hf
      cases n with
      | file content kept changed =>
        obtain ⟨n, -, hn⟩ := Option.map_eq_some_iff.mp hr
        obtain ⟨changed', rfl⟩ := Node.plain_eq_file hn
        cases hn
        exact absurd hf (hmissing content kept)
      | directory mode changed => rfl
      | link target => rfl
  have hisFile : (Work.isFile copy).exec h = (.ok false, h) :=
    Instances.exec_isFile (ha.isFile_eq.trans (by rw [hno]))
  let text := "Backup " ++ copy.text ++ " for " ++ m.entry.text ++ " is missing"
  have hd : DiffersOn (m.Owns h) h (h.log .warning text) := (DiffersOn.refl _ h).withLogs _
  refine ⟨h.log .warning text, ?_, hd, .lost hb hmissing rfl rfl⟩
  rw [bringBack, hb]
  show (Work.isFile copy >>= _).exec h = _
  rw [exec_bind_ok hisFile]
  exact exec_warn text h

/-- What was generated in the place of a missing entry file is removed, and nothing else. -/
theorem bringBack_of_none (hb : m.backup = none) {there : Bool}
    (hthere : h.isNode (fun _ => true) m.entry = .ok there) :
    ∃ k, m.bringBack.exec h = (.ok (), k) ∧ DiffersOn (m.Owns h) h k ∧ m.Settled h k := by
  cases there with
  | false =>
    refine ⟨h, ?_, .refl _ h, .kept hb (fun content mode hf => ?_) rfl⟩
    · have hexists : (Work.exists_ m.entry).exec h = (.ok false, h) := by
        rw [Work.exists_, exec_look, hthere]
      rw [bringBack, hb]
      exact exec_bind_ok hexists
    · obtain ⟨q, ht, hs⟩ := targets_of_found hf
      rw [ht.isNode_eq fun _ => rfl, hs] at hthere
      cases hthere
  | true =>
    obtain ⟨q, n, hnode, -⟩ := isNode_eq_true hthere
    obtain ⟨hsound, hlead, hg⟩ := node_eq_ok hnode
    have ht : h.Targets m.entry q := ⟨hsound, hlead⟩
    have hfound : h.found m.entry = some n.plain := by rw [ht.found, Store.seen_of_get? hg]
    -- What is no generated file stays.
    have hstays : (isGenerated m.entry).exec h = (.ok false, h) →
        (∀ content mode, n.plain = .file content mode (.counted 0) → ¬ IsRecognised content) →
        ∃ k, m.bringBack.exec h = (.ok (), k) ∧ DiffersOn (m.Owns h) h k ∧ m.Settled h k := by
      intro hgenerated hother
      refine ⟨h, bringBack_exec_of_none hb hthere hgenerated, .refl _ h,
        .kept hb (fun content mode hf => ?_) rfl⟩
      rw [hfound] at hf
      exact hother content mode (Option.some.inj hf)
    cases n with
    | directory mode changed =>
      have hbytes : h.bytes m.entry = .error (.system .isDirectory) := by rw [bytes, hnode]
      refine hstays (isGenerated_of_error hbytes) fun content' mode' hf => ?_
      cases hf
    | link target =>
      have hbytes : h.bytes m.entry = .error (.system .isDirectory) := by rw [bytes, hnode]
      refine hstays (isGenerated_of_error hbytes) fun content' mode' hf => ?_
      cases hf
    | file content mode changed =>
      have hfile : h.store.seen q = some (.file content mode (.counted 0)) := Store.seen_of_get? hg
      have hbytes := ht.bytes_of_file hfile
      by_cases hr : IsRecognised content
      · have hleaf : h.store.IsLeaf q := Or.inr ⟨content, mode, hfile⟩
        have hremove : (Work.remove m.entry).exec h = (.ok (), h.change (.remove q)) := by
          rw [Work.remove, exec_perform, (hm.plain hb q ht).removing_of_file hfile]
        have hd : DiffersOn (m.Owns h) h (h.change (.remove q)) :=
          .of_differsAt rfl (Change.differsAt_remove hleaf) ⟨_, m.mem_paths_entry, ht⟩
        refine ⟨h.change (.remove q), ?_, hd, .removed hb hfound hr ?_⟩
        · rw [bringBack_exec_of_none hb hthere (isGenerated_exec hbytes hr)]
          exact hremove
        · rw [(hd.targets ht).found]
          show ((Change.remove q).apply h.store).seen q = none
          rw [Change.seen_remove h.store q hleaf.ne_root, if_pos rfl]
      · refine hstays (isGenerated_of_bytes hbytes hr) fun content' mode' hf => ?_
        cases hf
        exact hr

/-- The entry file is settled, unless the marker is blocked. -/
theorem bringBack_settles (hopen : ¬ m.Blocked h) :
    ∃ k, m.bringBack.exec h = (.ok (), k) ∧ DiffersOn (m.Owns h) h k ∧ m.Settled h k := by
  rw [Blocked] at hopen
  cases hb : m.backup with
  | none =>
    rw [hb] at hopen
    cases hthere : h.isNode (fun _ => true) m.entry with
    | error e => exact absurd ⟨e, hthere⟩ hopen
    | ok there => exact bringBack_of_none hm hb hthere
  | some copy =>
    rw [hb] at hopen
    by_cases hfile : ∃ content kept, h.found copy = some (.file content kept (.counted 0))
    · obtain ⟨q, ht, hleaf⟩ := Classical.not_not.mp fun hno => hopen ⟨hfile, hno⟩
      obtain ⟨content, kept, hfound⟩ := hfile
      exact bringBack_of_copy hm hb hfound ht hleaf
    · exact bringBack_of_missing hm hb fun content kept hf => hfile ⟨content, kept, hf⟩

end Back

/-- A blocked marker ends the work with an error before anything changes. -/
theorem bringBack_blocked (hm : m.Placed h) (hb : m.Blocked h) :
    ∃ e, m.bringBack.exec h = (.error e, h) := by
  rw [Blocked] at hb
  cases hcopy : m.backup with
  | none =>
    rw [hcopy] at hb
    obtain ⟨e, he⟩ := hb
    refine ⟨e, ?_⟩
    have hexists : (Work.exists_ m.entry).exec h = (.error e, h) := by
      rw [Work.exists_, exec_look, he]
    rw [bringBack, hcopy]
    exact exec_bind_error hexists
  | some copy =>
    rw [hcopy] at hb
    obtain ⟨⟨content, kept, hfound⟩, hno⟩ := hb
    obtain ⟨a, ha⟩ := hm.copy copy hcopy
    have hfile : h.store.seen a = some (.file content kept (.counted 0)) := by
      rw [← ha.found, hfound]
    have hisFile : (Work.isFile copy).exec h = (.ok true, h) :=
      Instances.exec_isFile (ha.isFile_of_file hfile)
    have hcopying : ∃ e, (Work.copy copy m.entry).exec h = (.error e, h) := by
      rw [Work.copy, exec_perform]
      cases hc : h.copying copy m.entry with
      | error e => exact ⟨e, rfl⟩
      | ok c => exact absurd (leaf_of_writing (writing_of_copying (ha.bytes_of_file hfile) hc)) hno
    obtain ⟨e, he⟩ := hcopying
    have hboth : (Work.copy copy m.entry >>= fun _ => restoreMode m.entry m.fileMode).exec h =
        (.error e, h) := exec_bind_error he
    rw [bringBack, hcopy]
    show ∃ e, (Work.isFile copy >>= _).exec h = (.error e, h)
    rw [exec_bind_ok hisFile]
    show ∃ e, (attempt (Work.copy copy m.entry >>= fun _ =>
      restoreMode m.entry m.fileMode) >>= _).exec h = (.error e, h)
    rw [exec_bind, exec_attempt, hboth]
    cases e <;> exact ⟨_, rfl⟩

/-! ## The marker itself -/

/-- What is left of a session behind its recovery: nothing of its marker. -/
structure Recovered (m : Marker) (h k : Host) : Prop where
  unmarked : k.found m.file = none
  settled : m.Settled h k

theorem Recovered.congr {g l : Host} (hr : m.Recovered h k)
    (hg : ∀ p ∈ m.paths, g.found p = h.found p) (hl : ∀ p ∈ m.paths, l.found p = k.found p) :
    m.Recovered g l :=
  ⟨(hl _ m.mem_paths_file).trans hr.unmarked, hr.settled.congr hg hl⟩

end Marker

namespace Instances

theorem removeMarker_differs (hm : m.Placed h) :
    ∃ k q, (removeMarker m).exec h = (.ok (), k) ∧ h.Targets m.file q ∧ DiffersOn (· = q) h k ∧
      k.store.seen q = none := by
  obtain ⟨q, hl, hleaf⟩ := hm.file
  obtain ⟨k, hdiscard, hdirectory, hd, hgone⟩ := discard_differsAt hl hleaf
  refine ⟨k, q, ?_, hl.targets, .of_differsAt hdirectory hd rfl, hgone⟩
  rw [removeMarker, exec_bind_ok (exec_attempt_ok hdiscard)]
  rfl

variable {ms : List Marker}

theorem recoverAmong_live (hm : m.processId ≤ processIdLimit) (hlive : m.livesOn h = true) :
    (recoverAmong (m :: ms)).exec h = (recoverAmong ms).exec h := by
  have hlook : m.isLive.exec h = (.ok true, h) := by rw [Marker.isLive_exec_livesOn hm, hlive]
  rw [recoverAmong, exec_bind_ok hlook]
  rfl

/-- A session that is gone is recovered: its entry file is settled and its marker is removed. -/
theorem recoverAmong_settles (hm : m.Placed h) (hdead : (m.isLive.exec h).1 = .ok false)
    (hopen : ¬ m.Blocked h) :
    ∃ k, (recoverAmong [m]).exec h = (.ok [m], k) ∧ DiffersOn (m.Owns h) h k ∧
      m.Recovered h k := by
  obtain ⟨g, hback, hg, hsettled⟩ := Marker.bringBack_settles hm hopen
  obtain ⟨k, q, hremove, ht, hk, hq⟩ := removeMarker_differs (hm.of_differs hg)
  have howns : m.Owns h q := ⟨_, m.mem_paths_file, hg.targets_iff.mp ht⟩
  refine ⟨k, recoverAmong_single hdead hback hremove, hg.trans (hk.mono fun r hr => hr ▸ howns), ?_, ?_⟩
  · rw [(hk.targets ht).found, hq]
  · -- The file of the marker is apart from its entry file and from its copy.
    have hfile := (List.pairwise_cons.mp (hm.of_differs hg).apart).1
    have hothers : ∀ p ∈ m.entry :: m.backup.toList, k.found p = g.found p := fun p hp =>
      hk.found fun r hr hrq => hfile p hp r (hrq.1 ▸ ht) hr
    have hentry := hothers _ List.mem_cons_self
    cases hsettled with
    | restored backup there given back gone =>
      have hcopy := hothers _ (List.mem_cons_of_mem _ (by rw [backup]; exact List.mem_singleton_self _))
      exact .restored backup there given (hentry.trans back) (hcopy.trans gone)
    | lost backup missing same still =>
      have hcopy := hothers _ (List.mem_cons_of_mem _ (by rw [backup]; exact List.mem_singleton_self _))
      exact .lost backup missing (hentry.trans same) (hcopy.trans still)
    | removed backup there recognised gone =>
      exact .removed backup there recognised (hentry.trans gone)
    | kept backup other same => exact .kept backup other (hentry.trans same)

/-- A blocked marker ends the recovery, and nothing changes. -/
theorem recoverAmong_blocked (hm : m.Placed h) (hdead : (m.isLive.exec h).1 = .ok false)
    (hb : m.Blocked h) : ∃ e, (recoverAmong (m :: ms)).exec h = (.error e, h) := by
  obtain ⟨e, he⟩ := Marker.bringBack_blocked hm hb
  have hlook : m.isLive.exec h = (.ok false, h) := by
    rw [Marker.isLive_exec (Std.Refl.refl h), hdead]
  refine ⟨e, ?_⟩
  rw [recoverAmong, exec_bind_ok hlook]
  exact exec_bind_error he

end Instances
end Vitrine
