import Vitrine.Proofs.Files.RealPath
import Vitrine.Proofs.Session.Consultation

/-!
# What a session puts aside

A session keeps a copy of its entry file in the directory of markers, and a marker beside it. A `Vault`
is that directory with the two names; what it `Holds` lasts as long as nothing in the directory is
changed. Putting the entry file back needs no luck there: it fails exactly if the entry path leads to no
file and to no place for one, and then it has changed nothing (`Backup.restore_decides`).
-/
namespace Vitrine

open Work Host

/-! ## Writing along a path -/

namespace Host

variable {h : Host} {p : Path} {q : Place}

/-- Whether a file can be written does not depend on its content. -/
theorem writing_error_congr {content : List UInt8} {e : Error} (he : h.writing p content = .error e)
    (other : List UInt8) : h.writing p other = .error e := by
  rw [writing] at he ⊢
  cases hr : h.reach true p with
  | error g =>
    rw [hr] at he
    exact he
  | ok x =>
    rw [hr] at he
    cases x with
    | free place => cases he
    | there place n => cases n <;> first | exact he | cases he

/-- A file differs that a path leads to. -/
abbrev DiffersAlong (p : Path) (h k : Host) : Prop := DiffersOn (h.Targets p) h k

theorem differsAlong_of_writing {content : List UInt8} {c : Change}
    (hw : h.writing p content = .ok c) : DiffersAlong p h (h.change c) := by
  obtain ⟨q, ht, hleaf⟩ := leaf_of_writing hw
  obtain rfl := Except.ok.inj (hw.symm.trans (ht.writing_of_leaf hleaf content))
  exact .of_differsAt rfl (Change.differsAt_write hleaf _ _) ht

theorem writeText_differs (p : Path) (s : String) (h : Host) :
    DiffersAlong p h ((writeText p s).exec h).2 := by
  rw [writeText, writeBytes, exec_perform]
  cases hw : h.writing p (Text.toBytes s) with
  | error e => exact .refl _ h
  | ok c => exact differsAlong_of_writing hw

theorem attempt_writeText_differs (p : Path) (s : String) (h : Host) :
    DiffersAlong p h ((attempt (writeText p s)).exec h).2 := by
  have hwritten := writeText_differs p s h
  rw [exec_attempt]
  rcases he : (writeText p s).exec h with ⟨e | ⟨⟩, k⟩
  · rw [he] at hwritten
    cases e <;> exact hwritten
  · rw [he] at hwritten
    exact hwritten

/-- A directory that a path leads to lies in directories only. -/
theorem Opens.isWay (ho : h.Opens p q) : h.store.IsWay q := by
  have habove := ho.leads.arrives.isWay h.store.isWay_root
  rcases List.eq_nil_or_concat q with rfl | ⟨above, name, rfl⟩
  · exact h.store.isWay_root
  · rw [List.concat_eq_append] at habove ho ⊢
    rw [List.dropLast_concat] at habove
    exact habove.child ho.isDirectory

/-- The path of a place leads to a directory there if all on the way are directories. -/
theorem Opens.of_isWay {k : Host} (ho : h.Opens (Store.pathOf q) q) (hup : ".." ∉ q)
    (hw : k.store.IsWay q) : k.Opens (Store.pathOf q) q := by
  have hstraight : ∀ {s : Store}, s.IsWay q → s.IsStraight ([] ++ q) := by
    refine fun hs => ⟨hup, fun r hr target ht => ?_⟩
    obtain ⟨mode, hd⟩ := hs r hr
    cases hd.symm.trans ht
  have hlen := ((hstraight ho.isWay).arrives ho.leads.arrives).2
  exact ⟨ho.sound, ⟨ho.leads.short, (hstraight hw).arrives_of_isWay hw.dropLast hlen⟩,
    hw q List.prefix_rfl⟩

end Host

namespace Backup

variable {b : Backup} {h : Host} {q : Place}

/-- Where the entry path leads to a place for a file, the entry file is put back there. -/
theorem restore_of_leaf (ht : h.Targets b.entry q) (hleaf : h.store.IsLeaf q) :
    ∃ k, b.restore.exec h = (.ok (), k) ∧ DiffersAlong b.entry h k := by
  let c : Change := .write q b.content (Leads.writtenMode (h.store.seen q))
  have hwriting : h.writing b.entry b.content = .ok c := ht.writing_of_leaf hleaf b.content
  have hwritten : DiffersAlong b.entry h (h.change c) := differsAlong_of_writing hwriting
  have hfile : (h.change c).store.seen q =
      some (.file b.content (Leads.writtenMode (h.store.seen q)) (.counted 0)) := by
    show (c.apply h.store).seen q = _
    rw [Change.seen_write h.store q b.content _ hleaf.ne_root, if_pos rfl]
  have hset : DiffersAlong b.entry h
      ((h.change c).change (.setMode q (Node.permissions (b.mode : Int)))) :=
    hwritten.trans (.of_differsAt rfl
      (Change.differsAt_setMode (Or.inr ⟨_, _, hfile⟩) _) ht)
  have hmode : (setMode b.entry b.mode).exec (h.change c) =
      (.ok (), (h.change c).change (.setMode q (Node.permissions (b.mode : Int)))) :=
    exec_perform_ok ((hwritten.targets ht).settingMode_of_file hfile b.mode)
  refine ⟨_, ?_, hset⟩
  rw [restore, restoreBy, exec_bind_ok (exec_attempt_ok (a := ()) ?_)]
  · rfl
  · rw [writeBytes, exec_bind_ok (exec_perform_ok hwriting)]
    exact hmode

/-- Where no file can be written, the copy does not help, and nothing but the log is changed. -/
theorem restore_of_refused (hs : b.entry.isSound = true) (hc : b.copy.isSound = true) {e : Error}
    (he : h.writing b.entry b.content = .error e) :
    ∃ logs, b.restore.exec h = (.error (.backup (.restore b.entry b.copy)), h.withLogs logs) := by
  have hsystem : ∀ {p : Path} {g : Error}, p.isSound = true → Refuses p g → ∃ n, g = .system n := by
    rintro p g hp (⟨-, hu⟩ | hn)
    · rw [hp] at hu
      cases hu
    · exact hn
  obtain ⟨n, rfl⟩ := hsystem hs (refuses_of_writing he)
  let text := "Restoring " ++ b.entry.text ++ " failed (" ++ n.shown ++ "), copying backup file instead"
  have hcopying : ∃ m, (h.log .warning text).copying b.copy b.entry = .error (.system m) := by
    cases hx : (h.log .warning text).copying b.copy b.entry with
    | error g =>
      obtain ⟨m, rfl⟩ := (refuses_of_copying hx).elim (hsystem hc) (hsystem hs)
      exact ⟨m, rfl⟩
    | ok c =>
      -- What is copied would be written where nothing can be.
      obtain ⟨content, hb, hw⟩ : ∃ content, (h.log .warning text).bytes b.copy = .ok content ∧
          (h.log .warning text).writing b.entry content = .ok c := by
        cases hb : (h.log .warning text).bytes b.copy with
        | ok content => exact ⟨content, rfl, writing_of_copying hb hx⟩
        | error g =>
          rw [copying, hb] at hx
          split at hx
          · split at hx <;> cases hx
          · cases hx
      cases (writing_error_congr he content).symm.trans hw
  obtain ⟨m, hm⟩ := hcopying
  have hdirect : (do writeBytes b.entry b.content; setMode b.entry b.mode : Work Unit).exec h =
      (.error (.system n), h) := by
    refine exec_bind_error ?_
    rw [writeBytes, exec_perform, he]
  have hcopied : (do Work.copy b.copy b.entry; setMode b.entry b.mode : Work Unit).exec
      (h.log .warning text) = (.error (.system m), h.log .warning text) := by
    refine exec_bind_error ?_
    rw [Work.copy, exec_perform, hm]
  refine ⟨(h.log .warning text).logs, ?_⟩
  rw [restore, restoreBy, exec_bind_ok (exec_attempt_system hdirect)]
  show (warn text >>= _).exec h = _
  rw [exec_bind_ok (exec_warn text h), exec_bind_ok (exec_attempt_system hcopied)]
  rfl

/-- Putting the entry file back either writes a file that the entry path leads to, or fails in one way
and changes nothing. -/
theorem restore_decides (hs : b.entry.isSound = true) (hc : b.copy.isSound = true) (h : Host) :
    (∃ k, b.restore.exec h = (.ok (), k) ∧ DiffersAlong b.entry h k) ∨
      ∃ logs, b.restore.exec h = (.error (.backup (.restore b.entry b.copy)), h.withLogs logs) := by
  cases hw : h.writing b.entry b.content with
  | ok c =>
    obtain ⟨q, ht, hleaf⟩ := leaf_of_writing hw
    exact Or.inl (restore_of_leaf ht hleaf)
  | error e => exact Or.inr (restore_of_refused hs hc hw)

theorem discard_fails {S : Error → Prop} (hs : b.copy.isSound = true) : Fails S b.discard := by
  refine (fails_attempt_discard hs).bind fun r => ?_
  split
  · exact fails_pure _
  · exact fails_warn _

/-- What a capture that succeeds has done: it has made the directory and written there, under a name
that it has given out, what it read. -/
theorem capture_eq_ok {directory entry workingDirectory : Path} {k : Host}
    (hc : (capture directory entry workingDirectory).exec h = (.ok b, k)) :
    ∃ m c, (makeDirectories directory).exec h = (.ok (), m) ∧ b.entry = entry ∧
      b.copy = directory.child (copyName (m.issued + 1)) ∧ m.bytes entry = .ok b.content ∧
      m.writing b.copy b.content = .ok c ∧ k = { m with issued := m.issued + 1 }.change c := by
  obtain ⟨⟨⟩, m, hmake, hc⟩ := exec_bind_eq_ok hc
  rw [exec_bind_ok (exec_issue m)] at hc
  obtain ⟨x, l, hattempt, hc⟩ := exec_bind_eq_ok hc
  cases x with
  | error e =>
    obtain ⟨⟨⟩, l', -, hc⟩ := exec_bind_eq_ok hc
    rw [exec_throw] at hc
    cases (Prod.mk.inj hc).1
  | ok x =>
    obtain ⟨hb, rfl⟩ := Prod.mk.inj hc
    obtain rfl := Except.ok.inj hb
    obtain ⟨content, l, hread, hrest⟩ := exec_bind_eq_ok (exec_attempt_eq_ok hattempt)
    rw [readBytes, exec_look] at hread
    obtain ⟨hbytes, rfl⟩ := Prod.mk.inj hread
    obtain ⟨mode, l, hmode, hrest⟩ := exec_bind_eq_ok hrest
    rw [fullMode, exec_look] at hmode
    obtain ⟨-, rfl⟩ := Prod.mk.inj hmode
    obtain ⟨⟨⟩, l, hcopy, hrest⟩ := exec_bind_eq_ok hrest
    obtain ⟨c, hcopying, rfl⟩ := exec_perform_eq_ok hcopy
    rw [exec_pure] at hrest
    obtain ⟨hx, rfl⟩ := Prod.mk.inj hrest
    obtain rfl := Except.ok.inj hx
    exact ⟨m, c, hmake, rfl, rfl, hbytes, writing_of_copying hbytes hcopying, rfl⟩

end Backup

/-- The marker of a session that is given the number `n` on the host `h`. -/
def Instances.numbered (i : Instances) (entry workingDirectory : Path)
    (language : Preview.Language) (backup : Option Backup) (h : Host) (n : Nat) : Marker where
  entry := entry
  workingDirectory := workingDirectory
  file := i.directory.child (Marker.nameOf n)
  language := .str language.name
  createdAt := .str h.now
  processId := h.processId
  fileMode := match backup with
    | some b => .int b.mode
    | none => .null
  backup := backup.map (·.copy)

namespace Marker

/-- What a marker's file says. -/
def content (m : Marker) : List UInt8 := Text.toBytes (m.toJson.write Json.spaced)

/-- Writes a marker. -/
def record (m : Marker) : Work Marker := do
  match ← attempt (writeText m.file (m.toJson.write Json.spaced)) with
  | .ok () => return m
  | .error e => throw (.backup (.marker m.file e))

variable {m : Marker} {h : Host}

theorem record_ok {c : Change} (hw : h.writing m.file m.content = .ok c) :
    m.record.exec h = (.ok m, h.change c) :=
  exec_bind_ok (exec_attempt_ok (exec_perform_ok hw))

theorem record_error {e : Error} (hw : h.writing m.file m.content = .error e) :
    ∃ e', m.record.exec h = (.error e', h) := by
  have hattempt := exec_attempt (writeText m.file (m.toJson.write Json.spaced)) h
  rw [writeText, writeBytes, exec_perform, ← content, hw] at hattempt
  cases e with
  | system n => exact ⟨_, exec_bind_ok hattempt⟩
  | _ => exact ⟨_, exec_bind_error hattempt⟩

end Marker

/-- A marker is written under a name that is given out. -/
theorem Instances.writeMarker_exec {h m l : Host} {n : Nat} (i : Instances)
    (entry workingDirectory : Path) (language : Preview.Language) (backup : Option Backup)
    (hmake : (makeDirectories i.directory).exec h = (.ok (), m))
    (hissue : issue.exec m = (.ok n, l)) :
    (i.writeMarker entry workingDirectory language backup).exec h =
      (i.numbered entry workingDirectory language backup m n).record.exec l := by
  unfold Instances.writeMarker
  rewrite [exec_bind_ok hmake, exec_bind_ok (exec_get m), exec_bind_ok hissue]
  rfl

/-! ## The vault -/

/-- Where a session puts things aside. -/
structure Vault where
  /-- The host before the session. -/
  start : Host
  /-- The directory of markers and copies, and its place. -/
  directory : Path
  base : Place

namespace Vault

variable (v : Vault)

/-- The host with the directory. -/
def made : Host := ((makeDirectories v.directory).exec v.start).2

def copyName : String := Backup.copyName (v.start.issued + 1)

def copy : Path := v.directory.child v.copyName

def copyPlace : Place := v.base ++ [v.copyName]

def markName : String := Marker.nameOf (v.start.issued + 2)

def mark : Path := v.directory.child v.markName

def markPlace : Place := v.base ++ [v.markName]

/-- A name in the directory leads to a file there, or to nothing. -/
structure Reaches (name : String) (h : Host) : Prop where
  opens : h.Opens v.directory v.base
  fit : (h.absolute v.directory).IsFit name
  leaf : h.store.IsLeaf (v.base ++ [name])

/-- The copy has a content, and the marker can be found if there is one. -/
structure Holds (content : List UInt8) (marker : Option Marker) (h : Host) : Prop where
  copy : v.Reaches v.copyName h
  kept : ∃ mode, h.store.seen v.copyPlace = some (.file content mode (.counted 0))
  marker : ∀ m, marker = some m → m.file = v.mark ∧ v.Reaches v.markName h

/-- Nothing in the directory is changed, nor where its path leads. -/
structure Spares (h k : Host) : Prop where
  workingDirectory : k.workingDirectory = h.workingDirectory
  opens : h.Opens v.directory v.base → k.Opens v.directory v.base
  seen : ∀ q, v.base <+: q → k.store.seen q = h.store.seen q

/-- The directory can be made, and the two names are not in use there. -/
structure IsReady : Prop where
  opens : v.made.Opens v.directory v.base
  copyFree : v.made.store.seen v.copyPlace = none
  markFree : v.made.store.seen v.markPlace = none

variable {v} {h k : Host} {P : Place → Prop} {name : String} {content : List UInt8}
  {marker : Option Marker} {c : Change}

theorem copyPlace_ne_markPlace : v.copyPlace ≠ v.markPlace := by
  intro heq
  exact Marker.copyName_ne_nameOf _ _ (List.singleton_inj.mp (List.append_cancel_left heq))

/-! ### Leaving the directory alone -/

theorem Spares.refl (h : Host) : v.Spares h h := ⟨rfl, id, fun _ _ => rfl⟩

theorem Spares.trans {l : Host} (hk : v.Spares h k) (kl : v.Spares k l) : v.Spares h l :=
  ⟨kl.workingDirectory.trans hk.workingDirectory, kl.opens ∘ hk.opens,
    fun q hq => (kl.seen q hq).trans (hk.seen q hq)⟩

/-- A change neither in the directory nor of anything that it lies in spares it, if its path is the one
of its place. -/
theorem spares_of_apart (hpath : v.directory = Store.pathOf v.base) (hup : ".." ∉ v.base)
    (hon : ¬ c.place <+: v.base) (hin : ¬ v.base <+: c.place) : v.Spares h (h.change c) := by
  have hseen : ∀ q, q <+: v.base ∨ v.base <+: q → (c.apply h.store).seen q = h.store.seen q := by
    intro q hq
    have hbelow : ¬ c.place <+: q := fun hc => hq.elim (fun hq => hon (hc.trans hq))
      fun hq => (List.prefix_or_prefix_of_prefix hc hq).elim hon hin
    have hne : q ≠ c.place := fun heq => hbelow (heq ▸ List.prefix_rfl)
    exact (c.seen_apply_of_ne h.store hne).resolve_right fun hgone => hbelow hgone.1
  refine ⟨rfl, fun ho => ?_, fun q hq => hseen q (Or.inr hq)⟩
  rw [hpath] at ho ⊢
  refine ho.of_isWay hup fun r hr => ?_
  obtain ⟨mode, hd⟩ := ho.isWay r hr
  exact ⟨mode, (hseen r (Or.inl hr)).trans hd⟩

theorem spares_foldl {cs : List Change} (hcs : ∀ c ∈ cs, ∀ h : Host, v.Spares h (h.change c))
    (h : Host) : v.Spares h (cs.foldl Host.change h) := by
  induction cs generalizing h with
  | nil => exact .refl h
  | cons c cs ih =>
    exact (hcs c List.mem_cons_self h).trans (ih (fun d hd => hcs d (List.mem_cons_of_mem c hd)) _)

/-! ### Finding what was put aside -/

namespace Reaches

theorem leads (hr : v.Reaches name h) : h.Leads (v.directory.child name) (v.base ++ [name]) :=
  hr.opens.leads_child hr.fit fun _ hlink => hr.leaf.ne_link hlink

theorem isSound (hr : v.Reaches name h) : (v.directory.child name).isSound = true := hr.leads.sound

theorem of_differs (hr : v.Reaches name h) (hd : DiffersOn P h k) : v.Reaches name k :=
  ⟨hd.opens hr.opens, by rw [hd.absolute]; exact hr.fit, hd.ways.isLeaf hr.leaf⟩

theorem of_spares (hr : v.Reaches name h) (hs : v.Spares h k) : v.Reaches name k where
  opens := hs.opens hr.opens
  fit := by
    rw [Host.absolute, hs.workingDirectory]
    exact hr.fit
  leaf := hr.leaf.of_seen_eq (hs.seen _ (List.prefix_append _ _)).symm

/-- What a name in the directory leads to can be removed. -/
theorem discard (hr : v.Reaches name h) :
    ∃ k, (Work.discard (v.directory.child name)).exec h = (.ok (), k) ∧
      DiffersOn (· = v.base ++ [name]) h k ∧ k.logs = h.logs ∧
      k.store.seen (v.base ++ [name]) = none := by
  obtain ⟨k, hk, hdirectory, hdiffers, hgone⟩ := discard_differsAt hr.leads hr.leaf
  have hd : DiffersOn (· = v.base ++ [name]) h k := .of_differsAt hdirectory hdiffers rfl
  have hlogs : k.logs = h.logs := by
    have hexec := discard_exec hr.leads hr.leaf
    rw [hk] at hexec
    obtain ⟨-, rfl⟩ := Prod.mk.inj hexec
    split <;> rfl
  exact ⟨k, hk, hd, hlogs, hgone⟩

end Reaches

namespace Holds

theorem of_differs (hv : v.Holds content marker h) (hd : DiffersOn P h k) (hP : ¬ P v.copyPlace) :
    v.Holds content marker k where
  copy := hv.copy.of_differs hd
  kept := by
    rw [hd.others _ hP]
    exact hv.kept
  marker m hm := ⟨(hv.marker m hm).1, (hv.marker m hm).2.of_differs hd⟩

theorem of_spares (hv : v.Holds content marker h) (hs : v.Spares h k) :
    v.Holds content marker k where
  copy := hv.copy.of_spares hs
  kept := by
    rw [hs.seen v.copyPlace (List.prefix_append _ _)]
    exact hv.kept
  marker m hm := ⟨(hv.marker m hm).1, (hv.marker m hm).2.of_spares hs⟩

theorem withLogs (hv : v.Holds content marker h) (logs : List LogEntry) :
    v.Holds content marker (h.withLogs logs) :=
  hv.of_differs ((DiffersOn.refl (fun _ => False) h).withLogs logs) id

theorem bytes (hv : v.Holds content marker h) : h.bytes v.copy = .ok content := by
  obtain ⟨mode, hkept⟩ := hv.kept
  exact hv.copy.leads.bytes_of_file hkept

end Holds

/-! ### Putting aside -/

theorem grows : v.start.Grows v.made := makeDirectories_grows v.directory v.start

/-- A backup of an entry file as it was in the beginning, with its copy in the vault. -/
structure Keeps (v : Vault) (entry : Path) (b : Backup) : Prop where
  same : b.entry = entry
  copy : b.copy = v.copy
  original : v.start.bytes entry = .ok b.content

/-- A session has copied its entry file, and has not left its marker yet. -/
structure Captures (v : Vault) (entry : Path) (b : Backup) (h : Host) : Prop
    extends v.Keeps entry b where
  holds : v.Holds b.content none h
  apart : ¬ h.Targets entry v.copyPlace
  markFree : h.store.seen v.markPlace = none
  issued : h.issued = v.start.issued + 1

/-- A file that is written under a name in the directory. -/
theorem reaches_of_writing (ho : h.Opens v.directory v.base) (hup : name ≠ "..")
    (hfree : h.store.seen (v.base ++ [name]) = none)
    (hw : h.writing (v.directory.child name) content = .ok c) :
    v.Reaches name (h.change c) ∧ DiffersOn (· = v.base ++ [name]) h (h.change c) ∧
      ∃ mode, (h.change c).store.seen (v.base ++ [name]) = some (.file content mode (.counted 0)) := by
  have hlink : ∀ target, h.store.seen (v.base ++ [name]) ≠ some (.link target) := by
    intro target hlink
    rw [hfree] at hlink
    cases hlink
  obtain ⟨q, ht, hleaf⟩ := leaf_of_writing hw
  have hfit := ho.isFit_of_targets hup ht
  obtain rfl := ho.targets_child hup hlink ht
  have hd : DiffersOn (· = v.base ++ [name]) h (h.change c) :=
    .of_writing (P := (· = v.base ++ [name])) ho hup hlink rfl hw
  have hreaches : v.Reaches name h := ⟨ho, hfit, hleaf⟩
  obtain rfl := Except.ok.inj (hw.symm.trans (ht.writing_of_leaf hleaf content))
  refine ⟨hreaches.of_differs hd, hd, Leads.writtenMode (h.store.seen (v.base ++ [name])), ?_⟩
  show ((Change.write _ _ _).apply h.store).seen _ = _
  rw [Change.seen_write h.store _ content _ hleaf.ne_root, if_pos rfl]

/-- The entry file is there before the directory is made, and so it is the same then. -/
theorem bytes_start {entry : Path} (hthere : v.start.isNode (fun _ => true) entry = .ok true)
    (hb : v.made.bytes entry = .ok content) : v.start.bytes entry = .ok content ∧
      ∃ q, v.made.Targets entry q ∧ v.made.store.seen q ≠ none := by
  obtain ⟨q, n, hn, -⟩ := isNode_eq_true hthere
  obtain ⟨hs, hl, hg⟩ := node_eq_ok hn
  have he := (grows (v := v)).extends
  obtain ⟨r, mode, ht, hf⟩ := targets_of_bytes hb
  obtain ⟨cs, hmade, -⟩ := (grows (v := v)).eq
  have hworking : v.made.workingDirectory = v.start.workingDirectory := by rw [hmade]
  have hq : v.made.Targets entry q := ⟨hs, by
    rw [Host.absolute, hworking]
    exact hl.of_extends he⟩
  obtain rfl := hq.unique ht
  have hfile : v.start.store.seen q = some (.file content mode (.counted 0)) := by
    rw [← he.seen_eq, hf]
    rintro ⟨mode', hd⟩
    cases hf.symm.trans hd
  refine ⟨Targets.bytes_of_file ⟨hs, hl⟩ hfile, q, hq, ?_⟩
  rw [hf]
  exact Option.some_ne_none _

theorem IsReady.capture (hv : v.IsReady) {entry workingDirectory : Path} {logs : List LogEntry}
    (hthere : v.start.isNode (fun _ => true) entry = .ok true) {b : Backup}
    (hc : (Backup.capture v.directory entry workingDirectory).exec (v.start.withLogs logs) =
      (.ok b, k)) : v.Captures entry b k := by
  obtain ⟨logs', hmade⟩ := makeDirectories_blind v.directory v.start logs
  obtain ⟨m, c, hmake, hentry, hcopy, hbytes, hwriting, rfl⟩ := Backup.capture_eq_ok hc
  obtain rfl : m = v.made.withLogs logs' := (Prod.mk.inj (hmake.symm.trans hmade)).2
  have hissued : (v.made.withLogs logs').issued = v.start.issued := by
    obtain ⟨cs, hgrown, -⟩ := (grows (v := v)).eq
    rw [hgrown]
    rfl
  rw [hissued] at hcopy ⊢
  let h : Host := { v.made.withLogs logs' with issued := v.start.issued + 1 }
  have hopens : h.Opens v.directory v.base :=
    ⟨hv.opens.sound, hv.opens.leads, hv.opens.isDirectory⟩
  have hwriting' : h.writing (v.directory.child v.copyName) b.content = .ok c := by
    rw [hcopy] at hwriting
    exact hwriting
  obtain ⟨hreaches, hd, hkept⟩ :=
    reaches_of_writing hopens (Backup.isProper_copyName _).up hv.copyFree hwriting'
  obtain ⟨horiginal, q, hq, hthere⟩ := bytes_start hthere hbytes
  refine ⟨⟨hentry, hcopy, horiginal⟩, ⟨hreaches, hkept, fun _ hm => nomatch hm⟩, fun ht => ?_, ?_,
    rfl⟩
  · have hsame : h.Targets entry v.copyPlace := hd.targets_iff.mp ht
    have hq' : h.Targets entry q := ⟨hq.sound, hq.leads⟩
    rw [hq'.unique hsame] at hthere
    exact hthere hv.copyFree
  · rw [hd.others _ copyPlace_ne_markPlace.symm]
    exact hv.markFree

/-- How a session leaves its marker: it fails, or the marker is there. -/
theorem Captures.writeMarker {entry : Path} {b : Backup} (hb : v.Captures entry b h)
    (workingDirectory : Path) (language : Preview.Language) (backup : Option Backup) :
    ∃ x k, (Instances.writeMarker ⟨v.directory⟩ entry workingDirectory language backup).exec h =
      (x, k) ∧ v.Holds b.content x.toOption k ∧ ¬ k.Targets entry v.copyPlace := by
  have hsame := makeDirectories_of_opens hb.holds.copy.opens
  let l : Host := { h with issued := v.start.issued + 2 }
  have hholds : v.Holds b.content none l :=
    ⟨⟨⟨hb.holds.copy.opens.sound, hb.holds.copy.opens.leads, hb.holds.copy.opens.isDirectory⟩,
      hb.holds.copy.fit, hb.holds.copy.leaf⟩, hb.holds.kept, fun _ hm => nomatch hm⟩
  have hapart : ¬ l.Targets entry v.copyPlace := fun ht => hb.apart ⟨ht.sound, ht.leads⟩
  rcases hmake : (makeDirectories v.directory).exec h with ⟨e | ⟨⟩, m⟩
  · rw [hmake] at hsame
    obtain rfl : m = h := hsame
    exact ⟨.error e, m, exec_bind_error hmake, hb.holds, hb.apart⟩
  rw [hmake] at hsame
  obtain rfl : m = h := hsame
  have hissue : issue.exec m = (.ok (v.start.issued + 2), l) := by
    rw [exec_issue, hb.issued]
  rw [Instances.writeMarker_exec ⟨v.directory⟩ entry workingDirectory language backup hmake hissue]
  generalize hmarker : Instances.numbered _ entry workingDirectory language backup _ _ = marker
  have hfile : marker.file = v.directory.child v.markName := by
    rw [← hmarker]
    rfl
  cases hw : l.writing marker.file marker.content with
  | error e =>
    obtain ⟨e', hexec⟩ := Marker.record_error hw
    exact ⟨_, _, hexec, hholds, hapart⟩
  | ok c =>
    have hexec := Marker.record_ok hw
    rw [hfile] at hw
    obtain ⟨hreaches, hd, -⟩ :=
      reaches_of_writing hholds.copy.opens (Marker.isProper_nameOf _).up hb.markFree hw
    have hkept := hholds.of_differs hd copyPlace_ne_markPlace
    refine ⟨_, _, hexec, ⟨hkept.copy, hkept.kept, ?_⟩, fun ht => hapart (hd.targets_iff.mp ht)⟩
    rintro marker' ⟨⟩
    exact ⟨hfile, hreaches⟩

/-! ### Clearing the vault -/

/-- Removes the marker if there is one. -/
def clear : Option Marker → Work Unit
  | some m => Instances.removeMarker m
  | none => pure ()

theorem clear_fails {S : Error → Prop} (hs : ∀ m, marker = some m → m.file.isSound = true) :
    Fails S (clear marker) := by
  cases marker with
  | none => exact fails_pure _
  | some m => exact Instances.removeMarker_fails (hs m rfl)

/-- A marker that is where it was put is removed, and nothing else is changed. -/
theorem clear_exec (hm : ∀ m, marker = some m → m.file = v.mark ∧ v.Reaches v.markName h) :
    ∃ k, (clear marker).exec h = (.ok (), k) ∧ DiffersOn (· = v.markPlace) h k ∧ k.logs = h.logs ∧
      ∀ m, marker = some m → k.node m.file = .error (.system .noEntry) := by
  cases marker with
  | none => exact ⟨h, rfl, .refl _ h, rfl, fun _ hm => nomatch hm⟩
  | some m =>
    obtain ⟨hfile, hreaches⟩ := hm m rfl
    obtain ⟨k, hk, hd, hlogs, hgone⟩ := hreaches.discard
    refine ⟨k, ?_, hd, hlogs, ?_⟩
    · show (Instances.removeMarker m).exec h = _
      rw [Instances.removeMarker, hfile, exec_bind_ok (exec_attempt_ok (w := Work.discard v.mark) hk)]
      rfl
    · rintro m' ⟨⟩
      rw [hfile]
      exact (hreaches.of_differs hd).leads.node_of_none hgone

theorem Reaches.discard_exec (hr : v.Reaches v.copyName h) {b : Backup} (hb : b.copy = v.copy) :
    ∃ k, b.discard.exec h = (.ok (), k) ∧ DiffersOn (· = v.copyPlace) h k ∧
      k.store.seen v.copyPlace = none := by
  obtain ⟨k, hk, hd, -, hgone⟩ := hr.discard
  refine ⟨k, ?_, hd, hgone⟩
  rw [Backup.discard, hb, exec_bind_ok (exec_attempt_ok (w := Work.discard v.copy) hk)]
  rfl

end Vault
end Vitrine
