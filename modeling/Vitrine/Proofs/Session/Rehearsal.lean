import Vitrine.Proofs.Files.RealPath
import Vitrine.Proofs.Preview.Standpoint
import Vitrine.Proofs.Session.Polling
import Vitrine.Proofs.Session.Restoration

/-!
# The rehearsal of a session

To render a preview is to rehearse a session: the same entry file is found and the same code is
generated. The session looks at its preview file under the real path, and not before it has left a copy of
the entry file and its marker; neither makes a difference for a preview file whose path leads over no link
at its end (`render_rehearses`).
-/
namespace Vitrine

open Work

/-! ## What is left behind before code is generated -/

namespace Instances

variable {i : Instances} {h k m : Host} {P : Place → Prop} {entry workingDirectory : Path}

/-- The host with the directory of markers. -/
def made (i : Instances) (h : Host) : Host := ((Work.makeDirectories i.directory).exec h).2

/-- The places of the copy and of the marker that the next session leaves. -/
def Reserves (i : Instances) (h : Host) (q : Place) : Prop :=
  ∃ base name, (i.made h).Opens i.directory base ∧ q = base ++ [name] ∧
    name ∈ [Backup.copyName (h.issued + 1), Marker.nameOf (h.issued + 1), Marker.nameOf (h.issued + 2)]

/-- Nothing is there yet. -/
def IsFresh (i : Instances) (h : Host) : Prop := ∀ q, i.Reserves h q → (i.made h).store.seen q = none

theorem made_withLogs (i : Instances) (h : Host) (logs : List LogEntry) :
    ∃ logs', i.made (h.withLogs logs) = (i.made h).withLogs logs' := by
  obtain ⟨logs', hl⟩ := makeDirectories_blind i.directory h logs
  exact ⟨logs', congrArg Prod.snd hl⟩

theorem reserves_withLogs {logs : List LogEntry} {q : Place} :
    i.Reserves (h.withLogs logs) q ↔ i.Reserves h q := by
  obtain ⟨logs', hl⟩ := i.made_withLogs h logs
  rw [Reserves, hl]
  exact ⟨fun ⟨base, name, ho, hq⟩ => ⟨base, name, ⟨ho.sound, ho.leads, ho.isDirectory⟩, hq⟩,
    fun ⟨base, name, ho, hq⟩ => ⟨base, name, ⟨ho.sound, ho.leads, ho.isDirectory⟩, hq⟩⟩

theorem IsFresh.withLogs (hf : i.IsFresh h) (logs : List LogEntry) : i.IsFresh (h.withLogs logs) := by
  intro q hq
  obtain ⟨logs', hl⟩ := i.made_withLogs h logs
  rw [hl]
  exact hf q (reserves_withLogs.mp hq)

theorem made_issued (i : Instances) (h : Host) : (i.made h).issued = h.issued := by
  obtain ⟨cs, hk, -⟩ := (makeDirectories_grows i.directory h).eq
  rw [made, hk]

/-- The directory of markers is there once it was made. -/
theorem opens_made (hmake : (Work.makeDirectories i.directory).exec h = (.ok (), m)) :
    m = i.made h ∧ ∃ base, (i.made h).Opens i.directory base := by
  obtain rfl : i.made h = m := congrArg Prod.snd hmake
  exact ⟨rfl, makeDirectories_opens i.directory h _ _ hmake⟩

/-- A name in the directory of markers that stands for no link, at some of the places. -/
def Offers (i : Instances) (P : Place → Prop) (h : Host) (name : String) : Prop :=
  ∀ base, (i.made h).Opens i.directory base → P (base ++ [name]) ∧
    ∀ target, (i.made h).store.seen (base ++ [name]) ≠ some (.link target)

/-- A file is written under such a name. -/
theorem Offers.differs {name : String} {base : Place} {n : Nat} {content : List UInt8} {c : Change}
    (hn : i.Offers P h name) (ho : (i.made h).Opens i.directory base) (hup : name ≠ "..")
    (hw : Host.writing { i.made h with issued := n } (i.directory.child name) content = .ok c) :
    Host.DiffersOn P (i.made h) (Host.change { i.made h with issued := n } c) := by
  let m : Host := { i.made h with issued := n }
  have ho' : m.Opens i.directory base := ⟨ho.sound, ho.leads, ho.isDirectory⟩
  obtain ⟨hp, hlink⟩ := hn base ho
  have hd : Host.DiffersOn P m (m.change c) := .of_writing ho' hup hlink hp hw
  exact ⟨hd.workingDirectory, hd.ways, hd.others⟩

/-- A marker is a file in the directory of markers. -/
theorem writeMarker_differs {language : Preview.Language} {backup : Option Backup} {marker : Marker}
    (hn : i.Offers P h (Marker.nameOf (h.issued + 1)))
    (hw : (i.writeMarker entry workingDirectory language backup).exec h = (.ok marker, k)) :
    Host.DiffersOn P (i.made h) k := by
  unfold Instances.writeMarker at hw
  obtain ⟨_, m, hmake, hw⟩ := exec_bind_eq_ok hw
  obtain ⟨rfl, base, ho⟩ := opens_made hmake
  rw [exec_bind_ok (exec_get _), exec_bind_ok (exec_issue _), made_issued] at hw
  obtain ⟨written, l, hattempt, hw⟩ := exec_bind_eq_ok hw
  cases written with
  | error e => cases hw
  | ok _ =>
    cases hw
    obtain ⟨c, hc, rfl⟩ := exec_perform_eq_ok (exec_attempt_eq_ok hattempt)
    exact hn.differs ho (Marker.isProper_nameOf _).up hc

/-- A copy is a file in the directory of markers, too. -/
theorem capture_differs {b : Backup} (hn : i.Offers P h (Backup.copyName (h.issued + 1)))
    (hc : (Backup.capture i.directory entry workingDirectory).exec h = (.ok b, k)) :
    (∃ base, (i.made h).Opens i.directory base) ∧ Host.DiffersOn P (i.made h) k ∧
      k.issued = h.issued + 1 := by
  rw [Backup.capture] at hc
  obtain ⟨_, m, hmake, hc⟩ := exec_bind_eq_ok hc
  obtain ⟨rfl, base, ho⟩ := opens_made hmake
  rw [exec_bind_ok (exec_issue _), made_issued] at hc
  obtain ⟨kept, l, hattempt, hc⟩ := exec_bind_eq_ok hc
  cases kept with
  | error e =>
    obtain ⟨_, _, _, hthrow⟩ := exec_bind_eq_ok hc
    cases hthrow
  | ok kept =>
    obtain rfl : l = k := by
      obtain ⟨content, mode⟩ := kept
      exact congrArg Prod.snd hc
    obtain ⟨content, l₁, hread, hrest⟩ := exec_bind_eq_ok (exec_attempt_eq_ok hattempt)
    obtain ⟨mode, l₂, hmode, hrest⟩ := exec_bind_eq_ok hrest
    obtain ⟨_, l₃, hcopy, hrest⟩ := exec_bind_eq_ok hrest
    rw [readBytes, exec_look] at hread
    rw [fullMode, exec_look] at hmode
    obtain ⟨hbytes, rfl⟩ := Prod.mk.inj hread
    obtain ⟨-, rfl⟩ := Prod.mk.inj hmode
    obtain ⟨c, hcopying, rfl⟩ := exec_perform_eq_ok hcopy
    have hwriting := Host.writing_of_copying hbytes hcopying
    obtain rfl := congrArg Prod.snd hrest
    exact ⟨⟨base, ho⟩, hn.differs ho (Backup.isProper_copyName _).up hwriting, rfl⟩

end Instances

namespace Session

open Instances

variable {σ : Type} {script : Script σ} {t u : Scene σ} {h k : Host} {entry file : Path}
  {language : Preview.Language} {settings : Settings} {directory : Option Path}

theorem leaveMarker_eq_ok {s : Session} (he : (leaveMarker entry language s).exec t = (.ok (), u)) :
    ∃ marker k, (s.instances.writeMarker entry s.settings.workingDirectory language
      t.session.backup).exec t.host = (.ok marker, k) ∧
      u = { t with host := k, session := { t.session with marker := some marker } } := by
  rw [leaveMarker, Act.exec_bind_ok (Act.exec_session t)] at he
  obtain ⟨marker, t₁, hwork, he⟩ := Act.exec_bind_eq_ok he
  obtain ⟨k, hw, rfl⟩ := Act.exec_work_eq_ok hwork
  exact ⟨marker, k, hw, (congrArg Prod.snd he).symm⟩

/-- What is left behind before code is generated: directories, a copy and a marker. -/
theorem prepare_adds (hfresh : t.session.instances.IsFresh t.host)
    (hp : (prepare entry language).exec t = (.ok (), u)) :
    Host.Adds (t.session.instances.Reserves t.host) t.host u.host ∧
      u.session.configFile = t.session.configFile := by
  generalize hi : t.session.instances = i at hfresh
  have hgrows := makeDirectories_grows i.directory t.host
  have hworking : (i.made t.host).workingDirectory = t.host.workingDirectory := by
    obtain ⟨cs, hk, -⟩ := hgrows.eq
    rw [made, hk]
  -- Nothing is in the places of the names that are given out next, and so no link is.
  have hoffers : ∀ name ∈ [Backup.copyName (t.host.issued + 1), Marker.nameOf (t.host.issued + 1),
      Marker.nameOf (t.host.issued + 2)], i.Offers (i.Reserves t.host) t.host name := by
    intro name hname base ho
    have hres : i.Reserves t.host (base ++ [name]) := ⟨base, name, ho, rfl, hname⟩
    refine ⟨hres, fun target ht => ?_⟩
    rw [hfresh _ hres] at ht
    cases ht
  rw [prepare, Act.exec_bind_ok (Act.exec_session t)] at hp
  obtain ⟨there, t₁, hexists, hp⟩ := Act.exec_bind_eq_ok hp
  obtain ⟨k, hlook, rfl⟩ := Act.exec_work_eq_ok hexists
  rw [exists_, exec_look] at hlook
  obtain rfl := congrArg Prod.snd hlook
  cases there with
  | false =>
    obtain ⟨marker, k, hw, rfl⟩ := leaveMarker_eq_ok hp
    rw [hi] at hw
    have hmarked := writeMarker_differs (hoffers _ (by simp)) hw
    exact ⟨⟨_, hworking, hgrows.extends, hmarked, hfresh⟩, rfl⟩
  | true =>
    obtain ⟨b, t₂, hcapture, hp⟩ := Act.exec_bind_eq_ok hp
    obtain ⟨l, hc, rfl⟩ := Act.exec_work_eq_ok hcapture
    rw [Act.exec_bind_ok (Act.exec_setSession _ _)] at hp
    obtain ⟨marker, k, hw, rfl⟩ := leaveMarker_eq_ok hp
    rw [hi] at hc hw
    obtain ⟨⟨base, ho⟩, hd, hissued⟩ := capture_differs (hoffers _ (by simp)) hc
    -- The directory of markers is there by now, and the marker gets the number behind that of the copy.
    have hl : i.made l = l := makeDirectories_of_opens (hd.opens ho)
    have hmarked : Host.DiffersOn (i.Reserves t.host) (i.made l) k := by
      refine writeMarker_differs (fun base' ho' => ?_) hw
      rw [hl] at ho' ⊢
      obtain rfl := (hd.opens ho).unique ho'
      rw [hissued]
      obtain ⟨hres, hlink⟩ := hoffers (Marker.nameOf (t.host.issued + 1 + 1)) (by simp) base ho
      exact ⟨hres, fun target ht => hlink target (hd.ways.symm.link ht)⟩
    rw [hl] at hmarked
    exact ⟨⟨_, hworking, hgrows.extends, hd.trans hmarked, hfresh⟩, rfl⟩

/-! ## A session until it writes code -/

/-- What a session does before it generates code: it finds its entry file, which no other session may
own, and leaves a copy of it and a marker. -/
def prepared : Act σ (Path × Preview.Language) := do
  let s ← Act.session
  let x ← Act.work (Preview.resolveEntry s.configFile s.settings s.entryDirectory)
  Act.setSession fun s => { s with entry := some (x.1, x.2) }
  let owned ← Act.work (s.instances.isOwned x.1)
  if owned then
    Act.enter .aborted
    throw (.conflict x.1)
  else
    Act.enter .installing
    prepare x.1 x.2
    return x

/-- What is left to do then. -/
def proceed (script : Script σ) (entry : Path) (language : Preview.Language) : Act σ Unit := do
  let outcome ← Act.outcome do
    generateAndStart script entry language
    Act.enter .active
    supervise script (waitBound script) .unset
  tearDown script entry
  report outcome

/-- What is left to do with the code. -/
def deploy (script : Script σ) (entry : Path) (code : String) : Act σ Unit := do
  let outcome ← Act.outcome do
    putGenerated quiet entry code
    let host := (← get).host
    Act.setSession fun s => { s with watcher := some (Watcher.start host [s.configFile]) }
    start script
    Act.enter .active
    supervise script (waitBound script) .unset
  tearDown script entry
  report outcome

/-- What a session that is prepared has found and done. -/
theorem prepared_eq_ok : prepared.exec t = (.ok (entry, language), u) ↔
    ∃ k, (Preview.resolveEntry t.session.configFile t.session.settings
        t.session.entryDirectory).outcome t.host = .ok (entry, language) ∧
      (t.session.instances.isOwned entry).exec t.host = (.ok false, k) ∧
      (prepare entry language).exec { t with
        host := k
        session := { t.session with entry := some (entry, language), phase := .installing } } =
          (.ok (), u) := by
  rw [prepared, Act.exec_bind_ok (Act.exec_session t)]
  constructor
  · intro hp
    obtain ⟨x, t₁, hresolve, hp⟩ := Act.exec_bind_eq_ok hp
    rw [Act.exec_work_still (Preview.resolveEntry_still _ _ _)] at hresolve
    obtain ⟨hx, rfl⟩ := Prod.mk.inj hresolve
    rw [Act.exec_bind_ok (Act.exec_setSession _ _)] at hp
    obtain ⟨owned, t₂, howned, hp⟩ := Act.exec_bind_eq_ok hp
    obtain ⟨k, hk, rfl⟩ := Act.exec_work_eq_ok howned
    cases owned with
    | true => cases hp
    | false =>
      rw [if_neg Bool.false_ne_true, Act.exec_bind_ok (Act.exec_enter _ _)] at hp
      obtain ⟨_, t₃, hprepare, hp⟩ := Act.exec_bind_eq_ok hp
      cases hp
      exact ⟨k, hx, hk, hprepare⟩
  · rintro ⟨k, hresolved, howned, hprepare⟩
    let t₁ : Scene σ := { t with session := { t.session with entry := some (entry, language) } }
    have howned' : (Act.work (t.session.instances.isOwned entry)).exec t₁ =
        (.ok false, { t₁ with host := k }) := Act.exec_work_of howned
    rw [Act.exec_bind_ok (resolve_exec hresolved), Act.exec_bind_ok (Act.exec_setSession _ _),
      Act.exec_bind_ok howned', if_neg Bool.false_ne_true, Act.exec_bind_ok (Act.exec_enter _ _),
      Act.exec_bind_ok hprepare]
    rfl

/-- Then the run is what is left to do. -/
theorem run_of_prepared (script : Script σ) (hp : prepared.exec t = (.ok (entry, language), u)) :
    (run script).exec t = (proceed script entry language).exec u := by
  obtain ⟨k, hresolved, howned, hprepare⟩ := prepared_eq_ok.mp hp
  let t₁ : Scene σ := { t with session := { t.session with entry := some (entry, language) } }
  have howned' : (Act.work (t.session.instances.isOwned entry)).exec t₁ =
      (.ok false, { t₁ with host := k }) := Act.exec_work_of howned
  rw [run_eq, Act.exec_bind_ok (Act.exec_session t), Act.exec_bind_ok (resolve_exec hresolved),
    Act.exec_bind_ok (Act.exec_setSession _ _), Act.exec_bind_ok howned', if_neg Bool.false_ne_true,
    Act.exec_bind_ok (Act.exec_enter _ _)]
  refine Act.exec_outcome_congr ?_ _
  rw [occupy, install_eq_prepare, bind_assoc, Act.exec_bind_ok hprepare]

/-- A session that cannot generate its code is torn down. -/
theorem proceed_of_error {e : Error}
    (hg : (Preview.generate u.session.configFile entry language).outcome u.host = .error e) :
    (proceed script entry language).exec u =
      (tearDown script entry >>= fun _ => throw e : Act σ Unit).exec u := by
  have hwork : (Act.work (Preview.generate u.session.configFile entry language) : Act σ String).exec u =
      (.error e, u) := (Act.exec_work_still (Preview.generate_moves _ _ _) u).trans (by rw [hg])
  have hfails : (do
      generateAndStart script entry language
      Act.enter .active
      supervise script (waitBound script) .unset : Act σ Int).exec u = (.error e, u) := by
    refine Act.exec_bind_error ?_
    rw [generateAndStart]
    refine Act.exec_bind_error ?_
    rw [writeGenerated, Act.exec_bind_ok (Act.exec_session u), Act.exec_bind_error hwork]
  rw [proceed, Act.exec_bind_ok (Act.exec_outcome _ u), hfails]
  rfl

/-- Code that was generated is what the session works with. -/
theorem proceed_of_ok {code : String}
    (hg : (Preview.generate u.session.configFile entry language).outcome u.host = .ok code) :
    (proceed script entry language).exec u = (deploy script entry code).exec u := by
  have hwork : (Act.work (Preview.generate u.session.configFile entry language) : Act σ String).exec u =
      (.ok code, u) := (Act.exec_work_still (Preview.generate_moves _ _ _) u).trans (by rw [hg])
  have hwrite : (writeGenerated entry language).exec u = (putGenerated quiet entry code).exec u := by
    show (writeGeneratedBetween quiet entry language).exec u = _
    rw [writeGeneratedBetween, Act.exec_bind_ok (Act.exec_session u), Act.exec_bind_ok hwork]
    rfl
  refine Act.exec_outcome_congr ?_ _
  rw [generateAndStart, bind_assoc, Act.exec_bind, hwrite, ← Act.exec_bind]
  simp only [bind_assoc]

/-- The host on which a prepared session generates its code. -/
theorem prepared_adds (hfresh : t.session.instances.IsFresh t.host)
    (hp : prepared.exec t = (.ok (entry, language), u)) :
    Host.Adds (t.session.instances.Reserves t.host) t.host u.host ∧
      u.session.configFile = t.session.configFile := by
  obtain ⟨k, -, howned, hprepare⟩ := prepared_eq_ok.mp hp
  obtain ⟨logs, hquiet⟩ := t.session.instances.isOwned_quiet entry t.host
  obtain rfl : t.host.withLogs logs = k := hquiet.symm.trans (congrArg Prod.snd howned)
  obtain ⟨⟨m, hw, he, hd, hfree⟩, hfile⟩ := prepare_adds (hfresh.withLogs logs) hprepare
  exact ⟨⟨m, hw, he, hd.mono fun q => reserves_withLogs.mp,
    fun q hq => hfree q (reserves_withLogs.mpr hq)⟩, hfile⟩

/-! ## The rehearsal -/

/-- How a run goes until code is written: what it writes where, or that it fails. -/
inductive Outset (script : Script σ) (t : Scene σ) : Result (Path × String) → Prop
  /-- It ends without an entry file. -/
  | unresolved {e : Error} (hrun : (run script).exec t = (.error e, t)) : Outset script t (.error e)
  /-- It has no code, and is torn down. -/
  | ungenerated {entry : Path} {language : Preview.Language} {e : Error} {u : Scene σ}
      (hprepared : prepared.exec t = (.ok (entry, language), u))
      (hrun : (run script).exec t = (tearDown script entry >>= fun _ => throw e : Act σ Unit).exec u) :
      Outset script t (.error e)
  /-- It writes its code. -/
  | written {entry : Path} {language : Preview.Language} {code : String} {u : Scene σ}
      (hprepared : prepared.exec t = (.ok (entry, language), u))
      (hrun : (run script).exec t = (deploy script entry code).exec u) :
      Outset script t (.ok (entry, code))

/-- A session that has found its entry file, which nobody owns, and does not get to its code all the same:
markers cannot be read, or the copy or the marker cannot be written. -/
def Hindered (t : Scene σ) : Prop :=
  ∃ x, (Preview.resolveEntry t.session.configFile t.session.settings
      t.session.entryDirectory).outcome t.host = .ok x ∧
    ((t.session.instances.isOwned x.1).exec t.host).1 ≠ .ok true ∧ ∃ e, (prepared.exec t).1 = .error e

/-- A preview file whose path leads, over no link at its end, where its real path leads, or one that
cannot be read at all. -/
inductive IsPlain (h : Host) (file : Path) : Prop
  | direct {parent : Path} {name : String} {q : Place} (hpath : file = parent.child name)
      (hup : name ≠ "..") (hfile : h.Leads file q) (hreal : h.Leads (Store.pathOf q) q)
  | unreadable (hfile : ∀ s, h.text file ≠ .ok s)
      (hreal : ∀ real, h.realPath file = .ok real → ∀ s, h.text real ≠ .ok s)

/-- What a preview file names lies behind no circle of links, and its component is not where a session
puts its copy or its marker. -/
structure Untangled (h : Host) (file : Path) (settings : Settings) (directory : Option Path) :
    Prop where
  source : ∀ c, (Preview.loadConfig file).outcome h = .ok c →
    ∃ q, h.Settles (file.parent.join (Path.ofText c.source)) q ∧
      ¬ (Instances.mk settings.temporary).Reserves h q
  output : ∀ c, (Preview.loadConfig file).outcome h = .ok c → ∀ p, c.outputPath? = some p →
    ∃ q, h.Settles (file.parent.join p) q
  entry : ∀ x, (Preview.resolveEntry file settings directory).outcome h = .ok x →
    ∃ q, h.Settles x.1 q

/-- Seen from a preview file and from its real path, all is the same. -/
structure SameSight (h : Host) (file real : Path) : Prop where
  text : h.text real = h.text file
  settles : ∀ p q, h.Settles (file.parent.join p) q → h.Settles (real.parent.join p) q
  sound : ∀ p, (real.parent.join p).isSound = (file.parent.join p).isSound

theorem sameSight_of_leads {parent : Path} {name : String} {q : Place} (hup : name ≠ "..")
    (hfile : h.Leads (parent.child name) q) (hreal : h.Leads (Store.pathOf q) q) :
    SameSight h (parent.child name) (Store.pathOf q) := by
  obtain ⟨base, hparent, rfl⟩ := hfile.settles_parent hup
  have hfileParent : (parent.child name).parent = parent := by simp [Path.child, Path.parent]
  have hrealParent : (Store.pathOf (base ++ [name])).parent = Store.pathOf base := by
    simp [Store.pathOf, Path.parent]
  have hsound : parent.isSound = true ∧ (Store.pathOf base).isSound = true := by
    have hs := hfile.sound
    have hs' := hreal.sound
    rw [show Store.pathOf (base ++ [name]) = (Store.pathOf base).child name from rfl] at hs'
    rw [Host.isSound_child, Bool.and_eq_true] at hs hs'
    exact ⟨hs.1, hs'.1⟩
  refine ⟨?_, fun p q hp => ?_, fun p => ?_⟩
  · rw [Host.text, Host.text, Host.bytes, Host.bytes, Host.node, Host.node, hfile.targets.reach,
      hreal.targets.reach]
  · rw [hfileParent] at hp
    rw [hrealParent]
    exact hp.rejoin hparent (Host.settles_pathOf hparent.isStraight)
  · rw [hfileParent, hrealParent, Path.isSound_join, Path.isSound_join, hsound.1, hsound.2]

theorem create_eq_ok {s : Session}
    (hc : (create file settings directory).exec h = (.ok s, k)) :
    h.realPath file = .ok s.configFile ∧ s.settings = settings ∧ s.entryDirectory = directory := by
  rw [create] at hc
  obtain ⟨real, l, hreal, hc⟩ := exec_bind_eq_ok hc
  rw [Work.realPath, exec_look] at hreal
  cases hc
  exact ⟨congrArg Prod.fst hreal, rfl, rfl⟩

section Preview

open Preview Result

variable {real : Path}

/-- A preview file that is plain is the same under its real path, if it can be read at all. -/
theorem IsPlain.sameSight (hplain : IsPlain h file) (hreal : h.realPath file = .ok real) :
    SameSight h file real ∨ (∀ s, h.text file ≠ .ok s) ∧ ∀ s, h.text real ≠ .ok s := by
  cases hplain with
  | direct hpath hup hfile hto =>
    obtain rfl := hfile.targets.settles.eq_of_realPath hreal
    subst hpath
    exact Or.inl (sameSight_of_leads hup hfile hto)
  | unreadable hfile hto => exact Or.inr ⟨hfile, hto real hreal⟩

/-- The rehearsal finds the entry file of the session. -/
theorem resolveEntry_rehearses (hplain : IsPlain h file) (hnamed : Untangled h file settings directory)
    (hreal : h.realPath file = .ok real) :
    Alike ((resolveEntry file settings directory).outcome h)
      ((resolveEntry real settings directory).outcome h) := by
  rcases hplain.sameSight hreal with hs | ⟨hfile, hto⟩
  · refine resolveEntry_alike (hs.text ▸ .refl _) settings directory fun c hc p hp => ?_
    obtain ⟨q, hq⟩ := hnamed.output c hc p hp
    exact hq.realPath_congr (hs.settles p q hq) (hs.sound p)
  · exact .of_errors (resolveEntry_of_unreadable hfile settings directory)
      (resolveEntry_of_unreadable hto settings directory)

/-- The rehearsal generates the code that the session generates where it has left a copy and a marker. -/
theorem generate_rehearses (hs : SameSight h file real) (hnamed : Untangled h file settings directory)
    (hrooted : h.store.IsRooted) (hk : Host.Adds ((Instances.mk settings.temporary).Reserves h) h k)
    (hx : (resolveEntry file settings directory).outcome h = .ok (entry, language)) :
    Alike ((generate file entry language).outcome h) ((generate real entry language).outcome k) := by
  obtain ⟨c, hc⟩ := loadConfig_of_resolveEntry hx
  obtain ⟨text, htext⟩ := text_of_loadConfig hc
  have htext' : k.text real = .ok text := hk.text (hs.text.trans htext)
  refine generate_alike (by rw [htext, htext']; exact .refl _) fun c hc => ?_
  obtain ⟨q, hq, hfree⟩ := hnamed.source c hc
  refine ⟨hq.realPath_congr (hk.sameLinks.settles (hs.settles _ q hq)) (hs.sound _),
    fun component hcomponent => ?_, ?_⟩
  · obtain rfl := hq.eq_of_realPath hcomponent
    have hat : h.Settles (Store.pathOf q) q := Host.settles_pathOf hq.isStraight
    exact ⟨hat.realPath_congr (hk.sameLinks.settles hat) rfl, hk.isFile_iff hrooted hq.isStraight hfree⟩
  · obtain ⟨q, hq⟩ := hnamed.entry _ hx
    exact hq.realPath_congr (hk.sameLinks.settles hq) rfl

end Preview

def sampleFile : Path := ⟨.absolute, ["w", "p.yml"]⟩

theorem sample_isStraight {q : Place} (hup : ".." ∉ q) : sampleHost.store.IsStraight q :=
  Store.isStraight_of_nodes hup (by
    intro e he target
    fin_cases he <;> simp)

theorem sample_isRooted : sampleHost.store.IsRooted := by
  refine Store.isRooted_of_nodes fun e he => ?_
  fin_cases he <;> exact ⟨0o755, by cbv⟩

theorem sample_isFresh : (Instances.mk sampleSettings.temporary).IsFresh sampleHost := by
  rintro q ⟨base, name, ho, rfl, hname⟩
  have hbase : base = sampleLease.base := ho.leads.unique sample_tenable.directory
  show sampleLease.made.store.seen _ = none
  rw [sample_made, hbase]
  fin_cases hname <;> cbv

theorem sample_created : (create sampleFile sampleSettings none).exec sampleHost =
    (.ok sampleScene.session, sampleHost) := by
  cbv

theorem sample_isPlain : IsPlain sampleHost sampleFile := by
  have hleads : sampleHost.Leads sampleFile ["w", "p.yml"] := by
    refine ⟨by decide, fun follow => ?_⟩
    cases follow <;>
      exact .of_reach (x := .there ["w", "p.yml"]
        (.file (Text.toBytes "source: App.js\n") 0o644 (.counted 4))) (by cbv)
  have hpath : sampleFile = Path.child ⟨.absolute, ["w"]⟩ "p.yml" := rfl
  exact .direct hpath (by decide) hleads hleads

theorem sample_untangled : Untangled sampleHost sampleFile sampleSettings none := by
  obtain ⟨c, hexec, hsource, houtput, -⟩ := sample_load
  have hload : (Preview.loadConfig sampleFile).outcome sampleHost = .ok c := congrArg Prod.fst hexec
  refine ⟨fun c' hc => ?_, fun c' hc p hp => ?_, fun x hx => ?_⟩
  · obtain rfl := Except.ok.inj (hload.symm.trans hc)
    rw [hsource]
    refine ⟨["w", "App.js"], Host.settles_pathOf (sample_isStraight (by decide)), ?_⟩
    rintro ⟨base, name, -, hq, hname⟩
    obtain ⟨-, heq⟩ := List.append_inj' (show ["w"] ++ ["App.js"] = base ++ [name] from hq) rfl
    obtain rfl := List.singleton_inj.mp heq
    revert hname
    decide
  · obtain rfl := Except.ok.inj (hload.symm.trans hc)
    rw [Preview.Config.outputPath?, houtput] at hp
    cases hp
  · obtain rfl := Except.ok.inj (sample_resolved.symm.trans hx)
    exact ⟨_, Host.settles_pathOf (sample_isStraight (by decide))⟩

theorem sample_unowned : (sampleScene.session.instances.isOwned sampleLease.entry).exec sampleHost =
    (.ok false, sampleHost) := by
  cbv

/-- Nothing is in the way of the sample session. -/
theorem sample_prepared : ∃ u, prepared.exec sampleScene = (.ok (sampleLease.entry, .js), u) := by
  obtain ⟨k, hk, -⟩ := prepare_exec sample_tenable (sample_begins.fresh sampleHost.logs .installing)
  exact ⟨_, prepared_eq_ok.mpr ⟨sampleHost, sample_resolved, sample_unowned, hk⟩⟩

end Session
end Vitrine
