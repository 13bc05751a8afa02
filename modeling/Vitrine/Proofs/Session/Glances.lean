import Vitrine.Proofs.Session.Polling

/-!
# The watcher and the edits

A poll in two halves: the watcher looks at the preview file, and tells of a change later on. There may be
edits in between, and more of them while a change is followed. A diary notes what a session reads and what
its watcher does. Whenever that finds nothing changed, the entry file has the code for the last version
read, and this is the current version as long as the diary is `Steady`; `Minded.enact` is the step.
-/
namespace Vitrine

/-- A scene after a change by others. Nobody but the session touches the entry file: a change that would
be found there is not made. -/
def Scene.edited {σ : Type} (t : Scene σ) (c : Change) : Scene σ :=
  match t.session.entry with
  | some (entry, _) =>
    if (t.host.change c).found entry = t.host.found entry then { t with host := t.host.change c }
    else t
  | none => t

theorem Scene.edited_eq {σ : Type} (t : Scene σ) (c : Change) :
    ∃ host, t.edited c = { t with host } := by
  rw [Scene.edited]
  cases t.session.entry with
  | none => exact ⟨_, rfl⟩
  | some x =>
    by_cases hfound : (t.host.change c).found x.1 = t.host.found x.1
    · exact ⟨_, if_pos hfound⟩
    · exact ⟨_, if_neg hfound⟩

/-- The entry file has the same content after a change by others. -/
theorem Scene.bytes_edited {σ : Type} {t : Scene σ} {entry : Path} {language : Preview.Language}
    {content : List UInt8} (ht : t.session.entry = some (entry, language))
    (hb : t.host.bytes entry = .ok content) (c : Change) :
    (t.edited c).host.bytes entry = .ok content := by
  rw [Scene.edited, ht]
  show (ite _ _ _ : Scene σ).host.bytes entry = _
  split
  · next hfound =>
    refine Host.bytes_eq_ok.mpr ?_
    rw [hfound]
    exact Host.bytes_eq_ok.mp hb
  · exact hb

namespace Session

variable {σ : Type}

/-! ## The two halves of a poll -/

/-- The watcher looks at the files, and answers those that have changed. -/
def scan : Act σ (List Path) := do
  match (← Act.session).watcher with
  | none => return []
  | some w =>
    let (changed, w) := w.poll (← get).host
    Act.setSession fun s => { s with watcher := some w }
    return changed

def followChangeBetween (gap : Gap → Act σ Unit) (file : Path) : Act σ Unit := do
  let s ← Act.session
  match s.phase, s.entry with
  | .active, some (entry, language) =>
    endFollow file (← Act.outcome (writeGeneratedBetween gap entry language))
  | _, _ => return

def followChangeOrWarnBetween (gap : Gap → Act σ Unit) (file : Path) : Act σ Unit := do
  match ← Act.outcome (followChangeBetween gap file) with
  | .ok () => return
  | .error e => Act.work (Work.warn (Watcher.troubleText file e.logged))

/-- The watcher tells of files, with something in between the statements of the session that follows. -/
def tellBetween (gap : Gap → Act σ Unit) (changed : List Path) : Act σ Unit := do
  let _ ← Watcher.deliver isWatcherStopped (followChangeOrWarnBetween gap) changed

/-- With nothing in between, the two halves are a poll. -/
theorem poll_eq : (poll : Act σ (List Path)) = (do
    let changed ← scan
    tellBetween quiet changed
    return changed) := by
  rw [poll, scan, bind_assoc]
  refine bind_congr fun s => ?_
  cases s.watcher with
  | none => rfl
  | some w =>
    simp only [tellBetween, bind_assoc, pure_bind]
    rfl

/-- Edits between reading the preview file and writing the code for it. -/
def meanwhile (edits : List Change) : Gap → Act σ Unit
  | .rendered => modify fun t => edits.foldl Scene.edited t
  | _ => pure ()

/-! ## What happens, and what is noted of it -/

/-- What the watcher does at some moment: it looks at the file, or tells that it has changed. -/
inductive Glance where
  | scan (host : Host) (phase : Phase) (changed : List Path)
  | tell (host : Host) (phase : Phase)

def Glance.host : Glance → Host
  | scan host _ _ | tell host _ => host

/-- The hosts on which an installation has read the preview file and on which the watcher was started,
and all that the watcher did then. -/
structure Diary where
  read : Option Host
  started : Option Host
  glances : List Glance
  /-- What the watcher has found changed and not told of yet. -/
  pending : List Path

def Diary.blank : Diary := ⟨none, none, [], []⟩

inductive Happening where
  | edit (c : Change)
  | scan
  | tell (edits : List Change)

/-- What an event makes of a scene. The watcher looks once it is started, and not again before it has told
of what it has found. -/
def Happening.enact (t : Scene Diary) : Happening → Scene Diary
  | .edit c => t.edited c
  | .scan =>
    if t.outside.started.isSome && t.outside.pending.isEmpty then
      match Session.scan.exec t with
      | (.ok changed, u) => { u with outside := { t.outside with
          glances := t.outside.glances ++ [.scan t.host t.session.phase changed]
          pending := changed } }
      | (.error _, u) => u
    else t
  | .tell edits =>
    if t.outside.pending.isEmpty then t
    else { ((tellBetween (meanwhile edits) t.outside.pending).exec t).2 with
      outside := { t.outside with
        glances := t.outside.glances ++ [.tell t.host t.session.phase], pending := [] } }

/-! ## The course of a diary -/

/-- What the watcher has found last, and the code for the last version that was read and could be used. -/
def Course.glance (g : Target) (r : Course) : Glance → Course
  | .scan h _ _ => { r with seen := h.measure g.file }
  | .tell h .active => { r with code := (h.code g).getD r.code }
  | .tell _ _ => r

def Course.through (g : Target) (r : Course) (glances : List Glance) : Course :=
  glances.foldl (glance g) r

/-- What the watcher finds changed then. -/
def Course.found (g : Target) (r : Course) (h : Host) : List Path :=
  if h.measure g.file = none ∨ h.measure g.file = r.seen then [] else [g.file]

/-- The last change that was told of was so while the session was active, or none was, and then the
watcher was started with the version that was read. Between two moments at which the file has the same
time and length it has the same code: what the watcher sees tells the versions apart. -/
structure Steady (g : Target) (read started : Host) (glances : List Glance) : Prop where
  told : ∀ before h phase after, glances = before ++ .tell h phase :: after →
    (∀ k p, Glance.tell k p ∉ after) → phase = .active
  first : (∀ k p, Glance.tell k p ∉ glances) → started.measure g.file = read.measure g.file
  stamps : ∀ before h between k after,
    read :: started :: glances.map Glance.host = before ++ h :: between ++ k :: after →
      h.measure g.file = k.measure g.file → ∀ m ∈ h :: between, m.code g = k.code g

/-- The entry file has the code for the last version that was read and could be used; and this is the
current version, as long as all was steady and the current version can be used. -/
def Diary.HeedsAt (g : Target) (d : Diary) (before : List Glance) (h : Host) : Prop :=
  ∃ read started code, d.read = some read ∧ d.started = some started ∧ read.code g = some code ∧
    let r := Course.through g ⟨started.measure g.file, code⟩ before
    h.bytes g.entry = .ok (Text.toBytes r.code) ∧
      (Steady g read started (before ++ [.scan h .active []]) →
        h.code g = none ∨ h.code g = some r.code)

/-- So it is whenever the watcher finds nothing changed while the session is active. -/
def Diary.Heeds (g : Target) (d : Diary) : Prop :=
  ∀ before h, before ++ [.scan h .active []] <+: d.glances → d.HeedsAt g before h

variable {g : Target} {read started : Host} {code : String} {gs : List Glance} {r : Course}
  {t u : Scene Diary} {phase : Phase} {d : Diary}

theorem Course.through_concat (gs : List Glance) (x : Glance) :
    r.through g (gs ++ [x]) = (r.through g gs).glance g x := by
  rw [through, List.foldl_append]
  rfl

theorem Course.found_of_seen {h : Host} (hsame : h.measure g.file = r.seen) : r.found g h = [] :=
  if_pos (Or.inr hsame)

theorem Course.found_of_ne {h : Host} (hthere : h.measure g.file ≠ none)
    (hne : h.measure g.file ≠ r.seen) : r.found g h = [g.file] :=
  if_neg (not_or.mpr ⟨hthere, hne⟩)

theorem Course.seen_of_found {h : Host} (hfound : r.found g h = []) (hthere : h.measure g.file ≠ none) :
    h.measure g.file = r.seen := by
  by_contra hne
  cases (found_of_ne hthere hne).symm.trans hfound

/-- To look at the file again changes nothing. -/
theorem Steady.of_scan {h : Host} {changed : List Path}
    (hs : Steady g read started (gs ++ [.scan h phase changed])) : Steady g read started gs := by
  refine ⟨?_, fun hnone => hs.first ?_, ?_⟩
  · intro before k p after he hafter
    refine hs.told before k p (after ++ [.scan h phase changed]) (by simp [he]) ?_
    simpa using hafter
  · simpa using hnone
  · intro before m between k after he
    refine hs.stamps before m between k (after ++ [h]) ?_
    rw [List.map_append, ← List.cons_append, ← List.cons_append, he]
    simp [Glance.host]

/-! ## The version that was read last -/

/-- The version that the watcher has found last was read if it can be used. -/
def Settled (g : Target) (read started : Host) (code : String) (gs : List Glance) : Prop :=
  ∀ h phase, Steady g read started (gs ++ [.scan h phase []]) →
    h.measure g.file = (Course.through g ⟨started.measure g.file, code⟩ gs).seen →
      h.code g = none ∨ h.code g = some (Course.through g ⟨started.measure g.file, code⟩ gs).code

theorem settled_nil (hcode : read.code g = some code) : Settled g read started code [] := by
  intro h phase hs hm
  right
  have hread : read.measure g.file = h.measure g.file :=
    (hs.first (by simp)).symm.trans hm.symm
  rw [← hs.stamps [] read [started] h [] rfl hread read List.mem_cons_self]
  exact hcode

/-- Nothing was found changed. -/
theorem Settled.scan {h : Host} (hset : Settled g read started code gs)
    (hsame : h.measure g.file = none ∨
      h.measure g.file = (Course.through g ⟨started.measure g.file, code⟩ gs).seen) :
    Settled g read started code (gs ++ [.scan h phase []]) := by
  intro k p hs hm
  rw [Course.through_concat] at hm ⊢
  have hmeasure : k.measure g.file = h.measure g.file := hm
  rcases hsame with hnone | hsame
  · left
    exact Host.code_of_measure (hmeasure.trans hnone)
  · have hcode : h.code g = k.code g :=
      hs.stamps (read :: started :: gs.map Glance.host) h [] k [] (by simp [Glance.host]) hmeasure.symm
        h List.mem_cons_self
    rw [← hcode]
    exact hset h phase hs.of_scan hsame

/-- What was found changed is told of. -/
theorem settled_tell {h k : Host} {changed : List Path} {p : Phase} :
    Settled g read started code (gs ++ [.scan h p changed] ++ [.tell k phase]) := by
  intro m q hs hm
  obtain rfl : phase = .active :=
    hs.told (gs ++ [.scan h p changed]) k phase [.scan m q []] (by simp) (by simp)
  rw [Course.through_concat, Course.through_concat] at hm ⊢
  have hmeasure : h.measure g.file = m.measure g.file := hm.symm
  have hcode : k.code g = m.code g :=
    hs.stamps (read :: started :: gs.map Glance.host) h [k] m [] (by simp [Glance.host]) hmeasure k
      (by simp)
  rw [← hcode]
  cases hk : k.code g with
  | none => exact Or.inl rfl
  | some c =>
    right
    show some c = some ((k.code g).getD _)
    rw [hk]
    rfl

variable {v : Scene σ}

/-- What the watcher tells of is read and written, if there are no edits meanwhile. -/
theorem tellBetween_exec {k : Host} {seen : Snapshot} (hphase : v.session.phase = .active)
    (hfile : v.session.configFile = g.file) (htarget : v.session.entry = some (g.entry, g.language))
    (hwatcher : v.session.watcher = some ⟨[g.file], seen, false⟩) (hcode : v.host.code g = some code)
    (hw : (Work.writeText g.entry code).exec v.host = (.ok (), k)) :
    (tellBetween (meanwhile []) [g.file]).exec v =
      (.ok (), { v with host := k, session := { v.session with generated := true } }) := by
  let v₁ : Scene σ := { v with session := { v.session with generated := true } }
  have hstopped : (isWatcherStopped : Act σ Bool).exec v = (.ok false, v) := by
    rw [isWatcherStopped, Act.exec_bind_ok (Act.exec_session v), hwatcher]
    rfl
  have hrendered : (meanwhile [] .rendered : Act σ Unit).exec v = (.ok (), v) := rfl
  have htouched : (meanwhile [] .touched : Act σ Unit).exec v₁ = (.ok (), v₁) := rfl
  have hwrite : (Act.work (Work.attempt (Work.writeText g.entry code)) : Act σ _).exec v₁ =
      (.ok (.ok ()), { v₁ with host := k }) := Act.exec_work_of (Work.exec_attempt_ok hw)
  have hput : (writeGeneratedBetween (meanwhile []) g.entry g.language).exec v =
      (.ok (), { v₁ with host := k }) := by
    rw [writeGeneratedBetween_of_some hfile hcode, putGenerated, Act.exec_bind_ok hrendered,
      Act.exec_bind_ok (Act.exec_setSession _ v), Act.exec_bind_ok htouched, Act.exec_bind_ok hwrite]
    rfl
  have hfollow : (followChangeBetween (meanwhile []) g.file).exec v =
      (.ok (), { v₁ with host := k }) := by
    rw [followChangeBetween, Act.exec_bind_ok (Act.exec_session v), hphase, htarget]
    show (Act.outcome (writeGeneratedBetween _ _ _) >>= _ : Act σ Unit).exec v = _
    rw [Act.exec_bind_ok (Act.exec_outcome _ v), hput]
    rfl
  have hheard : (followChangeOrWarnBetween (meanwhile []) g.file).exec v =
      (.ok (), { v₁ with host := k }) := by
    rw [followChangeOrWarnBetween, Act.exec_bind_ok (Act.exec_outcome _ v), hfollow]
    rfl
  rw [tellBetween, Watcher.deliver, bind_assoc, Act.exec_bind_ok hstopped]
  show ((followChangeOrWarnBetween _ _ >>= _) >>= _ : Act σ Unit).exec v = _
  rw [bind_assoc, Act.exec_bind_ok hheard]
  rfl

/-! ## A session with a watcher -/

/-- A session that watches its preview file, and how far it has come. -/
structure Attends (g : Target) (r : Course) (v : Scene σ) : Prop where
  config : v.session.configFile = g.file
  target : v.session.entry = some (g.entry, g.language)
  watching : ∃ seen, v.session.watcher = some ⟨[g.file], seen, false⟩ ∧ seen.lookup g.file = r.seen
  content : v.host.bytes g.entry = .ok (Text.toBytes r.code)

namespace Attends

theorem withOutside (h : Attends g r v) (o : σ) : Attends g r { v with outside := o } :=
  ⟨h.config, h.target, h.watching, h.content⟩

theorem edited (h : Attends g r v) (c : Change) : Attends g r (v.edited c) := by
  have hcontent := Scene.bytes_edited h.target h.content c
  obtain ⟨host, he⟩ := v.edited_eq c
  rw [he] at hcontent ⊢
  exact ⟨h.config, h.target, h.watching, hcontent⟩

theorem keeps_meanwhile (edits : List Change) (gap : Gap) :
    Act.Keeps (Attends (σ := σ) g r) (meanwhile edits gap) := by
  intro v h
  cases gap with
  | rendered =>
    exact List.foldlRecOn (motive := Attends g r) edits Scene.edited h fun u hu c _ => hu.edited c
  | _ => exact h

theorem keeps_warn (text : String) :
    Act.Keeps (Attends (σ := σ) g r) (Act.work (Work.warn text)) :=
  Act.keeps_work (Work.quiet_warn text) fun _ _ h => ⟨h.config, h.target, h.watching, h.content⟩

theorem keeps_endFollow (file : Path) (x : Result Unit) :
    Act.Keeps (Attends (σ := σ) g r) (endFollow file x) := by
  cases x with
  | ok _ => exact Act.keeps_pure _
  | error e => exact Act.Keeps.ite (keeps_warn _) (Act.keeps_throw _)

/-- What the watcher finds when it looks at the file. -/
theorem scan (h : Attends g r v) : ∃ w, Session.scan.exec v =
      (.ok (r.found g v.host), { v with session := { v.session with watcher := w } }) ∧
    Attends g { r with seen := v.host.measure g.file }
      { v with session := { v.session with watcher := w } } := by
  obtain ⟨seen, hwatcher, hseen⟩ := h.watching
  rw [Course.found, ← hseen, ← v.host.changes_singleton g.file seen, Session.scan,
    Act.exec_bind_ok (Act.exec_session v), hwatcher]
  exact ⟨_, rfl, h.config, h.target, ⟨_, rfl, v.host.lookup_snapshot_singleton g.file⟩, h.content⟩

theorem enact_scan (h : Attends g r t) (hstarted : t.outside.started.isSome = true)
    (hpending : t.outside.pending = []) : ∃ w,
      let u : Scene Diary := { t with
        session := { t.session with watcher := w }
        outside := { t.outside with
          glances := t.outside.glances ++ [.scan t.host t.session.phase (r.found g t.host)]
          pending := r.found g t.host } }
      Happening.enact t .scan = u ∧ Attends g { r with seen := t.host.measure g.file } u := by
  obtain ⟨w, hscan, hattends⟩ := h.scan
  refine ⟨w, ?_, hattends.withOutside _⟩
  rw [Happening.enact, if_pos (by simp [hstarted, hpending]), hscan]

/-- Whatever is edited before it is written, the code is in the entry file then. -/
theorem putGenerated (h : Attends g r v) (edits : List Change) (code : String) :
    Attends g { r with code } ((Session.putGenerated (meanwhile edits) g.entry code).exec v).2 := by
  let v₁ := edits.foldl Scene.edited v
  let v₂ : Scene σ := { v₁ with session := { v₁.session with generated := true } }
  have h₁ : Attends g r v₁ := keeps_meanwhile edits .rendered v h
  have h₂ : Attends g r v₂ := ⟨h₁.config, h₁.target, h₁.watching, h₁.content⟩
  obtain ⟨k, hk⟩ := Host.writeText_of_bytes h₂.content code
  have hwrite : (Act.work (Work.attempt (Work.writeText g.entry code)) : Act σ _).exec v₂ =
      (.ok (.ok ()), { v₂ with host := k }) := Act.exec_work_of (Work.exec_attempt_ok hk)
  have hedited : (meanwhile edits .rendered).exec v = (.ok (), v₁) := rfl
  have htouched : (meanwhile edits .touched).exec v₂ = (.ok (), v₂) := rfl
  rw [Session.putGenerated, Act.exec_bind_ok hedited, Act.exec_bind_ok (Act.exec_setSession _ v₁),
    Act.exec_bind_ok htouched, Act.exec_bind_ok hwrite]
  exact ⟨h₂.config, h₂.target, h₂.watching, Host.bytes_of_writeText hk⟩

theorem followChange (h : Attends g r v) (edits : List Change) : Attends g
    (r.glance g (.tell v.host v.session.phase))
    ((followChangeBetween (meanwhile edits) g.file).exec v).2 := by
  rw [followChangeBetween, Act.exec_bind_ok (Act.exec_session v), h.target]
  cases hphase : v.session.phase with
  | active =>
    refine Act.holds_bind ?_ fun x => keeps_endFollow _ x
    rw [Act.exec_outcome]
    show Attends g { r with code := (v.host.code g).getD r.code } _
    cases hcode : v.host.code g with
    | none =>
      obtain ⟨e, he⟩ := writeGeneratedBetween_of_none (meanwhile edits) h.config hcode
      rw [he]
      exact h
    | some code =>
      rw [writeGeneratedBetween_of_some h.config hcode]
      exact h.putGenerated edits code
  | _ => exact h

/-- What is told of is read, if the session is active. -/
theorem tell (h : Attends g r v) (edits : List Change) : Attends g
    (r.glance g (.tell v.host v.session.phase))
    ((tellBetween (meanwhile edits) [g.file]).exec v).2 := by
  obtain ⟨seen, hwatcher, -⟩ := h.watching
  have hstopped : (isWatcherStopped : Act σ Bool).exec v = (.ok false, v) := by
    rw [isWatcherStopped, Act.exec_bind_ok (Act.exec_session v), hwatcher]
    rfl
  rw [tellBetween, Watcher.deliver, bind_assoc, Act.exec_bind_ok hstopped]
  refine Act.holds_bind (Act.holds_bind ?_ fun _ => ?_) fun _ => Act.keeps_pure _
  · refine Act.holds_bind ?_ fun x => ?_
    · rw [Act.exec_outcome]
      exact h.followChange edits
    · cases x with
      | ok _ => exact Act.keeps_pure _
      | error e => exact keeps_warn _
  · exact (Act.keeps_pure _).bind fun _ => Act.keeps_pure _

end Attends

/-! ## What a diary has of a session -/

/-- A session that watches its preview file, and all that was noted of it. -/
structure Minded (g : Target) (read started : Host) (code : String) (t : Scene Diary) : Prop where
  hasRead : t.outside.read = some read
  hasStarted : t.outside.started = some started
  usable : read.code g = some code
  attends : Attends g (Course.through g ⟨started.measure g.file, code⟩ t.outside.glances) t
  pending : t.outside.pending = [] ∧ Settled g read started code t.outside.glances ∨
    t.outside.pending = [g.file] ∧
      ∃ gs h p changed, t.outside.glances = gs ++ [.scan h p changed]
  heeds : t.outside.Heeds g

theorem Diary.Heeds.concat {d d' : Diary} {x : Glance} (hd : d.Heeds g) (hread : d'.read = d.read)
    (hstarted : d'.started = d.started) (hglances : d'.glances = d.glances ++ [x])
    (hx : ∀ h, x = .scan h .active [] → d.HeedsAt g d.glances h) : d'.Heeds g := by
  intro before h hp
  rw [Diary.HeedsAt, hread, hstarted]
  rw [hglances] at hp
  rcases List.prefix_concat_iff.mp hp with he | hp
  · obtain ⟨rfl, hlast⟩ := List.append_inj' he rfl
    exact hx h (List.singleton_inj.mp hlast).symm
  · exact hd before h hp

namespace Minded

/-- What goes on besides is not noted. -/
theorem of_attends {host : Host} {session : Session} {server : DevServer}
    (h : Minded g read started code t)
    (hattends : ∀ r, Attends g r t → Attends g r { t with host, session, server }) :
    Minded g read started code { t with host, session, server } :=
  ⟨h.hasRead, h.hasStarted, h.usable, hattends _ h.attends, h.pending, h.heeds⟩

theorem edited (h : Minded g read started code t) (c : Change) :
    Minded g read started code (t.edited c) := by
  obtain ⟨host, he⟩ := t.edited_eq c
  rw [he]
  refine h.of_attends fun r hr => ?_
  rw [← he]
  exact hr.edited c

/-- What the watcher finds unchanged is settled; otherwise it has something to tell of. -/
theorem scan (h : Minded g read started code t) :
    Minded g read started code (Happening.enact t .scan) := by
  rcases h.pending with ⟨hpending, hset⟩ | ⟨hpending, -⟩
  · obtain ⟨w, hlooked, hattends⟩ := h.attends.enact_scan (by simp [h.hasStarted]) hpending
    rw [hlooked]
    refine ⟨h.hasRead, h.hasStarted, h.usable, ?_, ?_, h.heeds.concat rfl rfl rfl fun k hk => ?_⟩
    · show Attends g (Course.through g _ (t.outside.glances ++ [_])) _
      rw [Course.through_concat]
      exact hattends
    · rw [Course.found]
      split
      · next hsame => exact Or.inl ⟨rfl, hset.scan hsame⟩
      · exact Or.inr ⟨rfl, _, _, _, _, rfl⟩
    · injection hk with hhost _ hchanged
      subst hhost
      refine ⟨read, started, code, h.hasRead, h.hasStarted, h.usable, h.attends.content, fun hs => ?_⟩
      by_cases hsame : t.host.measure g.file = none
      · exact Or.inl (Host.code_of_measure hsame)
      · exact hset t.host .active hs (Course.seen_of_found hchanged hsame)
  · rw [Happening.enact, if_neg (by simp [hpending])]
    exact h

theorem tell (h : Minded g read started code t) (edits : List Change) :
    Minded g read started code (Happening.enact t (.tell edits)) := by
  rcases h.pending with ⟨hpending, -⟩ | ⟨hpending, gs, k, p, changed, hglances⟩
  · rw [Happening.enact, if_pos (by simp [hpending])]
    exact h
  · have htold := h.attends.tell edits
    rw [Happening.enact, if_neg (by simp [hpending]), hpending]
    refine ⟨h.hasRead, h.hasStarted, h.usable, ?_, Or.inl ⟨rfl, ?_⟩,
      h.heeds.concat rfl rfl rfl fun k hk => by cases hk⟩
    · show Attends g (Course.through g _ (t.outside.glances ++ [_])) _
      rw [Course.through_concat]
      exact htold.withOutside _
    · show Settled g read started code (t.outside.glances ++ [_])
      rw [hglances]
      exact settled_tell

theorem enact (h : Minded g read started code t) (e : Happening) :
    Minded g read started code (e.enact t) := by
  cases e with
  | edit c => exact h.edited c
  | scan => exact h.scan
  | tell edits => exact h.tell edits

/-- It goes on whatever the session and its dev server do besides. -/
theorem indifferent (script : Script Diary) (hs : script.onTermination = id) :
    Indifferent script (Minded g read started code) where
  server _ _ h _ := h.of_attends fun _ hr => ⟨hr.config, hr.target, hr.watching, hr.content⟩
  signal _ _ h := h.of_attends fun _ hr => ⟨hr.config, hr.target, hr.watching, hr.content⟩
  logs _ _ h := h.of_attends fun _ hr => ⟨hr.config, hr.target, hr.watching, hr.content⟩
  onTermination _ h _ := by
    rw [hs]
    exact h

end Minded

end Session
end Vitrine
