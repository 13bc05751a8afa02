import Vitrine.Proofs.Files.RealPath
import Vitrine.Proofs.Session.Polling
import Vitrine.Proofs.Session.Restoration

/-!
# Regeneration

While its dev server runs, a session follows its preview file: after every poll the entry file holds
the code for the last version that was read and could be used. The polls of a whole run are what an
onlooker notes of it. A poll only reads a version that has another time or length than the one before:
the end of the module has an edit that hides behind both.
-/
namespace Vitrine

/-- The script in which nothing goes on around a session but that an onlooker takes note of it. -/
def Script.noted (b : Script Session.Onlooker) : Script Session.Onlooker := { b with
  duringStart := fun t => { t with outside := { t.outside with spawned := some t.host } }
  duringWait := fun _ => id
  onTermination := id
  duringRestoration := id }

/-- The script in which events happen during each wait as well. -/
def Script.amid (b : Script Session.Onlooker) (events : Nat → List Session.Event) :
    Script Session.Onlooker :=
  { b.noted with duringWait := fun n t => (events n).foldl (Session.Event.enact b.noted) t }

/-- A scene with something outside. -/
def Scene.withOutside {σ : Type} (t : Scene Unit) (outside : σ) : Scene σ :=
  ⟨t.host, t.session, t.server, outside⟩

namespace Session

/-! ## What the polls show -/

/-- A poll that leaves a code in the entry file, and the session and its dev server as they were. -/
structure Sighting.Shows (g : Target) (code : String) (s : Sighting) : Prop where
  result : ∃ changed, s.result = .ok changed
  content : s.after.host.bytes g.entry = .ok (Text.toBytes code)
  phase : s.after.session.phase = .active
  server : s.after.server = s.before.server

/-- After every poll the entry file has the code for the last version read that could be used. -/
def Course.Holds (g : Target) (r : Course) (polls : List Sighting) : Prop :=
  ∀ before s, before ++ [s] <+: polls → s.Shows g (r.after g (before ++ [s])).code

/-- The course begins with the version that was read on a host where nothing but the code for it was
written then. -/
def Course.Begins (g : Target) (r : Course) (k : Host) : Prop :=
  k.measure g.file = r.seen ∧
    ∃ h logs, h.code g = some r.code ∧
      (Work.writeText g.entry r.code).exec h = (.ok (), k.withLogs logs)

/-- What an onlooker notes of a session: there are no polls before the dev server was about to be
started, and from then on they show the course that the session takes with the entry file and the
language that it found in the beginning. -/
def Onlooker.Follows (t : Scene Unit) (o : Onlooker) : Prop :=
  match o.spawned with
  | none => o.polls = []
  | some k => ∃ (g : Target) (r : Course), g.file = t.session.configFile ∧
      ((Preview.resolveEntry t.session.configFile t.session.settings
        t.session.entryDirectory).exec t.host).1 = .ok (g.entry, g.language) ∧
      r.Begins g k ∧ r.Holds g o.polls

variable {g : Target} {r : Course} {k : Host} {b : Script Onlooker} {events : Nat → List Event}
  {t u : Scene Onlooker}

theorem Course.holds_nil : r.Holds g [] := by
  intro before s h
  simp at h

theorem Course.Holds.concat {polls : List Sighting} {s : Sighting} (h : r.Holds g polls)
    (hs : s.Shows g (r.after g (polls ++ [s])).code) : r.Holds g (polls ++ [s]) := by
  intro before s' hp
  rcases List.prefix_concat_iff.mp hp with he | hp
  · obtain ⟨rfl, hlast⟩ := List.append_inj' he rfl
    obtain rfl := List.singleton_inj.mp hlast
    exact hs
  · exact h before s' hp

theorem Course.after_concat (polls : List Sighting) (s : Sighting) :
    r.after g (polls ++ [s]) = (r.after g polls).next g s.before.host := by
  rw [after, List.foldl_append]
  rfl

/-! ## While the dev server runs -/

/-- A session under way whose polls have shown its course so far. -/
structure Watched (g : Target) (r : Course) (k : Host) (t : Scene Onlooker) : Prop where
  spawned : t.outside.spawned = some k
  holds : r.Holds g t.outside.polls
  following : Following g (r.after g t.outside.polls) t

namespace Watched

theorem indifferent (script : Script Onlooker) (hs : script.onTermination = id) :
    Indifferent script (Watched g r k) where
  server _ s h _ := ⟨h.spawned, h.holds, h.following.withServer s⟩
  signal _ n h := ⟨h.spawned, h.holds, h.following.withSignal n⟩
  logs _ logs h := ⟨h.spawned, h.holds, h.following.withLogs logs⟩
  onTermination _ h _ := by
    rw [hs]
    exact h

theorem pollNoted (h : Watched g r k t) : Watched g r k (pollNoted t) := by
  obtain ⟨changed, host, session, hpoll, hfollowing⟩ := h.following.poll
  rw [Session.pollNoted, hpoll]
  refine ⟨h.spawned, h.holds.concat ?_, ?_⟩
  · rw [Course.after_concat]
    exact ⟨⟨changed, rfl⟩, hfollowing.content, hfollowing.phase, rfl⟩
  · show Following g (r.after g (t.outside.polls ++ [_])) _
    rw [Course.after_concat]
    exact ⟨hfollowing.config, hfollowing.target, hfollowing.watching, hfollowing.phase,
      hfollowing.started, hfollowing.content⟩

/-- Whatever happens, the session stays on its course. -/
theorem enact {script : Script Onlooker} (hs : script.onTermination = id) (h : Watched g r k t)
    (e : Event) : Watched g r k (e.enact script t) := by
  cases e with
  | edit c =>
    rw [Event.enact, h.following.target]
    by_cases hfound : (t.host.change c).found g.entry = t.host.found g.entry
    · simp only [if_pos hfound]
      exact ⟨h.spawned, h.holds, h.following.change hfound⟩
    · simp only [if_neg hfound]
      exact h
  | poll =>
    rw [Event.enact]
    split
    · exact h.pollNoted
    · exact h
  | signal n => exact (indifferent script hs).keeps_receive n t h

theorem duringWait (n : Nat) (h : Watched g r k t) :
    Watched g r k ((b.amid events).duringWait n t) := by
  show Watched g r k ((events n).foldl _ t)
  induction events n generalizing t with
  | nil => exact h
  | cons e es ih => exact ih (h.enact rfl e)

end Watched

/-! ## Installing -/

/-- A session before its dev server was about to be started. -/
structure Early (g : Target) (t : Scene Onlooker) : Prop where
  outside : t.outside = ⟨none, []⟩
  config : t.session.configFile = g.file
  target : t.session.entry = some (g.entry, g.language)

/-- A session whose dev server was about to be started. -/
structure Spawned (g : Target) (r : Course) (k : Host) (t : Scene Onlooker) : Prop where
  outside : t.outside = ⟨some k, []⟩
  begins : r.Begins g k
  config : t.session.configFile = g.file
  target : t.session.entry = some (g.entry, g.language)
  watching : ∃ seen, t.session.watcher = some ⟨[g.file], seen, false⟩ ∧ seen.lookup g.file = r.seen
  content : t.host.bytes g.entry = .ok (Text.toBytes r.code)

theorem Spawned.indifferent (script : Script Onlooker) (hs : script.onTermination = id) :
    Indifferent script (Spawned g r k) where
  server _ _ h _ := ⟨h.outside, h.begins, h.config, h.target, h.watching, h.content⟩
  signal _ _ h := ⟨h.outside, h.begins, h.config, h.target, h.watching, h.content⟩
  logs _ _ h := ⟨h.outside, h.begins, h.config, h.target, h.watching, h.content⟩
  onTermination _ h _ := by
    rw [hs]
    exact h

theorem Early.keeps_work {α : Type} (w : Work α) : Act.Keeps (Early g) (Act.work w) := by
  intro t h
  rw [Act.exec_work]
  exact ⟨h.outside, h.config, h.target⟩

/-- How an installation ends. -/
def Ends (g : Target) (x : Result Unit) (u : Scene Onlooker) : Prop :=
  (∃ e, x = .error e) ∧ Early g u ∨
    ∃ r k, Spawned g r k u ∧ (x = .ok () → u.session.started = true)

/-- Generated code is written: the code for the version that is there, and nothing but that. -/
theorem Early.writeGenerated (h : Early g t) :
    ∃ x u, (Session.writeGenerated g.entry g.language).exec t = (x, u) ∧ Early g u ∧
      (x = .ok () → ∃ r : Course, r.Begins g u.host) := by
  cases hcode : t.host.code g with
  | none =>
    obtain ⟨e, hw⟩ := writeGeneratedBetween_of_none quiet h.config hcode
    exact ⟨_, _, hw, h, fun hx => nomatch hx⟩
  | some code =>
    match hk : (Work.writeText g.entry code).exec t.host with
    | (.error e, k) =>
      obtain ⟨e', hw⟩ := writeGenerated_of_failed h.config hcode hk
      exact ⟨_, _, hw, ⟨h.outside, h.config, h.target⟩, fun hx => nomatch hx⟩
    | (.ok (), k) =>
      exact ⟨_, _, writeGenerated_of_written h.config hcode hk,
        ⟨h.outside, h.config, h.target⟩, fun _ => ⟨⟨_, code⟩, rfl, t.host, k.logs, hcode, hk⟩⟩

/-- The dev server is started in the course that began with the generated code. -/
theorem Early.start (h : Early g t) (hr : r.Begins g t.host)
    (hwatching : ∃ seen, t.session.watcher = some ⟨[g.file], seen, false⟩ ∧
      seen.lookup g.file = r.seen) :
    Ends g ((Session.start (b.amid events)).exec t).1 ((Session.start (b.amid events)).exec t).2 := by
  have hcontent : t.host.bytes g.entry = .ok (Text.toBytes r.code) := by
    obtain ⟨-, h, logs, -, hw⟩ := hr
    exact (t.host.bytes_withLogs logs _).symm.trans (Host.bytes_of_writeText hw)
  rw [Session.start, Act.exec_bind_ok (Act.exec_session t), Act.exec_bind]
  obtain ⟨logs, hlogs⟩ := t.session.settings.command_quiet t.host
  rcases hc : t.session.settings.command.exec t.host with ⟨e | command, k⟩
  · rw [hc] at hlogs
    rw [Act.exec_work_of hc]
    exact Or.inl ⟨⟨e, rfl⟩, h.outside, h.config, h.target⟩
  · rw [hc] at hlogs
    obtain rfl : k = t.host.withLogs logs := hlogs
    rw [Act.exec_work_of hc]
    let t₁ : Scene Onlooker := { t with
      host := t.host.withLogs logs
      server := { t.server with command := some (command, t.session.settings.workingDirectory) }
      outside := ⟨some (t.host.withLogs logs), []⟩ }
    have h₁ : Spawned g r (t.host.withLogs logs) t₁ :=
      ⟨rfl, hr, h.config, h.target, hwatching, hcontent⟩
    let Q (a : Act Onlooker Unit) (v : Scene Onlooker) : Prop := Ends g (a.exec v).1 (a.exec v).2
    have hend : ∀ v, Spawned g r (t.host.withLogs logs) v →
        Q (endStart (b.amid events) command) v := by
      intro v hv
      simp only [Q]
      rw [endStart]
      cases (b.amid events).startError with
      | some e => exact Or.inr ⟨r, _, hv, fun hx => by cases hx⟩
      | none =>
        exact Or.inr ⟨r, _, ⟨hv.outside, hv.begins, hv.config, hv.target, hv.watching, hv.content⟩,
          fun _ => rfl⟩
    show Q (Act.setServer _ >>= _) _
    simp only [Q]
    rw [Act.exec_bind_ok (Act.exec_setServer _ _), Act.exec_bind_ok (Act.exec_modify _ _)]
    have hstarted : (b.amid events).duringStart { t₁ with outside := t.outside } = t₁ := by
      rw [h.outside]
      rfl
    show Q _ ((b.amid events).duringStart { t₁ with outside := t.outside })
    rw [hstarted]
    cases hs : (b.amid events).signalAtStart with
    | none => exact hend t₁ h₁
    | some n =>
      have hreceive : Act.Keeps (Spawned g r (t.host.withLogs logs)) (receive (b.amid events) n) :=
        (Spawned.indifferent (b.amid events) rfl).keeps_receive n
      exact hreceive.bind_ends (Q := Ends g) (fun e v hv => Or.inr ⟨r, _, hv, fun hx => by cases hx⟩)
        (fun _ => hend) t₁ h₁

theorem Early.generateAndStart (h : Early g t) :
    Ends g ((Session.generateAndStart (b.amid events) g.entry g.language).exec t).1
      ((Session.generateAndStart (b.amid events) g.entry g.language).exec t).2 := by
  obtain ⟨x, v, hw, hv, hr⟩ := h.writeGenerated
  rw [Session.generateAndStart]
  cases x with
  | error e =>
    rw [Act.exec_bind_error hw]
    exact Or.inl ⟨⟨e, rfl⟩, hv⟩
  | ok _ =>
    obtain ⟨r, hr⟩ := hr rfl
    rw [Act.exec_bind_ok hw, Act.exec_bind_ok (Act.exec_get v),
      Act.exec_bind_ok (Act.exec_setSession _ v)]
    let v' : Scene Onlooker := { v with session :=
      { v.session with watcher := some (Watcher.start v.host [v.session.configFile]) } }
    have hv' : Early g v' := ⟨hv.outside, hv.config, hv.target⟩
    refine hv'.start hr ⟨Watcher.snapshot v.host [g.file], ?_, ?_⟩
    · rw [← hv.config]
      rfl
    · rw [Host.lookup_snapshot_singleton, hr.1]

/-- What comes before the generated code is written leaves a session early. -/
theorem Early.install (h : Early g t) :
    Ends g ((Session.install (b.amid events) g.entry g.language).exec t).1
      ((Session.install (b.amid events) g.entry g.language).exec t).2 := by
  have hfail : ∀ e v, Early g v → Ends g (.error e) v := fun e v hv => Or.inl ⟨⟨e, rfl⟩, hv⟩
  have hmark : ∀ s v, Early g v → Ends g
      ((markAndStart (b.amid events) g.entry g.language s).exec v).1
      ((markAndStart (b.amid events) g.entry g.language s).exec v).2 := by
    intro s
    refine Act.keeps_session.bind_ends hfail fun backup => ?_
    refine (Early.keeps_work _).bind_ends hfail fun marker => ?_
    refine Act.Keeps.bind_ends (Act.keeps_setSession ?_) hfail fun _ v hv => hv.generateAndStart
    exact fun v hv => ⟨hv.outside, hv.config, hv.target⟩
  rw [install_eq]
  refine Act.keeps_session.bind_ends hfail (fun s => ?_) t h
  refine (Early.keeps_work _).bind_ends hfail fun there => ?_
  cases there with
  | false => exact hmark s
  | true =>
    refine (Early.keeps_work _).bind_ends hfail fun backup => ?_
    refine Act.Keeps.bind_ends (Act.keeps_setSession ?_) hfail fun _ => hmark s
    exact fun v hv => ⟨hv.outside, hv.config, hv.target⟩

/-- What an onlooker has noted of a session with a target. -/
def Noted (g : Target) (o : Onlooker) : Prop :=
  o = ⟨none, []⟩ ∨ ∃ (r : Course) (k : Host), o.spawned = some k ∧ r.Begins g k ∧ r.Holds g o.polls

/-- From the installation on the polls show the course of the session. -/
theorem Early.occupy (h : Early g t) :
    Noted g ((Session.occupy (b.amid events) g.entry g.language).exec t).2.outside := by
  have hinstall : Ends g ((Session.install (b.amid events) g.entry g.language).exec t).1
      ((Session.install (b.amid events) g.entry g.language).exec t).2 := h.install
  rw [Session.occupy, Act.exec_bind]
  rcases hx : (Session.install (b.amid events) g.entry g.language).exec t with ⟨e | ⟨⟩, u⟩
  · rw [hx] at hinstall
    rcases hinstall with ⟨-, hu⟩ | ⟨r, k, hu, -⟩
    · exact Or.inl hu.outside
    · refine Or.inr ⟨r, k, ?_, hu.begins, ?_⟩
      · rw [hu.outside]
      · rw [hu.outside]
        exact Course.holds_nil
  · rw [hx] at hinstall
    rcases hinstall with ⟨⟨e, he⟩, -⟩ | ⟨r, k, hu, hstarted⟩
    · cases he
    · let v : Scene Onlooker := { u with session := { u.session with phase := .active } }
      have hpolls : v.outside.polls = [] := by
        show u.outside.polls = []
        rw [hu.outside]
      have hv : Watched g r k v := by
        refine ⟨?_, ?_, ?_⟩
        · show u.outside.spawned = some k
          rw [hu.outside]
        · rw [hpolls]
          exact Course.holds_nil
        · rw [hpolls]
          exact ⟨hu.config, hu.target, hu.watching, rfl, hstarted rfl, hu.content⟩
      have hkept := (Watched.indifferent (b.amid events) rfl).keeps_supervise
        (fun n _ h => h.duringWait n) (waitBound (b.amid events)) .unset v hv
      exact Or.inr ⟨r, k, hkept.spawned, hu.begins, hkept.holds⟩

/-! ## A whole run -/

/-- A session without a watcher, and what was noted of it. -/
structure Over (o : Onlooker) (t : Scene Onlooker) : Prop where
  outside : t.outside = o
  watcher : t.session.watcher = none

namespace Over

variable {o : Onlooker}

theorem indifferent (script : Script Onlooker) (hs : script.onTermination = id) :
    Indifferent script (Over o) where
  server _ _ h _ := ⟨h.outside, h.watcher⟩
  signal _ _ h := ⟨h.outside, h.watcher⟩
  logs _ _ h := ⟨h.outside, h.watcher⟩
  onTermination _ h _ := by
    rw [hs]
    exact h

theorem enact {script : Script Onlooker} (hs : script.onTermination = id) (h : Over o t)
    (e : Event) : Over o (e.enact script t) := by
  cases e with
  | edit c =>
    rw [Event.enact]
    split
    · split
      · exact ⟨h.outside, h.watcher⟩
      · exact h
    · exact h
  | poll =>
    rw [Event.enact, if_neg (by simp [h.watcher])]
    exact h
  | signal n => exact (indifferent script hs).keeps_receive n t h

theorem duringWait (n : Nat) (h : Over o t) : Over o ((b.amid events).duringWait n t) := by
  show Over o ((events n).foldl _ t)
  induction events n generalizing t with
  | nil => exact h
  | cons e es ih => exact ih (h.enact rfl e)

theorem detached : Detached (Over o) where
  host _ _ h := ⟨h.outside, h.watcher⟩
  phase _ _ h := ⟨h.outside, h.watcher⟩

end Over

/-- Nothing more is noted of a session that is torn down. -/
theorem outside_tearDown (entry : Path) (t : Scene Onlooker) :
    ((tearDown (b.amid events) entry).exec t).2.outside = t.outside := by
  let t₁ : Scene Onlooker :=
    { t with session := { t.session with phase := .restoring, watcher := none } }
  have hI : Indifferent (b.amid events) (Over t.outside) := Over.indifferent _ rfl
  rw [tearDown_eq, Act.exec_bind_ok (Act.exec_setSession _ t)]
  refine Over.outside (o := t.outside) (Act.Keeps.bind (Act.keeps_modify fun _ h => h) (fun _ => ?_) t₁
    ⟨rfl, rfl⟩)
  exact (hI.keeps_endServer fun n _ h => h.duringWait n).bind fun _ =>
    Over.detached.keeps_release entry

theorem Noted.follows {t : Scene Unit} {o : Onlooker} (h : Noted g o)
    (hfile : g.file = t.session.configFile)
    (hresolved : ((Preview.resolveEntry t.session.configFile t.session.settings
      t.session.entryDirectory).exec t.host).1 = .ok (g.entry, g.language)) : o.Follows t := by
  rw [Onlooker.Follows]
  rcases h with rfl | ⟨r, k, hk, hbegins, hholds⟩
  · rfl
  · rw [hk]
    exact ⟨g, r, hfile, hresolved, hbegins, hholds⟩

theorem outside_replaceEntry (entry : Path) (language : Preview.Language) (t : Scene Onlooker) :
    ((replaceEntry (b.amid events) entry language).exec t).2.outside =
      ((Session.occupy (b.amid events) entry language).exec t).2.outside := by
  have htorn : ((tearDown (b.amid events) entry).exec
      ((Session.occupy (b.amid events) entry language).exec t).2).2.outside = _ :=
    outside_tearDown entry _
  rw [replaceEntry, Act.exec_bind_ok (Act.exec_outcome _ t)]
  refine Act.holds_bind (I := fun u => u.outside = _) htorn fun _ u hu => ?_
  show ((report _).exec u).2.outside = _
  rw [report_exec]
  exact hu

def pairTarget : Target := ⟨⟨.absolute, ["w", "p.yml"]⟩, ⟨.absolute, ["w", "src", "index.jsx"]⟩, .js⟩

def appPath : Path := ⟨.absolute, ["w", "App.js"]⟩

def bppPath : Path := ⟨.absolute, ["w", "Bpp.js"]⟩

theorem appPath_eq : pairTarget.file.parent.join (Path.ofText "App.js") = appPath := by cbv

theorem bppPath_eq : pairTarget.file.parent.join (Path.ofText "Bpp.js") = bppPath := by cbv

/-- What the preview file says before and after. -/
def appText : List UInt8 := Text.toBytes "source: App.js\n"

def bppText : List UInt8 := Text.toBytes "source: Bpp.js\n"

/-- Two components, and a preview file with a text that it got at some time. -/
def pairNodes (names : Nat) (text : List UInt8) (changed : Nat) : List (Place × Node) := [
  (["w", "src"], .directory 0o755 (.counted names)),
  (["w", "App.js"], .file [] 0o644 (.counted 2)), (["w", "Bpp.js"], .file [] 0o644 (.counted 3)),
  (["w", "p.yml"], .file text 0o644 (.counted changed))]

def pairHost : Host where
  store := ⟨(["w"], .directory 0o755 (.counted 0)) :: pairNodes 1 appText 4, 5⟩
  history := []
  workingDirectory := ⟨.absolute, ["w"]⟩
  logs := []
  issued := 0
  processId := 7
  running := []
  now := "2024-05-01T00:00:00"

def pairScene : Scene Unit where
  host := pairHost
  session := { sampleScene.session with configFile := pairTarget.file }
  server := .fresh 0
  outside := ()

/-- A dev server that ends with its first wait. -/
def briefScript : Script Onlooker where
  exitCode := 0
  timeouts := 0
  ignoresTermination := false
  startError := none
  signalAtStart := none
  waitFails := false
  duringStart := id
  duringWait := fun _ => id
  onTermination := id
  duringRestoration := id

/-- The preview file names the other component, which changes its time but not its length. -/
def swapping : Change := .write ["w", "p.yml"] bppText 0o644

/-- The time of its change is set back. -/
def resetting : Change := .setStamp ["w", "p.yml"] (.counted 4)

def hiddenEdit : Nat → List Event
  | 0 => [.edit swapping, .edit resetting, .poll]
  | _ => []

/-! The hosts that the run comes to. -/

/-- A host whose directory of markers was made. -/
def pairWith (h : Host) (names : Nat) (text : List UInt8) (changed : Nat)
    (others : List (Place × Node)) (next : Nat) : Host := { h with
  store := ⟨(["w"], .directory 0o755 (.counted 5)) :: pairNodes names text changed ++
    (["w", "state"], .directory 0o755 (.counted 6)) :: others, next⟩ }

/-- The host with the directory. -/
def pairMade : Host :=
  pairWith { pairHost with
    history := [.makeDirectory ["w", "state"], .makeDirectory ["w", "state", "temp"]] }
    1 appText 4 [(["w", "state", "temp"], .directory 0o755 (.counted 6))] 7

def pairMarkPlace : Place := ["w", "state", "temp", Marker.nameOf 1]

def pairMarkNodes (mark : List UInt8) : List (Place × Node) := [
  (["w", "state", "temp"], .directory 0o755 (.counted 7)),
  (pairMarkPlace, .file mark 0o644 (.counted 7))]

/-- The host with a marker. -/
def pairMarked (mark : List UInt8) : Host :=
  pairWith { pairMade with
    history := pairMade.history ++ [.write pairMarkPlace mark 0o644], issued := 1 }
    1 appText 4 (pairMarkNodes mark) 8

/-- The host with generated code, after edits of the preview file. -/
def pairSpawned (mark content text : List UInt8) (changed : Nat) (edits : List Change) : Host :=
  pairWith { pairMarked mark with
    history := (pairMarked mark).history ++ .write pairTarget.entry.parts content 0o644 :: edits }
    8 text changed
    (pairMarkNodes mark ++ [(pairTarget.entry.parts, .file content 0o644 (.counted 8))])
    (9 + edits.length)

section

variable (mark content text : List UInt8) (changed : Nat) (edits : List Change)

/-- What the session finds out and does at first. -/
theorem pair_begun :
    (Work.exists_ pairTarget.entry).exec pairHost = (.ok false, pairHost) ∧
    ((⟨sampleSettings.temporary⟩ : Instances).isOwned pairTarget.entry).exec pairHost =
      (.ok false, pairHost) ∧
    (Preview.detectEntry none sampleSettings.workingDirectory none).exec pairHost =
      (.ok (pairTarget.entry, pairTarget.language), pairHost) ∧
    pairHost.text pairTarget.file = .ok "source: App.js\n" ∧
    (Work.makeDirectories sampleSettings.temporary).exec pairHost = (.ok (), pairMade) :=
  ⟨by cbv, by cbv, by cbv, by cbv, by cbv⟩

/-- The two writes of the session and the two changes by others. -/
theorem pair_changed :
    ({ pairMade with issued := 1 }.writing (sampleSettings.temporary.child (Marker.nameOf 1)) mark =
        .ok (.write pairMarkPlace mark 0o644) ∧
      { pairMade with issued := 1 }.change (.write pairMarkPlace mark 0o644) = pairMarked mark) ∧
    ((pairMarked mark).writing pairTarget.entry content =
        .ok (.write pairTarget.entry.parts content 0o644) ∧
      (pairMarked mark).change (.write pairTarget.entry.parts content 0o644) =
        pairSpawned mark content appText 4 []) ∧
    (pairSpawned mark content appText 4 []).change swapping =
      pairSpawned mark content bppText 9 [swapping] ∧
    (pairSpawned mark content bppText 9 [swapping]).change resetting =
      pairSpawned mark content bppText 4 [swapping, resetting] := by
  refine ⟨⟨?_, rfl⟩, ⟨?_, rfl⟩, rfl, rfl⟩
  · cbv
  · cbv

section

variable (h : Host) (names : Nat) (others : List (Place × Node)) (next : Nat)

theorem isWay_pairWith : (pairWith h names text changed others next).store.IsWay ["w"] ∧
    (pairWith h names text changed others next).store.IsWay ["w", "src"] :=
  have hway := (Store.isWay_root _).child ⟨_, rfl⟩
  ⟨hway, hway.child ⟨_, rfl⟩⟩

/-- What is found of the components and of the preview file. -/
theorem pair_sources :
    (pairWith h names text changed others next).bytes pairTarget.file = .ok text ∧
    ((pairWith h names text changed others next).realPath appPath = .ok appPath ∧
      (pairWith h names text changed others next).isNode Node.isFile appPath = .ok true) ∧
    (pairWith h names text changed others next).realPath bppPath = .ok bppPath ∧
      (pairWith h names text changed others next).isNode Node.isFile bppPath = .ok true := by
  obtain ⟨hway, -⟩ := isWay_pairWith text changed h names others next
  obtain ⟨hfile, -⟩ := Host.leads_of_seen (q := ["w", "p.yml"]) (by decide) hway rfl (by simp)
  obtain ⟨happ, happs⟩ := Host.leads_of_seen (q := ["w", "App.js"]) (by decide) hway rfl (by simp)
  obtain ⟨hbpp, hbpps⟩ := Host.leads_of_seen (q := ["w", "Bpp.js"]) (by decide) hway rfl (by simp)
  exact ⟨hfile.bytes_of_file rfl, ⟨happs.realPath (by decide), happ.isFile_of_file rfl⟩,
    hbpps.realPath (by decide), hbpp.isFile_of_file rfl⟩

end

/-- What is found of the target, and how long both versions are. -/
theorem pair_found :
    (pairSpawned mark content text changed edits).measure pairTarget.file =
      some (.counted changed, text.length) ∧
    (pairSpawned mark content text changed edits).found pairTarget.entry =
      some (.file content 0o644 (.counted 0)) ∧
    (pairMarked mark).realPath pairTarget.entry = .ok pairTarget.entry ∧
    (pairSpawned mark content text changed edits).realPath pairTarget.entry =
      .ok pairTarget.entry ∧
    bppText.length = appText.length := by
  obtain ⟨hfile, -⟩ := Host.leads_of_seen (h := pairSpawned mark content text changed edits)
    (q := ["w", "p.yml"]) (by decide) (isWay_pairWith ..).1 rfl (by simp)
  obtain ⟨hentry, hentries⟩ := Host.leads_of_seen (h := pairSpawned mark content text changed edits)
    (q := ["w", "src", "index.jsx"]) (by decide) (isWay_pairWith ..).2 rfl (by simp)
  have hfree : (pairMarked mark).store.IsStraight ["w", "src", "index.jsx"] :=
    Store.isStraight_of_isWay (by decide) (isWay_pairWith ..).2 fun target ht => nomatch ht
  have hnode : (pairSpawned mark content text changed edits).node pairTarget.file =
      .ok (["w", "p.yml"], .file text 0o644 (.counted changed)) := by
    rw [Host.node, show Host.reach _ true pairTarget.file = _ from hfile.reach true]
    rfl
  refine ⟨?_, hentry.found, (Host.settles_pathOf hfree).realPath (by decide),
    hentries.realPath (by decide), by cbv⟩
  rw [Host.measure, hnode]
  rfl

theorem pair_swapped : (pairSpawned mark content appText 4 []).change swapping =
    pairSpawned mark content bppText 9 [swapping] := (pair_changed mark content).2.2.1

theorem pair_reset : (pairSpawned mark content bppText 9 [swapping]).change resetting =
    pairSpawned mark content bppText 4 [swapping, resetting] := (pair_changed mark content).2.2.2

theorem measure_pairSpawned :
    (pairSpawned mark content text changed edits).measure pairTarget.file =
      some (.counted changed, text.length) := (pair_found ..).1

theorem found_pairSpawned :
    (pairSpawned mark content text changed edits).found pairTarget.entry =
      some (.file content 0o644 (.counted 0)) := (pair_found ..).2.1

end

theorem length_bppText : bppText.length = appText.length := (pair_found [] [] [] 0 []).2.2.2.2

theorem pair_marked : ∃ marker mark, ((⟨sampleSettings.temporary⟩ : Instances).writeMarker
    pairTarget.entry sampleSettings.workingDirectory .js none).exec pairHost =
      (.ok marker, pairMarked mark) := by
  rw [Instances.writeMarker, Work.exec_bind_ok pair_begun.2.2.2.2,
    Work.exec_bind_ok (Work.exec_get _), Work.exec_bind_ok (Work.exec_issue _)]
  have hwrite : ∀ s, (Work.attempt (Work.writeText
      (sampleSettings.temporary.child (Marker.nameOf 1)) s)).exec { pairMade with issued := 1 } =
        (.ok (.ok ()), pairMarked (Text.toBytes s)) := by
    intro s
    obtain ⟨⟨hwriting, hchange⟩, -⟩ := pair_changed (Text.toBytes s) []
    rw [← hchange]
    exact Work.exec_attempt_ok (Work.exec_perform_ok hwriting)
  exact ⟨_, _, Work.exec_bind_ok (hwrite _)⟩

theorem pair_written (mark : List UInt8) (code : String) :
    (Work.writeText pairTarget.entry code).exec (pairMarked mark) =
      (.ok (), pairSpawned mark (Text.toBytes code) appText 4 []) := by
  obtain ⟨-, ⟨hwriting, hchange⟩, -⟩ := pair_changed mark (Text.toBytes code)
  rw [← hchange]
  exact Work.exec_perform_ok hwriting

/-! The two versions. -/

/-- What a text of the preview file says. -/
def pairRead (text : String) : Result Preview.Config :=
  (Preview.readEntries pairTarget.file text).bind (Preview.readConfig pairTarget.file)

/-- The code for a configuration that names a component. -/
def pairCode (c : Preview.Config) (component : Path) : Result String :=
  (Preview.descriptorOf c pairTarget.file component (Preview.modulePath pairTarget.entry component)
    pairTarget.language).bind fun d => Result.ofFault d.code

theorem pair_check : (match pairRead "source: App.js\n", pairRead "source: Bpp.js\n" with
    | .ok c, .ok d => c.source == "App.js" && d.source == "Bpp.js" && c.output.isNone &&
      c.language.isNone && match pairCode c appPath, pairCode d bppPath with
        | .ok code, .ok hidden => Text.toBytes code != Text.toBytes hidden
        | _, _ => false
    | _, _ => false) = true := by
  decide +kernel

/-- Both versions can be used, and their codes differ. -/
theorem pair_versions : ∃ c d code hidden,
    (pairRead "source: App.js\n" = .ok c ∧ c.source = "App.js" ∧ pairCode c appPath = .ok code) ∧
    (pairRead "source: Bpp.js\n" = .ok d ∧ d.source = "Bpp.js" ∧ pairCode d bppPath = .ok hidden) ∧
    c.output = none ∧ c.language = none ∧ Text.toBytes code ≠ Text.toBytes hidden := by
  have h := pair_check
  cases hc : pairRead "source: App.js\n" with
  | error e => simp [hc] at h
  | ok c =>
    cases hd : pairRead "source: Bpp.js\n" with
    | error e => simp [hc, hd] at h
    | ok d =>
      cases hcode : pairCode c appPath with
      | error e => simp [hc, hd, hcode] at h
      | ok code =>
        cases hhidden : pairCode d bppPath with
        | error e => simp [hc, hd, hcode, hhidden] at h
        | ok hidden =>
          simp only [hc, hd, hcode, hhidden, Bool.and_eq_true, beq_iff_eq, bne_iff_ne,
            Option.isNone_iff_eq_none] at h
          obtain ⟨⟨⟨⟨hc', hd'⟩, houtput⟩, hlanguage⟩, hne⟩ := h
          exact ⟨c, d, code, hidden, ⟨rfl, hc', hcode⟩, ⟨rfl, hd', hhidden⟩, houtput, hlanguage,
            hne⟩

/-- A version is generated from if it names one of the components. -/
theorem pair_generated {h : Host} {text source : String} {component : Path} {c : Preview.Config}
    (htext : h.bytes pairTarget.file = .ok (Text.toBytes text)) (hlines : '\r' ∉ text.toList)
    (hpath : pairTarget.file.parent.join (Path.ofText source) = component)
    (hfound : h.realPath component = .ok component ∧ h.isNode Node.isFile component = .ok true)
    (hentry : h.realPath pairTarget.entry = .ok pairTarget.entry)
    (hc : pairRead text = .ok c) (hs : c.source = source) :
    (Preview.generate pairTarget.file pairTarget.entry pairTarget.language).exec h =
      (pairCode c component, h) := by
  have hread : h.text pairTarget.file = .ok text := by
    rw [Host.text, htext]
    simp only [Text.ofFile?_toBytes hlines]
  refine Preview.exec_generate hread hc ?_ hfound.2 hfound.1 hentry
  rw [hs, hpath]
  exact hfound.1

theorem pair_resolved {c : Preview.Config} (hc : pairRead "source: App.js\n" = .ok c)
    (houtput : c.output = none) (hlanguage : c.language = none) :
    (Preview.resolveEntry pairTarget.file sampleSettings none).exec pairHost =
      (.ok (pairTarget.entry, pairTarget.language), pairHost) := by
  obtain ⟨-, -, hdetect, htext, -⟩ := pair_begun
  have hload : (Preview.loadConfig pairTarget.file).exec pairHost = (.ok c, pairHost) := by
    rw [Preview.exec_loadConfig htext]
    exact congrArg (·, pairHost) hc
  rw [Preview.resolveEntry, Work.exec_bind_ok hload, houtput, hlanguage]
  exact hdetect

/-- The scenes before the installation and after it. -/
def pairBefore : Scene Onlooker where
  host := pairHost
  session := { pairScene.session with
    phase := .installing, entry := some (pairTarget.entry, pairTarget.language) }
  server := .fresh 0
  outside := ⟨none, []⟩

def pairAfter (marker : Marker) (k : Host) : Scene Onlooker where
  host := k
  session := { pairBefore.session with
    marker := some marker
    generated := true
    watcher := some (Watcher.start k [pairTarget.file])
    started := true }
  server := { DevServer.fresh 0 with command := some (["start"], sampleSettings.workingDirectory) }
  outside := ⟨some k, []⟩

theorem pair_installed {c : Preview.Config} {code : String}
    (hc : pairRead "source: App.js\n" = .ok c) (hs : c.source = "App.js")
    (hcode : pairCode c appPath = .ok code) : ∃ marker mark,
      (install (briefScript.amid hiddenEdit) pairTarget.entry pairTarget.language).exec pairBefore =
        (.ok (), pairAfter marker (pairSpawned mark (Text.toBytes code) appText 4 [])) := by
  obtain ⟨marker, mark, hmark⟩ := pair_marked
  refine ⟨marker, mark, ?_⟩
  have hgenerated : (Preview.generate pairTarget.file pairTarget.entry pairTarget.language).exec
      (pairMarked mark) = (pairCode c appPath, pairMarked mark) :=
    pair_generated (pair_sources ..).1 (by decide) appPath_eq (pair_sources ..).2.1
      (pair_found mark [] [] 0 []).2.2.1 hc hs
  rw [hcode] at hgenerated
  let t₁ : Scene Onlooker := { pairBefore with
    host := pairMarked mark, session := { pairBefore.session with marker := some marker } }
  have hwrite : (writeGenerated pairTarget.entry pairTarget.language).exec t₁ = (.ok (), { t₁ with
      host := pairSpawned mark (Text.toBytes code) appText 4 []
      session := { t₁.session with generated := true } }) := by
    rw [writeGenerated, Act.exec_bind_ok (Act.exec_session t₁),
      Act.exec_bind_ok (Act.exec_work_of hgenerated)]
    show (Act.setSession _ >>= _ : Act Onlooker Unit).exec t₁ = _
    rw [Act.exec_bind_ok (Act.exec_setSession _ t₁), Act.exec_bind_ok (Act.exec_work_of
      (Work.exec_attempt_ok (pair_written mark code)))]
    rfl
  have hgenerate : (generateAndStart (briefScript.amid hiddenEdit) pairTarget.entry
      pairTarget.language).exec t₁ =
        (.ok (), pairAfter marker (pairSpawned mark (Text.toBytes code) appText 4 [])) := by
    rw [generateAndStart, Act.exec_bind_ok hwrite]
    rfl
  rw [install_eq, Act.exec_bind_ok (Act.exec_session _), Act.exec_bind_ok (Act.exec_work_of pair_begun.1)]
  show (markAndStart _ _ _ _).exec pairBefore = _
  rw [markAndStart, Act.exec_bind_ok (Act.exec_session _), Act.exec_bind_ok (Act.exec_work_of hmark)]
  exact hgenerate

/-- The scene after both edits, while the session waits for its dev server. -/
def pairEdited (marker : Marker) (mark content : List UInt8) : Scene Onlooker :=
  let t := pairAfter marker (pairSpawned mark content appText 4 [])
  { t with
    host := pairSpawned mark content bppText 4 [swapping, resetting]
    session := { t.session with phase := .active }
    server := { t.server with requests := [.wait (some waitSpan)], waits := 1 } }

theorem pair_events (marker : Marker) (mark content : List UInt8) :
    (briefScript.amid hiddenEdit).duringWait 0 { pairEdited marker mark content with
      host := pairSpawned mark content appText 4 [] } = pollNoted (pairEdited marker mark content) := by
  let t : Scene Onlooker := { pairEdited marker mark content with
    host := pairSpawned mark content appText 4 [] }
  let u : Scene Onlooker := { t with host := pairSpawned mark content bppText 9 [swapping] }
  have hswap : Event.enact briefScript.noted t (.edit swapping) = u := by
    have hfound : (t.host.change swapping).found pairTarget.entry =
        t.host.found pairTarget.entry := by
      rw [pair_swapped, found_pairSpawned, found_pairSpawned]
    rw [Event.enact_edit rfl hfound, pair_swapped]
  have hreset : Event.enact briefScript.noted u (.edit resetting) =
      pairEdited marker mark content := by
    have hfound : (u.host.change resetting).found pairTarget.entry =
        u.host.found pairTarget.entry := by
      rw [pair_reset, found_pairSpawned, found_pairSpawned]
    rw [Event.enact_edit rfl hfound, pair_reset]
    rfl
  show Event.enact briefScript.noted (Event.enact briefScript.noted
    (Event.enact briefScript.noted t (.edit swapping)) (.edit resetting)) .poll = _
  rw [hswap, hreset]
  rfl

theorem pair_following (marker : Marker) (mark : List UInt8) (code : String) :
    Following pairTarget ⟨some (.counted 4, appText.length), code⟩
      (pairEdited marker mark (Text.toBytes code)) where
  config := rfl
  target := rfl
  watching := by
    refine ⟨_, rfl, ?_⟩
    rw [← length_bppText, Host.lookup_snapshot_singleton, measure_pairSpawned]
    exact congrArg (fun n => some (Stamp.counted 4, n)) length_bppText.symm
  phase := rfl
  started := rfl
  content := Host.bytes_eq_ok.mpr ⟨0o644, found_pairSpawned ..⟩

/-- The wait ends with one poll noted. -/
theorem pair_waited (marker : Marker) (mark : List UInt8) (code : String) :
    let t := pairAfter marker (pairSpawned mark (Text.toBytes code) appText 4 [])
    ((supervise (briefScript.amid hiddenEdit) (waitBound (briefScript.amid hiddenEdit)) .unset).exec
      { t with session := { t.session with phase := .active } }).2.outside =
        (pollNoted (pairEdited marker mark (Text.toBytes code))).outside := by
  intro t
  let t₁ : Scene Onlooker := { t with session := { t.session with phase := .active } }
  let u := pollNoted (pairEdited marker mark (Text.toBytes code))
  obtain ⟨changed, host, session, hpoll, -⟩ := (pair_following marker mark code).poll
  have hserver : u.server = (pairEdited marker mark (Text.toBytes code)).server := by
    show (pollNoted _).server = _
    rw [pollNoted, hpoll]
  have hwait : (wait (briefScript.amid hiddenEdit) (some waitSpan)).exec t₁ =
      (.ok (.ended 0), { u with server := { u.server with ended := some 0 } }) := by
    rw [wait, Act.exec_bind_ok (Act.exec_setServer _ t₁), Act.exec_bind_ok (Act.exec_server _)]
    show (Act.setServer _ >>= _ : Act Onlooker Vitrine.Waited).exec _ = _
    rw [Act.exec_bind_ok (Act.exec_setServer _ _), Act.exec_bind_ok (Act.exec_modify _ _)]
    show (_ : Act Onlooker Vitrine.Waited).exec ((briefScript.amid hiddenEdit).duringWait 0
      { pairEdited marker mark (Text.toBytes code) with
        host := pairSpawned mark (Text.toBytes code) appText 4 [] }) = _
    rw [pair_events]
    show (Act.server >>= _ : Act Onlooker Vitrine.Waited).exec u = _
    rw [Act.exec_bind_ok (Act.exec_server u), hserver]
    rfl
  show ((supervise (briefScript.amid hiddenEdit) (19 + 1) .unset).exec t₁).2.outside = _
  rw [supervise, Act.exec_bind_ok hwait]
  rfl

/-- What is noted of a run with a hidden edit. -/
def hiddenRun : Onlooker :=
  ((run (briefScript.amid hiddenEdit)).exec (pairScene.withOutside ⟨none, []⟩)).2.outside

theorem pair_run {c : Preview.Config} {code : String}
    (hc : pairRead "source: App.js\n" = .ok c) (hs : c.source = "App.js")
    (hcode : pairCode c appPath = .ok code) (houtput : c.output = none)
    (hlanguage : c.language = none) : ∃ marker mark,
      hiddenRun = (pollNoted (pairEdited marker mark (Text.toBytes code))).outside := by
  obtain ⟨marker, mark, hinstall⟩ := pair_installed hc hs hcode
  refine ⟨marker, mark, ?_⟩
  have hresolved := pair_resolved hc houtput hlanguage
  rw [hiddenRun, run_eq, Act.exec_bind_ok (Act.exec_session _),
    Act.exec_bind_ok (Act.exec_work_of hresolved), Act.exec_bind_ok (Act.exec_setSession _ _),
    Act.exec_bind_ok (Act.exec_work_of pair_begun.2.1)]
  show ((replaceEntry (briefScript.amid hiddenEdit) pairTarget.entry pairTarget.language).exec
    pairBefore).2.outside = _
  rw [outside_replaceEntry, occupy, Act.exec_bind_ok hinstall,
    Act.exec_bind_ok (Act.exec_enter _ _)]
  exact pair_waited marker mark code

end Session
end Vitrine
