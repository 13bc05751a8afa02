import Vitrine.Proofs.Files.Operations
import Vitrine.Proofs.Session.Steps

/-!
# Polling

What happens while a dev server is waited for: files change, signals arrive, and the session's watcher
polls. `Following` holds of a session all that time; it ties the entry file to what the watcher has
found so far, and `Following.poll` is the step that one poll makes.
-/
namespace Vitrine

/-- What a session is about: its preview file, the entry file that this one replaces and the language
of that. -/
structure Target where
  file : Path
  entry : Path
  language : Preview.Language

namespace Host

/-- When a file was last changed and how long it is, if it is there. -/
def measure (h : Host) (p : Path) : Option (Stamp × Nat) :=
  match h.node p with
  | .ok (_, n) => some n.measure
  | .error _ => none

/-- The code for a preview file as it is now, if it can be used. -/
def code (h : Host) (g : Target) : Option String :=
  ((Preview.generate g.file g.entry g.language).exec h).1.toOption

variable {h k : Host} {p : Path}

/-! ## The content of a file -/

theorem bytes_eq_ok {content : List UInt8} : h.bytes p = .ok content ↔
    ∃ mode, h.found p = some (.file content mode (.counted 0)) := by
  rw [bytes, found]
  cases h.node p with
  | error e => simp
  | ok x =>
    obtain ⟨q, n⟩ := x
    cases n <;> simp

theorem bytes_withLogs (h : Host) (logs : List LogEntry) (p : Path) :
    (h.withLogs logs).bytes p = h.bytes p := rfl

/-- A text that was written is the content of its file. -/
theorem bytes_of_writeText {s : String} (hw : (Work.writeText p s).exec h = (.ok (), k)) :
    k.bytes p = .ok (Text.toBytes s) := by
  rw [Work.writeText, Work.writeBytes, Work.exec_perform, writing] at hw
  cases hr : h.reach true p with
  | error e => simp [hr] at hw
  | ok x =>
    obtain ⟨hs, hl⟩ := leads_of_reach hr
    have hx := Except.ok.inj ((reach_eq hs hl).symm.trans hr)
    have hwritten : ∀ mode, h.store.IsLeaf x.place →
        (h.change (.write x.place (Text.toBytes s) mode)).bytes p = .ok (Text.toBytes s) := by
      intro mode hleaf
      have hways := (Change.differsAt_write hleaf (Text.toBytes s) mode).ways
      refine bytes_eq_ok.mpr ⟨mode, ?_⟩
      rw [found_eq_seen (h := h.change _) hs (hl.of_sameWays hways)]
      exact (Change.seen_write _ _ _ _ hleaf.ne_root).trans (if_pos rfl)
    rw [hr] at hw
    cases x with
    | free q =>
      cases hw
      refine hwritten _ (Or.inl ?_)
      rw [Store.seen_eq_none]
      cases hg : h.store.get? q with
      | none => exact hg
      | some n => simp [Store.reachedAt, Reached.place, hg] at hx
    | there q n =>
      cases n with
      | file content mode changed =>
        cases hw
        refine hwritten _ (Or.inr ⟨content, mode, ?_⟩)
        cases hg : h.store.get? q with
        | none => simp [Store.reachedAt, Reached.place, hg] at hx
        | some m =>
          simp only [Reached.place, Store.reachedAt, hg, Reached.there.injEq, true_and] at hx
          rw [Reached.place, Store.seen_of_get? hg, hx]
          rfl
      | directory mode changed => simp at hw
      | link target => simp at hw

/-- A file can be written. -/
theorem writeText_of_bytes {content : List UInt8} (hb : h.bytes p = .ok content) (s : String) :
    ∃ k, (Work.writeText p s).exec h = (.ok (), k) := by
  rw [bytes, node] at hb
  rw [Work.writeText, Work.writeBytes, Work.exec_perform, writing]
  cases hr : h.reach true p with
  | error e => simp [hr] at hb
  | ok x =>
    rw [hr] at hb
    cases x with
    | free q => simp at hb
    | there q n =>
      cases n with
      | file content mode changed => exact ⟨_, rfl⟩
      | directory mode changed => simp at hb
      | link target => simp at hb

/-! ## Finding a file changed -/

theorem snapshot_singleton (h : Host) (p : Path) :
    Watcher.snapshot h [p] = (h.measure p).toList.map (p, ·) := by
  rw [Watcher.snapshot, Watcher.snapshotFrom, measure]
  cases h.node p with
  | error e => rfl
  | ok x => rfl

/-- A poll for one file tells of it if it is there and no longer as it was. -/
theorem changes_singleton (h : Host) (p : Path) (before : Snapshot) :
    Watcher.changes before (Watcher.snapshot h [p]) =
      if h.measure p = none ∨ h.measure p = before.lookup p then [] else [p] := by
  rw [snapshot_singleton, Watcher.changes]
  cases hm : h.measure p with
  | none => rfl
  | some m =>
    by_cases hb : before.lookup p = some m
    · simp [hb]
    · simp [hb, Ne.symm hb]

theorem lookup_snapshot_singleton (h : Host) (p : Path) :
    (Watcher.snapshot h [p]).lookup p = h.measure p := by
  rw [snapshot_singleton]
  cases h.measure p with
  | none => rfl
  | some m => simp

/-- A preview file that is missing cannot be used. -/
theorem code_of_measure {g : Target} (hm : h.measure g.file = none) : h.code g = none := by
  have hload : ∃ e, (Preview.loadEntries g.file).exec h = (.error e, h) := by
    rw [measure] at hm
    cases hn : h.node g.file with
    | ok x => simp [hn] at hm
    | error e =>
      have htext : h.text g.file = .error e := by
        rw [text, bytes, hn]
      rw [Preview.loadEntries, Work.exec_bind, Work.exec_attempt, Work.readText, Work.exec_look,
        htext]
      cases e with
      | system n => cases n <;> exact ⟨_, rfl⟩
      | _ => exact ⟨_, rfl⟩
  obtain ⟨e, he⟩ := hload
  rw [code, Preview.generate, Work.exec_bind_error (e := e) (k := h)]
  · rfl
  · rw [Preview.resolveFile, Work.exec_bind_error (e := e) (k := h)]
    rw [Preview.loadConfig, Work.exec_bind_error he]

end Host

/-- A scene without what is outside. -/
def Scene.inner {σ : Type} (t : Scene σ) : Scene Unit := ⟨t.host, t.session, t.server, ()⟩

namespace Session

/-! ## What happens, and what is seen of it -/

/-- One poll: the scenes before and after it, and what it came to. -/
structure Sighting where
  before : Scene Unit
  result : Result (List Path)
  after : Scene Unit

/-- What an onlooker has seen: the host on which the dev server was about to be started, and all polls
since then. -/
structure Onlooker where
  spawned : Option Host
  polls : List Sighting

inductive Event where
  | edit (c : Change)
  | poll
  | signal (n : Nat)

/-- One poll, and an onlooker that takes note of it. -/
def pollNoted (t : Scene Onlooker) : Scene Onlooker :=
  let (result, u) := poll.exec t
  let sighting : Sighting := ⟨t.inner, result, u.inner⟩
  { u with outside := { u.outside with polls := u.outside.polls ++ [sighting] } }

/-- What an event makes of a scene. Nobody but the session touches the entry file: a change that would
be found there is not made. There are polls only while there is a watcher. -/
def Event.enact (script : Script Onlooker) (t : Scene Onlooker) : Event → Scene Onlooker
  | .edit c =>
    match t.session.entry with
    | some (entry, _) =>
      if (t.host.change c).found entry = t.host.found entry then
        { t with host := t.host.change c }
      else t
    | none => t
  | .poll => if t.session.watcher.isSome then pollNoted t else t
  | .signal n => ((receive script n).exec t).2

theorem Event.enact_edit {script : Script Onlooker} {t : Scene Onlooker} {c : Change} {entry : Path}
    {language : Preview.Language} (he : t.session.entry = some (entry, language))
    (hf : (t.host.change c).found entry = t.host.found entry) :
    Event.enact script t (.edit c) = { t with host := t.host.change c } := by
  rw [enact, he]
  exact if_pos hf

/-- How far a session has followed its preview file: what the watcher found last, and the code for the
last version that could be used. -/
structure Course where
  seen : Option (Stamp × Nat)
  code : String

/-- A poll reads a version if the preview file is not as the poll before found it. -/
def Course.next (g : Target) (r : Course) (h : Host) : Course where
  seen := h.measure g.file
  code := if h.measure g.file = r.seen then r.code else (h.code g).getD r.code

/-- How far a session is after some polls. -/
def Course.after (g : Target) (r : Course) (polls : List Sighting) : Course :=
  polls.foldl (fun r s => r.next g s.before.host) r

variable {σ : Type}

/-- A session that follows its preview file while the dev server runs, and how far it is. -/
structure Following (g : Target) (r : Course) (t : Scene σ) : Prop where
  config : t.session.configFile = g.file
  target : t.session.entry = some (g.entry, g.language)
  watching : ∃ seen, t.session.watcher = some ⟨[g.file], seen, false⟩ ∧ seen.lookup g.file = r.seen
  phase : t.session.phase = .active
  started : t.session.started = true
  content : t.host.bytes g.entry = .ok (Text.toBytes r.code)

variable {g : Target} {r : Course} {t u : Scene σ}

/-! ## Writing the code for the current version -/

theorem exec_generate (hfile : t.session.configFile = g.file) :
    ∃ x, (Act.work (Preview.generate t.session.configFile g.entry g.language) : Act σ String).exec t =
      (x, t) ∧ x.toOption = t.host.code g := by
  refine ⟨_, Act.exec_work_still (Preview.generate_moves _ _ _) t, ?_⟩
  rw [hfile]
  rfl

/-- Without code for the current version nothing is written. -/
theorem writeGeneratedBetween_of_none (gap : Gap → Act σ Unit) (hfile : t.session.configFile = g.file)
    (hcode : t.host.code g = none) :
    ∃ e, (writeGeneratedBetween gap g.entry g.language).exec t = (.error e, t) := by
  obtain ⟨x, hx, hxcode⟩ := exec_generate hfile
  rw [writeGeneratedBetween, Act.exec_bind_ok (Act.exec_session t)]
  cases x with
  | error e => exact ⟨e, Act.exec_bind_error hx⟩
  | ok code => cases hxcode.trans hcode

/-- What is done with generated code. -/
def putGenerated (gap : Gap → Act σ Unit) (entry : Path) (code : String) : Act σ Unit := do
  gap .rendered
  Act.setSession fun s => { s with generated := true }
  gap .touched
  match ← Act.work (Work.attempt (Work.writeText entry code)) with
  | .ok () => return
  | .error e => throw (.backup (.write entry e))

/-- Otherwise its code is written. -/
theorem writeGeneratedBetween_of_some {gap : Gap → Act σ Unit} {code : String}
    (hfile : t.session.configFile = g.file) (hcode : t.host.code g = some code) :
    (writeGeneratedBetween gap g.entry g.language).exec t = (putGenerated gap g.entry code).exec t := by
  obtain ⟨x, hx, hxcode⟩ := exec_generate hfile
  rw [writeGeneratedBetween, Act.exec_bind_ok (Act.exec_session t)]
  cases x with
  | error e => cases hxcode.trans hcode
  | ok code' =>
    obtain rfl : code' = code := Option.some.inj (hxcode.trans hcode)
    exact Act.exec_bind_ok hx

/-- With nothing in between, nothing happens but that the code is written. -/
theorem writeGenerated_of_some {code : String} (hfile : t.session.configFile = g.file)
    (hcode : t.host.code g = some code) :
    (writeGenerated g.entry g.language).exec t =
      (Act.work (Work.attempt (Work.writeText g.entry code)) >>= fun x =>
        match x with
        | .ok () => return
        | .error e => throw (.backup (.write g.entry e)) : Act σ Unit).exec
        { t with session := { t.session with generated := true } } := by
  show (writeGeneratedBetween quiet g.entry g.language).exec t = _
  rw [writeGeneratedBetween_of_some hfile hcode]
  rfl

theorem writeGenerated_of_written {code : String} {k : Host}
    (hfile : t.session.configFile = g.file) (hcode : t.host.code g = some code)
    (hw : (Work.writeText g.entry code).exec t.host = (.ok (), k)) :
    (writeGenerated g.entry g.language).exec t =
      (.ok (), { t with host := k, session := { t.session with generated := true } }) := by
  let t₁ : Scene σ := { t with session := { t.session with generated := true } }
  have hwrite : (Act.work (Work.attempt (Work.writeText g.entry code)) : Act σ _).exec t₁ =
      (.ok (.ok ()), { t₁ with host := k }) := Act.exec_work_of (Work.exec_attempt_ok hw)
  rw [writeGenerated_of_some hfile hcode, Act.exec_bind_ok hwrite]
  rfl

theorem writeGenerated_of_failed {code : String} {e : Error} {k : Host}
    (hfile : t.session.configFile = g.file) (hcode : t.host.code g = some code)
    (hw : (Work.writeText g.entry code).exec t.host = (.error e, k)) :
    ∃ e', (writeGenerated g.entry g.language).exec t =
      (.error e', { t with host := k, session := { t.session with generated := true } }) := by
  rw [writeGenerated_of_some hfile hcode, Act.exec_bind, Act.exec_work, Work.exec_attempt]
  dsimp only
  rw [hw]
  cases e with
  | system n => exact ⟨_, rfl⟩
  | _ => exact ⟨_, rfl⟩

/-- What is done once a change was followed. -/
def endFollow (file : Path) : Result Unit → Act σ Unit
  | .ok () => return
  | .error e =>
    if e.isReported then
      Act.work (Work.warn ("Keeping previous preview, " ++ file.text ++ " is invalid: " ++ e.message))
    else throw e

theorem followChange_of_active {file entry : Path} {language : Preview.Language}
    (hphase : t.session.phase = .active) (htarget : t.session.entry = some (entry, language)) :
    (followChange file).exec t =
      (Act.outcome (writeGenerated entry language) >>= endFollow file).exec t := by
  rw [followChange, Act.exec_bind_ok (Act.exec_session t), hphase, htarget]
  rfl

/-! ## One step -/

namespace Following

/-- A change is followed: the entry file has the code for the current version, or, if there is none,
what it had before. -/
theorem followChangeOrWarn (h : Following g r t) (p : Path) :
    ∃ host session, (Session.followChangeOrWarn p).exec t = (.ok (), { t with host, session }) ∧
      Following g { r with code := (t.host.code g).getD r.code } { t with host, session } := by
  rw [Session.followChangeOrWarn, Act.exec_bind_ok (Act.exec_outcome _ t),
    followChange_of_active h.phase h.target, Act.exec_bind_ok (Act.exec_outcome _ t)]
  cases hcode : t.host.code g with
  | none =>
    -- Whichever of the two layers tells of the error, only the log changes.
    have hkept : ∀ logs, Following g r { t with host := t.host.withLogs logs } := fun logs =>
      ⟨h.config, h.target, h.watching, h.phase, h.started, h.content⟩
    obtain ⟨e, hw⟩ : ∃ e, (writeGenerated g.entry g.language).exec t = (.error e, t) :=
      writeGeneratedBetween_of_none quiet h.config hcode
    rw [hw]
    by_cases hr : e.isReported = true
    · simp only [endFollow, if_pos hr]
      exact ⟨_, _, rfl, hkept _⟩
    · simp only [endFollow, if_neg hr]
      exact ⟨_, _, rfl, hkept _⟩
  | some code =>
    obtain ⟨k, hk⟩ := Host.writeText_of_bytes h.content code
    rw [writeGenerated_of_written h.config hcode hk]
    exact ⟨k, { t.session with generated := true }, rfl,
      h.config, h.target, h.watching, h.phase, h.started, Host.bytes_of_writeText hk⟩

/-- One poll: the session follows the version that the poll reads, and goes on. -/
theorem poll (h : Following g r t) :
    ∃ changed host session, Session.poll.exec t = (.ok changed, { t with host, session }) ∧
      Following g (r.next g t.host) { t with host, session } := by
  obtain ⟨seen, hwatcher, hseen⟩ := h.watching
  let changed : List Path := Watcher.changes seen (Watcher.snapshot t.host [g.file])
  let w : Watcher := ⟨[g.file], Watcher.snapshot t.host [g.file], false⟩
  let t₁ : Scene σ := { t with session := { t.session with watcher := some w } }
  have hnext : ∀ code, t.host.bytes g.entry = .ok (Text.toBytes code) →
      Following g ⟨t.host.measure g.file, code⟩ t₁ := fun code hcode =>
    ⟨h.config, h.target, ⟨_, rfl, t.host.lookup_snapshot_singleton g.file⟩, h.phase, h.started,
      hcode⟩
  have hpoll : Session.poll.exec t =
      (Watcher.deliver isWatcherStopped Session.followChangeOrWarn changed >>= fun _ =>
        pure changed : Act σ (List Path)).exec t₁ := by
    rw [Session.poll, Act.exec_bind_ok (Act.exec_session t), hwatcher]
    rfl
  have hchanged : changed =
      if t.host.measure g.file = none ∨ t.host.measure g.file = r.seen then [] else [g.file] := by
    rw [← hseen]
    exact t.host.changes_singleton g.file seen
  rw [hpoll, Course.next]
  by_cases hsame : t.host.measure g.file = none ∨ t.host.measure g.file = r.seen
  · rw [hchanged, if_pos hsame]
    refine ⟨[], _, _, rfl, ?_⟩
    rcases hsame with hnone | hsame
    · rw [Host.code_of_measure hnone, Option.getD_none, ite_self]
      exact hnext r.code h.content
    · rw [if_pos hsame]
      exact hnext r.code h.content
  · obtain ⟨host, session, htold, hfollowing⟩ :=
      (hnext r.code h.content).followChangeOrWarn g.file
    rw [hchanged, if_neg hsame, if_neg (not_or.mp hsame).2]
    refine ⟨[g.file], host, session, ?_, hfollowing⟩
    have hstopped : (isWatcherStopped : Act σ Bool).exec t₁ = (.ok false, t₁) := rfl
    rw [Watcher.deliver, bind_assoc, Act.exec_bind_ok hstopped]
    show ((Session.followChangeOrWarn g.file >>= _) >>= _ : Act σ (List Path)).exec t₁ = _
    rw [bind_assoc, Act.exec_bind_ok htold]
    rfl

theorem withServer (h : Following g r t) (s : DevServer) : Following g r { t with server := s } :=
  ⟨h.config, h.target, h.watching, h.phase, h.started, h.content⟩

theorem withSignal (h : Following g r t) (n : Option Nat) :
    Following g r { t with session := { t.session with signal := n } } :=
  ⟨h.config, h.target, h.watching, h.phase, h.started, h.content⟩

theorem withLogs (h : Following g r t) (logs : List LogEntry) :
    Following g r { t with host := t.host.withLogs logs } :=
  ⟨h.config, h.target, h.watching, h.phase, h.started, h.content⟩

/-- A change that is not found at the entry file. -/
theorem change (h : Following g r t) {c : Change}
    (hfound : (t.host.change c).found g.entry = t.host.found g.entry) :
    Following g r { t with host := t.host.change c } := by
  refine ⟨h.config, h.target, h.watching, h.phase, h.started, Host.bytes_eq_ok.mpr ?_⟩
  rw [hfound]
  exact Host.bytes_eq_ok.mp h.content

end Following
end Session
end Vitrine
