import Vitrine.Host

/-!
Watching files for changes. A watcher remembers when each file was last changed and how long it was;
a poll answers the files for which that is no longer so, and its callback is told of them.
-/
namespace Vitrine

/-- When files were changed and how long they were, each file once. -/
abbrev Snapshot := List (Path × Stamp × Nat)

structure Watcher where
  paths : List Path
  seen : Snapshot
  stopped : Bool

namespace Watcher

/-- The stamps of the files that are there. -/
def snapshotFrom (h : Host) : Snapshot → List Path → Snapshot
  | sofar, [] => sofar
  | sofar, p :: ps =>
    if (sofar.lookup p).isSome then snapshotFrom h sofar ps
    else
      match h.node p with
      | .ok (_, n) => snapshotFrom h (sofar ++ [(p, n.measure)]) ps
      | .error _ => snapshotFrom h sofar ps

def snapshot (h : Host) (paths : List Path) : Snapshot := snapshotFrom h [] paths

/-- The files of a snapshot that are not as they were in an earlier one. -/
def changes (before now : Snapshot) : List Path :=
  (now.filter fun e => before.lookup e.1 ≠ some e.2).map (·.1)

/-- A watcher of files as they are. -/
def start (h : Host) (paths : List Path) : Watcher := ⟨paths, snapshot h paths, false⟩

def stop (w : Watcher) : Watcher := { w with stopped := true }

/-- One poll: the files that have changed, and the watcher that knows of it. -/
def poll (h : Host) (w : Watcher) : List Path × Watcher :=
  let now := snapshot h w.paths
  (changes w.seen now, { w with seen := now })

/-- Tells of changed files one after the other, until the watcher is stopped; answers the files that
were told of. -/
def deliver {m : Type → Type} [Monad m] (isStopped : m Bool) (tell : Path → m Unit) :
    List Path → m (List Path)
  | [] => return []
  | p :: ps => do
    if ← isStopped then return []
    tell p
    return p :: (← deliver isStopped tell ps)

/-- What is said when a change of a file cannot be followed for a reason. -/
def troubleText (file : Path) (reason : String) : String :=
  "Error handling change to " ++ file.text ++ ": " ++ reason

/-! ## Watchers of any paths -/

/-- Looks at a file. That the system refuses is as good as that the file is missing; other errors are
not caught. -/
def glance (h : Host) (p : Path) : Result Unit :=
  match h.node p with
  | .ok _ | .error (.system _) => .ok ()
  | .error e => .error e

/-- The stamps of the files that are there, if all of them can be looked at. -/
def scan (h : Host) (paths : List Path) : Result Snapshot := do
  paths.forM (glance h)
  return snapshot h paths

/-- Starts to watch files as they are. -/
def launch (h : Host) (paths : List Path) : Result Watcher := do return ⟨paths, ← scan h paths, false⟩

/-- What a callback does when it is told of a file: it may change a state of its own, fail for a
reason, and stop the watcher. -/
structure Reaction (σ : Type) where
  state : σ
  failure : Option String
  stops : Bool

abbrev Callback (σ : Type) := Path → σ → Reaction σ

/-- A watcher at work, with what was said about failures and the state of its callback. -/
structure Watch (σ : Type) where
  watcher : Watcher
  warnings : List String
  state : σ

/-- Tells the callback of a file. That it fails is said and goes no further. -/
def tell {σ : Type} (f : Callback σ) (p : Path) : StateM (Watch σ) Unit := modify fun w =>
  let r := f p w.state
  ⟨if r.stops then w.watcher.stop else w.watcher,
    w.warnings ++ r.failure.toList.map (troubleText p), r.state⟩

/-- Whether the watcher was stopped by now. -/
def isStopped {σ : Type} : StateM (Watch σ) Bool := do return (← get).watcher.stopped

/-- The files that a poll found changed, and those that the callback was told of. -/
structure Round where
  changed : List Path
  told : List Path

/-- One poll of a watcher and its callback. -/
def check {σ : Type} (f : Callback σ) (h : Host) (w : Watch σ) : Result (Round × Watch σ) := do
  let _ ← scan h w.watcher.paths
  let (changed, watcher) := w.watcher.poll h
  let (told, w) := (deliver isStopped (tell f) changed).run { w with watcher }
  return (⟨changed, told⟩, w)

end Watcher
end Vitrine
