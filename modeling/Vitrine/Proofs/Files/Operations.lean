import Vitrine.Host
import Vitrine.Proofs.Files.Arrival

/-!
# Operations on files

What the operations of a host come to at a path that leads to a known place: their changes, and what
is found there.
-/
namespace Vitrine
namespace Host

/-- A path leads to a place, whether its last name is followed or not. -/
structure Leads (h : Host) (p : Path) (q : Place) : Prop where
  sound : p.isSound = true
  leads : ∀ follow, h.store.Leads follow (h.absolute p) q

/-- What a path leads to. -/
def found (h : Host) (p : Path) : Option Node :=
  match h.node p with
  | .ok (_, n) => some n.plain
  | .error _ => none

theorem reach_eq {h : Host} {follow : Bool} {p : Path} {q : Place} (hs : p.isSound = true)
    (hl : h.store.Leads follow (h.absolute p) q) : h.reach follow p = .ok (h.store.reachedAt q) := by
  rw [reach, if_pos hs, hl.reach]

theorem leads_of_reach {h : Host} {follow : Bool} {p : Path} {x : Reached}
    (hr : h.reach follow p = .ok x) :
    p.isSound = true ∧ h.store.Leads follow (h.absolute p) x.place := by
  rw [reach] at hr
  split at hr
  · next hs =>
    split at hr
    · next y hy =>
      cases hr
      exact ⟨hs, .of_reach hy⟩
    · cases hr
  · cases hr

/-- What is found at the end of a path is what is seen at the place that it leads to. -/
theorem found_eq_seen {h : Host} {p : Path} {q : Place} (hs : p.isSound = true)
    (hl : h.store.Leads true (h.absolute p) q) : h.found p = h.store.seen q := by
  rw [found, node, reach_eq hs hl, Store.reachedAt, Store.seen]
  cases h.store.get? q <;> rfl

theorem absolute_child (h : Host) (p : Path) (name : String) :
    h.absolute (p.child name) = (h.absolute p).child name := by
  rw [absolute, absolute, Path.join, Path.join]
  by_cases ha : p.isAbsolute
  · have hc : (p.child name).isAbsolute = true := ha
    rw [if_pos ha, if_pos hc]
  · have hc : ¬ (p.child name).isAbsolute = true := ha
    rw [if_neg ha, if_neg hc]
    simp [Path.child]

section Directory

variable {h : Host} {p : Path} {q : Place}

theorem isDirectory_of_leads (hs : p.isSound = true) (hl : h.store.Leads true (h.absolute p) q)
    (hd : h.store.IsDirectory q) : h.isNode Node.isDirectory p = .ok true := by
  obtain ⟨mode, changed, hg⟩ := Store.get?_of_isDirectory hd
  rw [isNode, node, reach_eq hs hl, Store.reachedAt_of_get? hg]
  rfl

theorem names_of_leads (hs : p.isSound = true) (hl : h.store.Leads true (h.absolute p) q)
    (hd : h.store.IsDirectory q) : h.names p = .ok (h.store.names q) := by
  obtain ⟨mode, changed, hg⟩ := Store.get?_of_isDirectory hd
  rw [names, node, reach_eq hs hl, Store.reachedAt_of_get? hg]

theorem isDirectory_of_none (hs : p.isSound = true) (hl : h.store.Leads true (h.absolute p) q)
    (hn : h.store.seen q = none) : h.isNode Node.isDirectory p = .ok false := by
  rw [isNode, node, reach_eq hs hl, Store.reachedAt, Store.seen_eq_none.mp hn]
  rfl

end Directory

/-- The permissions that a file has after it was written: a file keeps its own. -/
def Leads.writtenMode : Option Node → Nat
  | some n => n.mode
  | none => Node.fileMode

/-- A path leads to a place if its last name is followed. -/
structure Targets (h : Host) (p : Path) (q : Place) : Prop where
  sound : p.isSound = true
  leads : h.store.Leads true (h.absolute p) q

namespace Targets

variable {h : Host} {p : Path} {q r : Place}

theorem unique (hq : h.Targets p q) (hr : h.Targets p r) : q = r := hq.leads.unique hr.leads

theorem reach (ht : h.Targets p q) : h.reach true p = .ok (h.store.reachedAt q) :=
  reach_eq ht.sound ht.leads

theorem found (ht : h.Targets p q) : h.found p = h.store.seen q := found_eq_seen ht.sound ht.leads

theorem node_of_none (ht : h.Targets p q) (hs : h.store.seen q = none) :
    h.node p = .error (.system .noEntry) := by
  rw [node, ht.reach, Store.reachedAt, Store.seen_eq_none.mp hs]

theorem node_of_some (ht : h.Targets p q) {n : Node} (hs : h.store.seen q = some n) :
    ∃ m, h.node p = .ok (q, m) ∧ m.plain = n := by
  obtain ⟨m, hm, hp⟩ := Option.map_eq_some_iff.mp hs
  refine ⟨m, ?_, hp⟩
  rw [node, ht.reach, Store.reachedAt, hm]

/-- A look at a path sees what is seen at the place. -/
theorem isNode_eq (ht : h.Targets p q) {kind : Node → Bool} (hkind : ∀ n, kind n.plain = kind n) :
    h.isNode kind p = .ok ((h.store.seen q).any kind) := by
  rw [isNode]
  cases hs : h.store.seen q with
  | none =>
    rw [ht.node_of_none hs]
    rfl
  | some n =>
    obtain ⟨m, hm, rfl⟩ := ht.node_of_some hs
    rw [hm, Option.any_some, hkind]

section File

variable {content : List UInt8} {mode : Nat}

theorem node_of_file (ht : h.Targets p q)
    (hs : h.store.seen q = some (.file content mode (.counted 0))) :
    ∃ changed, h.node p = .ok (q, .file content mode changed) := by
  obtain ⟨m, hm, hp⟩ := ht.node_of_some hs
  obtain ⟨changed, rfl⟩ := Node.plain_eq_file hp
  exact ⟨changed, hm⟩

theorem bytes_of_file (ht : h.Targets p q)
    (hs : h.store.seen q = some (.file content mode (.counted 0))) : h.bytes p = .ok content := by
  obtain ⟨changed, hn⟩ := ht.node_of_file hs
  rw [bytes, hn]

theorem settingMode_of_file (ht : h.Targets p q)
    (hs : h.store.seen q = some (.file content mode (.counted 0))) (m : Int) :
    h.settingMode p m = .ok (.setMode q (Node.permissions m)) := by
  obtain ⟨changed, hn⟩ := ht.node_of_file hs
  rw [settingMode, hn]

end File

theorem writing_of_leaf (ht : h.Targets p q) (hs : h.store.IsLeaf q) (content : List UInt8) :
    h.writing p content = .ok (.write q content (Leads.writtenMode (h.store.seen q))) := by
  rcases hs with hs | ⟨c, m, hs⟩
  · rw [writing, ht.reach, Store.reachedAt, Store.seen_eq_none.mp hs, hs]
    rfl
  · obtain ⟨changed, hg⟩ := Store.get?_of_seen_file hs
    rw [writing, ht.reach, Store.reachedAt, hg, hs]
    rfl

theorem copying_of_file {source : Path} {a : Place} {content : List UInt8} {mode : Nat}
    (hsource : h.Targets source a)
    (hfile : h.store.seen a = some (.file content mode (.counted 0)))
    (ht : h.Targets p q) (hs : h.store.IsLeaf q) (hne : a ≠ q) :
    h.copying source p = .ok (.write q content (Leads.writtenMode (h.store.seen q))) := by
  obtain ⟨changed, hn⟩ := hsource.node_of_file hfile
  have hw := ht.writing_of_leaf hs content
  rw [copying, hsource.bytes_of_file hfile, hn]
  cases hp : h.node p with
  | error e => exact hw
  | ok r =>
    obtain ⟨b, n⟩ := r
    have hb : b = q := by
      cases hq : h.store.seen q with
      | none =>
        rw [ht.node_of_none hq] at hp
        cases hp
      | some m =>
        obtain ⟨n', hn', _⟩ := ht.node_of_some hq
        rw [hn'] at hp
        cases hp
        rfl
    subst hb
    simp only [if_neg hne]
    exact hw

end Targets

namespace Leads

variable {h k : Host} {p : Path} {q r : Place}

theorem targets (hl : h.Leads p q) : h.Targets p q := ⟨hl.sound, hl.leads true⟩

theorem reach (hl : h.Leads p q) (follow : Bool) :
    h.reach follow p = .ok (h.store.reachedAt q) := reach_eq hl.sound (hl.leads follow)

theorem found (hl : h.Leads p q) : h.found p = h.store.seen q := hl.targets.found

theorem node_of_none (hl : h.Leads p q) (hs : h.store.seen q = none) :
    h.node p = .error (.system .noEntry) := hl.targets.node_of_none hs

theorem node_of_some (hl : h.Leads p q) {n : Node} (hs : h.store.seen q = some n) :
    ∃ m, h.node p = .ok (q, m) ∧ m.plain = n := hl.targets.node_of_some hs

theorem exists_eq (hl : h.Leads p q) :
    h.isNode (fun _ => true) p = .ok (h.store.seen q).isSome := by
  rw [hl.targets.isNode_eq fun _ => rfl]
  cases h.store.seen q <;> rfl

theorem isFile_eq (hl : h.Leads p q) :
    h.isNode Node.isFile p = .ok ((h.store.seen q).any Node.isFile) :=
  hl.targets.isNode_eq fun n => by cases n <;> rfl

theorem isFile_of_none (hl : h.Leads p q) (hs : h.store.seen q = none) :
    h.isNode Node.isFile p = .ok false := by
  rw [hl.isFile_eq, hs]
  rfl

section File

variable {content : List UInt8} {mode : Nat}

theorem node_of_file (hl : h.Leads p q)
    (hs : h.store.seen q = some (.file content mode (.counted 0))) :
    ∃ changed, h.node p = .ok (q, .file content mode changed) := hl.targets.node_of_file hs

theorem isFile_of_file (hl : h.Leads p q)
    (hs : h.store.seen q = some (.file content mode (.counted 0))) :
    h.isNode Node.isFile p = .ok true := by
  rw [hl.isFile_eq, hs]
  rfl

theorem bytes_of_file (hl : h.Leads p q)
    (hs : h.store.seen q = some (.file content mode (.counted 0))) : h.bytes p = .ok content :=
  hl.targets.bytes_of_file hs

theorem removing_of_file (hl : h.Leads p q)
    (hs : h.store.seen q = some (.file content mode (.counted 0))) :
    h.removing p = .ok (.remove q) := by
  obtain ⟨changed, hg⟩ := Store.get?_of_seen_file hs
  rw [removing, hl.reach, Store.reachedAt, hg]

theorem settingMode_of_file (hl : h.Leads p q)
    (hs : h.store.seen q = some (.file content mode (.counted 0))) (m : Int) :
    h.settingMode p m = .ok (.setMode q (Node.permissions m)) := hl.targets.settingMode_of_file hs m

end File

theorem removing_of_none (hl : h.Leads p q) (hs : h.store.seen q = none) :
    h.removing p = .error (.system .noEntry) := by
  rw [removing, hl.reach, Store.reachedAt, Store.seen_eq_none.mp hs]

theorem writing_of_leaf (hl : h.Leads p q) (hs : h.store.IsLeaf q) (content : List UInt8) :
    h.writing p content = .ok (.write q content (writtenMode (h.store.seen q))) :=
  hl.targets.writing_of_leaf hs content

theorem copying_of_file {source : Path} {a : Place} {content : List UInt8} {mode : Nat}
    (hsource : h.Leads source a) (hfile : h.store.seen a = some (.file content mode (.counted 0)))
    (hl : h.Leads p q) (hs : h.store.IsLeaf q) (hne : a ≠ q) :
    h.copying source p = .ok (.write q content (writtenMode (h.store.seen q))) :=
  hsource.targets.copying_of_file hfile hl.targets hs hne

/-- A name in a directory. -/
theorem child (hs : p.isSound = true) (ht : h.store.Leads true (h.absolute p) q)
    (hd : h.store.IsDirectory q) {name : String} (hup : name ≠ "..")
    (hlen : name.utf8ByteSize ≤ Store.nameLimit) (hsound : name.toList.contains (Char.ofNat 0) = false)
    (hshort : ((h.absolute p).child name).text.utf8ByteSize ≤ Store.pathLimit)
    (hlink : ∀ target, h.store.seen (q ++ [name]) ≠ some (.link target)) :
    h.Leads (p.child name) (q ++ [name]) := by
  have habs := absolute_child h p name
  refine ⟨?_, fun follow => ⟨?_, ?_⟩⟩
  · rw [Path.isSound] at hs ⊢
    simp only [Path.child, List.all_append, hs, Bool.true_and, List.all_cons, List.all_nil, hsound]
    rfl
  · rw [habs]
    exact hshort
  · rw [habs]
    exact ht.arrives.child hd hup hlen fun target h => absurd h (hlink target)

end Leads

end Host
end Vitrine
