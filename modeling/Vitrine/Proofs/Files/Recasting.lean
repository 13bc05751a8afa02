import Vitrine.Proofs.Files.RealPath

/-!
# Other contents

A host recast has the same files, with other contents. Paths lead to the same places there, and the same
changes are made to them; only what is read from a file may differ. Work that `Commutes` with a recast
does not depend on the contents that the recast changes.
-/
namespace Vitrine

/-- A file with another content. -/
def Node.recast (f : List UInt8 → List UInt8) : Node → Node
  | file content mode changed => file (f content) mode changed
  | n => n

/-- The store with other contents of its files. -/
def Store.recast (f : Place → List UInt8 → List UInt8) (s : Store) : Store :=
  { s with nodes := s.nodes.map fun e => (e.1, e.2.recast (f e.1)) }

def Reached.recast (f : Place → List UInt8 → List UInt8) : Reached → Reached
  | there place n => there place (n.recast (f place))
  | free place => free place

def Host.recast (f : Place → List UInt8 → List UInt8) (h : Host) : Host :=
  { h with store := h.store.recast f }

/-- The recast leaves the content at a place as it is. -/
def Keeps (f : Place → List UInt8 → List UInt8) (q : Place) : Prop := ∀ content, f q content = content

variable {f : Place → List UInt8 → List UInt8}

/-! ## Paths -/

namespace Store

variable (s : Store)

theorem lookup_recast (q : Place) :
    (s.recast f).nodes.lookup q = (s.nodes.lookup q).map (Node.recast (f q)) := by
  show (s.nodes.map _).lookup q = _
  induction s.nodes with
  | nil => rfl
  | cons e es ih =>
    obtain ⟨r, n⟩ := e
    rw [List.map_cons, lookup_cons, lookup_cons, ih]
    by_cases hq : q = r
    · simp [hq]
    · simp [hq]

theorem get?_recast (q : Place) : (s.recast f).get? q = (s.get? q).map (Node.recast (f q)) := by
  rw [get?, get?]
  split
  · rfl
  · exact s.lookup_recast q

theorem names_recast (q : Place) : (s.recast f).names q = s.names q := by
  rw [names, names, recast, List.filterMap_map]
  rfl

theorem get?_recast_of {q : Place} {n : Node} (h : s.get? q = some n) :
    (s.recast f).get? q = some (n.recast (f q)) := by
  rw [get?_recast, h]
  rfl

theorem walk_recast (follow : Bool) (links : Nat) (here : Place) (names : List String) :
    (s.recast f).walk follow links here names =
      (s.walk follow links here names).map (Reached.recast f) := by
  fun_induction s.walk follow links here names with
  | case1 links here =>
    rw [walk, get?_recast]
    cases s.get? here <;> rfl
  | case2 links here rest ih =>
    rw [walk, if_pos rfl]
    exact ih
  | case3 links here name rest hup hlen =>
    rw [walk, if_neg hup, if_pos hlen]
    rfl
  | case4 links here name rest hup hlen place hn hr =>
    have hg : (s.recast f).get? (here ++ [name]) = none := by
      rw [get?_recast, show s.get? (here ++ [name]) = none from hn]
      rfl
    rw [walk_free hup hlen hg, if_pos hr]
    rfl
  | case5 links here name rest hup hlen place hn hr =>
    have hg : (s.recast f).get? (here ++ [name]) = none := by
      rw [get?_recast, show s.get? (here ++ [name]) = none from hn]
      rfl
    rw [walk_free hup hlen hg, if_neg hr]
    rfl
  | case6 links here name rest hup hlen place target hl hr =>
    rw [walk_lastLink hup hlen (s.get?_recast_of hl) hr]
    rfl
  | case7 here name rest hup hlen place target hl hr =>
    rw [walk_noLink hup hlen (s.get?_recast_of hl) hr]
    rfl
  | case8 here name rest hup hlen place target hl hr links path ih =>
    rw [walk_link hup hlen (s.get?_recast_of hl) hr]
    exact ih
  | case9 links here name rest hup hlen place mode changed hd hr =>
    rw [walk_directory hup hlen (s.get?_recast_of hd), if_pos hr]
    rfl
  | case10 links here name rest hup hlen place mode changed hd hr ih =>
    rw [walk_directory hup hlen (s.get?_recast_of hd), if_neg hr]
    exact ih
  | case11 links here name rest hup hlen place content mode changed hf hr =>
    rw [walk_file hup hlen (s.get?_recast_of hf), if_pos hr]
    rfl
  | case12 links here name rest hup hlen place content mode changed hf hr =>
    rw [walk_file hup hlen (s.get?_recast_of hf), if_neg hr]
    rfl

theorem reach_recast (follow : Bool) (p : Path) :
    (s.recast f).reach follow p = (s.reach follow p).map (Reached.recast f) := by
  rw [reach, reach, walk_recast]
  split <;> rfl

theorem trace_recast (links : Nat) (ended : List (Place × Place)) (open_ : List Place)
    (here : Place) (legs : List Leg) :
    (s.recast f).trace links ended open_ here legs = s.trace links ended open_ here legs := by
  fun_induction s.trace links ended open_ here legs with
  | case1 => rw [trace]
  | case2 links ended open_ here link rest ih =>
    rw [trace]
    exact ih
  | case3 links ended open_ here rest ih =>
    rw [trace, if_pos rfl]
    exact ih
  | case4 links ended open_ here name rest hup place target hl goal hgoal ih =>
    have hg : (s.recast f).get? (here ++ [name]) = some (.link target) := s.get?_recast_of hl
    rw [trace, if_neg hup]
    simp only [hg, show ended.lookup (here ++ [name]) = some goal from hgoal]
    exact ih
  | case5 ended open_ here name rest hup place target hl hgoal links hopen path ih =>
    have hg : (s.recast f).get? (here ++ [name]) = some (.link target) := s.get?_recast_of hl
    rw [trace, if_neg hup]
    simp only [hg, show ended.lookup (here ++ [name]) = none from hgoal,
      show open_.contains (here ++ [name]) = false from hopen]
    exact ih
  | case6 links ended open_ here name rest hup place target hl hgoal hstop =>
    have hg : (s.recast f).get? (here ++ [name]) = some (.link target) := s.get?_recast_of hl
    rw [trace, if_neg hup]
    simp only [hg, show ended.lookup (here ++ [name]) = none from hgoal]
    split
    · next links' hopen => exact absurd hopen (hstop links' rfl)
    · rfl
  | case7 links ended open_ here name rest hup place hl ih =>
    rw [trace, if_neg hup]
    simp only [get?_recast]
    cases hg : s.get? (here ++ [name]) with
    | none => exact ih
    | some n =>
      cases n with
      | link target => exact absurd hg (hl target)
      | file content mode changed => exact ih
      | directory mode changed => exact ih

theorem realPath_recast (p : Path) : (s.recast f).realPath p = s.realPath p := by
  have hlength : (s.recast f).nodes.length = s.nodes.length := List.length_map _
  rw [realPath, realPath, trace_recast, hlength]

end Store

/-! ## What is found at a path -/

namespace Host

variable (h : Host) {p : Path}

theorem reach_recast (follow : Bool) (p : Path) :
    (h.recast f).reach follow p = (h.reach follow p).map (Reached.recast f) := by
  rw [reach, reach]
  split
  · have hreach : (h.recast f).store.reach follow ((h.recast f).absolute p) =
        (h.store.reach follow (h.absolute p)).map (Reached.recast f) := h.store.reach_recast follow _
    rw [hreach]
    cases h.store.reach follow (h.absolute p) <;> rfl
  · rfl

theorem node_recast (p : Path) :
    (h.recast f).node p = (h.node p).map fun x => (x.1, x.2.recast (f x.1)) := by
  rw [node, node, reach_recast]
  cases h.reach true p with
  | error e => rfl
  | ok x => cases x <;> rfl

theorem isNode_recast {kind : Node → Bool} (hk : ∀ n g, kind (n.recast g) = kind n) (p : Path) :
    (h.recast f).isNode kind p = h.isNode kind p := by
  rw [isNode, isNode, node_recast]
  cases h.node p with
  | error e => rfl
  | ok x => exact congrArg Except.ok (hk x.2 _)

theorem realPath_recast (p : Path) : (h.recast f).realPath p = h.realPath p := by
  have hreal : (h.recast f).store.realPath ((h.recast f).absolute p) =
      h.store.realPath (h.absolute p) := h.store.realPath_recast _
  have hreach : (h.recast f).store.reach true (h.store.realPath (h.absolute p)) =
      (h.store.reach true (h.store.realPath (h.absolute p))).map (Reached.recast f) :=
    h.store.reach_recast true _
  rw [realPath, realPath]
  dsimp only
  rw [hreal, hreach]
  cases h.store.reach true (h.store.realPath (h.absolute p)) with
  | ok x => rfl
  | error e => cases e <;> rfl

theorem names_recast (p : Path) : (h.recast f).names p = h.names p := by
  rw [names, names, node_recast]
  cases h.node p with
  | error e => rfl
  | ok x =>
    obtain ⟨place, n⟩ := x
    cases n with
    | directory mode changed => exact congrArg Except.ok (h.store.names_recast place)
    | _ => rfl

/-- The content of a file is the same if the recast leaves it as it is. -/
theorem bytes_recast (hf : ∀ q n, h.node p = .ok (q, n) → Keeps f q) :
    (h.recast f).bytes p = h.bytes p := by
  rw [bytes, bytes, node_recast]
  cases hn : h.node p with
  | error e => rfl
  | ok x =>
    obtain ⟨q, n⟩ := x
    cases n with
    | file content mode changed => exact congrArg Except.ok (hf q _ hn content)
    | _ => rfl

theorem writing_recast (p : Path) (content : List UInt8) :
    (h.recast f).writing p content = h.writing p content := by
  rw [writing, writing, reach_recast]
  cases h.reach true p with
  | error e => rfl
  | ok x =>
    cases x with
    | there place n => cases n <;> rfl
    | free place => rfl

theorem makingDirectory_recast (p : Path) : (h.recast f).makingDirectory p = h.makingDirectory p := by
  rw [makingDirectory, makingDirectory, reach_recast]
  cases h.reach false p with
  | error e => rfl
  | ok x => cases x <;> rfl

theorem removing_recast (p : Path) : (h.recast f).removing p = h.removing p := by
  rw [removing, removing, reach_recast]
  cases h.reach false p with
  | error e => rfl
  | ok x =>
    cases x with
    | there place n => cases n <;> rfl
    | free place => rfl

end Host

/-! ## Changes -/

namespace Store

theorem setEntry_recast (q : Place) (n : Node) (es : List (Place × Node)) :
    (setEntry q n es).map (fun e => (e.1, e.2.recast (f e.1))) =
      setEntry q (n.recast (f q)) (es.map fun e => (e.1, e.2.recast (f e.1))) := by
  induction es with
  | nil => rfl
  | cons e es ih =>
    rw [List.map_cons]
    by_cases he : e.1 = q
    · rw [setEntry, setEntry, if_pos he, if_pos he, List.map_cons]
    · rw [setEntry, setEntry, if_neg he, if_neg he, List.map_cons, ih]

variable (s : Store)

theorem put_recast (q : Place) (n : Node) :
    (s.put q n).recast f = (s.recast f).put q (n.recast (f q)) := by
  rw [put, recast, setEntry_recast]
  rfl

theorem update_recast {g : Node → Node} (hg : ∀ n e, (g n).recast e = g (n.recast e)) (q : Place) :
    (s.update q g).recast f = (s.recast f).update q g := by
  rw [update, update, lookup_recast]
  cases s.nodes.lookup q with
  | none => rfl
  | some n =>
    show (s.put q (g n)).recast f = (s.recast f).put q (g (n.recast (f q)))
    rw [put_recast, hg]

theorem filter_recast (g : Place → Bool) :
    ({ s with nodes := s.nodes.filter fun e => g e.1 } : Store).recast f =
      { s.recast f with nodes := (s.recast f).nodes.filter fun e => g e.1 } := by
  show Store.mk _ _ = Store.mk _ _
  rw [recast, List.filter_map]
  rfl

end Store

theorem Node.recast_withMode (mode : Nat) (n : Node) (g : List UInt8 → List UInt8) :
    (n.withMode mode).recast g = (n.recast g).withMode mode := by
  cases n <;> rfl

theorem Node.recast_withStamp (changed : Stamp) (n : Node) (g : List UInt8 → List UInt8) :
    (n.withStamp changed).recast g = (n.recast g).withStamp changed := by
  cases n <;> rfl

namespace Change

/-- The recast leaves the content as it is that is written. -/
def Survives (f : Place → List UInt8 → List UInt8) : Change → Prop
  | write place content _ => f place content = content
  | _ => True

variable (s : Store) {c : Change}

theorem onNodes_recast (hc : c.Survives f) : c.onNodes (s.recast f) = (c.onNodes s).recast f := by
  cases c with
  | write place content mode =>
    show (s.recast f).put place (.file content mode _) = (s.put place (.file content mode _)).recast f
    rw [Store.put_recast, Node.recast, show f place content = content from hc]
    rfl
  | makeDirectory place => exact (s.put_recast place (.directory Node.directoryMode _)).symm
  | link place target => exact (s.put_recast place (.link target)).symm
  | setMode place mode => exact (s.update_recast (Node.recast_withMode mode) place).symm
  | setStamp place changed => exact (s.update_recast (Node.recast_withStamp changed) place).symm
  | remove place => exact (s.filter_recast fun q => q ≠ place).symm
  | removeTree place => exact (s.filter_recast fun q => !place.isPrefixOf q).symm

theorem changesNames_recast : c.changesNames (s.recast f) = c.changesNames s := by
  cases c with
  | write place content mode =>
    rw [changesNames, changesNames, Store.get?_recast, Option.isNone_map]
  | _ => rfl

theorem apply_recast (hc : c.Survives f) : c.apply (s.recast f) = (c.apply s).recast f := by
  rw [apply, apply, onNodes_recast s hc, changesNames_recast]
  split
  · show Store.mk _ _ = Store.mk _ _
    rw [show (s.recast f).clock = s.clock from rfl,
      ← Store.update_recast _ (Node.recast_withStamp _)]
    rfl
  · rfl

end Change

theorem Host.change_recast (h : Host) {c : Change} (hc : c.Survives f) :
    (h.recast f).change c = (h.change c).recast f := by
  rw [change, change, recast, recast, Change.apply_recast h.store hc]

/-! ## Work -/

namespace Work

variable {α β : Type} {h : Host}

/-- Work that does on the recast host what it does on the host. -/
def Commutes (f : Place → List UInt8 → List UInt8) (w : Work α) (h : Host) : Prop :=
  w.exec (h.recast f) = ((w.exec h).1, (w.exec h).2.recast f)

theorem commutes_pure (a : α) : Commutes f (pure a : Work α) h := rfl

theorem commutes_throw (e : Error) : Commutes f (throw e : Work α) h := rfl

theorem commutes_look {g : Host → Result α} (hg : g (h.recast f) = g h) : Commutes f (look g) h := by
  rw [Commutes, exec_look, exec_look, hg]

theorem commutes_perform {g : Host → Result Change} (hg : g (h.recast f) = g h)
    (hc : ∀ c, g h = .ok c → c.Survives f) : Commutes f (perform g) h := by
  rw [Commutes, exec_perform, exec_perform, hg]
  cases he : g h with
  | error e => rfl
  | ok c => exact congrArg (Prod.mk _) (h.change_recast (hc c he))

theorem Commutes.bind {w : Work α} {g : α → Work β} (hw : Commutes f w h)
    (hg : ∀ a k, w.exec h = (.ok a, k) → Commutes f (g a) k) : Commutes f (w >>= g) h := by
  rw [Commutes, exec_bind, exec_bind, hw]
  match he : w.exec h with
  | (.error e, k) => rfl
  | (.ok a, k) => exact hg a k he

/-- Work after work that changes nothing goes on with the same host. -/
theorem Still.commutes_bind {w : Work α} {g : α → Work β} (hs : w.Still) (hw : Commutes f w h)
    (hg : ∀ a, w.outcome h = .ok a → Commutes f (g a) h) : Commutes f (w >>= g) h := by
  refine hw.bind fun a k he => ?_
  obtain rfl : h = k := (hs h).trans (congrArg Prod.snd he)
  exact hg a (congrArg Prod.fst he)

theorem Commutes.attempt {w : Work α} (hw : Commutes f w h) : Commutes f (attempt w) h := by
  rw [Commutes, exec_attempt, exec_attempt, hw]
  match w.exec h with
  | (.ok a, k) => rfl
  | (.error e, k) => cases e <;> rfl

theorem Commutes.ite {c : Prop} [Decidable c] {v w : Work α} (hv : c → Commutes f v h)
    (hw : ¬ c → Commutes f w h) : Commutes f (if c then v else w) h := by
  split
  · next hc => exact hv hc
  · next hc => exact hw hc

/-! ## Operations that read no contents -/

theorem isFile_commutes (p : Path) : Commutes f (isFile p) h :=
  commutes_look (h.isNode_recast (fun n _ => by cases n <;> rfl) p)

theorem isDirectory_commutes (p : Path) : Commutes f (isDirectory p) h :=
  commutes_look (h.isNode_recast (fun n _ => by cases n <;> rfl) p)

theorem exists_commutes (p : Path) : Commutes f (exists_ p) h :=
  commutes_look (h.isNode_recast (fun _ _ => rfl) p)

theorem makeDirectory_commutes (p : Path) (h : Host) : Commutes f (makeDirectory p) h := by
  refine commutes_perform (h.makingDirectory_recast p) fun c hc => ?_
  rw [Host.makingDirectory] at hc
  split at hc <;> cases hc
  trivial

theorem acceptDirectory_commutes (p : Path) (e : Errno) (h : Host) :
    Commutes f (acceptDirectory p e) h :=
  (isDirectory_commutes p).bind fun _ _ _ =>
    .ite (fun _ => commutes_throw _) fun _ => commutes_pure _

theorem makeDirectoriesWithin_commutes (n : Nat) (p : Path) (h : Host) :
    Commutes f (makeDirectoriesWithin n p) h := by
  induction n generalizing p h with
  | zero => exact makeDirectory_commutes p h
  | succ n ih =>
    rw [makeDirectoriesWithin]
    refine (makeDirectory_commutes p h).attempt.bind fun r k _ => ?_
    split
    · exact commutes_pure _
    · refine (ih p.parent k).bind fun _ l _ =>
        (makeDirectory_commutes p l).attempt.bind fun r m _ => ?_
      split
      · exact commutes_pure _
      · exact commutes_throw _
      · exact acceptDirectory_commutes p _ m
    · exact acceptDirectory_commutes p _ k

theorem makeDirectories_commutes (p : Path) (h : Host) : Commutes f (makeDirectories p) h :=
  makeDirectoriesWithin_commutes p.parts.length p h

/-! ## Operations on a content that the recast leaves as it is -/

theorem readText_commutes {p : Path} (hf : ∀ q n, h.node p = .ok (q, n) → Keeps f q) :
    Commutes f (readText p) h :=
  commutes_look (by rw [Host.text, Host.text, h.bytes_recast hf])

theorem writeText_commutes {p : Path} {s : String}
    (hf : ∀ c, h.writing p (Text.toBytes s) = .ok c → c.Survives f) : Commutes f (writeText p s) h :=
  commutes_perform (h.writing_recast p _) hf

theorem remove_commutes (p : Path) : Commutes f (remove p) h := by
  refine commutes_perform (h.removing_recast p) fun c hc => ?_
  rw [Host.removing] at hc
  split at hc <;> cases hc
  trivial

end Work
end Vitrine
