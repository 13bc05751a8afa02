import Vitrine.Proofs.Files.Directories

/-!
# Names in a directory

A store has one entry for each place, so that a directory lists each of its names once. A path with one
name more leads to that name in the directory that the path leads to, unless the name or the path is too
long; where the path leads to no directory, the name leads nowhere.
-/
namespace Vitrine

/-- Names that lead somewhere in a directory with some absolute path. -/
structure Path.IsFit (p : Path) (name : String) : Prop where
  up : name ≠ ".."
  short : name.utf8ByteSize ≤ Store.nameLimit
  sound : name.toList.contains (Char.ofNat 0) = false
  reachable : (p.child name).text.utf8ByteSize ≤ Store.pathLimit

namespace Store

/-! ## One entry for each place -/

def IsKeyed (s : Store) : Prop := (s.nodes.map Prod.fst).Nodup

theorem places_setEntry (place : Place) (n : Node) (es : List (Place × Node)) :
    (setEntry place n es).map Prod.fst =
      if place ∈ es.map Prod.fst then es.map Prod.fst else es.map Prod.fst ++ [place] := by
  induction es with
  | nil => rfl
  | cons e es ih =>
    by_cases he : e.1 = place
    · simp [setEntry, he]
    · rw [setEntry, if_neg he, List.map_cons, ih, List.map_cons]
      by_cases hin : place ∈ es.map Prod.fst
      · rw [if_pos hin, if_pos (List.mem_cons_of_mem _ hin)]
      · rw [if_neg hin, if_neg (by simpa [Ne.symm he] using hin), List.cons_append]

namespace IsKeyed

variable {s : Store}

theorem put (h : s.IsKeyed) (place : Place) (n : Node) : (s.put place n).IsKeyed := by
  rw [IsKeyed, Store.put, places_setEntry]
  split
  · exact h
  · next hnew => exact h.append (List.nodup_singleton _) (by simpa using hnew)

theorem filter (h : s.IsKeyed) (f : Place × Node → Bool) :
    ({ s with nodes := s.nodes.filter f } : Store).IsKeyed :=
  h.sublist (List.filter_sublist.map _)

theorem update (h : s.IsKeyed) (place : Place) (f : Node → Node) : (s.update place f).IsKeyed := by
  rw [Store.update]
  split
  · exact h.put _ _
  · exact h

theorem apply (h : s.IsKeyed) (c : Change) : (c.apply s).IsKeyed := by
  have hnodes : (c.onNodes s).IsKeyed := by
    cases c with
    | write p content mode => exact h.put _ _
    | makeDirectory p => exact h.put _ _
    | link p target => exact h.put _ _
    | setMode p mode => exact h.update _ _
    | setStamp p changed => exact h.update _ _
    | remove p => exact h.filter _
    | removeTree p => exact h.filter _
  show (ite _ _ _ : Store).IsKeyed
  split
  · exact hnodes.update _ _
  · exact hnodes

/-- Each name in a directory is listed once. -/
theorem names_nodup (h : s.IsKeyed) (directory : Place) : (s.names directory).Nodup := by
  rw [names, (List.mergeSort_perm _ _).nodup_iff]
  have hplaces : (s.nodes.filterMap fun e => nameIn? directory e.1) =
      (s.nodes.map Prod.fst).filterMap (nameIn? directory) := by
    rw [List.filterMap_map]
    rfl
  rw [hplaces]
  refine h.filterMap fun p q name hp hq => ?_
  rw [Option.mem_def, nameIn?_eq_some] at hp hq
  rw [hp, hq]

theorem names_increasing (h : s.IsKeyed) (directory : Place) :
    (s.names directory).Pairwise (· < ·) :=
  ((s.sorted_names directory).and (h.names_nodup directory)).imp fun hab => lt_of_le_of_ne hab.1 hab.2

end IsKeyed

/-! ## One step of a walk -/

variable {s : Store} {follow : Bool} {links : Nat} {here : Place} {names rest : List String}
  {name : String}

section Step

variable (hup : ¬ name = "..") (hlen : ¬ nameLimit < name.utf8ByteSize)
include hup hlen

theorem walk_free (hn : s.get? (here ++ [name]) = none) :
    s.walk follow links here (name :: rest) =
      if rest.isEmpty then .ok (.free (here ++ [name])) else .error .noEntry := by
  rw [walk, if_neg hup, if_neg hlen]
  simp only [hn]

theorem walk_file {content : List UInt8} {mode : Nat} {changed : Stamp}
    (hf : s.get? (here ++ [name]) = some (.file content mode changed)) :
    s.walk follow links here (name :: rest) =
      if rest.isEmpty then .ok (.there (here ++ [name]) (.file content mode changed))
      else .error .notDirectory := by
  rw [walk, if_neg hup, if_neg hlen]
  simp only [hf]

theorem walk_directory {mode : Nat} {changed : Stamp}
    (hd : s.get? (here ++ [name]) = some (.directory mode changed)) :
    s.walk follow links here (name :: rest) =
      if rest.isEmpty then .ok (.there (here ++ [name]) (.directory mode changed))
      else s.walk follow links (here ++ [name]) rest := by
  rw [walk, if_neg hup, if_neg hlen]
  simp only [hd]

section Link

variable {target : String} (hl : s.get? (here ++ [name]) = some (.link target))
include hl

theorem walk_lastLink (hr : (rest.isEmpty && !follow) = true) :
    s.walk follow links here (name :: rest) = .ok (.there (here ++ [name]) (.link target)) := by
  rw [walk, if_neg hup, if_neg hlen]
  simp only [hl, hr, if_true]

variable (hr : ¬ (rest.isEmpty && !follow) = true)
include hr

theorem walk_noLink : s.walk follow 0 here (name :: rest) = .error .linkLoop := by
  rw [walk, if_neg hup, if_neg hlen]
  simp only [hl]
  rw [if_neg hr]

theorem walk_link : s.walk follow (links + 1) here (name :: rest) =
    s.walk follow links (if (Path.ofText target).isAbsolute then [] else here)
      ((Path.ofText target).parts ++ rest) := by
  rw [walk, if_neg hup, if_neg hlen]
  simp only [hl]
  rw [if_neg hr]

end Link

end Step

/-! ## One name more -/

/-- Names that lead nowhere lead nowhere with one more. -/
theorem walk_concat_of_error {e : Errno} (h : s.walk true links here names = .error e) :
    s.walk true links here (names ++ [name]) = .error e := by
  fun_induction s.walk true links here names with
  | case1 => cases h
  | case2 links here rest ih =>
    rw [List.cons_append, walk, if_pos rfl]
    exact ih h
  | case3 links here other rest hup hlen =>
    rw [List.cons_append, walk, if_neg hup, if_pos hlen]
    exact h
  | case4 => cases h
  | case5 links here other rest hup hlen place hn hr =>
    rw [List.cons_append, walk_free hup hlen hn, if_neg (by simp)]
    exact h
  | case6 links here other rest hup hlen place target hl hr => simp at hr
  | case7 here other rest hup hlen place target hl hr =>
    rw [List.cons_append, walk_noLink hup hlen hl (by simp)]
    exact h
  | case8 here other rest hup hlen place target hl hr links path ih =>
    rw [List.cons_append, walk_link hup hlen hl (by simp), ← List.append_assoc]
    exact ih h
  | case9 => cases h
  | case10 links here other rest hup hlen place mode changed hd hr ih =>
    rw [List.cons_append, walk_directory hup hlen hd, if_neg (by simp)]
    exact ih h
  | case11 => cases h
  | case12 links here other rest hup hlen place content mode changed hf hr =>
    rw [List.cons_append, walk_file hup hlen hf, if_neg (by simp)]
    exact h

/-- Behind a name that is free, or that is no directory, there is nothing. -/
theorem Arrives.walk_concat {q : Place} (h : s.Arrives true links here names q)
    (hw : s.IsWay here) (hd : ¬ s.IsDirectory q) :
    s.walk true links here (names ++ [name]) = .error .noEntry ∨
      s.walk true links here (names ++ [name]) = .error .notDirectory := by
  induction h with
  | @here links here => exact absurd (hw here List.prefix_rfl) hd
  | up next ih =>
    rw [List.cons_append, walk, if_pos rfl]
    exact ih hw.dropLast hd
  | @last links here other hup hlen hlink =>
    have hlen' := Nat.not_lt.mpr hlen
    rw [List.cons_append]
    cases hg : s.get? (here ++ [other]) with
    | none => exact Or.inl (walk_free hup hlen' hg)
    | some n =>
      cases n with
      | file content mode changed => exact Or.inr (walk_file hup hlen' hg)
      | directory mode changed => exact absurd ⟨mode, seen_of_get? hg⟩ hd
      | link target => cases hlink target (seen_eq_link.mpr hg)
  | @into links here other rest q hup hlen hrest hdir next ih =>
    obtain ⟨mode, changed, hg⟩ := get?_of_isDirectory hdir
    rw [List.cons_append, walk_directory hup (Nat.not_lt.mpr hlen) hg, if_neg (by simp)]
    exact ih (hw.child hdir) hd
  | @through links here other rest q target hup hlen hrest hlink next ih =>
    rw [List.cons_append, walk_link hup (Nat.not_lt.mpr hlen) (seen_eq_link.mp hlink) (by simp),
      ← List.append_assoc]
    refine ih ?_ hd
    split
    · exact s.isWay_root
    · exact hw

/-- A name that is too long is not looked up. -/
theorem Arrives.walk_concat_of_long {q : Place} (h : s.Arrives true links here names q)
    (hd : s.IsDirectory q) (hup : name ≠ "..") (hlong : nameLimit < name.utf8ByteSize) :
    s.walk true links here (names ++ [name]) = .error .nameTooLong := by
  induction h with
  | here =>
    rw [List.nil_append, walk, if_neg hup, if_pos hlong]
  | up next ih =>
    rw [List.cons_append, walk, if_pos rfl]
    exact ih hd
  | @last links here other hup' hlen hlink =>
    obtain ⟨mode, changed, hg⟩ := get?_of_isDirectory hd
    rw [List.cons_append, walk_directory hup' (Nat.not_lt.mpr hlen) hg, if_neg (by simp),
      List.nil_append, walk, if_neg hup, if_pos hlong]
  | @into links here other rest q hup' hlen hrest hdir next ih =>
    obtain ⟨mode, changed, hg⟩ := get?_of_isDirectory hdir
    rw [List.cons_append, walk_directory hup' (Nat.not_lt.mpr hlen) hg, if_neg (by simp)]
    exact ih hd
  | @through links here other rest q target hup' hlen hrest hlink next ih =>
    rw [List.cons_append, walk_link hup' (Nat.not_lt.mpr hlen) (seen_eq_link.mp hlink) (by simp),
      ← List.append_assoc]
    exact ih hd

/-- A path that leads to what is no link leads there also if its last name is followed. -/
theorem Arrives.followed {q : Place} (h : s.Arrives false links here names q)
    (hlink : ∀ target, s.seen q ≠ some (.link target)) : s.Arrives true links here names q := by
  induction h with
  | here => exact .here
  | up next ih => exact .up (ih hlink)
  | last hup hlen _ => exact .last hup hlen fun target ht => absurd ht (hlink target)
  | into hup hlen hrest hdir next ih => exact .into hup hlen hrest hdir (ih hlink)
  | through hup hlen hrest hto next ih => exact .through hup hlen (Or.inr rfl) hto (ih hlink)

end Store

namespace Host

variable {h k : Host} {p : Path} {q r : Place} {name : String}

/-! ## Directories -/

/-- A path leads to a directory. -/
structure Opens (h : Host) (p : Path) (q : Place) : Prop where
  sound : p.isSound = true
  leads : h.store.Leads true (h.absolute p) q
  isDirectory : h.store.IsDirectory q

namespace Opens

theorem unique (h₁ : h.Opens p q) (h₂ : h.Opens p r) : q = r := h₁.leads.unique h₂.leads

theorem isNode (ho : h.Opens p q) : h.isNode Node.isDirectory p = .ok true :=
  isDirectory_of_leads ho.sound ho.leads ho.isDirectory

theorem names (ho : h.Opens p q) : h.names p = .ok (h.store.names q) :=
  names_of_leads ho.sound ho.leads ho.isDirectory

end Opens

theorem node_eq_ok {n : Node} (hn : h.node p = .ok (q, n)) :
    p.isSound = true ∧ h.store.Leads true (h.absolute p) q ∧ h.store.get? q = some n := by
  rw [node] at hn
  cases hr : h.reach true p with
  | error e =>
    rw [hr] at hn
    cases hn
  | ok x =>
    obtain ⟨hs, hl⟩ := leads_of_reach hr
    have hx := Except.ok.inj (hr.symm.trans (reach_eq hs hl))
    rw [hr] at hn
    cases x with
    | free place => cases hn
    | there place n =>
      cases hn
      refine ⟨hs, hl, ?_⟩
      rw [Store.reachedAt] at hx
      cases hg : h.store.get? q with
      | none => simp [Reached.place, hg] at hx
      | some m =>
        simp only [Reached.place, hg, Reached.there.injEq, true_and] at hx
        rw [hx]

theorem isNode_eq_true {kind : Node → Bool} (hk : h.isNode kind p = .ok true) :
    ∃ q n, h.node p = .ok (q, n) ∧ kind n = true := by
  rw [isNode] at hk
  cases hn : h.node p with
  | error e =>
    rw [hn] at hk
    dsimp only at hk
    split at hk <;> cases hk
  | ok found =>
    obtain ⟨q, n⟩ := found
    rw [hn] at hk
    exact ⟨q, n, rfl, Except.ok.inj hk⟩

theorem opens_of_isNode (hd : h.isNode Node.isDirectory p = .ok true) : ∃ q, h.Opens p q := by
  obtain ⟨q, n, hn, hkind⟩ := isNode_eq_true hd
  obtain ⟨hs, hl, hg⟩ := node_eq_ok hn
  cases n with
  | directory mode changed => exact ⟨q, hs, hl, mode, Store.seen_of_get? hg⟩
  | file content mode changed => cases hkind
  | link target => cases hkind

/-! ## One name more -/

theorem isSound_child : (p.child name).isSound = (p.isSound && !name.toList.contains (Char.ofNat 0)) := by
  simp [Path.isSound, Path.child]

/-- A name that fits leads into the directory. -/
theorem Opens.leads_child (ho : h.Opens p q) (hfit : (h.absolute p).IsFit name)
    (hlink : ∀ target, h.store.seen (q ++ [name]) ≠ some (.link target)) :
    h.Leads (p.child name) (q ++ [name]) :=
  .child ho.sound ho.leads ho.isDirectory hfit.up hfit.short hfit.sound hfit.reachable hlink

/-- The name or the path is longer than the system allows. -/
def IsLong (h : Host) (p : Path) (name : String) : Prop :=
  Store.nameLimit < name.utf8ByteSize ∨
    Store.pathLimit < ((h.absolute p).child name).text.utf8ByteSize

theorem reach_child_of_walk {e : Errno} (hs : (p.child name).isSound = true)
    (hpath : ¬ Store.pathLimit < ((h.absolute p).child name).text.utf8ByteSize)
    (hw : h.store.walk true Store.linkLimit [] ((h.absolute p).parts ++ [name]) = .error e) :
    h.reach true (p.child name) = .error (.system e) := by
  have hwalk : h.store.walk true Store.linkLimit [] ((h.absolute p).child name).parts = .error e := hw
  rw [reach, if_pos hs, absolute_child, Store.reach, if_neg hpath, hwalk]

theorem reach_child_of_long (hs : (p.child name).isSound = true)
    (hpath : Store.pathLimit < ((h.absolute p).child name).text.utf8ByteSize) :
    h.reach true (p.child name) = .error (.system .nameTooLong) := by
  rw [reach, if_pos hs, absolute_child, Store.reach, if_pos hpath]

/-- A name that does not fit is refused. -/
theorem Opens.refuses_child (ho : h.Opens p q) (hup : name ≠ "..")
    (hfit : ¬ (h.absolute p).IsFit name) :
    h.reach true (p.child name) = .error (.fault .value) ∨
      h.reach true (p.child name) = .error (.system .nameTooLong) ∧ h.IsLong p name := by
  by_cases hsound : name.toList.contains (Char.ofNat 0) = true
  · left
    rw [reach, if_neg (by rw [isSound_child, hsound]; simp)]
  · rw [Bool.not_eq_true] at hsound
    have hchild : (p.child name).isSound = true := by rw [isSound_child, ho.sound, hsound]; rfl
    right
    by_cases hpath : Store.pathLimit < ((h.absolute p).child name).text.utf8ByteSize
    · exact ⟨reach_child_of_long hchild hpath, Or.inr hpath⟩
    · have hlong : Store.nameLimit < name.utf8ByteSize := by
        by_contra hshort
        exact hfit ⟨hup, Nat.le_of_not_lt hshort, hsound, Nat.le_of_not_lt hpath⟩
      refine ⟨reach_child_of_walk hchild hpath ?_, Or.inl hlong⟩
      exact ho.leads.arrives.walk_concat_of_long ho.isDirectory hup hlong

/-- Where a path leads to no directory, a name leads nowhere. -/
theorem reach_child_of_not_directory (name : String) (hd : h.isNode Node.isDirectory p = .ok false) :
    ∃ e, h.reach true (p.child name) = .error e ∧
      (isAbsence e = true ∨ e = .system .nameTooLong ∧ h.IsLong p name) := by
  by_cases hchild : (p.child name).isSound = true
  · have hs : p.isSound = true := by
      rw [isSound_child, Bool.and_eq_true] at hchild
      exact hchild.1
    by_cases hpath : Store.pathLimit < ((h.absolute p).child name).text.utf8ByteSize
    · exact ⟨_, reach_child_of_long hchild hpath, Or.inr ⟨rfl, Or.inr hpath⟩⟩
    · cases hr : h.store.reach true (h.absolute p) with
      | error e =>
        have habsent : isAbsence (.system e) = true := by
          by_contra hne
          have hreach : h.reach true p = .error (.system e) := by rw [reach, if_pos hs, hr]
          rw [isNode, node, hreach] at hd
          dsimp only at hd
          rw [if_neg hne] at hd
          cases hd
        refine ⟨_, reach_child_of_walk hchild hpath (Store.walk_concat_of_error ?_), Or.inl habsent⟩
        rw [Store.reach] at hr
        split at hr
        · cases hr
          cases habsent
        · exact hr
      | ok x =>
        have hl := Store.Leads.of_reach hr
        have hnone : ¬ h.store.IsDirectory x.place := fun hdir => by
          rw [isDirectory_of_leads hs hl hdir] at hd
          cases hd
        obtain hw | hw := hl.arrives.walk_concat h.store.isWay_root hnone
        · exact ⟨_, reach_child_of_walk hchild hpath hw, Or.inl rfl⟩
        · exact ⟨_, reach_child_of_walk hchild hpath hw, Or.inl rfl⟩
  · rw [reach, if_neg hchild]
    exact ⟨_, rfl, Or.inl rfl⟩

end Host

namespace Work

open Host

variable {h k : Host} {p : Path} {q : Place}

/-! ## Directories that are made -/

/-- A path leads to some directory. -/
def IsOpen (p : Path) (h : Host) : Prop := ∃ q, h.Opens p q

theorem makeDirectory_opens (p : Path) : Ensures (IsOpen p) (makeDirectory p) := by
  intro h k _ hm
  rw [makeDirectory, exec_perform] at hm
  cases hc : h.makingDirectory p with
  | error e =>
    rw [hc] at hm
    cases hm
  | ok c =>
    have hgrows := grows_of_makingDirectory hc
    rw [hc] at hm
    cases hm
    rw [makingDirectory] at hc
    cases hr : h.reach false p with
    | error e => simp [hr] at hc
    | ok x =>
      rw [hr] at hc
      cases x with
      | there place n => cases hc
      | free place =>
        cases hc
        obtain ⟨hs, hl⟩ := leads_of_reach hr
        have hroot : place ≠ [] := by
          rintro rfl
          have hx := Except.ok.inj (hr.symm.trans (reach_eq hs hl))
          exact absurd hx (by simp [Store.reachedAt, Reached.place, Store.get?])
        have hdir : (h.change (.makeDirectory place)).store.seen place =
            some (.directory Node.directoryMode (.counted 0)) := by
          show ((Change.makeDirectory place).apply h.store).seen place = _
          rw [Change.seen_makeDirectory h.store place hroot, if_pos rfl]
        refine ⟨place, hs, ⟨hl.short, ?_⟩, _, hdir⟩
        exact (hl.arrives.of_extends hgrows.extends).followed fun target ht => by
          rw [Reached.place, hdir] at ht
          cases ht

theorem acceptDirectory_opens (p : Path) (e : Errno) : Ensures (IsOpen p) (acceptDirectory p e) := by
  intro h k _ ha
  rw [acceptDirectory, exec_bind, isDirectory, exec_look] at ha
  cases hd : h.isNode Node.isDirectory p with
  | error e =>
    rw [hd] at ha
    cases ha
  | ok there =>
    rw [hd] at ha
    cases there with
    | false => cases ha
    | true =>
      cases ha
      exact opens_of_isNode hd

/-- Directories that could be made are there. -/
theorem makeDirectories_opens (p : Path) : Ensures (IsOpen p) (makeDirectories p) := by
  rw [makeDirectories]
  cases p.parts.length with
  | zero => exact makeDirectory_opens p
  | succ n =>
    rw [makeDirectoriesWithin]
    refine (makeDirectory_opens p).attempt_bind (fun _ => rfl) fun e => ?_
    split
    · next he => cases he
    · refine Ensures.bind fun _ => (makeDirectory_opens p).attempt_bind (fun _ => rfl) fun e => ?_
      split
      · next he => cases he
      · exact ensures_throw _
      · exact acceptDirectory_opens p _
    · exact acceptDirectory_opens p _

/-- Where there is a directory already, nothing is made. -/
theorem makeDirectories_of_opens (ho : h.Opens p q) : ((makeDirectories p).exec h).2 = h := by
  by_cases hparts : p.parts = []
  · rw [makeDirectories, hparts]
    show ((makeDirectory p).exec h).2 = h
    rw [makeDirectory_of_isDirectory ho.sound ho.leads ho.isDirectory]
  · rw [makeDirectories_of_isDirectory hparts ho.sound ho.leads ho.isDirectory]

end Work
end Vitrine
