import Vitrine.Proofs.Files.Places

/-!
# Hosts that differ in some files

Writing and removing files changes what lies at some places. All paths lead where they led before, those
that lead nowhere lead nowhere still, and what paths to other places lead to is the same
(`DiffersOn.found`, `DiffersOn.isNode`).
-/
namespace Vitrine

namespace Store

variable {s t : Store} {follow : Bool} {links : Nat} {here : Place} {names : List String}
  {name : String} {q : Place}

/-- The errors of a walk to something that is missing. -/
def IsMissing (e : Errno) : Prop := e = .noEntry ∨ e = .notDirectory

/-- There is no way on from a place that holds a file or nothing. -/
theorem walk_leaf {rest : List String} (hup : ¬ name = "..")
    (hlen : ¬ nameLimit < name.utf8ByteSize) (hleaf : s.IsLeaf (here ++ [name])) (hrest : rest ≠ []) :
    ∃ e, s.walk follow links here (name :: rest) = .error e ∧ IsMissing e := by
  have hne : rest.isEmpty = false := by simpa using hrest
  rcases hleaf with hn | ⟨content, mode, hf⟩
  · refine ⟨.noEntry, ?_, Or.inl rfl⟩
    rw [walk_free hup hlen (seen_eq_none.mp hn), hne]
    rfl
  · obtain ⟨changed, hg⟩ := get?_of_seen_file hf
    refine ⟨.notDirectory, ?_, Or.inr rfl⟩
    rw [walk_file hup hlen hg, hne]
    rfl

/-- A walk that leads nowhere leads nowhere either where files differ, and for the same reason, unless
something is missing. -/
theorem SameWays.walk_error (hw : SameWays s t) {e : Errno}
    (h : s.walk follow links here names = .error e) :
    ∃ e', t.walk follow links here names = .error e' ∧ (e' = e ∨ IsMissing e ∧ IsMissing e') := by
  have hleaf : ∀ {links here name rest e}, ¬ name = ".." → ¬ nameLimit < name.utf8ByteSize →
      s.IsLeaf (here ++ [name]) → rest ≠ [] → IsMissing e →
      ∃ e', t.walk follow links here (name :: rest) = .error e' ∧
        (e' = e ∨ IsMissing e ∧ IsMissing e') := by
    intro links here name rest e hup hlen hs hrest he
    have ht : t.IsLeaf (here ++ [name]) := hw.isLeaf hs
    obtain ⟨e', hwalk, he'⟩ := walk_leaf hup hlen ht hrest
    exact ⟨e', hwalk, Or.inr ⟨he, he'⟩⟩
  fun_induction s.walk follow links here names with
  | case1 => cases h
  | case2 links here rest ih =>
    rw [walk, if_pos rfl]
    exact ih h
  | case3 links here name rest hup hlen =>
    rw [walk, if_neg hup, if_pos hlen]
    exact ⟨e, h, Or.inl rfl⟩
  | case4 => cases h
  | case5 links here name rest hup hlen place hn hr =>
    cases h
    exact hleaf hup hlen (Or.inl (seen_eq_none.mpr hn)) (by simpa using hr) (Or.inl rfl)
  | case6 => cases h
  | case7 here name rest hup hlen place target hl hr =>
    rw [walk_noLink hup hlen (seen_eq_link.mp (hw.link (seen_eq_link.mpr hl))) hr]
    exact ⟨e, h, Or.inl rfl⟩
  | case8 here name rest hup hlen place target hl hr links path ih =>
    rw [walk_link hup hlen (seen_eq_link.mp (hw.link (seen_eq_link.mpr hl))) hr]
    exact ih h
  | case9 => cases h
  | case10 links here name rest hup hlen place mode changed hd hr ih =>
    obtain ⟨mode', changed', hd'⟩ := get?_of_isDirectory (hw.isDirectory ⟨mode, seen_of_get? hd⟩)
    rw [walk_directory hup hlen hd', if_neg hr]
    exact ih h
  | case11 => cases h
  | case12 links here name rest hup hlen place content mode changed hf hr =>
    cases h
    exact hleaf hup hlen (Or.inr ⟨content, mode, seen_of_get? hf⟩) (by simpa using hr) (Or.inr rfl)

/-- Two dots behind a path to a directory lead out of it again. -/
theorem Arrives.concat_up (h : s.Arrives true links here names q) (hd : s.IsDirectory q) :
    s.Arrives true links here (names ++ [".."]) q.dropLast := by
  induction h with
  | here => exact .up .here
  | up next ih => exact .up (ih hd)
  | last hup hlen hlink => exact .into hup hlen (by simp) hd (.up .here)
  | into hup hlen hrest hdir next ih => exact .into hup hlen (by simp) hdir (ih hd)
  | through hup hlen hrest hlink next ih =>
    refine .through hup hlen (Or.inl (by simp)) hlink ?_
    have hnext := ih hd
    rwa [List.append_assoc] at hnext

end Store

namespace Host

open Store

variable {P Q : Place → Prop} {h k l : Host} {p : Path} {q : Place} {name : String}

/-! ## What a path targets -/

/-- What is found at the end of a path is seen at the place that it leads to. -/
theorem targets_of_found {n : Node} (hf : h.found p = some n) :
    ∃ q, h.Targets p q ∧ h.store.seen q = some n := by
  rw [found] at hf
  cases hn : h.node p with
  | error e =>
    rw [hn] at hf
    cases hf
  | ok r =>
    obtain ⟨q, m⟩ := r
    rw [hn] at hf
    obtain ⟨hs, hl, hg⟩ := node_eq_ok hn
    exact ⟨q, ⟨hs, hl⟩, by rw [seen_of_get? hg]; exact hf⟩

theorem found_eq_none (hnone : ∀ q, ¬ h.Targets p q) : h.found p = none := by
  cases hf : h.found p with
  | none => rfl
  | some n =>
    obtain ⟨q, hq, -⟩ := targets_of_found hf
    exact absurd hq (hnone q)

theorem targets_of_bytes {content : List UInt8} (hb : h.bytes p = .ok content) :
    ∃ q mode, h.Targets p q ∧ h.store.seen q = some (.file content mode (.counted 0)) := by
  rw [bytes] at hb
  split at hb
  · next q content mode changed hn =>
    cases hb
    obtain ⟨hs, hl, hg⟩ := node_eq_ok hn
    exact ⟨q, mode, ⟨hs, hl⟩, seen_of_get? hg⟩
  · cases hb
  · cases hb

/-- Writing leads to a place that holds a file or nothing. -/
theorem leaf_of_writing {content : List UInt8} {c : Change} (hw : h.writing p content = .ok c) :
    ∃ q, h.Targets p q ∧ h.store.IsLeaf q := by
  rw [writing] at hw
  cases hr : h.reach true p with
  | error e =>
    rw [hr] at hw
    cases hw
  | ok x =>
    obtain ⟨hs, hl⟩ := leads_of_reach hr
    refine ⟨x.place, ⟨hs, hl⟩, ?_⟩
    rw [reach_eq hs hl, reachedAt] at hw
    cases hg : h.store.get? x.place with
    | none => exact Or.inl (seen_eq_none.mpr hg)
    | some n =>
      rw [hg] at hw
      cases n with
      | file content' mode changed => exact Or.inr ⟨content', mode, seen_of_get? hg⟩
      | directory mode changed => cases hw
      | link target => cases hw

theorem writing_of_copying {source target : Path} {content : List UInt8} {c : Change}
    (hb : h.bytes source = .ok content) (hc : h.copying source target = .ok c) :
    h.writing target content = .ok c := by
  rw [copying, hb] at hc
  split at hc
  · split at hc
    · cases hc
    · exact hc
  · exact hc

theorem Opens.targets (ho : h.Opens p q) : h.Targets p q := ⟨ho.sound, ho.leads⟩

/-- A name that leads somewhere in a directory fits. -/
theorem Opens.isFit_of_targets (ho : h.Opens p q) (hup : name ≠ "..") {r : Place}
    (ht : h.Targets (p.child name) r) : (h.absolute p).IsFit name := by
  by_contra hfit
  have hreach := ht.reach
  rcases ho.refuses_child hup hfit with hr | ⟨hr, -⟩
  · rw [hr] at hreach
    cases hreach
  · rw [hr] at hreach
    cases hreach

/-- A name in a directory leads nowhere but there. -/
theorem Opens.targets_child (ho : h.Opens p q) (hup : name ≠ "..")
    (hlink : ∀ target, h.store.seen (q ++ [name]) ≠ some (.link target)) {r : Place}
    (ht : h.Targets (p.child name) r) : r = q ++ [name] :=
  ht.unique (ho.leads_child (ho.isFit_of_targets hup ht) hlink).targets

/-- Two dots lead out of a directory into another one. -/
theorem Opens.targets_up (ho : h.Opens p q) {r : Place} (ht : h.Targets (p.child "..") r) :
    h.store.IsDirectory r := by
  have hl := ht.leads
  rw [absolute_child] at hl
  have hr := hl.arrives.unique (ho.leads.arrives.concat_up ho.isDirectory) h.store.isWay_root
  rw [hr]
  exact ho.leads.arrives.isWay h.store.isWay_root _ List.prefix_rfl

/-! ## Hosts that differ at some places -/

/-- What lies at some places may differ between two hosts, if no path is redirected by that. -/
structure DiffersOn (P : Place → Prop) (h k : Host) : Prop where
  workingDirectory : k.workingDirectory = h.workingDirectory
  ways : SameWays h.store k.store
  others : ∀ q, ¬ P q → k.store.seen q = h.store.seen q

namespace DiffersOn

theorem refl (P : Place → Prop) (h : Host) : DiffersOn P h h := ⟨rfl, .refl _, fun _ _ => rfl⟩

theorem trans (hd : DiffersOn P h k) (kd : DiffersOn P k l) : DiffersOn P h l :=
  ⟨kd.workingDirectory.trans hd.workingDirectory, hd.ways.trans kd.ways,
    fun q hq => (kd.others q hq).trans (hd.others q hq)⟩

theorem mono (hd : DiffersOn P h k) (hPQ : ∀ q, P q → Q q) : DiffersOn Q h k :=
  ⟨hd.workingDirectory, hd.ways, fun q hq => hd.others q fun hp => hq (hPQ q hp)⟩

theorem withLogs (hd : DiffersOn P h k) (logs : List LogEntry) : DiffersOn P h (k.withLogs logs) :=
  ⟨hd.workingDirectory, hd.ways, hd.others⟩

theorem of_differsAt (hw : k.workingDirectory = h.workingDirectory)
    (hd : DiffersAt q h.store k.store) (hq : P q) : DiffersOn P h k :=
  ⟨hw, hd.ways, fun r hr => hd.others r fun hrq => hr (hrq ▸ hq)⟩

/-- A file is written in a directory. -/
theorem of_writing (ho : h.Opens p q) (hup : name ≠ "..")
    (hlink : ∀ target, h.store.seen (q ++ [name]) ≠ some (.link target)) (hP : P (q ++ [name]))
    {content : List UInt8} {c : Change} (hw : h.writing (p.child name) content = .ok c) :
    DiffersOn P h (h.change c) := by
  obtain ⟨r, ht, hleaf⟩ := leaf_of_writing hw
  obtain rfl := ho.targets_child hup hlink ht
  obtain rfl := Except.ok.inj (hw.symm.trans (ht.writing_of_leaf hleaf content))
  exact .of_differsAt rfl (Change.differsAt_write hleaf _ _) hP

/-- Files alone differ. -/
theorem seen (hd : DiffersOn P h k) (hq : ¬ (P q ∧ h.store.IsLeaf q)) :
    k.store.seen q = h.store.seen q := by
  rcases hd.ways q with hs | ⟨hleaf, -⟩
  · exact hs.symm
  · exact hd.others q fun hp => hq ⟨hp, hleaf⟩

theorem absolute (hd : DiffersOn P h k) (p : Path) : k.absolute p = h.absolute p := by
  rw [Host.absolute, Host.absolute, hd.workingDirectory]

theorem targets (hd : DiffersOn P h k) (ht : h.Targets p q) : k.Targets p q :=
  ⟨ht.sound, by rw [hd.absolute]; exact ht.leads.of_sameWays hd.ways⟩

theorem targets_iff (hd : DiffersOn P h k) : k.Targets p q ↔ h.Targets p q :=
  ⟨fun ht => ⟨ht.sound, by rw [← hd.absolute]; exact ht.leads.of_sameWays hd.ways.symm⟩, hd.targets⟩

theorem leads (hd : DiffersOn P h k) (hl : h.Leads p q) : k.Leads p q :=
  ⟨hl.sound, fun follow => by rw [hd.absolute]; exact (hl.leads follow).of_sameWays hd.ways⟩

theorem opens (hd : DiffersOn P h k) (ho : h.Opens p q) : k.Opens p q :=
  ⟨ho.sound, (hd.targets ho.targets).leads, hd.ways.isDirectory ho.isDirectory⟩

/-- Paths that leave out the places in question. -/
def Spares (P : Place → Prop) (h : Host) (p : Path) : Prop :=
  ∀ q, h.Targets p q → ¬ (P q ∧ h.store.IsLeaf q)

variable (hd : DiffersOn P h k) (hp : Spares P h p)
include hd

/-- A path that leads nowhere leads nowhere on the other host. -/
theorem reach_error {e : Error} (hr : h.reach true p = .error e) :
    ∃ e', k.reach true p = .error e' ∧ (e' = e ∨ isAbsence e = true ∧ isAbsence e' = true) := by
  rw [reach] at hr ⊢
  split at hr
  · next hs =>
    rw [if_pos hs, hd.absolute]
    rw [Store.reach] at hr ⊢
    split at hr
    · next x hx => cases hr
    · next n hn =>
      cases hr
      split at hn
      · next hlong =>
        rw [if_pos hlong]
        cases hn
        exact ⟨_, rfl, Or.inl rfl⟩
      · next hlong =>
        obtain ⟨n', hw, hn'⟩ := hd.ways.walk_error hn
        rw [if_neg hlong, hw]
        refine ⟨_, rfl, ?_⟩
        rcases hn' with rfl | ⟨hm, hm'⟩
        · exact Or.inl rfl
        · right
          rcases hm with rfl | rfl <;> rcases hm' with rfl | rfl <;> exact ⟨rfl, rfl⟩
  · next hs =>
    rw [if_neg hs]
    exact ⟨_, hr, Or.inl rfl⟩

include hp

theorem found : k.found p = h.found p := by
  by_cases hq : ∃ q, h.Targets p q
  · obtain ⟨q, hq⟩ := hq
    rw [hq.found, (hd.targets hq).found, hd.seen (hp q hq)]
  · rw [not_exists] at hq
    rw [found_eq_none hq, found_eq_none fun q ht => hq q (hd.targets_iff.mp ht)]

/-- A look at a path sees the same. -/
theorem isNode {kind : Node → Bool} (hkind : ∀ n, kind n.plain = kind n) :
    k.isNode kind p = h.isNode kind p := by
  cases hr : h.reach true p with
  | ok x =>
    obtain ⟨hs, hl⟩ := leads_of_reach hr
    have ht : h.Targets p x.place := ⟨hs, hl⟩
    rw [ht.isNode_eq hkind, (hd.targets ht).isNode_eq hkind, hd.seen (hp _ ht)]
  | error e =>
    obtain ⟨e', hr', he'⟩ := hd.reach_error hr
    rw [Host.isNode, Host.isNode, node, node, hr, hr']
    rcases he' with rfl | ⟨he, he'⟩
    · rfl
    · dsimp only
      rw [if_pos he, if_pos he']

theorem bytes {content : List UInt8} (hb : h.bytes p = .ok content) : k.bytes p = .ok content := by
  obtain ⟨q, mode, ht, hf⟩ := targets_of_bytes hb
  have hf' : k.store.seen q = some (.file content mode (.counted 0)) := (hd.seen (hp q ht)).trans hf
  exact (hd.targets ht).bytes_of_file hf'

end DiffersOn

end Host

namespace Work

/-- A file is removed if there is one. -/
theorem discard_exec {h : Host} {p : Path} {q : Place} (hl : h.Leads p q)
    (hleaf : h.store.IsLeaf q) :
    (discard p).exec h =
      (.ok (), if h.store.seen q = none then h else h.change (.remove q)) := by
  rcases hleaf with hn | ⟨content, mode, hf⟩
  · have hremove : (remove p).exec h = (.error (.system .noEntry), h) := by
      rw [remove, exec_perform, hl.removing_of_none hn]
    rw [discard, exec_bind_ok (exec_attempt_system hremove), if_pos hn]
    rfl
  · have hremove : (remove p).exec h = (.ok (), h.change (.remove q)) := by
      rw [remove, exec_perform, hl.removing_of_file hf]
    rw [discard, exec_bind_ok (exec_attempt_ok hremove), if_neg (by simp [hf])]
    rfl

/-- After a file is discarded, nothing is seen there. -/
theorem discard_differsAt {h : Host} {p : Path} {q : Place} (hl : h.Leads p q)
    (hleaf : h.store.IsLeaf q) :
    ∃ k, (discard p).exec h = (.ok (), k) ∧ k.workingDirectory = h.workingDirectory ∧
      Store.DiffersAt q h.store k.store ∧ k.store.seen q = none := by
  rw [discard_exec hl hleaf]
  by_cases hn : h.store.seen q = none
  · rw [if_pos hn]
    exact ⟨h, rfl, rfl, ⟨.refl _, fun _ _ => rfl⟩, hn⟩
  · rw [if_neg hn]
    refine ⟨_, rfl, rfl, Change.differsAt_remove hleaf, ?_⟩
    show ((Change.remove q).apply h.store).seen q = none
    rw [Change.seen_remove h.store q hleaf.ne_root, if_pos rfl]

end Work
end Vitrine
