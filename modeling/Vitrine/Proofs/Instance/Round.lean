import Vitrine.Proofs.Instance.Settlement

/-!
# Recovering one marker after the other

Recovery settles the markers whose session is gone, up to the first one that is blocked
(`recoverAmong_reaches`). Markers that sessions have left in a directory, for different entry files
outside of it, do not get in each other's way (`Stands.apart`).
-/
namespace Vitrine

open Work Host

namespace Instances

variable {h k : Host} {m : Marker} {ms before after : List Marker} {q : Place}

/-! ## Going through markers -/

/-- The places of the markers whose session is gone. -/
def Disposed (ms : List Marker) (h : Host) (q : Place) : Prop :=
  ∃ m ∈ ms, m.livesOn h = false ∧ m.Owns h q

/-- Markers that have no place in common. -/
def Apart (ms : List Marker) (h : Host) : Prop :=
  ms.Pairwise fun m m' => ∀ q, m.Owns h q → ¬ m'.Owns h q

/-- No marker is blocked whose session is gone. -/
def Open (ms : List Marker) (h : Host) : Prop :=
  ∀ m ∈ ms, m.livesOn h = false → ¬ m.Blocked h

/-- What holds after the markers that are not live have been recovered. -/
structure Settles (ms : List Marker) (h k : Host) : Prop where
  process : SameProcess h k
  differs : DiffersOn (Disposed ms h) h k
  recovered : ∀ m ∈ ms, m.livesOn h = false → m.Recovered h k

theorem Settles.refl (h : Host) : Settles [] h h :=
  ⟨Std.Refl.refl h, .refl _ h, fun _ hm => absurd hm List.not_mem_nil⟩

theorem Apart.of_differs {P : Place → Prop} (ha : Apart ms h) (hd : DiffersOn P h k) : Apart ms k :=
  ha.imp fun hmm q hm hm' => hmm q ((Marker.owns_iff hd).mp hm) ((Marker.owns_iff hd).mp hm')

theorem Apart.disjoint {m m' : Marker} (ha : Apart ms h) (hm : m ∈ ms) (hm' : m' ∈ ms)
    (hne : m ≠ m') : ∀ q, m.Owns h q → ¬ m'.Owns h q := by
  have hsymm : Std.Symm fun m m' : Marker => ∀ q, m.Owns h q → ¬ m'.Owns h q :=
    ⟨fun m m' hmm q hq hq' => hmm q hq' hq⟩
  exact ha.forall hm hm' hne

/-- A marker that has no place in common with others keeps what it has. -/
theorem Settles.found (hs : Settles ms h k) (hm : ∀ m' ∈ ms, ∀ q, m'.Owns h q → ¬ m.Owns h q)
    {p : Path} (hp : p ∈ m.paths) : k.found p = h.found p := by
  refine Marker.found_eq hs.differs (fun q hq => ?_) hp
  rintro ⟨m', hm', -, hq'⟩
  exact hm m' hm' q hq' hq

/-- A live marker is passed over. -/
theorem Settles.live (hs : Settles ms h k) (hlive : m.livesOn h = true) : Settles (m :: ms) h k where
  process := hs.process
  differs := hs.differs.mono fun _ ⟨m', hm', hq⟩ => ⟨m', List.mem_cons_of_mem _ hm', hq⟩
  recovered := fun m' hm' hgone => by
    rcases List.mem_cons.mp hm' with rfl | hm'
    · rw [hlive] at hgone
      cases hgone
    · exact hs.recovered m' hm' hgone

/-- One marker is recovered, and then the others are. -/
theorem Settles.cons {g : Host} (hs : Settles ms g k) (hp : SameProcess h g)
    (hd : DiffersOn (m.Owns h) h g) (hm : m.Recovered h g) (hgone : m.livesOn h = false)
    (ha : Apart (m :: ms) h) : Settles (m :: ms) h k := by
  have hothers := (List.pairwise_cons.mp ha).1
  have hfirst : ∀ m' ∈ ms, ∀ p ∈ m'.paths, g.found p = h.found p := fun m' hm' p hp' =>
    Marker.found_eq hd (fun q hq' hq => hothers m' hm' q hq hq') hp'
  have hkept : ∀ p ∈ m.paths, k.found p = g.found p := fun p hp' =>
    hs.found (fun m' hm' q hq' hq =>
      hothers m' hm' q ((Marker.owns_iff hd).mp hq) ((Marker.owns_iff hd).mp hq')) hp'
  refine ⟨Trans.trans hp hs.process, ?_, fun m' hm' hgone' => ?_⟩
  · refine (hd.mono fun q hq => ⟨m, List.mem_cons_self, hgone, hq⟩).trans (hs.differs.mono ?_)
    rintro q ⟨m', hm', hgone', hq⟩
    rw [Marker.livesOn_eq hp] at hgone'
    exact ⟨m', List.mem_cons_of_mem _ hm', hgone', (Marker.owns_iff hd).mp hq⟩
  · rcases List.mem_cons.mp hm' with rfl | hm'
    · exact hm.congr (fun _ _ => rfl) hkept
    · refine (hs.recovered m' hm' ?_).congr (fun p hp' => (hfirst m' hm' p hp').symm) fun _ _ => rfl
      rw [Marker.livesOn_eq hp, hgone']

/-- Markers none of which is blocked are recovered. -/
theorem recoverAmong_open (hlimit : ∀ m ∈ ms, m.processId ≤ processIdLimit)
    (hplaced : ∀ m ∈ ms, m.Placed h) (ha : Apart ms h) (ho : Open ms h) :
    ∃ k, (recoverAmong ms).exec h = (.ok (ms.filter fun m => !m.livesOn h), k) ∧ Settles ms h k := by
  induction ms generalizing h with
  | nil => exact ⟨h, rfl, .refl h⟩
  | cons m ms ih =>
    have hm := hplaced m List.mem_cons_self
    have hpid := hlimit m List.mem_cons_self
    have hpids : ∀ m' ∈ ms, m'.processId ≤ processIdLimit := fun m' hm' =>
      hlimit m' (List.mem_cons_of_mem _ hm')
    have hms : ∀ m' ∈ ms, m'.Placed h := fun m' hm' => hplaced m' (List.mem_cons_of_mem _ hm')
    cases hlive : m.livesOn h with
    | true =>
      obtain ⟨k, hexec, hs⟩ := ih hpids hms (List.pairwise_cons.mp ha).2 fun m' hm' =>
        ho m' (List.mem_cons_of_mem _ hm')
      refine ⟨k, ?_, hs.live hlive⟩
      rw [recoverAmong_live hpid hlive, hexec, List.filter_cons_of_neg (by rw [hlive]; simp)]
    | false =>
      have hdead : (m.isLive.exec h).1 = .ok false := by
        rw [Marker.isLive_exec_livesOn hpid, hlive]
      obtain ⟨g, hfirst, hd, hrecovered⟩ :=
        recoverAmong_settles hm hdead (ho m List.mem_cons_self hlive)
      have hp : SameProcess h g := by
        have hprocess := sameProcess_recoverAmong [m] h
        rwa [hfirst] at hprocess
      have hothers := (List.pairwise_cons.mp ha).1
      obtain ⟨k, hexec, hs⟩ := ih hpids (fun m' hm' => (hms m' hm').of_differs hd)
        (Apart.of_differs (List.pairwise_cons.mp ha).2 hd) fun m' hm' hgone hb => by
          rw [Marker.livesOn_eq hp] at hgone
          refine ho m' (List.mem_cons_of_mem _ hm') hgone ((Marker.blocked_iff hd ?_).mp hb)
          exact fun q hq' hq => hothers m' hm' q hq hq'
      refine ⟨k, ?_, hs.cons hp hd hrecovered hlive ha⟩
      rw [recoverAmong_cons hfirst hexec, List.filter_cons_of_pos (by rw [hlive]; rfl)]
      simp only [Marker.livesOn_eq hp, List.singleton_append]

/-- How far recovery gets: through all markers, or up to the first one that is blocked. -/
inductive Reaches (ms : List Marker) (h : Host) : Result (List Marker) × Host → Prop
  | all {k : Host} (open_ : Open ms h) (settles : Settles ms h k) :
      Reaches ms h (.ok (ms.filter fun m => !m.livesOn h), k)
  | halted {before after : List Marker} {m : Marker} {e : Error} {k : Host}
      (split : ms = before ++ m :: after) (open_ : Open before h) (gone : m.livesOn h = false)
      (blocked : m.Blocked h) (settles : Settles before h k) : Reaches ms h (.error e, k)

theorem Reaches.eq_of_open {x : Result (List Marker) × Host} (hr : Reaches ms h x) (ho : Open ms h) :
    x = (.ok (ms.filter fun m => !m.livesOn h), x.2) := by
  cases hr with
  | all open_ settles => rfl
  | halted split open_ gone blocked settles =>
    subst split
    exact absurd blocked (ho _ (List.mem_append_right _ List.mem_cons_self) gone)

/-- With regard to a marker that is not blocked itself: recovery gets past it, or one in front of it is
blocked. -/
theorem Reaches.of_unblocked {x : Result (List Marker) × Host}
    (hr : Reaches (before ++ m :: after) h x) (hm : ¬ m.Blocked h) :
    (Open before h ∧ ∃ done, m ∈ done ∧ Settles done h x.2) ∨
      (¬ Open before h ∧ (∃ e, x.1 = .error e) ∧ ∃ done, done ⊆ before ∧ Settles done h x.2) := by
  cases hr with
  | all open_ settles =>
    exact Or.inl ⟨fun m' hm' => open_ m' (List.mem_append_left _ hm'), _,
      List.mem_append_right _ List.mem_cons_self, settles⟩
  | @halted done rest b e k split open_ gone blocked settles =>
    rcases List.append_eq_append_iff.mp split with ⟨between, hdone, hrest⟩ | ⟨between, hbefore, hrest⟩
    · -- The blocked marker does not stand in front of the marker.
      cases between with
      | nil =>
        obtain ⟨rfl, -⟩ := List.cons.inj hrest
        exact absurd blocked hm
      | cons m' between =>
        obtain ⟨rfl, -⟩ := List.cons.inj hrest
        subst hdone
        exact Or.inl ⟨fun m' hm' => open_ m' (List.mem_append_left _ hm'), _,
          List.mem_append_right _ List.mem_cons_self, settles⟩
    · -- It does, unless it is the marker itself.
      cases between with
      | nil =>
        obtain ⟨rfl, -⟩ := List.cons.inj hrest
        exact absurd blocked hm
      | cons b' between =>
        obtain ⟨rfl, -⟩ := List.cons.inj hrest
        subst hbefore
        have hb : b ∈ done ++ b :: between := List.mem_append_right _ List.mem_cons_self
        exact Or.inr ⟨fun ho => ho b hb gone blocked, ⟨e, rfl⟩, done, List.subset_append_left _ _, settles⟩

theorem recoverAmong_reaches (hlimit : ∀ m ∈ ms, m.processId ≤ processIdLimit)
    (hplaced : ∀ m ∈ ms, m.Placed h) (ha : Apart ms h) : Reaches ms h ((recoverAmong ms).exec h) := by
  classical
  by_cases ho : Open ms h
  · obtain ⟨k, hexec, hs⟩ := recoverAmong_open hlimit hplaced ha ho
    rw [hexec]
    exact .all ho hs
  · -- The first marker that is blocked.
    have hsome : (ms.find? fun m => decide (m.livesOn h = false ∧ m.Blocked h)).isSome = true := by
      rw [List.find?_isSome]
      by_contra hno
      exact ho fun m hm hgone hb => hno ⟨m, hm, decide_eq_true ⟨hgone, hb⟩⟩
    obtain ⟨m, hfind⟩ := Option.isSome_iff_exists.mp hsome
    obtain ⟨hm, before, after, rfl, hbefore⟩ := List.find?_eq_some_iff_append.mp hfind
    obtain ⟨hgone, hb⟩ := of_decide_eq_true hm
    have hopen : Open before h := by
      intro m' hm' hgone' hb'
      have hno := hbefore m' hm'
      rw [decide_eq_true ⟨hgone', hb'⟩] at hno
      cases hno
    obtain ⟨hapart, -, hcross⟩ := List.pairwise_append.mp ha
    obtain ⟨k, hexec, hs⟩ := recoverAmong_open (fun m' hm' => hlimit m' (List.mem_append_left _ hm'))
      (fun m' hm' => hplaced m' (List.mem_append_left _ hm')) hapart hopen
    have hmem : m ∈ before ++ m :: after := List.mem_append_right _ List.mem_cons_self
    have hblocked : m.Blocked k := by
      refine (Marker.blocked_iff hs.differs fun q hq => ?_).mpr hb
      rintro ⟨m', hm', -, hq'⟩
      exact hcross m' hm' m List.mem_cons_self q hq' hq
    have hdead : (m.isLive.exec k).1 = .ok false := by
      rw [Marker.isLive_exec_livesOn (hlimit m hmem), Marker.livesOn_eq hs.process, hgone]
    obtain ⟨e, he⟩ := recoverAmong_blocked ((hplaced m hmem).of_differs hs.differs) hdead hblocked
    rw [recoverAmong_append, exec_bind_ok hexec, exec_bind_error he]
    exact .halted rfl hopen hgone hb hs

/-! ## Markers that sessions have left -/

end Instances

/-- A marker as sessions leave it in their directory. -/
structure Marker.IsLeft (directory : Path) (m : Marker) : Prop where
  file : ∃ n, m.file = directory.child (Marker.nameOf n)
  processId : m.processId ≤ processIdLimit
  copy : ∀ p, m.backup = some p → ∃ n, p = directory.child (Backup.copyName n)
  mode : m.backup ≠ none → ∃ n : Int, m.fileMode = .int n ∧ 0 ≤ n ∧ n ≤ processIdLimit

/-- A copy fits where a marker does. -/
theorem Path.IsFit.copyName {p : Path} {n : Nat} (hfit : p.IsFit (Marker.nameOf n)) (c : Nat) :
    p.IsFit (Backup.copyName c) := by
  have hproper := Backup.isProper_copyName c
  have hshort := hproper.short
  refine ⟨hproper.up, ?_, hproper.sound, (Path.text_child_mono p ?_).trans hfit.reachable⟩
  · rw [Store.nameLimit]
    omega
  · rw [Marker.utf8ByteSize_nameOf]
    exact hshort

namespace Instances

variable {i : Instances} {base : Place}

/-- The markers of sessions for different entry files outside of their directory. Nothing in the
directory is a link, and neither is the place of an entry file that was not there. -/
structure Stands (i : Instances) (base : Place) (ms : List Marker) (h : Host) : Prop where
  opens : h.Opens i.directory base
  noLink : ∀ name target, h.store.seen (base ++ [name]) ≠ some (.link target)
  left : ∀ m ∈ ms, m.IsLeft i.directory
  plain : ∀ m ∈ ms, m.backup = none → ∀ q, h.Targets m.entry q → h.Leads m.entry q
  outside : ∀ m ∈ ms, ∀ q, h.Targets m.entry q → ¬ base <+: q
  entries : ms.Pairwise fun m m' => ∀ q, h.Targets m.entry q → ¬ h.Targets m'.entry q
  copies : ms.Pairwise fun m m' => ∀ p, m.backup = some p → m'.backup ≠ some p

namespace Stands

variable (hs : i.Stands base ms h) (hm : m ∈ ms)
include hs hm

/-- A place of a marker is that of its entry file, or the name of its file or of its copy. -/
theorem owns (hq : m.Owns h q) : h.Targets m.entry q ∧ ¬ base <+: q ∨
    ∃ name, q = base ++ [name] ∧ (m.file = i.directory.child name ∧ Marker.isName name = true ∨
      m.backup = some (i.directory.child name) ∧ Marker.isName name = false) := by
  obtain ⟨p, hp, ht⟩ := hq
  rcases List.mem_cons.mp hp with rfl | hp
  · obtain ⟨n, hn⟩ := (hs.left m hm).file
    rw [hn] at ht
    exact Or.inr ⟨_, hs.opens.targets_child (Marker.isProper_nameOf n).up (hs.noLink _) ht,
      Or.inl ⟨hn, Marker.isName_nameOf n⟩⟩
  · rcases List.mem_cons.mp hp with rfl | hp
    · exact Or.inl ⟨ht, hs.outside m hm q ht⟩
    · have hb : m.backup = some p := by simpa using hp
      obtain ⟨n, rfl⟩ := (hs.left m hm).copy p hb
      exact Or.inr ⟨_, hs.opens.targets_child (Backup.isProper_copyName n).up (hs.noLink _) ht,
        Or.inr ⟨hb, Marker.isName_copyName n⟩⟩

theorem placed (hfile : h.isNode Node.isFile m.file = .ok true) : m.Placed h := by
  have hleft := hs.left m hm
  obtain ⟨n, hn⟩ := hleft.file
  obtain ⟨q, node, hnode, hkind⟩ := isNode_eq_true hfile
  obtain ⟨hsound, hlead, hg⟩ := node_eq_ok hnode
  have hup := (Marker.isProper_nameOf n).up
  have hfit : (h.absolute i.directory).IsFit (Marker.nameOf n) :=
    hs.opens.isFit_of_targets hup (r := q) (by rw [← hn]; exact ⟨hsound, hlead⟩)
  have hl : h.Leads m.file (base ++ [Marker.nameOf n]) := by
    rw [hn]
    exact hs.opens.leads_child hfit (hs.noLink _)
  have hcopy : ∀ p, m.backup = some p → ∃ c, p = i.directory.child (Backup.copyName c) ∧
      h.Leads p (base ++ [Backup.copyName c]) := by
    intro p hp
    obtain ⟨c, rfl⟩ := hleft.copy p hp
    exact ⟨c, rfl, hs.opens.leads_child (hfit.copyName c) (hs.noLink _)⟩
  refine ⟨⟨_, hl, ?_⟩, fun p hp => ?_, hs.plain m hm, ?_, hleft.mode⟩
  · rw [← (⟨hsound, hlead⟩ : h.Targets m.file q).unique hl.targets]
    cases node with
    | file content mode changed => exact Or.inr ⟨content, mode, Store.seen_of_get? hg⟩
    | directory mode changed => cases hkind
    | link target => cases hkind
  · obtain ⟨c, -, hc⟩ := hcopy p hp
    exact ⟨_, hc⟩
  · have hoff : ∀ name, ∀ q, q = base ++ [name] → ¬ h.Targets m.entry q := by
      rintro name q rfl ht
      exact hs.outside m hm _ ht (List.prefix_append _ _)
    rw [Marker.paths]
    refine List.pairwise_cons.mpr ⟨fun p hp q hq => ?_, List.pairwise_cons.mpr ⟨fun p hp q hq => ?_, ?_⟩⟩
    · have hqn := hq.unique hl.targets
      rcases List.mem_cons.mp hp with rfl | hp
      · exact hoff _ q hqn
      · obtain ⟨c, -, hc⟩ := hcopy p (by simpa using hp)
        intro ht
        rw [hqn] at ht
        exact Marker.copyName_ne_nameOf c n
          (List.singleton_inj.mp (List.append_cancel_left (hc.targets.unique ht)))
    · obtain ⟨c, -, hc⟩ := hcopy p (by simpa using hp)
      exact fun ht => hoff _ q (ht.unique hc.targets) hq
    · cases m.backup <;> simp

omit hm in
/-- Markers that are listed one after the other have no place in common. -/
theorem apart (hfiles : ms.Pairwise fun m m' => m.file.name < m'.file.name) : Apart ms h := by
  refine (hfiles.and (hs.entries.and hs.copies)).imp_of_mem ?_
  rintro m m' hm hm' ⟨hfile, hentry, hcopy⟩ q hq hq'
  rcases hs.owns hm hq with ⟨ht, hout⟩ | ⟨name, rfl, hname⟩
  · rcases hs.owns hm' hq' with ⟨ht', -⟩ | ⟨name', rfl, -⟩
    · exact hentry q ht ht'
    · exact hout (List.prefix_append _ _)
  · rcases hs.owns hm' hq' with ⟨-, hout⟩ | ⟨name', heq, hname'⟩
    · exact hout (List.prefix_append _ _)
    · obtain rfl := List.singleton_inj.mp (List.append_cancel_left heq)
      rcases hname with ⟨hf, hn⟩ | ⟨hb, hn⟩ <;> rcases hname' with ⟨hf', hn'⟩ | ⟨hb', hn'⟩
      · rw [hf, hf'] at hfile
        exact absurd hfile (lt_irrefl _)
      · rw [hn] at hn'
        cases hn'
      · rw [hn] at hn'
        cases hn'
      · exact hcopy _ hb hb'

end Stands

end Instances
end Vitrine
