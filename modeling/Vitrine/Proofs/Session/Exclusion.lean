import Vitrine.Proofs.Session.Sharing

/-!
# Mutual exclusion

Any number of sessions over one directory of markers, one after the other or one while the dev servers
of others run, with other changes of files in between. A session that is under way owns its entry
file: every other run on it is refused and changes nothing, and what a session captures was never
generated by another one (`exclusive_of_reachable`).
-/
namespace Vitrine
namespace Session

/-- A session that runs: the scene before, and the lease that it begins there. -/
structure Run (σ : Type) where
  lease : Lease
  script : Script σ
  scene : Scene σ

/-- A run that has left files to others: the turn that they have, and the later ones. -/
structure Pause (σ : Type) where
  run : Run σ
  turn : Turn
  later : List Turn

/-- The files that sessions share, and the sessions under way. `native` knows what lies at each place
apart from what sessions have put there. -/
structure World (σ : Type) where
  files : Store
  native : Place → Option Node
  underWay : List (Pause σ)

variable {σ : Type}

namespace Run

/-- The scene after the whole run. -/
def after (r : Run σ) : Scene σ := ((Session.run r.script).exec r.scene).2

/-- The files that a run leaves when it goes on with some turns still to come. -/
def leaves (r : Run σ) : List Turn → Store
  | [] => r.after.host.store
  | x :: _ => x.left

/-- The run is under way as long as there is a turn to come. -/
def pauses (r : Run σ) : List Turn → List (Pause σ)
  | [] => []
  | x :: xs => [⟨r, x, xs⟩]

/-- A run whose operations on files succeed, with an entry file outside of the directory of markers,
among whose files a listing can be made. -/
structure IsSound (d : Site) (turns : σ → List Turn) (r : Run σ) : Prop where
  arrives : Arrives r.lease turns r.scene
  shares : Shares r.script turns
  tenable : r.lease.Tenable
  legible : r.lease.Legible
  listed : ∃ ms, ((⟨r.lease.directory⟩ : Instances).markers.exec r.lease.made).1 = .ok ms
  isAt : r.lease.IsAt d

end Run

namespace World

variable (d : Site) (turns : σ → List Turn)

/-- What may happen next: a run begins, a run goes on after its turn, or somebody else changes files.
Nobody else touches the directory of markers or an entry file while a session is under way that they
belong to. -/
inductive Step (w : World σ) : World σ → Prop
  | begin (r : Run σ) (sound : r.IsSound d turns) (here : r.scene.host.store = w.files) :
      Step w { w with
        files := r.leaves (turns r.after.outside)
        underWay := r.pauses (turns r.after.outside) ++ w.underWay }
  | resume (p : Pause σ) (others : List (Pause σ)) (split : w.underWay.Perm (p :: others))
      (found : p.turn.found = w.files) :
      Step w { w with
        files := p.run.leaves p.later
        underWay := p.run.pauses p.later ++ others }
  | edit (c : Change)
      (apart : ∀ p ∈ w.underWay, ¬ d.base <+: c.place ∧ c.place ≠ p.run.lease.place ∧
        p.run.lease.Home (c.apply w.files)) :
      Step w { w with
        files := c.apply w.files
        native := fun q =>
          if (c.apply w.files).seen q = w.files.seen q then w.native q else (c.apply w.files).seen q }

/-- The worlds that come about from any files by such steps. -/
inductive Reachable : World σ → Prop
  | start (files : Store) : Reachable ⟨files, files.seen, []⟩
  | next {w w' : World σ} (before : Reachable w) (step : Step d turns w w') : Reachable w'

/-- Entry files belong to one session at a time. -/
structure Exclusive (w : World σ) : Prop where
  /-- No two sessions are under way with the same entry file. -/
  single : w.underWay.Pairwise fun p q => p.run.lease.entry ≠ q.run.lease.entry
  /-- A run on the entry file of a session under way is refused: nothing is started, and but for the
  log nothing changes on the host. -/
  refused : ∀ p ∈ w.underWay, ∀ (script : Script σ) (t : Scene σ) (language : Preview.Language),
    t.host.store = w.files → d.IsSeenBy t.host → t.session.settings.temporary = d.directory →
    ((Preview.resolveEntry t.session.configFile t.session.settings
      t.session.entryDirectory).exec t.host).1 = .ok (p.run.lease.entry, language) →
    ∃ logs, (Session.run script).exec t = (.error (.conflict p.run.lease.entry), { t with
      host := t.host.withLogs logs
      session := { t.session with
        entry := some (p.run.lease.entry, language), phase := .aborted } })
  /-- What a run captures was put there by others than sessions. -/
  captured : ∀ r : Run σ, r.IsSound d turns → r.scene.host.store = w.files →
    ∀ b, r.after.session.backup = some b → b.entry = r.lease.entry ∧
      ∃ mode, w.native r.lease.place = some (.file b.content mode (.counted 0))

/-! ## What every step preserves -/

/-- A run that waits for its turn to end, with all that belongs to it as it left it. -/
structure Awaits (files : Store) (p : Pause σ) : Prop where
  sound : p.run.IsSound d turns
  standing : p.run.lease.Standing p.turn.left
  respected : p.run.lease.Respected p.turn.left files
  goesOn : p.run.lease.Respected p.turn.left p.turn.found →
    p.run.lease.Follows (fun s => p.run.lease.Finished s p.run.after.host.store) p.turn.found p.later

/-- Files that are native, but for what belongs to some sessions and for directories that sessions have
made. -/
structure Shows (native : Place → Option Node) (ps : List (Pause σ)) (files : Store) : Prop where
  others : ∀ q, (∀ p ∈ ps, ¬ p.run.lease.Owns q) →
    files.seen q = native q ∨ native q = none ∧ files.IsDirectory q
  owned : ∀ p ∈ ps, ∀ q, p.run.lease.Owns q → native q = p.run.lease.made.store.seen q

/-- No place belongs to two sessions under way, and each of them has what belongs to it. -/
structure IsFair (w : World σ) : Prop where
  awaits : ∀ p ∈ w.underWay, Awaits d turns w.files p
  apart : w.underWay.Pairwise fun p q => p.run.lease.Apart q.run.lease
  orderly : w.underWay ≠ [] → d.IsOrderly w.files
  shows : Shows w.native w.underWay w.files

variable {d turns} {w w' : World σ} {r : Run σ} {native : Place → Option Node} {s : Store}
  {ps : List (Pause σ)}

theorem Awaits.step {p : Pause σ} (h : Awaits d turns s p) {l : Lease} {t : Store}
    (ha : l.Apart p.run.lease) (hc : l.Confined s t) : Awaits d turns t p :=
  ⟨h.sound, h.standing, h.respected.trans (hc.respected ha h.respected.home), h.goesOn⟩

/-- A run goes on with some turns to come. -/
theorem IsFair.segment (hr : r.IsSound d turns)
    (hps : ∀ p ∈ ps, Awaits d turns s p ∧ r.lease.Apart p.run.lease)
    (hapart : ps.Pairwise fun p q => p.run.lease.Apart q.run.lease) (ho : d.IsOrderly s)
    (hothers : ∀ q, ¬ r.lease.Owns q → (∀ p ∈ ps, ¬ p.run.lease.Owns q) →
      s.seen q = native q ∨ native q = none ∧ s.IsDirectory q)
    (howned : ∀ p ∈ ps, ∀ q, p.run.lease.Owns q → native q = p.run.lease.made.store.seen q)
    (hown : ∀ q, r.lease.Owns q → native q = r.lease.made.store.seen q) {xs : List Turn}
    (hcourse : r.lease.Follows (fun s => r.lease.Finished s r.after.host.store) s xs) :
    IsFair d turns ⟨r.leaves xs, native, r.pauses xs ++ ps⟩ := by
  have hconfined : r.lease.Confined s (r.leaves xs) := by
    cases xs with
    | nil => exact hcourse.confined
    | cons x xs => exact hcourse.1.2
  have hseen : ∀ q, ¬ r.lease.Owns q → (∀ p ∈ ps, ¬ p.run.lease.Owns q) →
      (r.leaves xs).seen q = native q ∨ native q = none ∧ (r.leaves xs).IsDirectory q := by
    intro q hq hqs
    rw [Store.IsDirectory, hconfined.others q hq]
    exact hothers q hq hqs
  have horderly : d.IsOrderly (r.leaves xs) := by
    refine ho.confined hr.tenable hr.legible hr.isAt hconfined ?_
    cases xs with
    | nil => exact Or.inr hcourse.returned
    | cons x xs => exact Or.inl hcourse.1.1
  have hawaits : ∀ p ∈ ps, Awaits d turns (r.leaves xs) p :=
    fun p hp => (hps p hp).1.step (hps p hp).2 hconfined
  cases xs with
  | nil =>
    refine ⟨hawaits, hapart, fun _ => horderly, fun q hq => ?_, howned⟩
    by_cases hrq : r.lease.Owns q
    · exact Or.inl ((hcourse.returned q hrq).trans (hown q hrq).symm)
    · exact hseen q hrq hq
  | cons x xs =>
    have hfirst : Awaits d turns x.left ⟨r, x, xs⟩ :=
      ⟨hr, hcourse.1.1, hcourse.1.1.respected, hcourse.2⟩
    refine ⟨List.forall_mem_cons.mpr ⟨hfirst, hawaits⟩,
      List.pairwise_cons.mpr ⟨fun p hp => (hps p hp).2, hapart⟩, fun _ => horderly, fun q hq => ?_,
      List.forall_mem_cons.mpr ⟨hown, howned⟩⟩
    exact hseen q (hq _ List.mem_cons_self) fun p hp => hq p (List.mem_cons_of_mem _ hp)

/-! ## Runs on entry files that are owned -/

namespace IsFair

variable (h : IsFair d turns w)
include h

/-- The entry file of a session under way is found owned. -/
theorem isOwned {p : Pause σ} (hp : p ∈ w.underWay) {k : Host} (hk : k.store = w.files)
    (hd : d.IsSeenBy k) :
    ((Instances.isOwned ⟨d.directory⟩ p.run.lease.entry).exec k).1 = .ok true := by
  have hawaits := h.awaits p hp
  have hstanding := hawaits.standing.of_respected hawaits.respected
  have horderly := h.orderly (List.ne_nil_of_mem hp)
  rw [← hk] at hstanding horderly
  exact horderly.isOwned hawaits.sound.tenable hawaits.sound.legible hawaits.sound.isAt hd hstanding

/-- Where a session is under way, the directory of markers is there when another one begins. -/
theorem made_eq (hr : r.IsSound d turns) (here : r.scene.host.store = w.files) {p : Pause σ}
    (hp : p ∈ w.underWay) : r.lease.made.store = w.files := by
  have hfiles : r.lease.start.store = w.files := hr.arrives.host ▸ here
  have horderly := h.orderly (List.ne_nil_of_mem hp)
  rw [← hfiles] at horderly ⊢
  have hleads := horderly.leads
  rw [← hr.isAt.root] at hleads
  rw [Lease.made, Work.makeDirectories_of_isDirectory hr.tenable.parts hr.tenable.sound hleads
    horderly.isDirectory]

/-- A session that finds its entry file free shares no place with those under way. -/
theorem apart_of_unowned (hr : r.IsSound d turns) (here : r.scene.host.store = w.files)
    (hfree : ((Instances.isOwned ⟨r.lease.directory⟩ r.lease.entry).exec r.lease.start).1 = .ok false)
    {p : Pause σ} (hp : p ∈ w.underWay) : r.lease.Apart p.run.lease := by
  have hawaits := h.awaits p hp
  have hstanding := hawaits.standing.of_respected hawaits.respected
  rw [← h.made_eq hr here hp] at hstanding
  refine hstanding.apart hr.tenable hawaits.sound.tenable
    (hawaits.sound.isAt.base.trans hr.isAt.base.symm) ?_
  refine hr.isAt.place_ne hawaits.sound.isAt fun hentry => ?_
  have hseen : d.IsSeenBy r.lease.start := by
    rw [Site.IsSeenBy, ← hr.isAt.directory]
    exact hr.isAt.root
  rw [hr.isAt.directory, hentry, h.isOwned hp (hr.arrives.host ▸ here) hseen] at hfree
  cases hfree

/-- What belongs to a session that begins is native. -/
theorem native_eq (hr : r.IsSound d turns) (here : r.scene.host.store = w.files)
    (hapart : ∀ p ∈ w.underWay, r.lease.Apart p.run.lease) {q : Place} (hq : r.lease.Owns q) :
    w.native q = r.lease.made.store.seen q := by
  have hfiles : r.lease.start.store = w.files := hr.arrives.host ▸ here
  have hleaf : r.lease.made.store.IsLeaf q := by
    by_cases hplace : q = r.lease.place
    · rw [hplace]
      exact hr.tenable.leaf
    · left
      rw [hr.tenable.seen_made hq, if_neg hplace]
  have hmade := (Lease.grows (l := r.lease)).extends.seen_eq hleaf.not_isDirectory
  rw [hfiles] at hmade
  rcases h.shows.others q fun p hp => hapart p hp q hq with heq | ⟨hnone, hdir⟩
  · rw [hmade, heq]
  · rw [Store.IsDirectory, ← hmade] at hdir
    exact absurd hdir hleaf.not_isDirectory

/-! ## Every step -/

theorem begin (hr : r.IsSound d turns) (here : r.scene.host.store = w.files) :
    IsFair d turns ⟨r.leaves (turns r.after.outside), w.native,
      r.pauses (turns r.after.outside) ++ w.underWay⟩ := by
  rcases run_turns hr.tenable hr.shares hr.arrives rfl with hturned | ⟨hfree, hended⟩
  · have hturns : turns r.after.outside = [] := hturned.turns
    have hstore : r.leaves [] = w.files := hturned.store.trans here
    rw [hturns, hstore]
    exact h
  · have hapart := fun p (hp : p ∈ w.underWay) => h.apart_of_unowned hr here hfree hp
    have hfiles : r.lease.start.store = w.files := hr.arrives.host ▸ here
    obtain ⟨ms, hms⟩ := hr.listed
    refine segment hr (fun p hp => ⟨?_, hapart p hp⟩) h.apart
      (Site.isOrderly_made hr.tenable hr.legible hr.isAt hms) (fun q _ hq => ?_) h.shows.owned
      (fun q hq => h.native_eq hr here hapart hq) hended.course
    · rw [h.made_eq hr here hp]
      exact h.awaits p hp
    · have hextends := (Lease.grows (l := r.lease)).extends
      rw [hfiles] at hextends
      rcases hextends q with heq | ⟨hnone, hdir⟩
      · rw [Store.IsDirectory, heq]
        exact h.shows.others q hq
      · rcases h.shows.others q hq with heq | ⟨hnative, -⟩
        · exact Or.inr ⟨heq.symm.trans hnone, hdir⟩
        · exact Or.inr ⟨hnative, hdir⟩

theorem resume {p : Pause σ} {others : List (Pause σ)} (split : w.underWay.Perm (p :: others))
    (found : p.turn.found = w.files) :
    IsFair d turns ⟨p.run.leaves p.later, w.native, p.run.pauses p.later ++ others⟩ := by
  have hmem : ∀ q, q ∈ p :: others → q ∈ w.underWay := fun q hq => split.mem_iff.mpr hq
  have hp := hmem p List.mem_cons_self
  have hawaits := h.awaits p hp
  have hall := (split.pairwise_iff fun hpq => hpq.symm).mp h.apart
  obtain ⟨hapart, hothers⟩ := List.pairwise_cons.mp hall
  have hcourse := hawaits.goesOn (found ▸ hawaits.respected)
  rw [found] at hcourse
  refine segment hawaits.sound
    (fun q hq => ⟨h.awaits q (hmem q (List.mem_cons_of_mem _ hq)), hapart q hq⟩) hothers
    (h.orderly (List.ne_nil_of_mem hp)) (fun q hq hqs => ?_)
    (fun q hq => h.shows.owned q (hmem q (List.mem_cons_of_mem _ hq))) (h.shows.owned p hp) hcourse
  refine h.shows.others q fun q' hq' => ?_
  rcases List.mem_cons.mp (split.mem_iff.mp hq') with rfl | hq'
  · exact hq
  · exact hqs q' hq'

theorem edit {c : Change} (apart : ∀ p ∈ w.underWay, ¬ d.base <+: c.place ∧
      c.place ≠ p.run.lease.place ∧ p.run.lease.Home (c.apply w.files)) :
    IsFair d turns ⟨c.apply w.files, fun q =>
      if (c.apply w.files).seen q = w.files.seen q then w.native q else (c.apply w.files).seen q,
      w.underWay⟩ := by
  have hbase : ∀ p ∈ w.underWay, ¬ p.run.lease.base <+: c.place := by
    intro p hp
    rw [(h.awaits p hp).sound.isAt.base]
    exact (apart p hp).1
  have hown : ∀ p ∈ w.underWay, ∀ q, p.run.lease.Owns q →
      (c.apply w.files).seen q = w.files.seen q := by
    intro p hp q hq
    obtain ⟨-, hne, hhome⟩ := apart p hp
    by_cases hplace : q = p.run.lease.place
    · rw [hplace]
      exact hhome.seen_apply_place (hbase p hp) hne.symm
    · exact hhome.seen_apply_base (hbase p hp) (hq.base hplace)
  refine ⟨fun p hp => ?_, h.apart, fun hne => ?_, fun q hq => ?_, fun p hp q hq => ?_⟩
  · have hawaits := h.awaits p hp
    exact ⟨hawaits.sound, hawaits.standing,
      hawaits.respected.trans ⟨(apart p hp).2.2, hown p hp⟩, hawaits.goesOn⟩
  · obtain ⟨p, hp⟩ := List.exists_mem_of_ne_nil _ hne
    have hat := (h.awaits p hp).sound.isAt
    have hhome := (apart p hp).2.2
    refine (h.orderly hne).of_seen (Site.leads_of_home hat hhome) fun q hq => ?_
    exact hhome.seen_apply_base (hbase p hp) (hat.base ▸ hq)
  · show (c.apply w.files).seen q = ite _ _ _ ∨ ite _ _ _ = none ∧ (c.apply w.files).IsDirectory q
    by_cases hsame : (c.apply w.files).seen q = w.files.seen q
    · rw [if_pos hsame, Store.IsDirectory, hsame]
      exact h.shows.others q hq
    · rw [if_neg hsame]
      exact Or.inl rfl
  · show ite _ _ _ = _
    rw [if_pos (hown p hp q hq)]
    exact h.shows.owned p hp q hq

theorem step (hs : Step d turns w w') : IsFair d turns w' := by
  cases hs with
  | begin r sound here => exact h.begin sound here
  | resume p others split found => exact h.resume split found
  | edit c apart => exact h.edit apart

end IsFair

theorem isFair_of_reachable (h : Reachable d turns w) : IsFair d turns w := by
  induction h with
  | start files =>
    exact ⟨fun p hp => absurd hp List.not_mem_nil, .nil, fun hne => absurd rfl hne,
      fun _ _ => Or.inl rfl, fun p hp => absurd hp List.not_mem_nil⟩
  | next before step ih => exact ih.step step

/-! ## Exclusion -/

/-- In every world that comes about, entry files belong to one session at a time. -/
theorem exclusive_of_reachable (h : Reachable d turns w) : Exclusive d turns w := by
  have hfair := isFair_of_reachable h
  refine ⟨?_, ?_, ?_⟩
  · refine hfair.apart.imp_of_mem fun {p q} hp hq hpq hentry => ?_
    have hplace : p.run.lease.place = q.run.lease.place := by
      have hreal := (hfair.awaits p hp).sound.isAt.real
      rw [hentry, (hfair.awaits q hq).sound.isAt.real] at hreal
      exact (Path.mk.inj hreal).2.symm
    exact hpq _ Lease.owns_place (hplace ▸ Lease.owns_place)
  · intro p hp script t language hfiles hseen hdirectory hresolved
    refine run_refused hresolved ?_
    rw [instances, hdirectory]
    exact hfair.isOwned hp hfiles hseen
  · intro r hr here b hb
    rcases run_turns hr.tenable hr.shares hr.arrives rfl with hturned | ⟨hfree, hended⟩
    · have hnone : r.after.session.backup = none := hturned.backup
      rw [hnone] at hb
      cases hb
    · have hbackup : r.after.session.backup = r.lease.backup := hended.backup
      have hapart := fun p (hp : p ∈ w.underWay) => hfair.apart_of_unowned hr here hfree hp
      rw [hfair.native_eq hr here hapart Lease.owns_place]
      exact Lease.original_of_backup hr.tenable (hbackup.symm.trans hb)

/-! ### A session that leaves files to others -/

/-- Others have a turn, and change nothing. -/
def lend (t : Scene (List Turn)) : Scene (List Turn) :=
  { t with outside := t.outside ++ [⟨t.host.store, t.host.store⟩] }

def lendingScript : Script (List Turn) where
  exitCode := 0
  timeouts := 2
  ignoresTermination := false
  startError := none
  signalAtStart := none
  waitFails := false
  duringStart := lend
  duringWait := fun _ => lend
  onTermination := lend
  duringRestoration := lend

def lendingRun : Run (List Turn) :=
  ⟨strictLease, lendingScript, ⟨sampleHost, sampleScene.session, sampleScene.server, []⟩⟩

def sampleSite : Site := ⟨sampleLease.directory, sampleLease.directory, sampleLease.base⟩

theorem lending_sound : lendingRun.IsSound sampleSite id where
  arrives := ⟨strict_begins.session, rfl, rfl, rfl, rfl, strict_begins.resolved⟩
  shares :=
    have hlend (t : Scene (List Turn)) : Amid lendingScript id t (lend t) :=
      .others t t.host (t.outside ++ [⟨t.host.store, t.host.store⟩]) rfl rfl
    ⟨hlend, fun _ => hlend, hlend, hlend⟩
  tenable := strict_tenable
  legible := strict_recoverable.toLegible
  listed := by
    obtain ⟨ms, hms, -⟩ := Instances.markers_of_isOwned strict_recoverable.unowned
    exact ⟨ms, hms⟩
  isAt := ⟨rfl, rfl, rfl, rfl⟩

theorem lend_outside (t : Scene (List Turn)) : (lend t).outside ≠ [] := by
  simp [lend]

/-- Others have a turn at the latest when the session puts the entry file back. -/
theorem lending_tearDown (entry : Path) (t : Scene (List Turn)) :
    ((tearDown lendingScript entry).exec t).2.outside ≠ [] := by
  have hI : Indifferent lendingScript fun t => t.outside ≠ [] :=
    ⟨fun _ _ h _ => h, fun _ _ h => h, fun _ _ h => h, fun t _ _ => lend_outside t⟩
  have hdetached : Detached fun t : Scene (List Turn) => t.outside ≠ [] :=
    ⟨fun _ _ h => h, fun _ _ h => h⟩
  rw [tearDown_eq, Act.exec_bind_ok (Act.exec_setSession _ t), Act.exec_bind_ok (Act.exec_modify _ _)]
  refine Act.Keeps.bind (I := fun t => t.outside ≠ [])
    (hI.keeps_endServer fun _ t _ => lend_outside t) (fun _ => hdetached.keeps_release entry) _ ?_
  exact lend_outside _

theorem lending_outside : lendingRun.after.outside ≠ [] := by
  have howned : ((sampleScene.session.instances.isOwned sampleLease.entry).exec
      sampleHost).1 = .ok false := by cbv
  obtain ⟨logs, hrun⟩ := run_decides lendingScript (t := lendingRun.scene)
    sample_resolved howned
  let t₁ : Scene (List Turn) := { lendingRun.scene with
    host := sampleHost.withLogs logs
    session := { sampleScene.session with
      entry := some (sampleLease.entry, sampleLease.language), phase := .installing } }
  have hafter : lendingRun.after =
      ((replaceEntry lendingScript sampleLease.entry sampleLease.language).exec t₁).2 :=
    congrArg Prod.snd hrun
  have htorn := lending_tearDown sampleLease.entry
    ((occupy lendingScript sampleLease.entry sampleLease.language).exec t₁).2
  rw [hafter, replaceEntry, Act.exec_bind_ok (Act.exec_outcome _ t₁), Act.exec_bind]
  rcases hx : (tearDown lendingScript sampleLease.entry).exec
      ((occupy lendingScript sampleLease.entry sampleLease.language).exec t₁).2 with ⟨e | ⟨⟩, u⟩
  · rw [hx] at htorn
    exact htorn
  · rw [hx] at htorn
    show ((report _).exec u).2.outside ≠ []
    rw [report_exec]
    exact htorn

/-- The world once the session has left the files to others. -/
def lendingWorld : World (List Turn) where
  files := lendingRun.leaves lendingRun.after.outside
  native := sampleHost.store.seen
  underWay := lendingRun.pauses lendingRun.after.outside ++ []

theorem lending_reachable : Reachable sampleSite id lendingWorld :=
  .next (.start sampleHost.store) (.begin lendingRun lending_sound rfl)

theorem lending_underWay : lendingWorld.underWay ≠ [] := by
  rw [lendingWorld, List.append_nil]
  cases h : lendingRun.after.outside with
  | nil => exact absurd h lending_outside
  | cons x xs => exact List.cons_ne_nil _ _

theorem exclusive_of_reachable_lending :
    lendingWorld.underWay ≠ [] ∧ Exclusive sampleSite id lendingWorld :=
  ⟨lending_underWay, exclusive_of_reachable lending_reachable⟩

end World
end Session
end Vitrine
