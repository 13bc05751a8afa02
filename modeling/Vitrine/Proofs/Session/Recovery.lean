import Vitrine.Proofs.Session.Remains
import Vitrine.Proofs.Session.Restoration

/-!
# Recovery after a crash

A session may die after any change that was made while it ran. One recovery afterwards brings its
entry file back, and no marker of that file is left (`Session.recover_restores`).
-/
namespace Vitrine

/-- What is found under a name depends on what is seen there. -/
theorem Instances.Finds.of_seen {h k : Host} {directory : Path} {name : String} {q : Place}
    {o : Option Marker} (hf : Finds h directory name o) (hl : h.Leads (directory.child name) q)
    (hk : k.Leads (directory.child name) q) (hs : k.store.seen q = h.store.seen q) :
    Finds k directory name o := by
  have hfile : k.isNode Node.isFile (directory.child name) =
      h.isNode Node.isFile (directory.child name) := by
    rw [hk.isFile_eq, hl.isFile_eq, hs]
  have hbytes : ∀ content, h.bytes (directory.child name) = .ok content →
      k.bytes (directory.child name) = .ok content := by
    intro content hb
    obtain ⟨r, mode, ht, hseen⟩ := Host.targets_of_bytes hb
    rw [ht.unique hl.targets] at hseen
    exact hk.bytes_of_file (hs.trans hseen)
  cases hf with
  | nothing file other => exact .nothing (hfile.trans file) other
  | skipped file named bytes unread =>
    exact .skipped (hfile.trans file) named (hbytes _ bytes) unread
  | marker file named bytes read =>
    exact .marker (hfile.trans file) named (hbytes _ bytes) read

namespace Lease

open Work Instances

variable {l : Lease} {h k : Host}

/-! ## Listing -/

theorem located_made : l.Located l.made := located_of l.made workingDirectory_made

/-- The directory of markers is listed by the names in it. -/
theorem markers_eq (ht : l.Tenable) (hd : l.Located h) (hh : l.Home h.store) :
    (⟨l.directory⟩ : Instances).markers.exec h =
      (markersAmong l.directory (h.store.names l.base)).exec h := by
  have hlead : h.store.Leads true (h.absolute l.directory) l.base := by
    rw [hd.directory]
    exact hh.directory
  exact markers_of_directory (Host.isDirectory_of_leads ht.sound hlead hh.isDirectory)
    (Host.names_of_leads ht.sound hlead hh.isDirectory)

/-- Before the session no name in the directory holds a marker of the entry file. -/
theorem finds_made (ht : l.Tenable) (hr : l.Recoverable) {name : String}
    (hn : l.made.store.seen (l.base ++ [name]) ≠ none) :
    ∃ o, Finds l.made l.directory name o ∧ ∀ m, o = some m → m.entry.text ≠ l.entry.text := by
  obtain ⟨ms, hms, hnone⟩ := markers_of_isOwned hr.unowned
  rw [markers_eq ht located_made ht.home] at hms
  have hfinds := finds_of_markersAmong hms
  obtain ⟨ms', logs, hexec, hmem⟩ := markersAmong_exec hfinds
  rw [hexec] at hms
  obtain rfl := Except.ok.inj hms
  obtain ⟨o, ho⟩ := hfinds name (Store.mem_names.mpr hn)
  refine ⟨o, ho, ?_⟩
  rintro m rfl htext
  have hany : ms'.any (fun m => m.entry.text = l.entry.text) = true :=
    List.any_eq_true.mpr ⟨m, (hmem m).mpr ⟨name, Store.mem_names.mpr hn, ho⟩, by simpa using htext⟩
  rw [hany] at hnone
  cases hnone

/-- On a steady host the names hold the marker of the session at most, and markers of other entry
files. -/
theorem finds_steady (ht : l.Tenable) (hr : l.Recoverable) (hs : l.Steady h)
    (hm : h.store.seen l.markPlace = none ∨ l.HasMark h.store) {name : String}
    (hn : h.store.seen (l.base ++ [name]) ≠ none) :
    ∃ o, Finds h l.directory name o ∧ ∀ m, o = some m →
      name = l.markName ∧ m = l.marker ∨
        m.entry.text ≠ l.entry.text ∧ l.made.store.seen (l.base ++ [name]) ≠ none := by
  by_cases hcopy : name = l.copyName
  · rw [hcopy]
    exact ⟨none, finds_copy ht hs.located hs.home hs.copy, by simp⟩
  by_cases hmark : name = l.markName
  · subst hmark
    have hmark : l.HasMark h.store := hm.resolve_left hn
    exact ⟨some l.marker, finds_mark ht hr.toLegible hs.located hs.home hmark,
      fun m hm => Or.inl ⟨rfl, (Option.some.inj hm).symm⟩⟩
  · have hne : ∀ other, name ≠ other → l.base ++ [name] ≠ l.base ++ [other] :=
      fun other ho heq => ho (List.singleton_inj.mp (List.append_cancel_left heq))
    have hseen := (hs.fewer (l.base ++ [name]) (List.prefix_append _ _) (hne _ hcopy)
      (hne _ hmark)).resolve_right hn
    have hthere : l.made.store.seen (l.base ++ [name]) ≠ none := hseen ▸ hn
    obtain ⟨o, ho, hother⟩ := finds_made ht hr hthere
    have hlink := hr.noLink name
    refine ⟨o, ho.of_seen (ht.home.child_leads ht located_made (hr.fit name hthere) hlink)
      (hs.home.child_leads ht hs.located (hr.fit name hthere) (hseen ▸ hlink)) hseen, ?_⟩
    exact fun m hm => Or.inr ⟨hother m hm, hthere⟩

/-- The markers on a steady host. If nothing else lies in the directory, there are no others. -/
theorem markers_steady (ht : l.Tenable) (hr : l.Recoverable) (hs : l.Steady h)
    (hm : h.store.seen l.markPlace = none ∨ l.HasMark h.store) :
    ∃ ms logs, (⟨l.directory⟩ : Instances).markers.exec h = (.ok ms, h.withLogs logs) ∧
      (∀ m ∈ ms, m.entry.text = l.entry.text → m = l.marker) ∧
      (l.marker ∈ ms ↔ l.HasMark h.store) ∧
      ((∀ name, l.made.store.seen (l.base ++ [name]) = none) → ∀ m ∈ ms, m = l.marker) := by
  have hfinds : ∀ name ∈ h.store.names l.base, ∃ o, Finds h l.directory name o := by
    intro name hn
    obtain ⟨o, ho, -⟩ := finds_steady ht hr hs hm (Store.mem_names.mp hn)
    exact ⟨o, ho⟩
  have hfound : ∀ m, (∃ name ∈ h.store.names l.base, Finds h l.directory name (some m)) →
      l.HasMark h.store ∧ m = l.marker ∨
        m.entry.text ≠ l.entry.text ∧ ∃ name, l.made.store.seen (l.base ++ [name]) ≠ none := by
    rintro m ⟨name, hn, hf⟩
    have hthere := Store.mem_names.mp hn
    obtain ⟨o, ho, hother⟩ := finds_steady ht hr hs hm hthere
    rcases hother m (ho.unique hf) with ⟨rfl, hmarker⟩ | ⟨hne, hmade⟩
    · exact Or.inl ⟨hm.resolve_left hthere, hmarker⟩
    · exact Or.inr ⟨hne, name, hmade⟩
  obtain ⟨ms, logs, hexec, hmem⟩ := markersAmong_exec hfinds
  refine ⟨ms, logs, (markers_eq ht hs.located hs.home).trans hexec, ?_, ⟨?_, ?_⟩, ?_⟩
  · intro m hm htext
    rcases hfound m ((hmem m).mp hm) with ⟨-, hmarker⟩ | ⟨hne, -⟩
    · exact hmarker
    · exact absurd htext hne
  · intro hmarker
    rcases hfound _ ((hmem _).mp hmarker) with ⟨hmark, -⟩ | ⟨hne, -⟩
    · exact hmark
    · exact absurd rfl hne
  · intro hmark
    have hthere : h.store.seen (l.base ++ [l.markName]) ≠ none := by
      rw [show h.store.seen (l.base ++ [l.markName]) = _ from hmark]
      exact Option.some_ne_none _
    exact (hmem _).mpr ⟨l.markName, Store.mem_names.mpr hthere,
      finds_mark ht hr.toLegible hs.located hs.home hmark⟩
  · intro halone m hm
    rcases hfound m ((hmem m).mp hm) with ⟨-, hmarker⟩ | ⟨-, name, hmade⟩
    · exact hmarker
    · exact absurd (halone name) hmade

/-! ## Recovering -/

/-- What recovering others leaves alone: all that belongs to the session. Files in the directory may
be removed, and none is added. -/
structure Spared (l : Lease) (h k : Host) : Prop where
  home : l.Home k.store
  place : k.store.seen l.place = h.store.seen l.place
  copy : k.store.seen l.copyPlace = h.store.seen l.copyPlace
  mark : k.store.seen l.markPlace = h.store.seen l.markPlace
  base : ∀ q, l.base <+: q → k.store.seen q = h.store.seen q ∨ k.store.seen q = none

/-- Recovering the markers of other entry files succeeds, and it spares the session. -/
def Harmless (l : Lease) : List Marker → Host → Prop
  | [], _ => True
  | m :: ms, h =>
    (m.entry.text ≠ l.entry.text →
      (∃ r, ((recoverAmong [m]).exec h).1 = .ok r) ∧ l.Spared h ((recoverAmong [m]).exec h).2) ∧
    Harmless l ms ((recoverAmong [m]).exec h).2

theorem harmless_of_own {ms : List Marker} (hown : ∀ m ∈ ms, m = l.marker) (h : Host) :
    l.Harmless ms h := by
  induction ms generalizing h with
  | nil => trivial
  | cons m ms ih =>
    refine ⟨fun hne => ?_, ih (fun m hm => hown m (List.mem_cons_of_mem _ hm)) _⟩
    rw [hown m List.mem_cons_self] at hne
    exact absurd rfl hne

theorem Steady.of_spared (hs : l.Steady h) (hk : l.Spared h k) (hp : SameProcess h k) :
    l.Steady k where
  located := hs.located.of_sameProcess hp
  home := hk.home
  fewer := by
    intro q hq hc hm
    rcases hk.base q hq with h | h
    · rw [h]
      exact hs.fewer q hq hc hm
    · exact Or.inr h
  copy := hs.copy.of_seen_eq hk.copy.symm
  mark := hs.mark.of_seen_eq hk.mark.symm
  dead := by
    rw [Marker.isLive_exec hp]
    exact hs.dead

theorem Spared.kept (hk : l.Spared h k) (hs : l.Kept h.store) : l.Kept k.store := by
  rw [Kept, HasCopy, Untouched, Replaced, hk.copy, hk.place]
  exact hs

theorem Spared.cleared (hk : l.Spared h k) (hs : l.Cleared h.store) : l.Cleared k.store := by
  rw [Cleared, Untouched, hk.mark, hk.place]
  exact hs

/-- The entry file is back after all markers are recovered, if the session has left its marker, and
if it has not. -/
theorem recoverAmong_steady (ht : l.Tenable) (hr : l.Recoverable) {ms : List Marker}
    (hown : ∀ m ∈ ms, m.entry.text = l.entry.text → m = l.marker) (hs : l.Steady h)
    (hkept : l.marker ∈ ms → l.Kept h.store) (hcleared : l.marker ∉ ms → l.Cleared h.store)
    (hothers : l.Harmless ms h) :
    ∃ r k, (recoverAmong ms).exec h = (.ok r, k) ∧ l.Steady k ∧ l.Cleared k.store := by
  induction ms generalizing h with
  | nil => exact ⟨[], h, rfl, hs, hcleared List.not_mem_nil⟩
  | cons m ms ih =>
    have hown' : ∀ m ∈ ms, m.entry.text = l.entry.text → m = l.marker :=
      fun m hm => hown m (List.mem_cons_of_mem _ hm)
    by_cases htext : m.entry.text = l.entry.text
    · obtain rfl := hown m List.mem_cons_self htext
      obtain ⟨k, hstep, hreturned, hdone⟩ := recoverAmong_own ht hr hs (hkept List.mem_cons_self)
      have hnext := hothers.2
      rw [hstep] at hnext
      obtain ⟨r, k', hrest, hk'⟩ := ih hown' hreturned.steady
        (fun _ => Or.inr ⟨hreturned.uncopied, Or.inl hreturned.untouched⟩) (fun _ => hdone) hnext
      exact ⟨_, k', recoverAmong_cons hstep hrest, hk'⟩
    · obtain ⟨⟨r, hresult⟩, hspared⟩ := hothers.1 htext
      have hne : l.marker ≠ m := by
        rintro rfl
        exact htext rfl
      have hstep : (recoverAmong [m]).exec h = (.ok r, ((recoverAmong [m]).exec h).2) :=
        Prod.ext hresult rfl
      obtain ⟨r', k', hrest, hk'⟩ := ih hown'
        (hs.of_spared hspared (sameProcess_recoverAmong [m] h))
        (fun hm => hspared.kept (hkept (List.mem_cons_of_mem _ hm)))
        (fun hm => hspared.cleared (hcleared fun h => (List.mem_cons.mp h).elim hne hm)) hothers.2
      exact ⟨_, k', recoverAmong_cons hstep hrest, hk'⟩

/-! ## After a crash -/

/-- A host that was started again after the session had died on another one: the files are as they
were after some of the changes, and the process of the session is gone. -/
structure Crashed (l : Lease) (h c : Host) : Prop where
  store : ∃ before after, h.history = l.start.history ++ before ++ after ∧
    c.store = l.start.store.replay before
  located : l.Located c
  dead : (l.marker.isLive.exec c).1 = .ok false

theorem Crashed.safe {outer : List Change} {c : Host} (hc : l.Crashed h c)
    (hk : l.Tracks outer h) : l.Safe c.store := by
  obtain ⟨before, after, hhistory, hstore⟩ := hc.store
  obtain ⟨cs, hcs, -, hall⟩ := hk.passes
  rw [hcs, List.append_assoc] at hhistory
  have hprefix : cs.take before.length = before := by
    rw [List.append_cancel_left hhistory, List.take_left]
  rw [hstore, ← hprefix]
  exact hall before.length

/-- What a crash leaves: the directory of markers may not even be there. -/
theorem Crashed.remains (ht : l.Tenable) {outer : List Change} {c : Host} (hc : l.Crashed h c)
    (hk : l.Tracks outer h) :
    (⟨l.directory⟩ : Instances).markers.exec c = (.ok [], c) ∧
        c.found l.entry = l.start.found l.entry ∨
      l.Steady c ∧ (l.Cleared c.store ∨ l.HasMark c.store ∧ l.Kept c.store) := by
  rcases hc.safe hk with ⟨hfrom, hto⟩ | ⟨hhome, hrest, hsafe⟩
  · have hentry : ∀ follow, c.store.Leads follow (l.start.absolute l.entry) l.place :=
      fun follow => (ht.entry.leads follow).of_extends hfrom
    have hfree : ∀ q, l.made.store.seen q = none → c.store.seen q = none := by
      intro q hq
      rcases hto q with h | ⟨h, -⟩
      · rw [← h, hq]
      · exact h
    have huntouched : l.Untouched c.store := (hto.seen_eq ht.leaf.not_isDirectory).symm
    have hempty : c.isNode Node.isDirectory l.directory = .ok false →
        (⟨l.directory⟩ : Instances).markers.exec c = (.ok [], c) ∧
          c.found l.entry = l.start.found l.entry := by
      intro hd
      have hfound : c.Leads l.entry l.place :=
        ⟨ht.entry.sound, fun follow => by rw [hc.located.entry]; exact hentry follow⟩
      refine ⟨markers_of_absent hd, ?_⟩
      rw [hfound.found, ht.entry.found, ht.seen_start]
      exact huntouched
    rcases ht.directory.of_extended hto with hlead | hmissing
    · by_cases hdir : c.store.IsDirectory l.base
      · refine Or.inr ⟨⟨hc.located, ⟨hlead, hdir, hentry, ht.leaf.of_seen_eq huntouched.symm⟩,
          fun q _ _ _ => ?_, Or.inl (hfree _ ht.copyPlace_free), Or.inl (hfree _ ht.markPlace_free),
          hc.dead⟩, Or.inl ⟨hfree _ ht.markPlace_free, huntouched⟩⟩
        rcases hto q with h | ⟨h, -⟩
        · exact Or.inl h.symm
        · exact Or.inr h
      · left
        have hnone : c.store.seen l.base = none := by
          obtain ⟨mode, hmode⟩ := ht.isDirectory
          rcases hto l.base with h | ⟨h, -⟩
          · exact absurd ⟨mode, h ▸ hmode⟩ hdir
          · exact h
        refine hempty (Host.isDirectory_of_none ht.sound ?_ hnone)
        rw [hc.located.directory]
        exact hlead
    · left
      refine hempty ?_
      rw [Host.isNode, Host.node, Host.reach, if_pos ht.sound, hc.located.directory, hmissing]
      rfl
  · right
    have hsteady : c.store.IsLeaf l.copyPlace → c.store.IsLeaf l.markPlace → l.Steady c :=
      fun hcopy hmark => ⟨hc.located, hhome, fun q hq hqc hqm => Or.inl (hrest q hq hqc hqm), hcopy,
        hmark, hc.dead⟩
    rcases hsafe with ⟨hmark, hcopy, huntouched⟩ | ⟨hmark, hkept⟩
    · exact ⟨hsteady hcopy (Or.inl hmark), Or.inl ⟨hmark, huntouched⟩⟩
    · refine ⟨hsteady ?_ (Or.inr ⟨_, _, hmark⟩), Or.inr ⟨hmark, hkept⟩⟩
      rcases hkept with ⟨content, mode, kept, -, hfile⟩ | ⟨hnone, -⟩
      · exact Or.inr ⟨content, kept, hfile⟩
      · exact Or.inl hnone

/-- On a steady host whose marker is gone, no session owns the entry file. -/
theorem isOwned_cleared (ht : l.Tenable) (hr : l.Recoverable) (hs : l.Steady h)
    (hc : l.Cleared h.store) :
    (((⟨l.directory⟩ : Instances).isOwned l.entry).exec h).1 = .ok false := by
  obtain ⟨ms, logs, hexec, hown, hmem, -⟩ := markers_steady ht hr hs (Or.inl hc.1)
  have hunmarked : l.marker ∉ ms := by
    intro hm
    have hmark := hmem.mp hm
    rw [HasMark, hc.1] at hmark
    cases hmark
  have hnone : ms.any (fun m => m.entry.text = l.entry.text) = false := by
    rw [List.any_eq_false]
    intro m hm htext
    rw [decide_eq_true_eq] at htext
    exact hunmarked (hown m hm htext ▸ hm)
  rw [isOwned_exec hexec, hnone]

/-- One recovery brings the entry file back, and afterwards no session owns it. -/
theorem recover_crashed (ht : l.Tenable) (hr : l.Recoverable) {outer : List Change} {c : Host}
    (hc : l.Crashed h c) (hk : l.Tracks outer h)
    (hothers : ∀ ms k, (⟨l.directory⟩ : Instances).markers.exec c = (.ok ms, k) →
      l.Harmless ms k) :
    ∃ ms k, (⟨l.directory⟩ : Instances).recover.exec c = (.ok ms, k) ∧
      k.found l.entry = l.start.found l.entry ∧
      (((⟨l.directory⟩ : Instances).isOwned l.entry).exec k).1 = .ok false := by
  rcases hc.remains ht hk with ⟨hmarkers, hfound⟩ | ⟨hsteady, hleft⟩
  · refine ⟨[], c, ?_, hfound, ?_⟩
    · rw [recover, exec_bind_ok hmarkers]
      rfl
    · rw [isOwned_exec hmarkers]
      rfl
  · have hmark : c.store.seen l.markPlace = none ∨ l.HasMark c.store :=
      hleft.imp (fun h => h.1) (fun h => h.1)
    obtain ⟨ms, logs, hexec, hown, hmem, -⟩ := markers_steady ht hr hsteady hmark
    have hkept : l.marker ∈ ms → l.Kept c.store := by
      intro hm
      rcases hleft with hcleared | ⟨-, hkept⟩
      · have hmark := hmem.mp hm
        rw [HasMark, hcleared.1] at hmark
        cases hmark
      · exact hkept
    have hcleared : l.marker ∉ ms → l.Cleared c.store := by
      intro hm
      rcases hleft with hcleared | ⟨hmark, -⟩
      · exact hcleared
      · exact absurd (hmem.mpr hmark) hm
    obtain ⟨r, k, hrecover, hk, hdone⟩ := recoverAmong_steady ht hr hown (hsteady.withLogs logs)
      hkept hcleared (hothers ms _ hexec)
    refine ⟨r, k, ?_, ?_, isOwned_cleared ht hr hk hdone⟩
    · rw [recover, exec_bind_ok hexec]
      exact hrecover
    · rw [(hk.home.entry_leads ht hk.located).found, ht.entry.found, ht.seen_start]
      exact hdone.2

/-- Nothing hinders recovery if nothing lies in the directory but what the session has left. -/
theorem Crashed.harmless (ht : l.Tenable) (hr : l.Recoverable) {outer : List Change} {c : Host}
    (hc : l.Crashed h c) (hk : l.Tracks outer h)
    (halone : ∀ name, l.made.store.seen (l.base ++ [name]) = none) {ms : List Marker}
    (hms : (⟨l.directory⟩ : Instances).markers.exec c = (.ok ms, k)) : l.Harmless ms k := by
  rcases hc.remains ht hk with ⟨hmarkers, -⟩ | ⟨hsteady, hleft⟩
  · rw [hmarkers] at hms
    cases hms
    trivial
  · obtain ⟨ms', logs, hexec, -, -, hown⟩ := markers_steady ht hr hsteady
      (hleft.imp (fun h => h.1) (fun h => h.1))
    rw [hexec] at hms
    cases hms
    exact harmless_of_own (hown halone) _

end Lease

namespace Session

variable {σ : Type} {l : Lease} {journal : σ → List Change} {script : Script σ} {t : Scene σ}

/-- After whichever of its changes a session dies, one recovery brings its entry file back, and no
marker of that file is left. -/
theorem recover_restores (ht : l.Tenable) (hr : l.Recoverable) (hs : Spares l journal script)
    (h : Begins l journal t) {c : Host} (hc : l.Crashed ((run script).exec t).2.host c)
    (hothers : ∀ ms k, (⟨l.directory⟩ : Instances).markers.exec c = (.ok ms, k) →
      l.Harmless ms k) :
    ∃ ms k, (⟨l.directory⟩ : Instances).recover.exec c = (.ok ms, k) ∧
      k.found l.entry = l.start.found l.entry ∧
      (((⟨l.directory⟩ : Instances).isOwned l.entry).exec k).1 = .ok false := by
  obtain ⟨-, htracks, -⟩ := run_exec ht hs h rfl
  exact Lease.recover_crashed ht hr hc htracks hothers

/-! ### A crash -/

/-- The sample with nothing but generated code in the place of its entry file. -/
def strictLease : Lease := { sampleLease with may := IsRecognised }

def quietScript : Script (List Change) := { sampleScript with duringWait := fun _ t => t }

/-- A host with the files of the sample after its first five changes. -/
def crashedHost : Host :=
  { sampleHost with
    store := sampleHost.store.replay (((run quietScript).exec sampleScene).2.host.history.take 5)
    processId := 8 }

theorem strict_tenable : strictLease.Tenable :=
  { made := sample_tenable.made
    parts := sample_tenable.parts
    sound := sample_tenable.sound
    directory := sample_tenable.directory
    isDirectory := sample_tenable.isDirectory
    short := sample_tenable.short
    copyPlace_free := sample_tenable.copyPlace_free
    markPlace_free := sample_tenable.markPlace_free
    entry := sample_tenable.entry
    leaf := sample_tenable.leaf
    mode := sample_tenable.mode
    apart := sample_tenable.apart
    allows := fun _ hs => isRecognised_of_isMarked hs }

theorem strict_spares : Spares strictLease id quietScript where
  duringStart := fun t _ _ => .refl t
  duringWait := fun _ t _ _ => .refl t
  onTermination := fun t _ _ => .refl t
  duringRestoration := fun t _ => .refl t

theorem strict_begins : Begins strictLease id sampleScene where
  session := sample_begins.session
  host := rfl
  directory := rfl
  workingDirectory := rfl
  journal := rfl
  resolved := sample_begins.resolved
  unowned := sample_begins.unowned

theorem strict_empty (name : String) :
    strictLease.made.store.seen (strictLease.base ++ [name]) = none := by
  rw [show strictLease.made.store = sampleStore from sample_made]
  simp [sampleStore, strictLease, sampleLease, Store.seen, Store.get?, List.lookup]

theorem strict_recoverable : strictLease.Recoverable where
  entry := by decide
  directory := by decide
  workingDirectory := by decide
  processId := by decide
  recognised := fun _ h => h
  unowned := by cbv
  fit := fun name hn => absurd (strict_empty name) hn
  noLink := by
    intro name target
    rw [strict_empty]
    exact fun h => nomatch h

theorem strict_crashed :
    strictLease.Crashed ((run quietScript).exec sampleScene).2.host crashedHost where
  store := by
    refine ⟨((run quietScript).exec sampleScene).2.host.history.take 5,
      ((run quietScript).exec sampleScene).2.host.history.drop 5, ?_, rfl⟩
    exact (List.take_append_drop 5 _).symm
  located := ⟨rfl, rfl⟩
  dead := rfl

theorem recover_restores_sample :
    ∃ ms k, (⟨strictLease.directory⟩ : Instances).recover.exec crashedHost = (.ok ms, k) ∧
      k.found strictLease.entry = sampleHost.found strictLease.entry ∧
      (((⟨strictLease.directory⟩ : Instances).isOwned strictLease.entry).exec k).1 =
        .ok false :=
  recover_restores strict_tenable strict_recoverable strict_spares strict_begins strict_crashed
    fun _ _ hms => Lease.Crashed.harmless strict_tenable strict_recoverable strict_crashed
      (run_exec strict_tenable strict_spares strict_begins rfl).2.1 strict_empty hms

end Session
end Vitrine
