import Vitrine.Proofs.Session.Recovery
import Vitrine.Proofs.Session.Turns

/-!
# Sharing a directory of markers

Sessions see each other's markers as long as every name in their directory comes to something. What
one session does keeps it so (`IsOrderly.confined`), and whoever lists the markers then finds the
entry files that are owned (`IsOrderly.isOwned`).
-/
namespace Vitrine

/-- A directory of markers: its path, the same path from the root on, and the place it leads to. -/
structure Site where
  directory : Path
  root : Path
  base : Place

/-- Hosts on which the path of the directory means what it should. -/
def Site.IsSeenBy (d : Site) (h : Host) : Prop := h.absolute d.directory = d.root

namespace Lease

/-- A session keeps its marker in a directory, and names its entry file by its real path. -/
structure IsAt (l : Lease) (d : Site) : Prop where
  directory : l.directory = d.directory
  root : l.start.absolute l.directory = d.root
  base : l.base = d.base
  real : l.entry = Store.pathOf l.place

variable {l : Lease} {d : Site} {h : Host}

theorem IsAt.located (ha : l.IsAt d) (hd : d.IsSeenBy h) : l.Located h := by
  constructor
  · have habsolute : l.entry.isAbsolute = true := by
      rw [ha.real]
      rfl
    rw [Host.absolute, Host.absolute, Path.join, Path.join, if_pos habsolute, if_pos habsolute]
  · rw [ha.root, ha.directory]
    exact hd

theorem IsAt.place_ne {l' : Lease} (ha : l.IsAt d) (ha' : l'.IsAt d) (hne : l.entry ≠ l'.entry) :
    l.place ≠ l'.place := by
  intro hplace
  rw [ha.real, ha'.real, hplace] at hne
  exact hne rfl

end Lease

namespace Site

open Instances

variable (d : Site)

/-- A name in the directory that leads to no link, and under which nothing hinders a listing. -/
structure Knows (s : Store) (name : String) : Prop where
  fit : d.root.IsFit name
  noLink : ∀ target, s.seen (d.base ++ [name]) ≠ some (.link target)
  finds : ∀ h : Host, h.store = s → d.IsSeenBy h → ∃ o, Finds h d.directory name o

/-- A store in which the directory is there and can be listed. -/
structure IsOrderly (s : Store) : Prop where
  sound : d.directory.isSound = true
  leads : s.Leads true d.root d.base
  isDirectory : s.IsDirectory d.base
  knows : ∀ name, s.seen (d.base ++ [name]) ≠ none → d.Knows s name

variable {d} {l : Lease} {s t : Store} {h : Host} {name : String}

theorem IsSeenBy.child_leads (hd : d.IsSeenBy h) (hsound : d.directory.isSound = true)
    (hleads : h.store.Leads true d.root d.base) (hdir : h.store.IsDirectory d.base)
    (hfit : d.root.IsFit name) (hlink : ∀ target, h.store.seen (d.base ++ [name]) ≠ some (.link target)) :
    h.Leads (d.directory.child name) (d.base ++ [name]) := by
  rw [← hd] at hleads hfit
  exact .child hsound hleads hdir hfit.up hfit.short hfit.sound hfit.reachable hlink

theorem IsSeenBy.of_isAt (ha : l.IsAt d) (hl : l.Located h) : d.IsSeenBy h := by
  rw [IsSeenBy, ← ha.directory, ← ha.root]
  exact hl.directory

theorem leads_of_home (ha : l.IsAt d) (hh : l.Home s) : s.Leads true d.root d.base := by
  rw [← ha.root, ← ha.base]
  exact hh.directory

/-- The directory in which a session begins can be listed. -/
theorem isOrderly_made (ht : l.Tenable) (hl : l.Legible) (ha : l.IsAt d) {ms : List Marker}
    (hms : ((⟨l.directory⟩ : Instances).markers.exec l.made).1 = .ok ms) :
    d.IsOrderly l.made.store := by
  have hsound : d.directory.isSound = true := ha.directory ▸ ht.sound
  have hleads := leads_of_home ha ht.home
  have hdir : l.made.store.IsDirectory d.base := ha.base ▸ ht.isDirectory
  refine ⟨hsound, hleads, hdir, fun name hn => ?_⟩
  have hfit : d.root.IsFit name := ha.root ▸ hl.fit name (ha.base ▸ hn)
  have hlink : ∀ target, l.made.store.seen (d.base ++ [name]) ≠ some (.link target) :=
    ha.base ▸ hl.noLink name
  have hmade : d.IsSeenBy l.made := .of_isAt ha Lease.located_made
  rw [Lease.markers_eq ht Lease.located_made ht.home, ha.directory, ha.base] at hms
  obtain ⟨o, ho⟩ := finds_of_markersAmong hms name (Store.mem_names.mpr hn)
  refine ⟨hfit, hlink, fun h hs hd => ⟨o, ?_⟩⟩
  exact ho.of_seen (hmade.child_leads hsound hleads hdir hfit hlink)
    (hd.child_leads hsound (hs ▸ hleads) (hs ▸ hdir) hfit (hs ▸ hlink)) (by rw [hs])

namespace IsOrderly

/-- A name under which nothing has changed. -/
theorem knows_of_seen (ho : d.IsOrderly s) (hleads : t.Leads true d.root d.base)
    (hdir : t.IsDirectory d.base) (hseen : t.seen (d.base ++ [name]) = s.seen (d.base ++ [name]))
    (hn : t.seen (d.base ++ [name]) ≠ none) : d.Knows t name := by
  have hknown := ho.knows name (hseen ▸ hn)
  have hlink : ∀ target, t.seen (d.base ++ [name]) ≠ some (.link target) :=
    hseen ▸ hknown.noLink
  refine ⟨hknown.fit, hlink, fun h hs hd => ?_⟩
  let k : Host := { h with store := s }
  have hk : d.IsSeenBy k := hd
  obtain ⟨o, hfinds⟩ := hknown.finds k rfl hk
  exact ⟨o, hfinds.of_seen
    (hk.child_leads ho.sound ho.leads ho.isDirectory hknown.fit hknown.noLink)
    (hd.child_leads ho.sound (hs ▸ hleads) (hs ▸ hdir) hknown.fit (hs ▸ hlink))
    (by rw [hs]; exact hseen)⟩

/-- Nothing changes in the directory. -/
theorem of_seen (ho : d.IsOrderly s) (hleads : t.Leads true d.root d.base)
    (hseen : ∀ q, d.base <+: q → t.seen q = s.seen q) : d.IsOrderly t := by
  have hdir : t.IsDirectory d.base := by
    rw [Store.IsDirectory, hseen _ List.prefix_rfl]
    exact ho.isDirectory
  exact ⟨ho.sound, hleads, hdir, fun name hn =>
    ho.knows_of_seen hleads hdir (hseen _ (List.prefix_append _ _)) hn⟩

theorem knows_markName (ht : l.Tenable) (hl : l.Legible) (ha : l.IsAt d) (hs : l.Standing s) :
    d.Knows s l.markName where
  fit := ha.root ▸ ht.isFit (Marker.isProper_nameOf _)
  noLink target hlink := by
    have hmark := hs.mark
    rw [Lease.HasMark, Lease.markPlace, ha.base, hlink] at hmark
    cases hmark
  finds h he hd := by
    subst he
    rw [← ha.directory]
    exact ⟨_, Lease.finds_mark ht hl (ha.located hd) hs.home hs.mark⟩

theorem knows_copyName (ht : l.Tenable) (ha : l.IsAt d) (hs : l.Standing s) (hc : l.HasCopy s) :
    d.Knows s l.copyName := by
  obtain ⟨content, mode, kept, -, hfile⟩ := hc
  refine ⟨ha.root ▸ ht.isFit (Backup.isProper_copyName _), fun target hlink => ?_, fun h he hd => ?_⟩
  · rw [Lease.copyPlace, ha.base, hlink] at hfile
    cases hfile
  · subst he
    rw [← ha.directory]
    exact ⟨_, Lease.finds_copy ht (ha.located hd) hs.home (Or.inr ⟨content, kept, hfile⟩)⟩

/-- What a session does keeps the directory in order, whether it is under way or has ended. -/
theorem confined (ht : l.Tenable) (hl : l.Legible) (ha : l.IsAt d) (ho : d.IsOrderly s)
    (hc : l.Confined s t) (hs : l.Standing t ∨ ∀ q, l.Owns q → t.seen q = l.made.store.seen q) :
    d.IsOrderly t := by
  have hleads := ho.leads.of_sameWays hc.ways
  have hdir := hc.ways.isDirectory ho.isDirectory
  refine ⟨ho.sound, hleads, hdir, fun name hn => ?_⟩
  by_cases hown : l.Owns (d.base ++ [name])
  · have hne : d.base ++ [name] ≠ l.place :=
      (ht.ne_place (ha.base ▸ List.prefix_append _ _)).symm
    rcases hs with hs | hs
    · rcases hown with hplace | hmark | ⟨horiginal, hcopy⟩
      · exact absurd hplace hne
      · rw [Lease.markPlace, ha.base] at hmark
        obtain rfl := List.singleton_inj.mp (List.append_cancel_left hmark)
        exact knows_markName ht hl ha hs
      · rw [Lease.copyPlace, ha.base] at hcopy
        obtain rfl := List.singleton_inj.mp (List.append_cancel_left hcopy)
        exact knows_copyName ht ha hs (hs.copy.resolve_right horiginal)
    · rw [hs _ hown, ht.seen_made hown, if_neg hne] at hn
      exact absurd rfl hn
  · exact ho.knows_of_seen hleads hdir (hc.others _ hown) hn

/-- Whoever lists the markers finds the entry file of a session owned. -/
theorem isOwned (ht : l.Tenable) (hl : l.Legible) (ha : l.IsAt d) (ho : d.IsOrderly h.store)
    (hd : d.IsSeenBy h) (hs : l.Standing h.store) :
    ((Instances.isOwned ⟨d.directory⟩ l.entry).exec h).1 = .ok true := by
  have hfinds : ∀ name ∈ h.store.names d.base, ∃ o, Finds h d.directory name o :=
    fun name hn => (ho.knows name (Store.mem_names.mp hn)).finds h rfl hd
  obtain ⟨ms, logs, hexec, hmem⟩ := markersAmong_exec hfinds
  have hmarkers : (⟨d.directory⟩ : Instances).markers.exec h = (.ok ms, h.withLogs logs) := by
    have hleads := ho.leads
    rw [← hd] at hleads
    rw [markers_of_directory (Host.isDirectory_of_leads ho.sound hleads ho.isDirectory)
      (Host.names_of_leads ho.sound hleads ho.isDirectory)]
    exact hexec
  have hmark : l.marker ∈ ms := by
    refine (hmem _).mpr ⟨l.markName, Store.mem_names.mpr ?_, ?_⟩
    · rw [← ha.base, show h.store.seen (l.base ++ [l.markName]) = _ from hs.mark]
      exact Option.some_ne_none _
    · rw [← ha.directory]
      exact Lease.finds_mark ht hl (ha.located hd) hs.home hs.mark
  have hany : ms.any (fun m => m.entry.text = l.entry.text) = true :=
    List.any_eq_true.mpr ⟨l.marker, hmark, by simp [Lease.marker]⟩
  rw [isOwned_exec hmarkers, hany]

end IsOrderly
end Site
end Vitrine
