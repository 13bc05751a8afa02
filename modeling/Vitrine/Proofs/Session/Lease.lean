import Vitrine.Proofs.Files.Places
import Vitrine.Proofs.Instance.Names
import Vitrine.Proofs.Preview.Generation

/-!
# Leases

What a session may rely on and dispose of while it runs: its entry file, and the two names that it
gives out in the directory of markers, one for the copy of the entry file and one for its marker.
The predicates on stores say how far the session has come with them.
-/
namespace Vitrine

structure Lease where
  /-- The host before the session. -/
  start : Host
  /-- The directory of markers and copies, and its place. -/
  directory : Path
  base : Place
  /-- The entry file and its place. -/
  entry : Path
  place : Place
  workingDirectory : Path
  language : Preview.Language
  /-- The contents that may stand in the place of the entry file meanwhile. -/
  may : List UInt8 → Prop

namespace Lease

variable (l : Lease)

/-- The host with the directory of markers. -/
def made : Host := ((Work.makeDirectories l.directory).exec l.start).2

/-- The entry file before the session. -/
def original : Option Node := l.made.store.seen l.place

def copyName : String := Backup.copyName (l.start.issued + 1)

def copy : Path := l.directory.child l.copyName

def copyPlace : Place := l.base ++ [l.copyName]

/-- The backup that the session makes. -/
def backup : Option Backup :=
  match l.original with
  | some (.file content mode _) =>
    some ⟨l.entry, content, mode + 0o100000, l.workingDirectory, l.copy, l.start.now⟩
  | _ => none

/-- How many names are given out. -/
def count : Nat := if l.original.isSome then 2 else 1

def markName : String := Marker.nameOf (l.start.issued + l.count)

def markPlace : Place := l.base ++ [l.markName]

/-- The marker that the session leaves. -/
def marker : Marker where
  entry := l.entry
  workingDirectory := l.workingDirectory
  language := .str l.language.name
  createdAt := .str l.start.now
  file := l.directory.child l.markName
  processId := l.start.processId
  fileMode := match l.backup with
    | some b => .int b.mode
    | none => .null
  backup := l.backup.map (·.copy)

def markContent : List UInt8 := Text.toBytes (l.marker.toJson.write Json.spaced)

/-! ## What stores may look like -/

/-- The two paths lead where they should, and the entry file is a file or missing. -/
structure Home (s : Store) : Prop where
  directory : s.Leads true (l.start.absolute l.directory) l.base
  isDirectory : s.IsDirectory l.base
  entry : ∀ follow, s.Leads follow (l.start.absolute l.entry) l.place
  leaf : s.IsLeaf l.place

/-- Hosts on which the two paths mean the same as they did in the beginning. -/
structure Located (h : Host) : Prop where
  entry : h.absolute l.entry = l.start.absolute l.entry
  directory : h.absolute l.directory = l.start.absolute l.directory

/-- Names that lead somewhere in the directory of markers. -/
def IsFit (name : String) : Prop := (l.start.absolute l.directory).IsFit name

/-- All else in the directory of markers is as it was. -/
def Rest (s : Store) : Prop :=
  ∀ q, l.base <+: q → q ≠ l.copyPlace → q ≠ l.markPlace → s.seen q = l.made.store.seen q

def HasMark (s : Store) : Prop :=
  s.seen l.markPlace = some (.file l.markContent Node.fileMode (.counted 0))

/-- The copy has the content of the entry file. -/
def HasCopy (s : Store) : Prop :=
  ∃ content mode kept, l.original = some (.file content mode (.counted 0)) ∧
    s.seen l.copyPlace = some (.file content kept (.counted 0))

/-- The entry file is as it was. -/
def Untouched (s : Store) : Prop := s.seen l.place = l.original

/-- The entry file is missing, or it has a content that it may have. -/
def Replaced (s : Store) : Prop :=
  s.seen l.place = none ∨
    ∃ content mode, s.seen l.place = some (.file content mode (.counted 0)) ∧ l.may content

/-- The session has its marker and its backup, if there was anything to keep. -/
structure Occupied (s : Store) : Prop where
  home : l.Home s
  rest : l.Rest s
  mark : l.HasMark s
  copy : l.HasCopy s ∨ l.original = none ∧ s.seen l.copyPlace = none
  entry : l.original = none → l.Replaced s

/-- All that is needed to bring the entry file back is there. -/
def Kept (s : Store) : Prop :=
  l.HasCopy s ∨ s.seen l.copyPlace = none ∧ (l.Untouched s ∨ l.original = none ∧ l.Replaced s)

/-- The entry file is as it was, or it can be brought back from what the session has left. -/
def Safe (s : Store) : Prop :=
  l.start.store.Extends s ∧ s.Extends l.made.store ∨
  l.Home s ∧ l.Rest s ∧
    (s.seen l.markPlace = none ∧ s.IsLeaf l.copyPlace ∧ l.Untouched s ∨ l.HasMark s ∧ l.Kept s)

/-- What a session needs: its directory can be made, the two names that it gives out are free there
and lead where they should, and so does the entry file, which is a file or missing and lies
elsewhere. -/
structure Tenable : Prop where
  made : ((Work.makeDirectories l.directory).exec l.start).1 = .ok ()
  parts : l.directory.parts ≠ []
  sound : l.directory.isSound = true
  directory : l.made.store.Leads true (l.start.absolute l.directory) l.base
  isDirectory : l.made.store.IsDirectory l.base
  short : (l.start.absolute l.directory).text.utf8ByteSize + 56 ≤ Store.pathLimit
  copyPlace_free : l.made.store.seen l.copyPlace = none
  markPlace_free : l.made.store.seen l.markPlace = none
  entry : l.start.Leads l.entry l.place
  leaf : l.made.store.IsLeaf l.place
  /-- The permissions of the entry file are those of a file. -/
  mode : ∀ content mode, l.original = some (.file content mode (.counted 0)) → mode < 0o10000
  apart : ¬ l.base <+: l.place
  /-- Generated code may stand in the place of the entry file. -/
  allows : ∀ s, Preview.IsMarked s → l.may (Text.toBytes s)

variable {l} {s t : Store}

/-! ## The places -/

theorem copyPlace_ne_markPlace : l.copyPlace ≠ l.markPlace := by
  intro h
  exact Marker.copyName_ne_nameOf _ _ (List.singleton_inj.mp (List.append_cancel_left h))

theorem base_isPrefix_copyPlace : l.base <+: l.copyPlace := List.prefix_append _ _

theorem base_isPrefix_markPlace : l.base <+: l.markPlace := List.prefix_append _ _

theorem grows : l.start.Grows l.made := Work.makeDirectories_grows l.directory l.start

theorem located_of (h : Host) (hd : h.workingDirectory = l.start.workingDirectory) : l.Located h := by
  constructor
  · rw [Host.absolute, hd]
    rfl
  · rw [Host.absolute, hd]
    rfl

theorem Located.of_eq {h k : Host} (hl : l.Located h)
    (hk : k.workingDirectory = h.workingDirectory) : l.Located k := by
  constructor
  · rw [Host.absolute, hk]
    exact hl.entry
  · rw [Host.absolute, hk]
    exact hl.directory

theorem workingDirectory_made : l.made.workingDirectory = l.start.workingDirectory := by
  obtain ⟨cs, hk, -⟩ := (grows (l := l)).eq
  rw [hk]

namespace Tenable

variable (ht : l.Tenable)
include ht

theorem ne_place {q : Place} (hq : l.base <+: q) : l.place ≠ q := by
  rintro rfl
  exact ht.apart hq

theorem home : l.Home l.made.store :=
  ⟨ht.directory, ht.isDirectory, fun follow => (ht.entry.leads follow).of_extends grows.extends,
    ht.leaf⟩

/-- The entry file was there before the directory of markers. -/
theorem seen_start : l.start.store.seen l.place = l.original :=
  (grows.extends.seen_eq ht.leaf.not_isDirectory).symm

/-- The names that are given out lead somewhere. -/
theorem isFit {name : String} (hn : Path.IsProper name) : l.IsFit name where
  up := hn.up
  short := by
    have hlimit : 55 ≤ Store.nameLimit := by decide
    exact Nat.le_trans hn.short hlimit
  sound := hn.sound
  reachable := by
    have hshort := ht.short
    have hchild := (l.start.absolute l.directory).text_child_le name
    have hname := hn.short
    omega

theorem original_cases : l.original = none ∨ ∃ content mode,
    l.original = some (.file content mode (.counted 0)) := ht.leaf

end Tenable

/-! ## Homes -/

theorem Home.of_sameWays (hh : l.Home s) (hw : Store.SameWays s t) : l.Home t :=
  ⟨hh.directory.of_sameWays hw, hw.isDirectory hh.isDirectory,
    fun follow => (hh.entry follow).of_sameWays hw, hw.isLeaf hh.leaf⟩

namespace Home

variable {h : Host}

theorem entry_leads (hh : l.Home h.store) (ht : l.Tenable) (hd : l.Located h) :
    h.Leads l.entry l.place := by
  refine ⟨ht.entry.sound, fun follow => ?_⟩
  rw [hd.entry]
  exact hh.entry follow

/-- A name in the directory of markers leads to its place. -/
theorem child_leads (hh : l.Home h.store) (ht : l.Tenable) (hd : l.Located h) {name : String}
    (hn : l.IsFit name) (hlink : ∀ target, h.store.seen (l.base ++ [name]) ≠ some (.link target)) :
    h.Leads (l.directory.child name) (l.base ++ [name]) := by
  refine .child ht.sound ?_ hh.isDirectory hn.up hn.short hn.sound ?_ hlink
  · rw [hd.directory]
    exact hh.directory
  · rw [hd.directory]
    exact hn.reachable

theorem copy_leads (hh : l.Home h.store) (ht : l.Tenable) (hd : l.Located h)
    (hleaf : h.store.IsLeaf l.copyPlace) : h.Leads l.copy l.copyPlace :=
  hh.child_leads ht hd (ht.isFit (Backup.isProper_copyName _)) fun _ hlink => hleaf.ne_link hlink

theorem mark_leads (hh : l.Home h.store) (ht : l.Tenable) (hd : l.Located h)
    (hleaf : h.store.IsLeaf l.markPlace) : h.Leads l.marker.file l.markPlace :=
  hh.child_leads ht hd (ht.isFit (Marker.isProper_nameOf _)) fun _ hlink => hleaf.ne_link hlink

/-- A change that redirects no path to the session is not seen elsewhere in the directory of
markers. -/
theorem seen_apply_base {c : Change} (hh : l.Home (c.apply s)) (hc : ¬ l.base <+: c.place)
    {q : Place} (hq : l.base <+: q) : (c.apply s).seen q = s.seen q := by
  have hne : q ≠ c.place := by
    rintro rfl
    exact hc hq
  rcases c.seen_apply_of_ne s hne with h | ⟨hp, hgone⟩
  · exact h
  · obtain ⟨mode, hm⟩ := hh.isDirectory
    have hbase : l.base ≠ [] := by
      intro h0
      exact hc (h0 ▸ List.nil_prefix)
    rcases List.prefix_or_prefix_of_prefix hp hq with hp | hp
    · rw [hgone l.base hbase hp] at hm
      cases hm
    · exact absurd hp hc

/-- Nor is it seen at the entry file, if it happens elsewhere. -/
theorem seen_apply_place {c : Change} (hh : l.Home (c.apply s)) (hc : ¬ l.base <+: c.place)
    (hne : l.place ≠ c.place) : (c.apply s).seen l.place = s.seen l.place := by
  rcases c.seen_apply_of_ne s hne with h | ⟨hp, hgone⟩
  · exact h
  · have hway := (hh.entry true).arrives.isWay (Store.isWay_root _)
    have hparent : c.place <+: l.place.dropLast := by
      obtain ⟨rest, hr⟩ := hp
      have hrest : rest ≠ [] := by
        rintro rfl
        rw [List.append_nil] at hr
        exact hne hr.symm
      rw [← hr, List.dropLast_append_of_ne_nil hrest]
      exact List.prefix_append _ _
    by_cases h0 : l.place.dropLast = []
    · rw [h0, List.prefix_nil] at hparent
      rw [hparent] at hgone hc
      obtain ⟨mode, hm⟩ := hh.isDirectory
      have hbase : l.base ≠ [] := fun h => hc (h ▸ List.nil_prefix)
      rw [hgone l.base hbase List.nil_prefix] at hm
      cases hm
    · obtain ⟨mode, hm⟩ := hway _ List.prefix_rfl
      rw [hgone _ h0 hparent] at hm
      cases hm

end Home

theorem Rest.of_differsAt (hr : l.Rest s) {p : Place} (hd : Store.DiffersAt p s t)
    (hp : p = l.copyPlace ∨ p = l.markPlace ∨ ¬ l.base <+: p) : l.Rest t := by
  intro q hq hc hm
  have hne : q ≠ p := by
    rintro rfl
    rcases hp with h | h | h
    · exact hc h
    · exact hm h
    · exact h hq
  rw [hd.others q hne, hr q hq hc hm]

/-! ## Occupied stores -/

namespace Occupied

theorem safe (ho : l.Occupied s) : l.Safe s := by
  refine Or.inr ⟨ho.home, ho.rest, Or.inr ⟨ho.mark, ?_⟩⟩
  rcases ho.copy with hc | ⟨hn, hc⟩
  · exact Or.inl hc
  · exact Or.inr ⟨hc, Or.inr ⟨hn, ho.entry hn⟩⟩

/-- The entry file changes. -/
theorem of_differsAt (ht : l.Tenable) (ho : l.Occupied s) (hd : Store.DiffersAt l.place s t)
    (he : l.original = none → l.Replaced t) : l.Occupied t := by
  have hmark := hd.others l.markPlace (ht.ne_place base_isPrefix_markPlace).symm
  have hcopy := hd.others l.copyPlace (ht.ne_place base_isPrefix_copyPlace).symm
  refine ⟨ho.home.of_sameWays hd.ways, ho.rest.of_differsAt hd (Or.inr (Or.inr ht.apart)), ?_, ?_,
    he⟩
  · rw [HasMark, hmark]
    exact ho.mark
  · rw [HasCopy, hcopy]
    exact ho.copy

/-- Something changes outside the directory of markers. -/
theorem apply (ho : l.Occupied s) {c : Change} (hh : l.Home (c.apply s))
    (hc : ¬ l.base <+: c.place) (hown : c.place = l.place → l.Replaced (c.apply s)) :
    l.Occupied (c.apply s) := by
  have hbase := fun q => hh.seen_apply_base hc (q := q)
  refine ⟨hh, fun q hq hqc hqm => ?_, ?_, ?_, fun hn => ?_⟩
  · rw [hbase q hq, ho.rest q hq hqc hqm]
  · rw [HasMark, hbase _ base_isPrefix_markPlace]
    exact ho.mark
  · rw [HasCopy, hbase _ base_isPrefix_copyPlace]
    exact ho.copy
  · by_cases hp : c.place = l.place
    · exact hown hp
    · have hplace := hh.seen_apply_place hc (Ne.symm hp)
      rw [Replaced, hplace]
      exact ho.entry hn

end Occupied

end Lease
end Vitrine
