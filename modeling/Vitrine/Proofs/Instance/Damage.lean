import Vitrine.Proofs.Instance.Listing
import Vitrine.Proofs.Outcome
import Vitrine.Proofs.Preview.Rendering

/-!
# Damaged markers

Which contents of a marker file are read, which are passed over, and which end a listing: JSON that is
no object, and an object whose process is a number without end. A listing goes through the names of a
directory up to the first one that ends it (`markersAmong_ends`).
-/
namespace Vitrine

namespace Marker

variable {file : Path} {j : Json} {m : Marker} {f : Fault}

/-- What a JSON value says about a marker, but for where the marker is kept. -/
structure Describes (j : Json) (m : Marker) : Prop where
  object : ∃ members, j = .object members
  entry : ∃ text, j.member? "indexFilename" = some (.str text) ∧ m.entry = Path.ofText text
  workingDirectory : ∃ text, memberOr (.str "") j "workingDirectory" = .str text ∧
    m.workingDirectory = Path.ofText text
  processId : processIdOf (memberOr .null j "pid") = .ok m.processId
  backup : backupOf (memberOr .null j "backupFile") = .ok m.backup
  language : m.language = memberOr (.str "") j "language"
  createdAt : m.createdAt = memberOr (.str "") j "createdAt"
  fileMode : m.fileMode = memberOr .null j "fileMode"

/-- A marker may be kept anywhere. -/
theorem Describes.moved (h : Describes j m) (file : Path) : Describes j { m with file } :=
  ⟨h.object, h.entry, h.workingDirectory, h.processId, h.backup, h.language, h.createdAt, h.fileMode⟩

/-- Values whose reading ends in a fault that no marker is passed over for. -/
inductive Obstructs (j : Json) : Fault → Prop
  | noObject (other : ∀ members, j ≠ .object members) : Obstructs j .attribute
  | endless {members : List (String × Json)} {entry directory : String} {x : Float}
      (object : j = .object members)
      (named : j.member? "indexFilename" = some (.str entry))
      (located : memberOr (.str "") j "workingDirectory" = .str directory)
      (processId : memberOr .null j "pid" = .float x) (nonzero : isVoid (.float x) = false)
      (unbounded : Decimal.Binary.ofFloat? x = none) (number : (x == x) = true) :
      Obstructs j .overflow

theorem pathOf_eq_ok {p : Path} : pathOf j = .ok p ↔ ∃ text, j = .str text ∧ p = Path.ofText text := by
  constructor
  · intro h
    cases j with
    | str text => exact ⟨text, rfl, (Except.ok.inj h).symm⟩
    | _ => cases h
  · rintro ⟨text, rfl, rfl⟩
    rfl

theorem pathOf_fault (h : pathOf j = .error f) : f = .type := by
  cases j with
  | str text => cases h
  | _ => exact (Except.error.inj h).symm

theorem backupOf_fault (h : backupOf j = .error f) : f = .type := by
  rw [backupOf] at h
  split at h
  · cases h
  · cases hp : pathOf j with
    | error g =>
      rw [hp] at h
      cases h
      exact pathOf_fault hp
    | ok p =>
      rw [hp] at h
      cases h

/-- Of the numbers that no process has, only those without end are not passed over. -/
theorem processIdOf_fault (h : processIdOf j = .error f) (hf : isSkipped f = false) :
    f = .overflow ∧ ∃ x, j = .float x ∧ isVoid (.float x) = false ∧
      Decimal.Binary.ofFloat? x = none ∧ (x == x) = true := by
  rw [processIdOf] at h
  split at h
  · cases h
  · next hvoid =>
    cases j with
    | float x =>
      rw [numberOf] at h
      split at h
      · cases h
      · next hnone =>
        cases h
        split at hf
        · next hx =>
          rw [if_pos hx]
          exact ⟨rfl, x, rfl, Bool.eq_false_iff.mpr hvoid, hnone, hx⟩
        · cases hf
    | str s =>
      rw [numberOf] at h
      split at h
      · cases h
      · cases h
        cases hf
    | int n => cases h
    | bool b => cases h
    | null => exact absurd rfl hvoid
    | array items =>
      cases h
      cases hf
    | object members =>
      cases h
      cases hf

/-- The marker that an object describes, its members being read one after the other. -/
theorem ofJson_object (members : List (String × Json)) :
    ofJson file (.object members) =
      (match (Json.object members).member? "indexFilename" with
        | some e => pathOf e
        | none => .error .key).bind fun entry =>
      (pathOf (memberOr (.str "") (.object members) "workingDirectory")).bind fun workingDirectory =>
      (processIdOf (memberOr .null (.object members) "pid")).bind fun processId =>
      (backupOf (memberOr .null (.object members) "backupFile")).bind fun backup =>
      .ok {
        entry, workingDirectory, file, processId, backup
        language := memberOr (.str "") (.object members) "language"
        createdAt := memberOr (.str "") (.object members) "createdAt"
        fileMode := memberOr .null (.object members) "fileMode" } := by
  rw [ofJson]
  cases (Json.object members).member? "indexFilename" <;> rfl

theorem ofJson_noObject (h : ∀ members, j ≠ .object members) : ofJson file j = .error .attribute := by
  cases j with
  | object members => exact absurd rfl (h members)
  | _ => rfl

theorem ofJson_eq_ok : ofJson file j = .ok m ↔ Describes j m ∧ m.file = file := by
  by_cases hobject : ∃ members, j = .object members
  · obtain ⟨members, rfl⟩ := hobject
    rw [ofJson_object]
    constructor
    · intro h
      obtain ⟨entry, hentry, h⟩ := bind_eq_ok.mp h
      obtain ⟨directory, hdirectory, h⟩ := bind_eq_ok.mp h
      obtain ⟨processId, hprocess, h⟩ := bind_eq_ok.mp h
      obtain ⟨backup, hbackup, h⟩ := bind_eq_ok.mp h
      cases h
      refine ⟨⟨⟨members, rfl⟩, ?_, pathOf_eq_ok.mp hdirectory, hprocess, hbackup, rfl, rfl, rfl⟩, rfl⟩
      cases hmember : (Json.object members).member? "indexFilename" with
      | none =>
        rw [hmember] at hentry
        cases hentry
      | some e =>
        rw [hmember] at hentry
        obtain ⟨text, rfl, hpath⟩ := pathOf_eq_ok.mp hentry
        exact ⟨text, rfl, hpath⟩
    · rintro ⟨hd, rfl⟩
      obtain ⟨text, hmember, hentry⟩ := hd.entry
      rw [hmember]
      refine bind_eq_ok.mpr ⟨m.entry, pathOf_eq_ok.mpr ⟨text, rfl, hentry⟩, ?_⟩
      refine bind_eq_ok.mpr ⟨m.workingDirectory, pathOf_eq_ok.mpr hd.workingDirectory, ?_⟩
      refine bind_eq_ok.mpr ⟨m.processId, hd.processId, bind_eq_ok.mpr ⟨m.backup, hd.backup, ?_⟩⟩
      rw [← hd.language, ← hd.createdAt, ← hd.fileMode]
  · have hother : ∀ members, j ≠ .object members := fun members h => hobject ⟨members, h⟩
    rw [ofJson_noObject hother]
    constructor
    · intro h
      cases h
    · intro h
      exact absurd h.1.object hobject

/-- A value obstructs exactly if its reading ends in a fault that no marker is passed over for. -/
theorem obstructs_iff (file : Path) : Obstructs j f ↔ ofJson file j = .error f ∧ isSkipped f = false := by
  constructor
  · rintro (hother | @⟨members, entry, directory, x, rfl, hentry, hdirectory, hprocess, hvoid, hnone,
      hnumber⟩)
    · exact ⟨ofJson_noObject hother, rfl⟩
    · have hfault : processIdOf (.float x) = .error .overflow := by
        rw [processIdOf, hvoid, if_neg Bool.false_ne_true, numberOf, hnone]
        dsimp only
        rw [if_pos hnumber]
      rw [ofJson_object, hentry, hdirectory, hprocess, hfault]
      exact ⟨rfl, rfl⟩
  · rintro ⟨h, hf⟩
    by_cases hobject : ∃ members, j = .object members
    · obtain ⟨members, rfl⟩ := hobject
      have htype : ∀ {k : Json} {g : Fault}, pathOf k = .error g → g ≠ f := by
        rintro k g hk rfl
        rw [pathOf_fault hk] at hf
        cases hf
      rw [ofJson_object] at h
      obtain h | ⟨entry, hentry, h⟩ := bind_eq_error.mp h
      · split at h
        · exact absurd rfl (htype h)
        · cases h
          cases hf
      obtain h | ⟨directory, hdirectory, h⟩ := bind_eq_error.mp h
      · exact absurd rfl (htype h)
      obtain h | ⟨processId, -, h⟩ := bind_eq_error.mp h
      · obtain ⟨rfl, x, hx, hvoid, hnone, hnumber⟩ := processIdOf_fault h hf
        obtain ⟨text, htext, -⟩ := pathOf_eq_ok.mp hdirectory
        split at hentry
        · next e hmember =>
          obtain ⟨name, rfl, -⟩ := pathOf_eq_ok.mp hentry
          exact .endless rfl hmember htext hx hvoid hnone hnumber
        · cases hentry
      obtain h | ⟨backup, -, h⟩ := bind_eq_error.mp h
      · rw [backupOf_fault h] at hf
        cases hf
      · cases h
    · have hother : ∀ members, j ≠ .object members := fun members h => hobject ⟨members, h⟩
      rw [ofJson_noObject hother] at h
      cases h
      exact .noObject hother

/-! ## The content of a marker file -/

/-- The JSON value that the content of a file reads as. -/
def Spells (content : List UInt8) (j : Json) : Prop :=
  ∃ text, Text.ofFile? content = some text ∧ Json.read true text = .ok j

variable {content : List UInt8}

theorem Spells.ofContent (h : Spells content j) :
    ofContent file content = (ofJson file j).mapError Trouble.ofFault := by
  obtain ⟨text, htext, hread⟩ := h
  rw [Marker.ofContent, htext]
  show ofText file text = _
  rw [ofText, hread]
  dsimp only
  cases ofJson file j <;> rfl

/-- A content that reads as no JSON value is passed over. -/
theorem skipped_of_not_spells (file : Path) (h : ∀ j, ¬ Spells content j) :
    ∃ reason, ofContent file content = .error (.skipped reason) := by
  cases htext : Text.ofFile? content with
  | none => exact ⟨_, by rw [ofContent, htext]; rfl⟩
  | some text =>
    cases hread : Json.read true text with
    | ok j => exact absurd ⟨text, htext, hread⟩ (h j)
    | error e =>
      have hcontent : ofContent file content = .error (Trouble.ofReadError e) := by
        rw [ofContent, htext]
        show ofText file text = _
        rw [ofText, hread]
      rw [hcontent]
      cases e <;> exact ⟨_, rfl⟩

/-- A content ends the listing of markers in a fault exactly if the value that it reads as obstructs. -/
theorem ofContent_fault :
    ofContent file content = .error (.fault f) ↔ ∃ j, Spells content j ∧ Obstructs j f := by
  constructor
  · intro h
    by_cases hspells : ∃ j, Spells content j
    · obtain ⟨j, hj⟩ := hspells
      rw [hj.ofContent] at h
      refine ⟨j, hj, (obstructs_iff file).mpr ?_⟩
      cases hread : ofJson file j with
      | ok m =>
        rw [hread] at h
        cases h
      | error g =>
        rw [hread] at h
        have hg : Trouble.ofFault g = .fault f := Except.error.inj h
        rw [Trouble.ofFault] at hg
        split at hg
        · cases hg
        · next hs =>
          cases hg
          exact ⟨rfl, Bool.eq_false_iff.mpr hs⟩
    · obtain ⟨reason, hr⟩ := skipped_of_not_spells file fun j hj => hspells ⟨j, hj⟩
      rw [hr] at h
      cases h
  · rintro ⟨j, hj, ho⟩
    obtain ⟨hread, hf⟩ := (obstructs_iff file).mp ho
    rw [hj.ofContent, hread]
    show Except.error (Trouble.ofFault f) = _
    rw [Trouble.ofFault, hf, if_neg Bool.false_ne_true]

/-- A content is read as the marker that it describes. -/
theorem ofContent_eq_ok : ofContent file content = .ok m ↔
    ∃ j, Spells content j ∧ Describes j m ∧ m.file = file := by
  constructor
  · intro h
    by_cases hspells : ∃ j, Spells content j
    · obtain ⟨j, hj⟩ := hspells
      rw [hj.ofContent] at h
      refine ⟨j, hj, ofJson_eq_ok.mp ?_⟩
      cases hread : ofJson file j with
      | ok m' =>
        rw [hread] at h
        cases h
        rfl
      | error g =>
        rw [hread] at h
        cases h
    · obtain ⟨reason, hr⟩ := skipped_of_not_spells file fun j hj => hspells ⟨j, hj⟩
      rw [hr] at h
      cases h
  · rintro ⟨j, hj, hm⟩
    rw [hj.ofContent, ofJson_eq_ok.mpr hm]
    rfl

end Marker

namespace Instances

open Work

variable {h : Host} {directory : Path} {name : String} {names : List String}

/-! ## What a listing meets -/

/-- What a name in a directory is to a listing of the markers there. -/
inductive Sighting where
  | nothing
  /-- A marker file that is passed over with a warning. -/
  | unreadable (file : Path) (reason : String)
  | marker (m : Marker)

namespace Sighting

def marker? : Sighting → Option Marker
  | marker m => some m
  | _ => none

def warning? : Sighting → Option LogEntry
  | unreadable file reason =>
    some ⟨.warning, "Ignoring unreadable marker " ++ file.text ++ ": " ++ reason⟩
  | _ => none

end Sighting

/-- What is met under a name. A marker file is passed over if its content neither describes a marker
nor obstructs. -/
inductive Meets (h : Host) (directory : Path) (name : String) : Sighting → Prop
  | nothing {isFile : Bool} (file : h.isNode Node.isFile (directory.child name) = .ok isFile)
      (other : isFile = true → Marker.isName name = false) : Meets h directory name .nothing
  | unreadable {content : List UInt8} {reason : String}
      (file : h.isNode Node.isFile (directory.child name) = .ok true)
      (named : Marker.isName name = true) (bytes : h.bytes (directory.child name) = .ok content)
      (undescribed : ∀ j m, Marker.Spells content j → ¬ Marker.Describes j m)
      (unobstructed : ∀ j f, Marker.Spells content j → ¬ Marker.Obstructs j f)
      (why : Marker.ofContent (directory.child name) content = .error (.skipped reason)) :
      Meets h directory name (.unreadable (directory.child name) reason)
  | marker {content : List UInt8} {j : Json} {m : Marker}
      (file : h.isNode Node.isFile (directory.child name) = .ok true)
      (named : Marker.isName name = true) (bytes : h.bytes (directory.child name) = .ok content)
      (spells : Marker.Spells content j) (describes : Marker.Describes j m)
      (kept : m.file = directory.child name) : Meets h directory name (.marker m)

/-- A name that ends a listing in an error: its path cannot be looked at, or it is the name of a marker
file whose content obstructs. -/
inductive Halts (h : Host) (directory : Path) (name : String) : Error → Prop
  | unreachable {e : Error} (file : h.isNode Node.isFile (directory.child name) = .error e) :
      Halts h directory name e
  | obstructed {content : List UInt8} {j : Json} {f : Fault}
      (file : h.isNode Node.isFile (directory.child name) = .ok true)
      (named : Marker.isName name = true) (bytes : h.bytes (directory.child name) = .ok content)
      (spells : Marker.Spells content j) (obstructs : Marker.Obstructs j f) :
      Halts h directory name (.fault f)

/-- Every name ends a listing, or is met in one way or another. -/
theorem meets_or_halts (h : Host) (directory : Path) (name : String) :
    (∃ s, Meets h directory name s) ∨ ∃ e, Halts h directory name e := by
  cases hfile : h.isNode Node.isFile (directory.child name) with
  | error e => exact Or.inr ⟨e, .unreachable hfile⟩
  | ok isFile =>
    by_cases hname : isFile = true ∧ Marker.isName name = true
    · obtain ⟨rfl, hname⟩ := hname
      obtain ⟨content, hbytes⟩ := bytes_of_isFile hfile
      cases hread : Marker.ofContent (directory.child name) content with
      | ok m =>
        obtain ⟨j, hj, hd, hkept⟩ := Marker.ofContent_eq_ok.mp hread
        exact Or.inl ⟨_, .marker hfile hname hbytes hj hd hkept⟩
      | error trouble =>
        cases trouble with
        | fault f =>
          obtain ⟨j, hj, ho⟩ := Marker.ofContent_fault.mp hread
          exact Or.inr ⟨_, .obstructed hfile hname hbytes hj ho⟩
        | skipped reason =>
          refine Or.inl ⟨_, .unreadable hfile hname hbytes (fun j m hj hd => ?_)
            (fun j f hj ho => ?_) hread⟩
          · have hm := Marker.ofContent_eq_ok.mpr ⟨j, hj, hd.moved (directory.child name), rfl⟩
            rw [hread] at hm
            cases hm
          · have hf : Marker.ofContent (directory.child name) content = .error (.fault f) :=
              Marker.ofContent_fault.mpr ⟨j, hj, ho⟩
            rw [hread] at hf
            cases hf
    · refine Or.inl ⟨_, .nothing hfile fun ht => ?_⟩
      rw [← Bool.not_eq_true]
      exact fun hn => hname ⟨ht, hn⟩

/-- No name does both. -/
theorem Halts.not_meets {e : Error} (he : Halts h directory name e) (s : Sighting) :
    ¬ Meets h directory name s := by
  intro hs
  cases he with
  | unreachable file => cases hs <;> simp_all
  | obstructed file named bytes spells obstructs =>
    cases hs with
    | nothing file' other =>
      rw [file] at file'
      rw [other (Except.ok.inj file').symm] at named
      cases named
    | unreadable file' named' bytes' undescribed unobstructed why =>
      rw [bytes] at bytes'
      cases bytes'
      exact unobstructed _ _ spells obstructs
    | marker file' named' bytes' spells' describes kept =>
      rw [bytes] at bytes'
      cases bytes'
      have hm := Marker.ofContent_eq_ok.mpr ⟨_, spells', describes, kept⟩
      rw [Marker.ofContent_fault.mpr ⟨_, spells, obstructs⟩] at hm
      cases hm

/-! ## Going through the names -/

theorem Meets.withLogs {s : Sighting} (hs : Meets h directory name s) (logs : List LogEntry) :
    Meets (h.withLogs logs) directory name s := by
  cases hs with
  | nothing file other => exact .nothing file other
  | unreadable file named bytes undescribed unobstructed why =>
    exact .unreadable file named bytes undescribed unobstructed why
  | marker file named bytes spells describes kept =>
    exact .marker file named bytes spells describes kept

/-- A listing goes on after a name that does not end it. -/
theorem Meets.cons {s : Sighting} (hs : Meets h directory name s) (names : List String) :
    (markersAmong directory (name :: names)).exec h =
      (markersAmong directory names >>= fun ms => pure (s.marker?.toList ++ ms) : Work _).exec
        (h.withLogs (h.logs ++ s.warning?.toList)) := by
  cases hs with
  | nothing file other =>
    rw [markersAmong_cons_nothing file other]
    show _ = (markersAmong directory names >>= pure).exec (h.withLogs (h.logs ++ []))
    rw [bind_pure, List.append_nil]
    rfl
  | unreadable file named bytes undescribed unobstructed why =>
    rw [markersAmong_cons_read file named bytes, why]
    show (warn _ >>= fun _ => markersAmong directory names).exec h =
      (markersAmong directory names >>= pure).exec _
    rw [exec_bind_ok (exec_warn _ h), bind_pure]
    rfl
  | marker file named bytes spells describes kept =>
    rw [markersAmong_cons_read file named bytes, Marker.ofContent_eq_ok.mpr ⟨_, spells, describes, kept⟩]
    show (markersAmong directory names >>= fun ms => pure (_ :: ms)).exec h =
      (markersAmong directory names >>= fun ms => pure (_ :: ms)).exec (h.withLogs (h.logs ++ []))
    rw [List.append_nil]
    rfl

/-- A listing goes through the names that do not end it, one after the other. -/
theorem markersAmong_meets {sights : List Sighting}
    (hall : List.Forall₂ (Meets h directory) names sights) (rest : List String)
    (logs : List LogEntry) :
    (markersAmong directory (names ++ rest)).exec (h.withLogs logs) =
      (markersAmong directory rest >>= fun ms =>
        pure (sights.filterMap Sighting.marker? ++ ms) : Work _).exec
        (h.withLogs (logs ++ sights.filterMap Sighting.warning?)) := by
  induction hall generalizing logs with
  | nil =>
    show _ = (markersAmong directory rest >>= pure).exec (h.withLogs (logs ++ []))
    rw [bind_pure, List.append_nil]
    rfl
  | @cons name s names sights hs _ ih =>
    have hcons : (markersAmong directory (name :: (names ++ rest))).exec (h.withLogs logs) =
        (markersAmong directory (names ++ rest) >>= fun ms => pure (s.marker?.toList ++ ms) :
          Work _).exec (h.withLogs (logs ++ s.warning?.toList)) := (hs.withLogs logs).cons _
    rw [List.cons_append, hcons, exec_bind_congr (ih _), bind_assoc, List.append_assoc]
    cases s <;> rfl

theorem Halts.exec {e : Error} (he : Halts h directory name e) (rest : List String) :
    (markersAmong directory (name :: rest)).exec h = (.error e, h) := by
  cases he with
  | unreachable file =>
    have hlook : (Work.isFile (directory.child name)).exec h = (.error e, h) := by
      rw [Work.isFile, exec_look, file]
    rw [markersAmong, exec_bind_error hlook]
  | obstructed file named bytes spells obstructs =>
    rw [markersAmong_cons_read file named bytes, Marker.ofContent_fault.mpr ⟨_, spells, obstructs⟩]
    rfl

theorem Halts.withLogs {e : Error} (he : Halts h directory name e) (logs : List LogEntry) :
    Halts (h.withLogs logs) directory name e := by
  cases he with
  | unreachable file => exact .unreachable file
  | obstructed file named bytes spells obstructs =>
    exact .obstructed file named bytes spells obstructs

/-- A listing goes through all names, or up to the first one that ends it. -/
theorem all_meet_or_halts (h : Host) (directory : Path) (names : List String) :
    (∃ sights, List.Forall₂ (Meets h directory) names sights) ∨
      ∃ before name after sights e, names = before ++ name :: after ∧
        List.Forall₂ (Meets h directory) before sights ∧ Halts h directory name e := by
  induction names with
  | nil => exact Or.inl ⟨[], .nil⟩
  | cons name names ih =>
    obtain ⟨s, hs⟩ | ⟨e, he⟩ := meets_or_halts h directory name
    · obtain ⟨sights, hall⟩ | ⟨before, other, after, sights, e, rfl, hall, he⟩ := ih
      · exact Or.inl ⟨s :: sights, .cons hs hall⟩
      · exact Or.inr ⟨name :: before, other, after, s :: sights, e, rfl, .cons hs hall, he⟩
    · exact Or.inr ⟨[], name, names, [], e, rfl, .nil, he⟩

/-! ## The whole directory -/

variable {i : Instances}

theorem names_of_isDirectory {p : Path} (hd : h.isNode Node.isDirectory p = .ok true) :
    ∃ names, h.names p = .ok names := by
  rw [Host.isNode] at hd
  rw [Host.names]
  cases hn : h.node p with
  | error e =>
    rw [hn] at hd
    dsimp only at hd
    split at hd <;> cases hd
  | ok found =>
    obtain ⟨q, n⟩ := found
    rw [hn] at hd
    cases n with
    | directory mode changed => exact ⟨h.store.names q, rfl⟩
    | file content mode changed => cases hd
    | link target => cases hd

/-- The names that a listing of the markers goes through. -/
inductive Shows (i : Instances) (h : Host) : List String → Prop
  | absent (missing : h.isNode Node.isDirectory i.directory = .ok false) : Shows i h []
  | directory {names : List String} (there : h.isNode Node.isDirectory i.directory = .ok true)
      (listed : h.names i.directory = .ok names) : Shows i h names

/-- How a listing of the markers ends, and the warnings on the way. -/
inductive Lists (i : Instances) (h : Host) : Result (List Marker) → List LogEntry → Prop
  | unreachable {e : Error} (missing : h.isNode Node.isDirectory i.directory = .error e) :
      Lists i h (.error e) []
  /-- The markers under the names, in the order of the names. -/
  | complete {names : List String} {sights : List Sighting} (shows_ : i.Shows h names)
      (meets : List.Forall₂ (Meets h i.directory) names sights) :
      Lists i h (.ok (sights.filterMap Sighting.marker?)) (sights.filterMap Sighting.warning?)
  /-- The error of the first name that ends the listing. -/
  | halted {before after : List String} {name : String} {sights : List Sighting} {e : Error}
      (shows_ : i.Shows h (before ++ name :: after))
      (meets : List.Forall₂ (Meets h i.directory) before sights)
      (halts : Halts h i.directory name e) :
      Lists i h (.error e) (sights.filterMap Sighting.warning?)

theorem Shows.exec (hs : i.Shows h names) : i.markers.exec h = (markersAmong i.directory names).exec h := by
  cases hs with
  | absent missing => exact markers_of_absent missing
  | directory there listed => exact markers_of_directory there listed

/-- Names are gone through in their order. -/
theorem Shows.sorted (hs : i.Shows h names) : names.Pairwise (· ≤ ·) := by
  cases hs with
  | absent missing => exact .nil
  | directory there listed =>
    rw [Host.names] at listed
    split at listed
    · cases listed
      exact h.store.sorted_names _
    · cases listed
    · cases listed

theorem lists_exists (i : Instances) (h : Host) : ∃ r warnings, i.Lists h r warnings := by
  have hgo : ∀ {names}, i.Shows h names → ∃ r warnings, i.Lists h r warnings := by
    intro names hs
    obtain ⟨sights, hall⟩ | ⟨before, name, after, sights, e, rfl, hall, he⟩ :=
      all_meet_or_halts h i.directory names
    · exact ⟨_, _, .complete hs hall⟩
    · exact ⟨_, _, .halted hs hall he⟩
  cases hd : h.isNode Node.isDirectory i.directory with
  | error e => exact ⟨_, _, .unreachable hd⟩
  | ok there =>
    cases there with
    | false => exact hgo (.absent hd)
    | true =>
      cases hn : h.names i.directory with
      | ok names => exact hgo (.directory hd hn)
      | error e =>
        obtain ⟨names, hn'⟩ := names_of_isDirectory hd
        rw [hn] at hn'
        cases hn'

/-- A listing of the markers ends as its names say, and nothing but the log changes. -/
theorem Lists.exec {r : Result (List Marker)} {warnings : List LogEntry}
    (hl : i.Lists h r warnings) : i.markers.exec h = (r, h.withLogs (h.logs ++ warnings)) := by
  cases hl with
  | @unreachable e missing =>
    have hlook : (Work.isDirectory i.directory).exec h = (.error e, h) := by
      rw [Work.isDirectory, exec_look, missing]
    rw [markers, exec_bind_error hlook, List.append_nil]
    rfl
  | complete shows_ meets =>
    have hgo := markersAmong_meets meets [] h.logs
    rw [List.append_nil] at hgo
    rw [shows_.exec]
    refine Eq.trans hgo ?_
    show (pure _ : Work (List Marker)).exec _ = _
    rw [List.append_nil]
    rfl
  | halted shows_ meets halts =>
    rw [shows_.exec]
    refine (markersAmong_meets meets _ h.logs).trans ?_
    rw [exec_bind_error ((halts.withLogs _).exec _)]

end Instances
end Vitrine
