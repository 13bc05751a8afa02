import Vitrine.Proofs.Preview.Scaffold
import Vitrine.Proofs.Registry.Return

/-!
# Locating preview files

A target leads to a regular file or to an error, and nothing is changed (`seek_sought`), unless a preview
file is missing beside a component and is asked for. Then one file is written, where the name of the
preview file leads to (`settle_exec`). That is in the directory itself, but for a symbolic link that leads
to nothing.
-/
namespace Vitrine

/-! ## Regular files -/

/-- No name on a way holds a NUL, and work begins in a directory. -/
structure Host.IsSound (h : Host) : Prop where
  links : ∀ q target, h.store.seen q = some (.link target) → (Path.ofText target).isSound = true
  workingDirectory : h.workingDirectory.isSound = true
  opens : ∃ q, h.Opens ⟨.relative, []⟩ q

/-- All names in a store are parts of paths. -/
def Store.IsWritten (s : Store) : Prop := ∀ q, s.seen q ≠ none → ∀ name ∈ q, Path.IsPart name

/-- A regular file lies at the end of a path, or at the place that the path spells, if the path is too
long to be looked at. -/
def Host.IsRegular (h : Host) (p : Path) : Prop :=
  h.isNode Node.isFile p = .ok true ∨ Store.pathLimit < p.text.utf8ByteSize ∧
    ∃ q content mode, p = Store.pathOf q ∧ h.store.seen q = some (.file content mode (.counted 0))

namespace Store

variable {s : Store} {follow : Bool} {links : Nat} {here q : Place} {names : List String}

/-- A name that can be looked up. -/
def IsFit (name : String) : Prop :=
  name.utf8ByteSize ≤ nameLimit ∧ name.toList.contains (Char.ofNat 0) = false

/-- Where names arrive only names lead that can be looked up. -/
theorem Arrives.isFit (ha : s.Arrives follow links here names q)
    (hlinks : ∀ q target, s.seen q = some (.link target) → (Path.ofText target).isSound = true)
    (hhere : ∀ name ∈ here, IsFit name)
    (hnames : ∀ name ∈ names, name.toList.contains (Char.ofNat 0) = false) : ∀ name ∈ q, IsFit name := by
  have hchild : ∀ {here : Place} {name : String}, (∀ n ∈ here, IsFit n) → IsFit name →
      ∀ n ∈ here ++ [name], IsFit n := by
    intro here name hhere hname n hn
    rcases List.mem_append.mp hn with hn | hn
    · exact hhere n hn
    · rw [List.mem_singleton.mp hn]
      exact hname
  induction ha with
  | here => exact hhere
  | up next ih =>
    exact ih (fun n hn => hhere n (List.mem_of_mem_dropLast hn))
      fun n hn => hnames n (List.mem_cons_of_mem _ hn)
  | last hup hlen hlink => exact hchild hhere ⟨hlen, hnames _ List.mem_cons_self⟩
  | into hup hlen hrest hdir next ih =>
    exact ih (hchild hhere ⟨hlen, hnames _ List.mem_cons_self⟩)
      fun n hn => hnames n (List.mem_cons_of_mem _ hn)
  | @through links here name rest q target hup hlen hrest hlink next ih =>
    refine ih ?_ fun n hn => ?_
    · split
      · exact fun n hn => absurd hn List.not_mem_nil
      · exact hhere
    · rcases List.mem_append.mp hn with hn | hn
      · have hsound := hlinks _ _ hlink
        rw [Path.isSound, List.all_eq_true] at hsound
        simpa using hsound n hn
      · exact hnames n (List.mem_cons_of_mem _ hn)

end Store

namespace Host

variable {h k : Host} {p directory file : Path} {q base : Place} {name : String}

theorem IsSound.isSound_absolute (hh : h.IsSound) (hp : p.isSound = true) :
    (h.absolute p).isSound = true := by
  rw [absolute, Path.isSound_join, hh.workingDirectory, hp, Bool.and_self, ite_self]

theorem IsSound.of_differs {P : Place → Prop} (hh : h.IsSound) (hd : DiffersOn P h k) : k.IsSound where
  links := fun q target hl => hh.links q target (hd.ways.symm.link hl)
  workingDirectory := by
    rw [hd.workingDirectory]
    exact hh.workingDirectory
  opens := by
    obtain ⟨q, hq⟩ := hh.opens
    exact ⟨q, hd.opens hq⟩

/-- The real path of a file is the path of a file. -/
theorem Targets.isRegular (ht : h.Targets p q) (hh : h.IsSound) {content : List UInt8} {mode : Nat}
    (hs : h.store.seen q = some (.file content mode (.counted 0))) :
    h.IsRegular (Store.pathOf q) := by
  by_cases hshort : (Store.pathOf q).text.utf8ByteSize ≤ Store.pathLimit
  · have hnames : ∀ name ∈ (h.absolute p).parts, name.toList.contains (Char.ofNat 0) = false := by
      intro name hname
      have hsound := hh.isSound_absolute ht.sound
      rw [Path.isSound, List.all_eq_true] at hsound
      simpa using hsound name hname
    have hfit := ht.leads.arrives.isFit hh.links (fun n hn => absurd hn List.not_mem_nil) hnames
    have hsound : (Store.pathOf q).isSound = true := by
      rw [Path.isSound, List.all_eq_true]
      intro name hname
      rw [(hfit name hname).2]
      rfl
    have hnamed : Store.IsNamed q :=
      ⟨hsound, ht.settles.isStraight.up, hshort, fun name hname => (hfit name hname).1⟩
    have hleads := leads_of_seen hnamed (ht.leads.arrives.isWay h.store.isWay_root) hs (by simp)
    exact Or.inl (hleads.1.isFile_of_file hs)
  · exact Or.inr ⟨Nat.lt_of_not_le hshort, q, content, mode, rfl, hs⟩

/-- A path to a file has a name at its end. -/
theorem IsSound.eq_child (hh : h.IsSound) (hf : h.isNode Node.isFile p = .ok true) :
    p = p.parent.child p.name := by
  rcases List.eq_nil_or_concat p.parts with hnil | ⟨front, name, hparts⟩
  · exfalso
    obtain ⟨q, content, mode, ht, hs⟩ := isFile_iff.mp hf
    have hdirectory : h.store.IsDirectory q := by
      cases hroot : p.root with
      | relative =>
        obtain ⟨q', hq'⟩ := hh.opens
        have hp : p = ⟨.relative, []⟩ := by
          cases p
          exact congrArg₂ Path.mk hroot hnil
        rw [hp] at ht
        rw [ht.unique hq'.targets]
        exact hq'.isDirectory
      | _ =>
        have habsolute : h.absolute p = p := by simp [absolute, Path.join, Path.isAbsolute, hroot]
        have ha := ht.leads.arrives
        rw [habsolute, hnil] at ha
        cases ha
        exact h.store.isDirectory_root
    obtain ⟨mode', hm⟩ := hdirectory
    cases hs.symm.trans hm
  · have hconcat : p.parts = front ++ [name] := by rw [hparts, List.concat_eq_append]
    cases p
    simp only [Path.parent, Path.child, Path.name] at hconcat ⊢
    rw [hconcat]
    simp

/-- A path over a name that is no link leads into its directory. -/
theorem Targets.into (ht : h.Targets (directory.child name) q) (hup : name ≠ "..") :
    ∃ base, h.Settles directory base ∧
      ((∀ target, h.store.seen (base ++ [name]) ≠ some (.link target)) → q = base ++ [name]) := by
  obtain ⟨n, hn⟩ := ht.settles
  rw [absolute_child] at hn
  obtain ⟨m, m', base, hm, hm', -⟩ := hn.split
  refine ⟨base, ⟨m, hm⟩, fun hlink => ?_⟩
  exact (hm'.unique (.name hup hlink .here)).2

end Host

/-! ## What is sought -/

open Host Work

/-- The directory that a target wants a preview file in: itself, or that of the component. -/
inductive Wants (h : Host) (p : Path) : Path → Prop
  | directory (hd : h.isNode Node.isDirectory p = .ok true) : Wants h p p
  | file (hf : h.isNode Node.isFile p = .ok true) : Wants h p p.parent

/-- A preview file is missing beside a component. -/
structure Lacks (h : Host) (directory : Path) (name : String) : Prop where
  missing : h.isNode Node.isFile (directory.child previewFileName) = .ok false
  component : h.isNode Node.isFile (directory.child name) = .ok true
  part : Path.IsPart name

/-- The question whether to make a preview file in a directory that names a component there. -/
def offerIn (directory : Path) (name : String) : Offer :=
  ⟨directory.child previewFileName, directory.child name⟩

/-- What a target leads to: an error, a file, or a preview file that is missing. -/
inductive Sought (h : Host) (p : Path) : Result Located → Prop
  | error (e : Error) : Sought h p (.error e)
  | found {file : Path} (hfile : h.IsRegular file) : Sought h p (.ok (.found file))
  | missing {directory : Path} {name : String} (hwants : Wants h p directory)
      (hlacks : Lacks h directory name) : Sought h p (.ok (.missing (offerIn directory name)))

variable {h k : Host} {p directory file wd : Path} {name target : String} {names : List String}
  {r : Registry}

theorem Sought.bind {α : Type} {x : Result α} {f : α → Result Located}
    (hf : ∀ a, x = .ok a → Sought h p (f a)) : Sought h p (x >>= f) := by
  cases x with
  | error e => exact .error e
  | ok a => exact hf a rfl

theorem firstComponent_still (directory : Path) (names : List String) :
    (firstComponent directory names).Still := by
  induction names with
  | nil => exact moves_pure _
  | cons name names ih => exact (moves_look _).bind fun _ => .ite (moves_pure _) ih

theorem findComponent_still (directory : Path) : (findComponent directory).Still :=
  (moves_look _).bind fun names => firstComponent_still directory names

/-- A component that is found is a file under one of the names. -/
theorem firstComponent_eq_ok (hf : (firstComponent directory names).outcome h = .ok (some p)) :
    ∃ name ∈ names, p = directory.child name ∧ h.isNode Node.isFile p = .ok true := by
  induction names with
  | nil => cases hf
  | cons name names ih =>
    rw [firstComponent, isFile, outcome_look_bind] at hf
    obtain ⟨there, hthere, hf⟩ := bind_eq_ok.mp hf
    split at hf
    · next hboth =>
      cases hf
      rw [Bool.and_eq_true] at hboth
      rw [hboth.1] at hthere
      exact ⟨name, List.mem_cons_self, rfl, hthere⟩
    · obtain ⟨other, hother, hp⟩ := ih hf
      exact ⟨other, List.mem_cons_of_mem _ hother, hp⟩

theorem findComponent_eq_ok (hw : h.store.IsWritten)
    (hf : (findComponent directory).outcome h = .ok (some p)) :
    ∃ name, p = directory.child name ∧ h.isNode Node.isFile p = .ok true ∧ Path.IsPart name := by
  rw [findComponent, Work.names, outcome_look_bind] at hf
  obtain ⟨names, hnames, hf⟩ := bind_eq_ok.mp hf
  obtain ⟨name, hname, hp, hfile⟩ := firstComponent_eq_ok hf
  refine ⟨name, hp, hfile, ?_⟩
  rw [Host.names] at hnames
  cases hnode : h.node directory with
  | error e =>
    rw [hnode] at hnames
    cases hnames
  | ok found =>
    obtain ⟨place, n⟩ := found
    rw [hnode] at hnames
    cases n with
    | directory mode changed =>
      cases hnames
      exact hw _ (Store.mem_names.mp hname) name (by simp)
    | file content mode changed => cases hnames
    | link target => cases hnames

/-- The real path of a file is a regular file. -/
theorem sought_realPath (hh : h.IsSound) (hf : h.isNode Node.isFile file = .ok true) :
    Sought h p ((Work.realPath file).outcome h >>= fun real => .ok (.found real)) := by
  obtain ⟨q, content, mode, ht, hs⟩ := isFile_iff.mp hf
  rw [Work.realPath, outcome_look, ht.settles.realPath ht.sound]
  exact .found (ht.isRegular hh hs)

theorem realPath_still (file : Path) : (Work.realPath file).Still := moves_look _

theorem beside_still (previewFile : Path) (component : Option Path) :
    (Located.beside previewFile component).Still := by
  refine (moves_look _).bind fun there => ?_
  split
  · exact (moves_look _).bind fun _ => moves_pure _
  · cases component with
    | some component => exact moves_pure _
    | none =>
      refine (findComponent_still _).bind fun found => ?_
      cases found with
      | some component => exact moves_pure _
      | none => exact moves_throw _

theorem parent_child (directory : Path) (name : String) : (directory.child name).parent = directory := by
  simp [Path.child, Path.parent]

/-- Beside a component, or beside the first one in a directory. -/
theorem sought_beside (hh : h.IsSound) (hw : h.store.IsWritten) (hwants : Wants h p directory)
    {component : Option Path} (hcomponent : ∀ c, component = some c →
      ∃ name, c = directory.child name ∧ h.isNode Node.isFile c = .ok true ∧ Path.IsPart name) :
    Sought h p ((Located.beside (directory.child previewFileName) component).outcome h) := by
  rw [Located.beside, isFile, outcome_look_bind]
  refine .bind fun there hthere => ?_
  cases there with
  | true =>
    show Sought h p ((Work.realPath _ >>= fun real => pure (Located.found real)).outcome h)
    rw [Still.outcome_bind (realPath_still _)]
    exact sought_realPath hh hthere
  | false =>
    have hmissing : ∀ c, (∃ name, c = directory.child name ∧ h.isNode Node.isFile c = .ok true ∧
        Path.IsPart name) → Sought h p (.ok (.missing ⟨directory.child previewFileName, c⟩)) := by
      rintro c ⟨name, rfl, hfile, hpart⟩
      exact .missing hwants ⟨hthere, hfile, hpart⟩
    cases component with
    | some c => exact hmissing c (hcomponent c rfl)
    | none =>
      show Sought h p ((findComponent (directory.child previewFileName).parent >>= _).outcome h)
      rw [parent_child, Still.outcome_bind (findComponent_still directory)]
      refine .bind fun found hfound => ?_
      cases found with
      | some c => exact hmissing c (findComponent_eq_ok hw hfound)
      | none => exact .error _

theorem registered_still (id : String) : (Located.registered r id).Still := by
  refine (Registry.lookup_still id).bind fun found => ?_
  cases found with
  | none => exact moves_throw _
  | some file => exact (moves_look _).bind fun _ => .ite (moves_throw _) (moves_pure _)

theorem sought_registered (id : String) : Sought h p ((Located.registered r id).outcome h) := by
  rw [Located.registered, Still.outcome_bind (Registry.lookup_still id)]
  refine .bind fun found hfound => ?_
  cases found with
  | none => exact .error _
  | some file =>
    show Sought h p ((isFile file >>= _).outcome h)
    rw [isFile, outcome_look_bind]
    refine .bind fun there hthere => ?_
    cases there with
    | false => exact .error _
    | true => exact .found (Or.inl hthere)

theorem seek_still (target : String) (wd : Path) : (seek target r wd).Still := by
  refine (moves_look _).bind fun isThere => .ite (beside_still _ _) ?_
  refine (moves_look _).bind fun isThere => .ite (.ite ?_ (beside_still _ _)) (registered_still _)
  exact (moves_look _).bind fun _ => moves_pure _

/-- Looking for a preview file changes nothing, and what it finds is a regular file. -/
theorem seek_sought (hh : h.IsSound) (hw : h.store.IsWritten) (hwd : wd.IsWritten) (target : String) :
    Sought h (wd.join (Path.ofText target)) ((seek target r wd).outcome h) := by
  have hp : (wd.join (Path.ofText target)).IsWritten := hwd.join (Path.ofText_isWritten target)
  rw [seek]
  generalize wd.join (Path.ofText target) = p at hp ⊢
  rw [isDirectory, outcome_look_bind]
  refine .bind fun isThere hdirectory => ?_
  cases isThere with
  | true =>
    rw [if_pos rfl]
    exact sought_beside hh hw (.directory hdirectory) fun c hc => by cases hc
  | false =>
    show Sought h p ((isFile p >>= _).outcome h)
    rw [isFile, outcome_look_bind]
    refine .bind fun isThere hfile => ?_
    cases isThere with
    | false => exact sought_registered target
    | true =>
      rw [if_pos rfl]
      split
      · rw [Still.outcome_bind (realPath_still p)]
        exact sought_realPath hh hfile
      · refine sought_beside hh hw (.file hfile) fun c hc => ?_
        cases hc
        have hchild := hh.eq_child hfile
        refine ⟨p.name, hchild, hfile, hp p.name ?_⟩
        rw [hchild]
        simp [Path.child, Path.name]

/-! ## What is made -/

/-- A preview file was made that names a component in a directory. -/
structure Scaffolded (h : Host) (directory : Path) (name : String) (file : Path) (k : Host) : Prop where
  lacks : Lacks h directory name
  /-- One file was written, where nothing was, and it lies in the directory unless a link leads away. -/
  written : ∃ place base, h.Targets (directory.child previewFileName) place ∧
    h.store.seen place = none ∧ file = Store.pathOf place ∧
    k = h.change (.write place (Text.toBytes (Preview.scaffoldText name)) Node.fileMode) ∧
    h.Settles directory base ∧
    ((∀ target, h.store.seen (base ++ [previewFileName]) ≠ some (.link target)) →
      place = base ++ [previewFileName])
  /-- Loaded under the name of the preview file, it names a file in the directory, and no props. -/
  loads : Preview.IsReread name → ∃ c : Preview.Config,
    (Preview.loadConfig (directory.child previewFileName)).exec k = (.ok c, k) ∧
      c.source = name ∧ c.props = .object () [] ∧
      k.isNode Node.isFile (directory.join (Path.ofText c.source)) = .ok true

theorem relativeText_child (directory : Path) (name : String) :
    Preview.relativeText directory (directory.child name) = name := by
  have hparts : ∀ parts : List String, Preview.relativeParts parts (parts ++ [name]) = [name] := by
    intro parts
    induction parts with
    | nil => rfl
    | cons part parts ih => rw [List.cons_append, Preview.relativeParts, if_pos rfl, ih]
  rw [Preview.relativeText, Path.child, hparts]
  rfl

/-- A file is made where a path leads to nothing, or else nothing can be written there. -/
theorem writing_of_missing (hf : h.isNode Node.isFile p = .ok false) (content : List UInt8) :
    (∃ e, h.writing p content = .error e) ∨
      ∃ place, h.Targets p place ∧ h.store.seen place = none := by
  rw [Host.writing]
  cases hr : h.reach true p with
  | error e => exact Or.inl ⟨e, rfl⟩
  | ok x =>
    cases x with
    | free place =>
      obtain ⟨hs, hl⟩ := leads_of_reach hr
      have ht : h.Targets p place := ⟨hs, hl⟩
      refine Or.inr ⟨place, ht, ?_⟩
      have hx := ht.reach.symm.trans hr
      rw [Store.seen_eq_none]
      cases hg : h.store.get? place with
      | none => rfl
      | some n =>
        rw [Store.reachedAt_of_get? hg] at hx
        cases hx
    | there place n =>
      cases n with
      | file content mode changed =>
        rw [Host.isNode, Host.node, hr] at hf
        cases hf
      | directory mode changed => exact Or.inl ⟨_, rfl⟩
      | link target => exact Or.inl ⟨_, rfl⟩

theorem settle_eq (directory : Path) (name : String) (h : Host) :
    ((offerIn directory name).settle true).exec h =
      (writeText (directory.child previewFileName) (Preview.scaffoldText name) >>= fun _ =>
        Work.realPath (directory.child previewFileName)).exec h := by
  have hsource : Preview.relativeText (offerIn directory name).previewFile.parent
      (offerIn directory name).component = name := by
    rw [offerIn, parent_child, relativeText_child]
  show ((offerIn directory name).accept).exec h = _
  rw [Offer.accept, hsource, Preview.scaffold, bind_assoc]
  simp only [pure_bind]
  rfl

/-- Where the name of the preview file leads to nothing, the file is made there. -/
theorem settle_of_free (name : String) {place : Place}
    (ht : h.Targets (directory.child previewFileName) place)
    (hnone : h.store.seen place = none)
    (hk : k = h.change (.write place (Text.toBytes (Preview.scaffoldText name)) Node.fileMode)) :
    ((offerIn directory name).settle true).exec h = (.ok (Store.pathOf place), k) ∧
      DiffersOn (· = place) h k ∧ k.store.seen place =
        some (.file (Text.toBytes (Preview.scaffoldText name)) Node.fileMode (.counted 0)) := by
  have hleaf : h.store.IsLeaf place := Or.inl hnone
  have hd : DiffersOn (· = place) h k := by
    rw [hk]
    exact .of_differsAt rfl (Change.differsAt_write hleaf _ _) rfl
  have hseen : k.store.seen place =
      some (.file (Text.toBytes (Preview.scaffoldText name)) Node.fileMode (.counted 0)) := by
    rw [hk]
    show ((Change.write _ _ _).apply h.store).seen place = _
    rw [Change.seen_write _ _ _ _ hleaf.ne_root, if_pos rfl]
  have hwrite : (writeText (directory.child previewFileName) (Preview.scaffoldText name)).exec h =
      (.ok (), k) := by
    have hwriting := ht.writing_of_leaf hleaf (Text.toBytes (Preview.scaffoldText name))
    rw [hnone] at hwriting
    rw [hk]
    exact exec_perform_ok hwriting
  have hto := hd.targets ht
  refine ⟨?_, hd, hseen⟩
  rw [settle_eq, exec_bind_ok hwrite, Work.realPath, exec_look, hto.settles.realPath hto.sound]

/-- An offer that is accepted is carried out, or it fails and leaves all as it is. -/
theorem settle_exec (hh : h.IsSound) (hl : Lacks h directory name) (agreed : Bool) :
    (∃ e, ((offerIn directory name).settle agreed).exec h = (.error e, h)) ∨ agreed = true ∧
      ∃ file k, ((offerIn directory name).settle agreed).exec h = (.ok file, k) ∧ k.IsRegular file ∧
        Scaffolded h directory name file k := by
  cases agreed with
  | false => exact Or.inl ⟨_, rfl⟩
  | true =>
    rcases writing_of_missing hl.missing (Text.toBytes (Preview.scaffoldText name)) with
      ⟨e, he⟩ | ⟨place, ht, hnone⟩
    · refine Or.inl ⟨e, ?_⟩
      rw [settle_eq]
      refine exec_bind_error ?_
      rw [writeText, writeBytes, exec_perform, he]
    · obtain ⟨k, hchange⟩ : ∃ k, k = h.change (.write place
          (Text.toBytes (Preview.scaffoldText name)) Node.fileMode) := ⟨_, rfl⟩
      obtain ⟨hexec, hd, hseen⟩ := settle_of_free name ht hnone hchange
      have hk := hd.targets ht
      obtain ⟨base, hbase, hplace⟩ := ht.into (by decide)
      refine Or.inr ⟨rfl, Store.pathOf place, k, hexec, hk.isRegular (hh.of_differs hd) hseen, hl,
        ⟨place, base, ht, hnone, rfl, hchange, hbase, hplace⟩, fun hreread => ?_⟩
      refine ⟨_, Preview.exec_loadConfig_scaffold hk hreread hseen, rfl, rfl, ?_⟩
      have hjoin : directory.join (Path.ofText name) = directory.child name := by
        have hname := Path.ofText_joinParts (List.forall_mem_singleton.mpr hl.part)
        rw [show Path.joinParts [name] = name from rfl] at hname
        rw [hname]
        rfl
      show k.isNode Node.isFile (directory.join (Path.ofText name)) = _
      rw [hjoin, hd.isNode (fun q hq hboth => ?_) (fun n => by cases n <;> rfl), hl.component]
      -- The component is a file, and nothing was where the preview file is now.
      obtain ⟨q', content, mode, hq', hs⟩ := isFile_iff.mp hl.component
      rw [← hq.unique hq', hboth.1] at hs
      cases hnone.symm.trans hs

/-! ## Locating -/

theorem locate_of_missing {answer : Option Bool} {offer : Offer} {outcome : Result Path}
    (hs : (seek target r wd).exec h = (.ok (.missing offer), h))
    (ho : (offer.settle (answer.getD false)).exec h = (outcome, k)) :
    (locate target r wd answer).exec h =
      (.ok (if answer.isSome then [offer.question] else [], outcome), k) := by
  have hseek : (tryCatch (Except.ok <$> seek target r wd) fun e => pure (.error e)).exec h =
      (.ok (.ok (.missing offer)), h) := by
    rw [exec_tryCatch, map_eq_pure_bind, exec_bind_ok hs]
    rfl
  have hsettle : (tryCatch (Except.ok <$> offer.settle (answer.getD false))
      fun e => pure (.error e)).exec h = (.ok outcome, k) := by
    rw [exec_tryCatch, map_eq_pure_bind, exec_bind, ho]
    cases outcome <;> rfl
  rw [locate, exec_bind_ok hseek]
  exact exec_bind_ok hsettle

/-- Locating ends in a regular file or in an error. Nothing is changed but by an offer that is accepted
and carried out, and nothing is asked but whether to make a preview file that is missing in the
directory of the target; whether it is made or not, that is asked once. -/
theorem locate_outcome (hh : h.IsSound) (hw : h.store.IsWritten) (hwd : wd.IsWritten)
    (target : String) (r : Registry) (answer : Option Bool) :
    ∃ asked outcome k, (locate target r wd answer).exec h = (.ok (asked, outcome), k) ∧
      (∀ file, outcome = .ok file → k.IsRegular file) ∧ (∀ e, outcome = .error e → k = h) ∧
      (asked = [] ∨ answer ≠ some true → k = h) ∧
      (asked ≠ [] → answer.isSome = true ∧ ∃ directory name,
        Wants h (wd.join (Path.ofText target)) directory ∧ Lacks h directory name ∧
        asked = [(offerIn directory name).question] ∧
        (answer = some true → ∀ file, outcome = .ok file → Scaffolded h directory name file k)) := by
  have hseek := (seek_still (r := r) target wd).exec_eq h
  have hsought := seek_sought (r := r) hh hw hwd target
  generalize (seek target r wd).outcome h = sought at hseek hsought
  cases hsought with
  | error e =>
    exact ⟨[], .error e, h, Registry.locate_of_error hseek, nofun, fun _ _ => rfl, fun _ => rfl,
      fun hasked => absurd rfl hasked⟩
  | @found file hfile =>
    refine ⟨[], .ok file, h, Registry.locate_of_found hseek, ?_, fun _ _ => rfl, fun _ => rfl,
      fun hasked => absurd rfl hasked⟩
    rintro _ ⟨⟩
    exact hfile
  | @missing directory name hwants hlacks =>
    rcases settle_exec hh hlacks (answer.getD false) with ⟨e, he⟩ | ⟨hyes, file, k, hk, hfile, hmade⟩
    · refine ⟨_, .error e, h, locate_of_missing hseek he, nofun, fun _ _ => rfl, fun _ => rfl,
        fun hasked => ?_⟩
      cases answer with
      | none => exact absurd rfl hasked
      | some agreed => exact ⟨rfl, directory, name, hwants, hlacks, rfl, fun _ _ hno => nomatch hno⟩
    · have hsome : answer = some true := by
        cases answer with
        | none => cases hyes
        | some agreed => exact congrArg some hyes
      subst hsome
      have hexec : (locate target r wd (some true)).exec h =
          (.ok ([(offerIn directory name).question], .ok file), k) := locate_of_missing hseek hk
      refine ⟨_, .ok file, k, hexec, ?_, ?_, ?_, fun _ => ?_⟩
      · rintro _ ⟨⟩
        exact hfile
      · rintro _ ⟨⟩
      · rintro (hnone | hno)
        · cases hnone
        · exact absurd rfl hno
      · refine ⟨rfl, directory, name, hwants, hlacks, rfl, ?_⟩
        rintro - _ ⟨⟩
        exact hmade

/-! ## A preview file that is a link -/

/-- A host with a component and perhaps a link beside it. -/
def cardHost (links : List (Place × Node)) : Host where
  store := ⟨[(["w"], .directory 0o755 (.counted 0)), (["w", "src"], .directory 0o755 (.counted 0)),
    (["w", "other"], .directory 0o755 (.counted 0)),
    (["w", "src", "Card.jsx"], .file [] 0o644 (.counted 0))] ++ links, 1⟩
  history := []
  workingDirectory := ⟨.absolute, ["w"]⟩
  logs := []
  issued := 0
  processId := 1
  running := []
  now := ""

/-- The name of the preview file leads to a name in another directory that is free. -/
def awayHost : Host := cardHost [(["w", "src", "preview.yaml"], .link "../other/new.yaml")]

def cardRegistry : Registry := ⟨⟨.absolute, ["w", "state"]⟩⟩

def cardDirectory : Path := ⟨.absolute, ["w", "src"]⟩

theorem reread_check : (match Yaml.read (Preview.scaffoldText "Card.jsx") with
    | .ok (.object () [(.str a, .str b), (.str c, .object () [])]) =>
      a == "source" && b == "Card.jsx" && c == "props"
    | _ => false) = true := by
  decide +kernel

theorem isReread_card : Preview.IsReread "Card.jsx" := by
  have hread := reread_check
  rw [Preview.IsReread]
  split at hread
  · next a b c heq =>
    simp only [Bool.and_eq_true, beq_iff_eq] at hread
    obtain ⟨⟨rfl, rfl⟩, rfl⟩ := hread
    exact heq
  · cases hread

theorem Store.mem_nodes_of_link {s : Store} {q : Place} {target : String}
    (hs : s.seen q = some (.link target)) : (q, .link target) ∈ s.nodes := by
  have hroot : q ≠ [] := by
    rintro rfl
    cases s.seen_root.symm.trans hs
  obtain ⟨m, hmem, hm⟩ := mem_nodes_of_seen hroot hs
  rwa [Node.plain_eq_link hm] at hmem

/-- The names in a store are those of its nodes. -/
theorem Store.isWritten_of_nodes {s : Store} (h : ∀ e ∈ s.nodes, ∀ name ∈ e.1, Path.IsPart name) :
    s.IsWritten := by
  intro q hq name hname
  obtain ⟨node, hnode⟩ := Option.ne_none_iff_exists'.mp hq
  obtain ⟨m, hmem, -⟩ := mem_nodes_of_seen (List.ne_nil_of_mem hname) hnode
  exact h _ hmem name hname

theorem isSound_cardHost : (cardHost []).IsSound where
  links := fun q target hs => by simpa [cardHost] using Store.mem_nodes_of_link hs
  workingDirectory := by decide
  opens := Host.opens_of_isNode (by cbv)

theorem isSound_awayHost : awayHost.IsSound where
  links := by
    intro q target hs
    have hlink : q = ["w", "src", "preview.yaml"] ∧ target = "../other/new.yaml" := by
      simpa [awayHost, cardHost] using Store.mem_nodes_of_link hs
    rw [hlink.2]
    decide
  workingDirectory := by decide
  opens := Host.opens_of_isNode (by cbv)

theorem card_sought : (seek "src" cardRegistry ⟨.absolute, ["w"]⟩).outcome (cardHost []) =
    .ok (.missing (offerIn cardDirectory "Card.jsx")) := by
  cbv

/-- With a component alone in a directory, a preview file is made beside it. -/
theorem locate_outcome_card : ∃ file k,
    (locate "src" cardRegistry ⟨.absolute, ["w"]⟩ (some true)).exec (cardHost []) =
      (.ok ([(offerIn cardDirectory "Card.jsx").question], .ok file), k) ∧ k.IsRegular file ∧
    Preview.IsReread "Card.jsx" ∧ ∃ directory name,
      Wants (cardHost []) cardDirectory directory ∧ Scaffolded (cardHost []) directory name file k := by
  have hreach : (cardHost []).reach true (cardDirectory.child previewFileName) =
      .ok (.free ["w", "src", "preview.yaml"]) := by
    cbv
  obtain ⟨hsound, hleads⟩ := Host.leads_of_reach hreach
  have hnone : (cardHost []).store.seen ["w", "src", "preview.yaml"] = none := by cbv
  have hsettle := (settle_of_free "Card.jsx" ⟨hsound, hleads⟩ hnone rfl).1
  have hseek := (seek_still (r := cardRegistry) "src" ⟨.absolute, ["w"]⟩).exec_eq (cardHost [])
  rw [card_sought] at hseek
  have hexec : (locate "src" cardRegistry ⟨.absolute, ["w"]⟩ (some true)).exec (cardHost []) = _ :=
    locate_of_missing hseek hsettle
  have hnames : (cardHost []).store.IsWritten := Store.isWritten_of_nodes (by decide)
  have hwd : (⟨.absolute, ["w"]⟩ : Path).IsWritten := by decide
  obtain ⟨asked, outcome, k, hlocate, hfile, -, -, hasked⟩ :=
    locate_outcome isSound_cardHost hnames hwd "src" cardRegistry (some true)
  rw [hexec] at hlocate
  cases hlocate
  obtain ⟨-, directory, name, hwants, -, -, hmade⟩ := hasked (List.cons_ne_nil _ _)
  exact ⟨_, _, hexec, hfile _ rfl, isReread_card, directory, name, hwants, hmade rfl _ rfl⟩

/-- Through a link that leads to nothing, the file is made in another directory, and the component that
it names is not there. -/
theorem locate_leads_away : awayHost.IsSound ∧ awayHost.store.IsWritten ∧ ∃ k c,
    (locate "src" cardRegistry ⟨.absolute, ["w"]⟩ (some true)).exec awayHost =
      (.ok ([(offerIn cardDirectory "Card.jsx").question],
        .ok ⟨.absolute, ["w", "other", "new.yaml"]⟩), k) ∧
    k.history = awayHost.history ++ [.write ["w", "other", "new.yaml"]
      (Text.toBytes (Preview.scaffoldText "Card.jsx")) Node.fileMode] ∧
    (Preview.loadConfig ⟨.absolute, ["w", "other", "new.yaml"]⟩).exec k = (.ok c, k) ∧
    k.isNode Node.isFile ((⟨.absolute, ["w", "other"]⟩ : Path).join (Path.ofText c.source)) =
      .ok false := by
  have hfree : awayHost.reach true (cardDirectory.child previewFileName) =
      .ok (.free ["w", "other", "new.yaml"]) := by
    cbv
  have hfree' : awayHost.reach true ⟨.absolute, ["w", "other", "new.yaml"]⟩ =
      .ok (.free ["w", "other", "new.yaml"]) := by
    cbv
  have hcard : awayHost.reach true
      ((⟨.absolute, ["w", "other"]⟩ : Path).join (Path.ofText "Card.jsx")) =
      .ok (.free ["w", "other", "Card.jsx"]) := by
    cbv
  have hnone : awayHost.store.seen ["w", "other", "new.yaml"] = none := by cbv
  have hnocard : awayHost.store.seen ["w", "other", "Card.jsx"] = none := by cbv
  have hsought : (seek "src" cardRegistry ⟨.absolute, ["w"]⟩).outcome awayHost =
      .ok (.missing (offerIn cardDirectory "Card.jsx")) := by
    cbv
  have ht : ∀ {p place}, awayHost.reach true p = .ok (.free place) → awayHost.Targets p place :=
    fun hr => ⟨(Host.leads_of_reach hr).1, (Host.leads_of_reach hr).2⟩
  obtain ⟨hsettle, hd, hseen⟩ := settle_of_free "Card.jsx" (ht hfree) hnone rfl
  have hseek := (seek_still (r := cardRegistry) "src" ⟨.absolute, ["w"]⟩).exec_eq awayHost
  rw [hsought] at hseek
  have hexec : (locate "src" cardRegistry ⟨.absolute, ["w"]⟩ (some true)).exec awayHost = _ :=
    locate_of_missing hseek hsettle
  refine ⟨isSound_awayHost, Store.isWritten_of_nodes (by decide), _, _, hexec, rfl,
    Preview.exec_loadConfig_scaffold (hd.targets (ht hfree')) isReread_card hseen, ?_⟩
  show Host.isNode _ Node.isFile ((⟨.absolute, ["w", "other"]⟩ : Path).join (Path.ofText "Card.jsx")) = _
  rw [(hd.targets (ht hcard)).isNode_eq (fun n => by cases n <;> rfl), hd.others _ (by decide), hnocard]
  rfl

end Vitrine
