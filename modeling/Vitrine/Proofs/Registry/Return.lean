import Vitrine.Locate
import Vitrine.Proofs.Files.RealPath
import Vitrine.Proofs.Registry.Agreement

/-!
# The way back from an id

A registered id leads back to its preview file. The record of an id stays as it is as long as nobody
registers or unregisters that id (`Follows.hasRecord`). What is read from it is the path as `noted` has
it, without the blanks around it and with unified line ends, and that is the path itself for some paths
only (`noted_eq_iff`).
-/
namespace Vitrine
namespace Registry

open Work Host

variable {r : Registry} {h k l : Host} {base q : Place} {id : String} {file : Path}
  {content : List UInt8} {c : Call} {a : Result Answer} {t : List (Call × Result Answer)}

/-! ## Paths that are read back -/

/-- A record leads back to a path unless the path is changed as a text is. -/
theorem noted_eq_iff (hw : file.IsWritten) (ha : file.root = .absolute) :
    noted file = file ↔ '\r' ∉ file.text.toList ∧ Text.strip file.text = file.text := by
  refine ⟨fun hnoted => ?_, fun ⟨hr, hs⟩ => noted_eq hw hr hs⟩
  have hchars : (noted file).parts =
      Path.partsOf (Text.stripChars (Text.unifyLines file.text.toList)) := by
    rw [noted, Path.parts_ofText, Text.strip, String.toList_ofList, String.toList_ofList]
  have hkept := Path.sublist_partsOf (Text.stripChars (Text.unifyLines file.text.toList))
  rw [← hchars, hnoted, Path.flatMap_parts hw ha] at hkept
  -- All that is left of the text is in the path, and so the text has lost nothing but slashes.
  have hr : '\r' ∉ file.text.toList := by
    intro hmem
    have hleft := hkept.mem (List.mem_filter.mpr ⟨hmem, by decide⟩)
    exact Text.notMem_unifyLines _ ((Text.sublist_stripChars _).mem (List.mem_of_mem_filter hleft))
  rw [Text.unifyLines_of_notMem hr] at hkept
  refine ⟨hr, ?_⟩
  rw [Text.strip, Text.stripChars_eq (by decide) hkept.length_le, String.ofList_toList]

example : noted ⟨.absolute, ["w", "p.yml "]⟩ = ⟨.absolute, ["w", "p.yml"]⟩ := by decide

/-! ## Records that stay -/

/-- The record of an id, in a storage directory without links. -/
structure HasRecord (r : Registry) (id : String) (content : List UInt8) (base : Place) (h : Host) :
    Prop where
  opens : h.Opens r.storage base
  unlinked : r.Unlinked h
  fit : (h.absolute r.storage).IsFit id
  record : ∃ mode, h.store.seen (base ++ [id]) = some (.file content mode (.counted 0))

namespace HasRecord

theorem leads (hr : r.HasRecord id content base h) : h.Leads (r.record id) (base ++ [id]) :=
  hr.opens.leads_child hr.fit (hr.unlinked base hr.opens id)

theorem of_differs {P : Place → Prop} (hr : r.HasRecord id content base h) (hd : DiffersOn P h k)
    (hp : ¬ P (base ++ [id])) : r.HasRecord id content base k where
  opens := hd.opens hr.opens
  unlinked := fun base' ho name target hs => by
    rw [ho.unique (hd.opens hr.opens)] at hs
    exact hr.unlinked base hr.opens name target (hd.ways.symm.link hs)
  fit := by
    rw [hd.absolute]
    exact hr.fit
  record := by
    rw [hd.others _ hp]
    exact hr.record

theorem of_spares (hr : r.HasRecord id content base h) (hs : r.Spares h k) :
    r.HasRecord id content base k where
  opens := hs.opens base hr.opens
  unlinked := fun base' ho name target => by
    rw [ho.unique (hs.opens base hr.opens), hs.same base hr.opens]
    exact hr.unlinked base hr.opens name target
  fit := by
    rw [hs.absolute]
    exact hr.fit
  record := by
    rw [hs.same base hr.opens]
    exact hr.record

/-- A change at the record of another id. -/
theorem of_other (hr : r.HasRecord id content base h) {c : Change} {other : String}
    (hd : Store.DiffersAt (base ++ [other]) h.store (c.apply h.store)) (hne : other ≠ id) :
    r.HasRecord id content base (h.change c) := by
  have hplace : base ++ [id] ≠ base ++ [other] := by simpa using hne.symm
  exact hr.of_differs (DiffersOn.of_differsAt (P := (· = base ++ [other])) rfl hd rfl) hplace

end HasRecord

/-- A call registers or unregisters an id. -/
def Concerns (id : String) : Call → Result Answer → Prop
  | .register _, .ok (.registered x) => x.id = id
  | .unregister other, _ => other = id
  | _, _ => False

theorem lookup_still (id : String) : (r.lookup id).Still := by
  cases hi : isId id with
  | false =>
    rw [lookup, hi]
    exact moves_pure _
  | true =>
    rw [lookup_of_valid hi]
    exact (moves_look _).bind fun _ => .ite (moves_pure _)
      ((readRecord_still _).bind fun _ => moves_pure _)

theorem entriesOf_still (ids : List String) : (r.entriesOf ids).Still := by
  induction ids with
  | nil => exact moves_pure _
  | cons id ids ih =>
    exact (moves_look _).bind fun _ => .ite
      ((readRecord_still _).bind fun _ => ih.bind fun _ => moves_pure _) ih

theorem entries_still : r.entries.Still :=
  (moves_look _).bind fun _ => .ite (moves_pure _) ((moves_look _).bind fun ids => entriesOf_still ids)

/-- A record is removed from the storage directory, or nothing happens. -/
theorem unregister_ends (hlinks : r.Unlinked h) (ho : h.Opens r.storage base) (id : String) :
    (∃ e, (r.unregister id).exec h = (.error e, h)) ∨ h.store.IsLeaf (base ++ [id]) ∧
      (r.unregister id).exec h = (.ok (), h.change (.remove (base ++ [id]))) := by
  cases hi : isId id with
  | false =>
    rw [Registry.unregister, hi]
    exact Or.inl ⟨_, rfl⟩
  | true =>
    rw [unregister_of_valid hi]
    cases hfile : h.isNode Node.isFile (r.record id) with
    | error e => exact Or.inl ⟨e, exec_bind_error (exec_isFile hfile)⟩
    | ok there =>
      rw [exec_bind_ok (exec_isFile hfile)]
      cases there with
      | false => exact Or.inl ⟨_, rfl⟩
      | true =>
        right
        obtain ⟨q, n, hnode, hn⟩ := isNode_eq_true hfile
        obtain ⟨hsound, hlead, hg⟩ := node_eq_ok hnode
        have ht : h.Targets (r.record id) q := ⟨hsound, hlead⟩
        obtain rfl := hlinks.place ho hi ht
        have hleads : h.Leads (r.record id) (base ++ [id]) :=
          ho.leads_child (ho.isFit_of_targets (ne_up hi) ht) (hlinks base ho id)
        cases n with
        | file content mode changed =>
          have hs : h.store.seen (base ++ [id]) = some (.file content mode (.counted 0)) :=
            Store.seen_of_get? hg
          refine ⟨Or.inr ⟨content, mode, hs⟩, ?_⟩
          show (Work.remove (r.record id)).exec h = _
          rw [Work.remove, exec_perform, hleads.removing_of_file hs]
        | directory mode changed => cases hn
        | link target => cases hn

namespace HasRecord

/-- Registering another id leaves the record alone. -/
theorem register (hr : r.HasRecord id content base h)
    (hc : ((Call.register file).perform r).exec h = (a, k)) (ha : ¬ Concerns id (.register file) a) :
    r.HasRecord id content base k := by
  have hmade : r.made h = h := makeDirectories_of_opens hr.opens
  change (r.register file >>= fun x => pure (Answer.registered x)).exec h = _ at hc
  obtain ⟨e, he⟩ | ⟨other, real, -, -, -, -, hi, he⟩ := r.register_ends h file
  · rw [exec_bind_error he] at hc
    cases hc
    exact hr
  have hunlinked : r.Unlinked (r.made h) := by
    rw [hmade]
    exact hr.unlinked
  obtain ⟨e, hx⟩ | ⟨base', mode, ho, -, hleaf, hx⟩ := enter_ends hunlinked hi real
  · rw [exec_bind_error (he.trans hx), hmade] at hc
    cases hc
    exact hr
  · rw [hmade] at ho hleaf hx
    rw [exec_bind_ok (he.trans hx)] at hc
    cases hc
    obtain rfl := ho.unique hr.opens
    exact hr.of_other (Change.differsAt_write hleaf _ _) ha

/-- Unregistering another id leaves the record alone. -/
theorem unregister (hr : r.HasRecord id content base h) {other : String} (hne : other ≠ id)
    (hc : ((Call.unregister other).perform r).exec h = (a, k)) : r.HasRecord id content base k := by
  change (r.unregister other >>= fun _ => pure Answer.done).exec h = _ at hc
  obtain ⟨e, he⟩ | ⟨hleaf, he⟩ := unregister_ends hr.unlinked hr.opens other
  · rw [exec_bind_error he] at hc
    cases hc
    exact hr
  · rw [exec_bind_ok he] at hc
    cases hc
    exact hr.of_other (Change.differsAt_remove hleaf) hne

theorem step (hr : r.HasRecord id content base h) (hc : (c.perform r).exec h = (a, k))
    (ha : ¬ Concerns id c a) : r.HasRecord id content base k := by
  cases c with
  | register file => exact hr.register hc ha
  | unregister other => exact hr.unregister ha hc
  | lookup other =>
    have hstill : ((Call.lookup other).perform r).Still :=
      (lookup_still other).bind fun _ => moves_pure _
    obtain rfl : k = h := (congrArg Prod.snd hc).symm.trans (hstill h).symm
    exact hr
  | entries =>
    have hstill : (Call.entries.perform r).Still := entries_still.bind fun _ => moves_pure _
    obtain rfl : k = h := (congrArg Prod.snd hc).symm.trans (hstill h).symm
    exact hr

end HasRecord

/-- The record of an id stays as long as nobody registers or unregisters that id. -/
theorem Follows.hasRecord (ht : r.Follows h t k) (hr : r.HasRecord id content base h)
    (hall : ∀ x ∈ t, ¬ Concerns id x.1 x.2) : r.HasRecord id content base k := by
  induction ht with
  | start => exact hr
  | call before c performed ih =>
    have hbefore := ih fun x hx => hall x (List.mem_append_left _ hx)
    exact hbefore.step performed (hall _ (List.mem_append_right _ List.mem_cons_self))
  | others before spares ih => exact (ih hall).of_spares spares

/-- What was registered has its record. -/
theorem hasRecord_of_register {x : Registration} (hlinks : r.Unlinked (r.made h))
    (hreg : (r.register file).exec h = (.ok x, k)) : h.realPath file = .ok x.file ∧
      isId x.id = true ∧ ∃ base, r.HasRecord x.id (Text.toBytes x.file.text) base k := by
  obtain ⟨e, he⟩ | ⟨id, real, entries, hreal, -, -, hi, he⟩ := r.register_ends h file
  · cases he.symm.trans hreg
  obtain ⟨e, hx⟩ | ⟨base, mode, ho, hfit, hleaf, hx⟩ := enter_ends hlinks hi real
  · cases (he.trans hx).symm.trans hreg
  · cases (he.trans hx).symm.trans hreg
    have hd := Change.differsAt_write hleaf (Text.toBytes real.text) mode
    have hways : DiffersOn (· = base ++ [id]) (r.made h)
      ((r.made h).change (.write (base ++ [id]) (Text.toBytes real.text) mode)) :=
      .of_differsAt rfl hd rfl
    refine ⟨hreal, hi, base, hways.opens ho, fun base' ho' name target hs => ?_, ?_, mode, ?_⟩
    · rw [ho'.unique (hways.opens ho)] at hs
      exact hlinks base ho name target (hways.ways.symm.link hs)
    · rw [hways.absolute]
      exact hfit
    · show ((Change.write _ _ _).apply (r.made h).store).seen _ = _
      rw [Change.seen_write _ _ _ _ (by simp), if_pos rfl]

/-! ## Locating -/

/-- What an id leads to, with a record of a path. -/
theorem registered_exec (hi : isId id = true) (hr : r.HasRecord id (Text.toBytes file.text) base h) :
    (Located.registered r id).exec h = ((h.isNode Node.isFile (noted file)).bind fun there =>
      if there then .ok (.found (noted file))
      else .error (.notFound (.registeredFile id (noted file))), h) := by
  obtain ⟨mode, hs⟩ := hr.record
  have hlookup : (r.lookup id).exec h = (.ok (some (noted file)), h) := by
    rw [lookup_of_valid hi, exec_bind_ok (exec_isFile (hr.leads.isFile_of_file hs))]
    show (readRecord (r.record id) >>= fun file => pure (some file)).exec h = _
    rw [exec_bind_ok (readRecord_of_file hr.leads hs (recorded?_toBytes file))]
    rfl
  rw [Located.registered, exec_bind_ok hlookup]
  show (isFile (noted file) >>= _).exec h = _
  cases hfile : h.isNode Node.isFile (noted file) with
  | error e => exact exec_bind_error (exec_isFile hfile)
  | ok there =>
    rw [exec_bind_ok (exec_isFile hfile)]
    cases there <;> rfl

/-- Where neither a directory nor a file is, the system says so, or it refuses to look. -/
theorem isNode_of_ne {p : Path} (hd : h.isNode Node.isDirectory p ≠ .ok true)
    (hf : h.isNode Node.isFile p ≠ .ok true) :
    (h.isNode Node.isDirectory p = .ok false ∧ h.isNode Node.isFile p = .ok false) ∨
      ∃ e, h.isNode Node.isDirectory p = .error e ∧ h.isNode Node.isFile p = .error e := by
  rw [isNode] at hd hf ⊢
  rw [isNode]
  cases hn : h.node p with
  | ok x =>
    rw [hn] at hd hf
    exact Or.inl ⟨congrArg _ (Bool.eq_false_iff.mpr fun ht => hd (congrArg _ ht)),
      congrArg _ (Bool.eq_false_iff.mpr fun ht => hf (congrArg _ ht))⟩
  | error e =>
    dsimp only
    by_cases he : isAbsence e = true
    · rw [if_pos he]
      exact Or.inl ⟨rfl, rfl⟩
    · rw [if_neg he]
      exact Or.inr ⟨e, rfl, rfl⟩

theorem locate_of_found {target : String} {directory : Path} {answer : Option Bool}
    (hs : (seek target r directory).exec h = (.ok (.found file), h)) :
    (locate target r directory answer).exec h = (.ok ([], .ok file), h) := by
  have htry : (tryCatch (Except.ok <$> seek target r directory) fun e => pure (.error e)).exec h =
      (.ok (.ok (.found file)), h) := by
    rw [exec_tryCatch, map_eq_pure_bind, exec_bind_ok hs]
    rfl
  rw [locate, exec_bind_ok htry]
  rfl

theorem locate_of_error {target : String} {directory : Path} {answer : Option Bool} {e : Error}
    (hs : (seek target r directory).exec h = (.error e, h)) :
    (locate target r directory answer).exec h = (.ok ([], .error e), h) := by
  have htry : (tryCatch (Except.ok <$> seek target r directory) fun e => pure (.error e)).exec h =
      (.ok (.error e), h) := by
    rw [exec_tryCatch, map_eq_pure_bind, exec_bind_error hs]
    rfl
  rw [locate, exec_bind_ok htry]
  rfl

/-- The preview file that is registered under an id is found again, from every directory in which
nothing has that name, unless that name cannot be looked at or the path is not read back from its
record as it is. -/
theorem locate_registered {x : Registration} (hw : (h.absolute file).IsWritten)
    (hlinks : r.Unlinked (r.made h)) (hreg : (r.register file).exec h = (.ok x, k))
    (ht : r.Follows k t l) (hall : ∀ y ∈ t, ¬ Concerns x.id y.1 y.2) (directory : Path)
    (answer : Option Bool)
    (hdirectory : l.isNode Node.isDirectory (directory.join (Path.ofText x.id)) ≠ .ok true)
    (hfile : l.isNode Node.isFile (directory.join (Path.ofText x.id)) ≠ .ok true) :
    h.realPath file = .ok x.file ∧
      ∃ located, (locate x.id r directory answer).exec l = (.ok ([], located), l) ∧
        (l.isNode Node.isFile x.file = .ok true → (located = .ok x.file ↔
          (∃ there, l.isNode Node.isFile (directory.join (Path.ofText x.id)) = .ok there) ∧
            '\r' ∉ x.file.text.toList ∧ Text.strip x.file.text = x.file.text)) := by
  obtain ⟨hreal, hi, base, hrecord⟩ := hasRecord_of_register hlinks hreg
  have hr := ht.hasRecord hrecord hall
  refine ⟨hreal, ?_⟩
  have hwritten : x.file.IsWritten ∧ x.file.root = .absolute := by
    obtain ⟨-, heq⟩ := realPath_eq_ok hreal
    rw [heq]
    exact ⟨Store.realPath_isWritten hw, rfl⟩
  rw [← noted_eq_iff hwritten.1 hwritten.2]
  obtain ⟨hnodirectory, hnofile⟩ | ⟨e, herror, herror'⟩ := isNode_of_ne hdirectory hfile
  · have hseek : (seek x.id r directory).exec l = (Located.registered r x.id).exec l := by
      rw [seek, exec_bind_ok (a := false) (by rw [isDirectory, exec_look, hnodirectory])]
      show (isFile (directory.join (Path.ofText x.id)) >>= _).exec l = _
      rw [exec_bind_ok (exec_isFile hnofile)]
      rfl
    rw [registered_exec hi hr] at hseek
    -- Where another file is read back than was registered, that one is missing or taken for it.
    by_cases hnoted : l.isNode Node.isFile (noted x.file) = .ok true
    · rw [hnoted] at hseek
      refine ⟨_, locate_of_found hseek, fun _ => ⟨fun he => ?_, fun he => congrArg _ he.2⟩⟩
      exact ⟨⟨false, hnofile⟩, Except.ok.inj he⟩
    · have hfails : ∃ e, (seek x.id r directory).exec l = (.error e, l) := by
        rw [hseek]
        cases hthere : l.isNode Node.isFile (noted x.file) with
        | error e => exact ⟨e, rfl⟩
        | ok there =>
          cases there with
          | false => exact ⟨_, rfl⟩
          | true => exact absurd hthere hnoted
      obtain ⟨e, he⟩ := hfails
      refine ⟨_, locate_of_error he, fun hthere => iff_of_false (fun h => by cases h) fun hback => ?_⟩
      rw [hback.2] at hnoted
      exact hnoted hthere
  · have hseek : (seek x.id r directory).exec l = (.error e, l) := by
      rw [seek]
      exact exec_bind_error (by rw [isDirectory, exec_look, herror])
    refine ⟨_, locate_of_error hseek, fun _ => iff_of_false (fun h => by cases h) fun hback => ?_⟩
    obtain ⟨there, hlooked⟩ := hback.1
    cases herror'.symm.trans hlooked

theorem sample_unlinked : sample.Unlinked (sample.made sampleHost) := by
  intro base ho name target
  rw [made, sample_made] at ho ⊢
  rw [ho.unique sample_opens, sample_empty]
  exact Option.some_ne_none _ |>.symm

/-- The sample after its preview file was registered. -/
def sampleRegistered : Host := ((sample.enter "demo" sampleFile).exec sampleHost).2

theorem sample_nothing : sampleRegistered.isNode Node.isDirectory ⟨.absolute, ["w", "demo"]⟩ = .ok false ∧
    sampleRegistered.isNode Node.isFile ⟨.absolute, ["w", "demo"]⟩ = .ok false ∧
      sampleRegistered.isNode Node.isFile sampleFile = .ok true := by
  refine ⟨?_, ?_, ?_⟩ <;> cbv

/-- With the record as it was written, the id leads back. -/
theorem locate_registered_sample :
    (sample.register sampleFile).exec sampleHost = (.ok ⟨"demo", sampleFile⟩, sampleRegistered) ∧
      (locate "demo" sample ⟨.absolute, ["w"]⟩ none).exec sampleRegistered =
        (.ok ([], .ok sampleFile), sampleRegistered) := by
  obtain ⟨hdirectory, hfile, hthere⟩ := sample_nothing
  obtain ⟨-, located, hlocate, hiff⟩ := locate_registered (by decide) sample_unlinked sample_register
    .start (fun y hy => absurd hy List.not_mem_nil) ⟨.absolute, ["w"]⟩ none
    (fun h => by cases hdirectory.symm.trans h) (fun h => by cases hfile.symm.trans h)
  refine ⟨sample_register, hlocate.trans ?_⟩
  rw [(hiff hthere).mpr ⟨⟨false, hfile⟩, by decide, by decide⟩]
  rfl

end Registry
end Vitrine
