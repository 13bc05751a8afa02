import Vitrine.Proofs.Registry.Records

/-!
# The ledger of a registry

What a registry answers is what its ledger says: the ids that were registered and not unregistered
since, with their preview files. `Reflects` relates the two, every call preserves it (`Reflects.step`),
and so it holds after every sequence of calls, whatever others do to other files meanwhile.
-/
namespace Vitrine
namespace Registry

open Work Host

/-! ## Calls -/

inductive Call where
  | register (file : Path)
  | unregister (id : String)
  | lookup (id : String)
  | entries

inductive Answer where
  | registered (x : Registration)
  | done
  | found (file : Option Path)
  | listed (xs : List Registration)

def Call.perform (r : Registry) : Call → Work Answer
  | register file => do return .registered (← r.register file)
  | unregister id => do
    r.unregister id
    return .done
  | lookup id => do return .found (← r.lookup id)
  | entries => do return .listed (← r.entries)

/-- The ledger after a call, given what the call came to. -/
def Ledger.after (L : Ledger) : Call → Result Answer → Ledger
  | .register _, .ok (.registered x) => Function.update L x.id (some (noted x.file))
  | .unregister id, .ok _ => Function.update L id none
  | _, _ => L

/-- The system refuses to look at the record of an id, because its name or its path is too long. -/
structure Refuses (r : Registry) (h : Host) (id : String) : Prop where
  valid : isId id = true
  tooLong : h.isNode Node.isFile (r.record id) = .error (.system .nameTooLong)
  long : h.IsLong r.storage id

/-- What a call answers when the registry has a ledger. -/
inductive Answers (r : Registry) (h : Host) (L : Ledger) : Call → Result Answer → Prop
  | registered {file : Path} {x : Registration} {entries : List (Key × Data)}
      (real : h.realPath file = .ok x.file)
      (loaded : (Preview.loadEntries x.file).outcome h = .ok entries)
      (named : idOf x.file entries = .ok x.id) (valid : isId x.id = true) :
      Answers r h L (.register file) (.ok (.registered x))
  | failed {file : Path} {e : Error} : Answers r h L (.register file) (.error e)
  | unregistered {id : String} {file : Path} (listed : L id = some file) :
      Answers r h L (.unregister id) (.ok .done)
  | unknown {id : String} (unlisted : L id = none) (seen : ¬ r.Refuses h id) :
      Answers r h L (.unregister id) (.error (.notFound (.registration id)))
  | unremoved {id : String} (unlisted : L id = none) (refused : r.Refuses h id) :
      Answers r h L (.unregister id) (.error (.system .nameTooLong))
  | found {id : String} {file : Path} (listed : L id = some file) :
      Answers r h L (.lookup id) (.ok (.found (some file)))
  | missed {id : String} (unlisted : L id = none) (seen : ¬ r.Refuses h id) :
      Answers r h L (.lookup id) (.ok (.found none))
  | unseen {id : String} (unlisted : L id = none) (refused : r.Refuses h id) :
      Answers r h L (.lookup id) (.error (.system .nameTooLong))
  /-- Exactly what the ledger says, each id once and in strictly increasing order. -/
  | listed {xs : List Registration} (increasing : (xs.map (·.id)).Pairwise (· < ·))
      (all : ∀ x, x ∈ xs ↔ L x.id = some x.file) : Answers r h L .entries (.ok (.listed xs))

/-- The host after the storage directory was made, as far as it can be made. -/
def made (r : Registry) (h : Host) : Host := ((makeDirectories r.storage).exec h).2

/-- What a call changes: it makes the storage directory, and writes or removes one file in it. -/
inductive Effects (r : Registry) (h : Host) : Call → Result Answer → Host → Prop
  | written {file : Path} {x : Registration} {base : Place} {mode : Nat} (grows : h.Grows (r.made h))
      (opens : (r.made h).Opens r.storage base) (valid : isId x.id = true) :
      Effects r h (.register file) (.ok (.registered x))
        ((r.made h).change (.write (base ++ [x.id]) (Text.toBytes x.file.text) mode))
  | unwritten {file : Path} {e : Error} : Effects r h (.register file) (.error e) h
  /-- A register that fails later than that has made directories. -/
  | onlyMade {file : Path} {e : Error} (grows : h.Grows (r.made h)) :
      Effects r h (.register file) (.error e) (r.made h)
  | removed {id : String} {base : Place} (opens : h.Opens r.storage base) (valid : isId id = true) :
      Effects r h (.unregister id) (.ok .done) (h.change (.remove (base ++ [id])))
  | unremoved {id : String} {e : Error} : Effects r h (.unregister id) (.error e) h
  | looked {id : String} {a : Result Answer} : Effects r h (.lookup id) a h
  | listed {a : Result Answer} : Effects r h .entries a h

/-! ## Storage directories that are missing or empty -/

/-- The hosts that come about by trying to make the storage directory. -/
inductive Tries (r : Registry) (h : Host) : Host → Prop
  | refl : Tries r h h
  | again {k : Host} (before : Tries r h k) : Tries r h (r.made k)

/-- Wherever the storage directory may be made, there is nothing in it. -/
structure IsVacant (r : Registry) (h : Host) : Prop where
  visible : ∀ k, r.Tries h k → ∃ there, k.isNode Node.isDirectory r.storage = .ok there
  empty : ∀ k, r.Tries h k → ∀ base, k.Opens r.storage base → ∀ id,
    k.store.seen (base ++ [id]) = none

/-- What a registry keeps is what its ledger says. -/
inductive Reflects (r : Registry) (L : Ledger) (h : Host) : Prop
  | vacant (vacant : r.IsVacant h) (nothing : ∀ id, L id = none)
  | holds (base : Place) (holds : r.Holds L base h)

variable {r : Registry} {L : Ledger} {base q : Place} {h k l : Host} {id : String} {file : Path}

theorem Tries.trans (hk : r.Tries h k) (hl : r.Tries k l) : r.Tries h l := by
  induction hl with
  | refl => exact hk
  | again _ ih => exact .again ih

theorem IsVacant.of_tries (hv : r.IsVacant h) (hk : r.Tries h k) : r.IsVacant k :=
  ⟨fun l hl => hv.visible l (hk.trans hl), fun l hl => hv.empty l (hk.trans hl)⟩

theorem made_grows (r : Registry) (h : Host) : h.Grows (r.made h) := makeDirectories_grows r.storage h

theorem IsVacant.holds (hv : r.IsVacant h) (ho : h.Opens r.storage base)
    (hl : ∀ id, L id = none) : r.Holds L base h := by
  refine ⟨ho, fun id file hf => ?_, fun id file hf => ?_, fun id file hf => ?_,
    fun id _ => hv.empty h .refl base ho id⟩
  all_goals
    rw [hl id] at hf
    cases hf

/-- A registry with a storage directory that can be made, and is empty then, is vacant. -/
theorem isVacant_of_made (hm : (makeDirectories r.storage).exec h = (.ok (), k))
    (ho : k.Opens r.storage base) (he : ∀ id, k.store.seen (base ++ [id]) = none)
    (hv : ∃ there, h.isNode Node.isDirectory r.storage = .ok there) : r.IsVacant h := by
  have hmade : r.made h = k := by rw [made, hm]
  have htries : ∀ l, r.Tries h l → l = h ∨ l = k := by
    intro l hl
    induction hl with
    | refl => exact Or.inl rfl
    | again _ ih =>
      right
      obtain rfl | rfl := ih
      · exact hmade
      · exact makeDirectories_of_opens ho
  refine ⟨fun l hl => ?_, fun l hl base' ho' id => ?_⟩
  · obtain rfl | rfl := htries l hl
    · exact hv
    · exact ⟨true, ho.isNode⟩
  · have hl : l = k := by
      obtain rfl | rfl := htries l hl
      · rw [← hmade, made, makeDirectories_of_opens ho']
      · rfl
    subst hl
    rw [ho'.unique ho]
    exact he id

/-- Either the storage directory is there, or nothing can be found below it. -/
theorem Reflects.opens_or_absent (hr : r.Reflects L h) :
    (∃ base, r.Holds L base h) ∨
      (∀ id, L id = none) ∧ h.isNode Node.isDirectory r.storage = .ok false := by
  cases hr with
  | holds base holds => exact Or.inl ⟨base, holds⟩
  | vacant vacant nothing =>
    obtain ⟨there, hd⟩ := vacant.visible h .refl
    cases there with
    | false => exact Or.inr ⟨nothing, hd⟩
    | true =>
      obtain ⟨base, ho⟩ := opens_of_isNode hd
      exact Or.inl ⟨base, vacant.holds ho nothing⟩

/-- Nothing is found under an id that is not listed, unless the system refuses to look. -/
theorem Reflects.isFile_of_unlisted (hr : r.Reflects L h) (hi : isId id = true) (hl : L id = none) :
    h.isNode Node.isFile (r.record id) = .ok false ∨ r.Refuses h id := by
  obtain ⟨base, hh⟩ | ⟨-, hd⟩ := hr.opens_or_absent
  · exact (hh.isFile_of_unlisted hi hl).imp_right fun ⟨ht, hlong⟩ => ⟨hi, ht, hlong⟩
  · exact (isFile_of_not_directory hd id).imp_right fun ⟨ht, hlong⟩ => ⟨hi, ht, hlong⟩

theorem Reflects.holds_of_listed (hr : r.Reflects L h) (hl : L id = some file) :
    ∃ base, r.Holds L base h := by
  cases hr with
  | holds base holds => exact ⟨base, holds⟩
  | vacant vacant nothing =>
    rw [nothing id] at hl
    cases hl

/-- What looking for the record of an id comes to. -/
inductive Look (r : Registry) (L : Ledger) (h : Host) (id : String) : Prop
  | listed (file : Path) (base : Place) (listed : L id = some file) (holds : r.Holds L base h)
  | invalid (unlisted : L id = none) (invalid : isId id = false)
  | absent (unlisted : L id = none) (valid : isId id = true)
      (absent : h.isNode Node.isFile (r.record id) = .ok false)
  | refused (unlisted : L id = none) (refused : r.Refuses h id)

theorem Reflects.look (hr : r.Reflects L h) (id : String) : r.Look L h id := by
  cases hl : L id with
  | some file =>
    obtain ⟨base, hh⟩ := hr.holds_of_listed hl
    exact .listed file base hl hh
  | none =>
    cases hi : isId id with
    | false => exact .invalid hl hi
    | true =>
      obtain hf | href := hr.isFile_of_unlisted hi hl
      · exact .absent hl hi hf
      · exact .refused hl href

theorem not_refuses_of_absent (hf : h.isNode Node.isFile (r.record id) = .ok false) :
    ¬ r.Refuses h id := by
  intro href
  rw [href.tooLong] at hf
  cases hf

theorem not_refuses_of_invalid (hi : isId id = false) : ¬ r.Refuses h id := by
  intro href
  rw [href.valid] at hi
  cases hi

theorem exec_isFile {p : Path} {x : Result Bool} (hf : h.isNode Node.isFile p = x) :
    (isFile p).exec h = (x, h) := by
  rw [isFile, exec_look, hf]

/-! ## What each call comes to -/

theorem lookup_of_valid (hi : isId id = true) : r.lookup id = (isFile (r.record id) >>= fun there =>
    if !there then pure none else readRecord (r.record id) >>= fun file => pure (some file)) := by
  rw [lookup, hi]
  rfl

theorem unregister_of_valid (hi : isId id = true) : r.unregister id =
    (isFile (r.record id) >>= fun known =>
      if !known then throw (.notFound (.registration id)) else Work.remove (r.record id)) := by
  rw [unregister, hi]
  rfl

/-- What is left of registering a preview file once its id is known. -/
def enter (r : Registry) (id : String) (file : Path) : Work Registration := do
  Work.makeDirectories r.storage
  let _ ← Work.exists_ (r.record id)
  Work.writeText (r.record id) file.text
  return ⟨id, file⟩

theorem register_eq (file : Path) : r.register file = (do
    let file ← Work.realPath file
    let entries ← Preview.loadEntries file
    let id ← Work.look fun _ => idOf file entries
    if !isId id then throw (.config (.invalidId id) Preview.Location.nowhere)
    r.enter id file) := rfl

/-- Registering fails before it changes anything, or it goes on with the id of the preview file. -/
theorem register_ends (r : Registry) (h : Host) (file : Path) :
    (∃ e, (r.register file).exec h = (.error e, h)) ∨
      ∃ id real entries, h.realPath file = .ok real ∧
        (Preview.loadEntries real).outcome h = .ok entries ∧ idOf real entries = .ok id ∧
        isId id = true ∧ (r.register file).exec h = (r.enter id real).exec h := by
  rw [register_eq]
  cases hreal : h.realPath file with
  | error e => exact Or.inl ⟨e, exec_bind_error (by rw [Work.realPath, exec_look, hreal])⟩
  | ok real =>
    rw [exec_bind_ok (a := real) (k := h) (by rw [Work.realPath, exec_look, hreal])]
    have hload := Still.exec_eq (Preview.loadEntries_moves real) h
    cases hloaded : (Preview.loadEntries real).outcome h with
    | error e =>
      rw [hloaded] at hload
      exact Or.inl ⟨e, exec_bind_error hload⟩
    | ok entries =>
      rw [hloaded] at hload
      rw [exec_bind_ok hload]
      cases hnamed : idOf real entries with
      | error e => exact Or.inl ⟨e, exec_bind_error (exec_look _ h)⟩
      | ok id =>
        rw [exec_bind_ok (exec_look (fun _ => Except.ok id) h)]
        cases hi : isId id with
        | false => exact Or.inl ⟨_, rfl⟩
        | true => exact Or.inr ⟨id, real, entries, rfl, hloaded, hnamed, hi, rfl⟩

/-- A record is written directly in the storage directory, or nothing but that directory is made. -/
theorem enter_ends (hlinks : r.Unlinked (r.made h)) (hi : isId id = true) (file : Path) :
    (∃ e, (r.enter id file).exec h = (.error e, r.made h)) ∨
      ∃ base mode, (r.made h).Opens r.storage base ∧
        ((r.made h).absolute r.storage).IsFit id ∧ (r.made h).store.IsLeaf (base ++ [id]) ∧
        (r.enter id file).exec h = (.ok ⟨id, file⟩,
          (r.made h).change (.write (base ++ [id]) (Text.toBytes file.text) mode)) := by
  rcases hm : (makeDirectories r.storage).exec h with ⟨e | ⟨⟩, k⟩
  · left
    exact ⟨e, by rw [enter, exec_bind_error hm, Registry.made, hm]⟩
  · have hk : r.made h = k := by rw [Registry.made, hm]
    obtain ⟨base, ho⟩ := makeDirectories_opens r.storage h k () hm
    rw [hk] at hlinks ⊢
    rw [enter, exec_bind_ok hm]
    cases hx : k.isNode (fun _ => true) (r.record id) with
    | error e => exact Or.inl ⟨e, exec_bind_error (by rw [exists_, exec_look, hx])⟩
    | ok there =>
      have hexists : (exists_ (r.record id)).exec k = (.ok there, k) := by rw [exists_, exec_look, hx]
      rw [exec_bind_ok hexists]
      cases hw : k.writing (r.record id) (Text.toBytes file.text) with
      | error e => exact Or.inl ⟨e, exec_bind_error (by rw [writeText, writeBytes, exec_perform, hw])⟩
      | ok c =>
        obtain ⟨q, ht, hleaf⟩ := leaf_of_writing hw
        obtain rfl := hlinks.place ho hi ht
        obtain rfl := Except.ok.inj (hw.symm.trans (ht.writing_of_leaf hleaf _))
        have hwrite := exec_perform_ok (f := fun k => k.writing (r.record id) _) hw
        exact Or.inr ⟨base, _, ho, ho.isFit_of_targets (ne_up hi) ht, hleaf, exec_bind_ok hwrite⟩

namespace Reflects

theorem lookup_exec (hr : r.Reflects L h) (id : String) :
    ∃ a, (Call.perform r (.lookup id)).exec h = (a, h) ∧ r.Answers h L (.lookup id) a := by
  show ∃ a, (r.lookup id >>= fun file => pure (Answer.found file)).exec h = (a, h) ∧ _
  cases hr.look id with
  | listed file base hl hh =>
    refine ⟨_, ?_, .found hl⟩
    rw [lookup_of_valid (hh.valid id file hl), bind_assoc,
      exec_bind_ok (exec_isFile (hh.isFile_of_listed hl))]
    show ((readRecord (r.record id) >>= fun file => pure (some file)) >>= _).exec h = _
    rw [bind_assoc, exec_bind_ok (hh.readRecord_exec hl)]
    rfl
  | invalid hl hi =>
    refine ⟨_, ?_, .missed hl (not_refuses_of_invalid hi)⟩
    rw [lookup, hi]
    rfl
  | absent hl hi hf =>
    refine ⟨_, ?_, .missed hl (not_refuses_of_absent hf)⟩
    rw [lookup_of_valid hi, bind_assoc, exec_bind_ok (exec_isFile hf)]
    rfl
  | refused hl href =>
    refine ⟨_, ?_, .unseen hl href⟩
    rw [lookup_of_valid href.valid, bind_assoc, exec_bind_error (exec_isFile href.tooLong)]

theorem unregister_exec (hr : r.Reflects L h) (id : String) :
    ∃ a k, (Call.perform r (.unregister id)).exec h = (a, k) ∧ r.Answers h L (.unregister id) a ∧
      r.Effects h (.unregister id) a k ∧ r.Reflects (L.after (.unregister id) a) k := by
  show ∃ a k, (r.unregister id >>= fun _ => pure Answer.done).exec h = (a, k) ∧ _
  cases hr.look id with
  | listed file base hl hh =>
    obtain ⟨content, mode, hs, -⟩ := hh.recorded id file hl
    have hremove : (Work.remove (r.record id)).exec h =
        (.ok (), h.change (.remove (base ++ [id]))) := by
      rw [Work.remove, exec_perform_ok ((hh.leads (hh.fit id file hl)).removing_of_file hs)]
    refine ⟨_, _, ?_, .unregistered hl, .removed hh.opens (hh.valid id file hl),
      .holds base (hh.remove id)⟩
    rw [unregister_of_valid (hh.valid id file hl), bind_assoc,
      exec_bind_ok (exec_isFile (hh.isFile_of_listed hl))]
    show (Work.remove (r.record id) >>= _).exec h = _
    rw [exec_bind_ok hremove]
    rfl
  | invalid hl hi =>
    refine ⟨_, _, ?_, .unknown hl (not_refuses_of_invalid hi), .unremoved, hr⟩
    rw [unregister, hi]
    rfl
  | absent hl hi hf =>
    refine ⟨_, _, ?_, .unknown hl (not_refuses_of_absent hf), .unremoved, hr⟩
    rw [unregister_of_valid hi, bind_assoc, exec_bind_ok (exec_isFile hf)]
    rfl
  | refused hl href =>
    refine ⟨_, _, ?_, .unremoved hl href, .unremoved, hr⟩
    rw [unregister_of_valid href.valid, bind_assoc, exec_bind_error (exec_isFile href.tooLong)]

theorem entries_exec (hr : r.Reflects L h) (hk : h.store.IsKeyed) :
    ∃ a, (Call.perform r .entries).exec h = (a, h) ∧ r.Answers h L .entries a := by
  show ∃ a, (r.entries >>= fun xs => pure (Answer.listed xs)).exec h = (a, h) ∧ _
  obtain ⟨base, hh⟩ | ⟨hl, hd⟩ := hr.opens_or_absent
  · obtain ⟨xs, hxs, hinc, hall⟩ := hh.entries_exec hk
    refine ⟨_, ?_, .listed hinc hall⟩
    rw [exec_bind_ok hxs]
    rfl
  · have hdirectory : (isDirectory r.storage).exec h = (.ok false, h) := by
      rw [isDirectory, exec_look, hd]
    refine ⟨.ok (.listed []), ?_, .listed .nil fun x => by simp [hl]⟩
    rw [entries, bind_assoc, exec_bind_ok hdirectory]
    rfl

/-- What holds after the storage directory was made. -/
theorem made (hr : r.Reflects L h) : r.Reflects L (r.made h) := by
  cases hr with
  | vacant vacant nothing => exact .vacant (vacant.of_tries (.again .refl)) nothing
  | holds base holds =>
    rw [Registry.made, makeDirectories_of_opens holds.opens]
    exact .holds base holds

theorem holds_of_opens (hr : r.Reflects L h) (ho : h.Opens r.storage base) : r.Holds L base h := by
  cases hr with
  | vacant vacant nothing => exact vacant.holds ho nothing
  | holds base' holds => rwa [← holds.opens.unique ho]

theorem unlinked (hr : r.Reflects L h) : r.Unlinked h :=
  fun _ ho name _ => ((hr.holds_of_opens ho).isLeaf name).ne_link

theorem enter_exec (hr : r.Reflects L h) (hi : isId id = true) (file : Path) :
    (∃ e, (r.enter id file).exec h = (.error e, r.made h)) ∨
      ∃ base mode, (r.made h).Opens r.storage base ∧ (r.enter id file).exec h = (.ok ⟨id, file⟩,
          (r.made h).change (.write (base ++ [id]) (Text.toBytes file.text) mode)) ∧
        r.Reflects (Function.update L id (some (noted file)))
          ((r.made h).change (.write (base ++ [id]) (Text.toBytes file.text) mode)) := by
  refine (enter_ends hr.made.unlinked hi file).imp_right ?_
  rintro ⟨base, mode, ho, hfit, -, hexec⟩
  exact ⟨base, mode, ho, hexec, .holds base ((hr.made.holds_of_opens ho).write hi hfit file mode)⟩

theorem register_exec (hr : r.Reflects L h) (file : Path) :
    ∃ a k, (Call.perform r (.register file)).exec h = (a, k) ∧ r.Answers h L (.register file) a ∧
      r.Effects h (.register file) a k ∧ r.Reflects (L.after (.register file) a) k := by
  show ∃ a k, (r.register file >>= fun x => pure (Answer.registered x)).exec h = (a, k) ∧ _
  obtain ⟨e, he⟩ | ⟨id, real, entries, hreal, hloaded, hnamed, hi, he⟩ := r.register_ends h file
  · exact ⟨_, _, exec_bind_error he, .failed, .unwritten, hr⟩
  · obtain ⟨e, hx⟩ | ⟨base, mode, ho, hx, hrw⟩ := hr.enter_exec hi real
    · exact ⟨_, _, exec_bind_error (he.trans hx), .failed, .onlyMade (r.made_grows h), hr.made⟩
    · exact ⟨_, _, exec_bind_ok (he.trans hx), .registered hreal hloaded hnamed hi,
        .written (r.made_grows h) ho hi, hrw⟩

/-! ## Every call -/

/-- A call answers what the ledger says, and what the registry keeps is what the ledger says then. -/
theorem step (hr : r.Reflects L h) (hk : h.store.IsKeyed) (c : Call) {a : Result Answer}
    (hc : (c.perform r).exec h = (a, k)) :
    r.Answers h L c a ∧ r.Effects h c a k ∧ r.Reflects (L.after c a) k := by
  cases c with
  | register file =>
    obtain ⟨a', k', hx, hall⟩ := hr.register_exec file
    cases hx.symm.trans hc
    exact hall
  | unregister id =>
    obtain ⟨a', k', hx, hall⟩ := hr.unregister_exec id
    cases hx.symm.trans hc
    exact hall
  | lookup id =>
    obtain ⟨a', hx, ha⟩ := hr.lookup_exec id
    cases hx.symm.trans hc
    exact ⟨ha, .looked, hr⟩
  | entries =>
    obtain ⟨a', hx, ha⟩ := hr.entries_exec hk
    cases hx.symm.trans hc
    exact ⟨ha, .listed, hr⟩

end Reflects

theorem isKeyed_of_grows (hk : h.store.IsKeyed) (hg : h.Grows k) : k.store.IsKeyed := by
  induction hg with
  | refl => exact hk
  | step _ _ _ _ ih => exact ih.apply _

theorem Effects.isKeyed {c : Call} {a : Result Answer} (he : r.Effects h c a k)
    (hk : h.store.IsKeyed) : k.store.IsKeyed := by
  cases he with
  | written grows opens valid => exact (isKeyed_of_grows hk grows).apply _
  | onlyMade grows => exact isKeyed_of_grows hk grows
  | removed opens valid => exact hk.apply _
  | _ => exact hk

end Registry
end Vitrine
