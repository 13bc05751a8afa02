import Vitrine.Proofs.Files.Differences
import Vitrine.Proofs.Files.Spelling
import Vitrine.Proofs.Preview.Generation
import Vitrine.Registry

/-!
# Records

A registry keeps one file for each registered preview file, directly in its storage directory. `Holds`
says that the directory holds the records of a ledger and nothing else; the four operations are followed
on such a directory, and on a host without one.
-/
namespace Vitrine
namespace Registry

open Work Host

/-- The preview files that are registered, by their ids. -/
abbrev Ledger := String → Option Path

/-- The path that the content of a record names. -/
def recorded? (content : List UInt8) : Option Path :=
  (Text.ofFile? content).map fun text => Path.ofText (Text.strip text)

/-- A path as it is read back from a record. -/
def noted (file : Path) : Path :=
  Path.ofText (Text.strip (String.ofList (Text.unifyLines file.text.toList)))

/-- The directory holds the records of a ledger and nothing else. -/
structure Holds (r : Registry) (L : Ledger) (base : Place) (h : Host) : Prop where
  opens : h.Opens r.storage base
  valid : ∀ id file, L id = some file → isId id = true
  fit : ∀ id file, L id = some file → (h.absolute r.storage).IsFit id
  recorded : ∀ id file, L id = some file → ∃ content mode,
    h.store.seen (base ++ [id]) = some (.file content mode (.counted 0)) ∧
      recorded? content = some file
  empty : ∀ id, L id = none → h.store.seen (base ++ [id]) = none

variable {r : Registry} {L : Ledger} {base : Place} {h k : Host} {id : String} {file : Path}

theorem recorded?_toBytes (file : Path) : recorded? (Text.toBytes file.text) = some (noted file) := by
  rw [recorded?, Text.ofFile?, Text.ofBytes?_toBytes]
  rfl

/-- A path without carriage returns and without blanks around it is read back as it is. -/
theorem noted_eq (hw : file.IsWritten) (hr : '\r' ∉ file.text.toList)
    (hs : Text.strip file.text = file.text) : noted file = file := by
  rw [noted, Text.unifyLines_of_notMem hr, String.ofList_toList, hs, Path.ofText_text hw]

theorem ne_up (hi : isId id = true) : id ≠ ".." := by
  rintro rfl
  exact absurd hi (by decide)

/-- The path in a file is read. -/
theorem readRecord_of_file {p : Path} {q : Place} {content : List UInt8} {mode : Nat}
    (hl : h.Leads p q) (hs : h.store.seen q = some (.file content mode (.counted 0)))
    (hc : recorded? content = some file) : (readRecord p).exec h = (.ok file, h) := by
  obtain ⟨text, ht, rfl⟩ := Option.map_eq_some_iff.mp hc
  have htext : (readText p).exec h = (.ok text, h) := by
    rw [readText, exec_look, Host.text, hl.bytes_of_file hs]
    dsimp only
    rw [ht]
  rw [readRecord, exec_bind_ok htext]
  rfl

/-- Nothing in the storage directory is a link. -/
def Unlinked (r : Registry) (h : Host) : Prop :=
  ∀ base, h.Opens r.storage base → ∀ name target, h.store.seen (base ++ [name]) ≠ some (.link target)

/-- The record of an id leads nowhere but into the storage directory. -/
theorem Unlinked.place (hl : r.Unlinked h) (ho : h.Opens r.storage base) (hi : isId id = true)
    {q : Place} (ht : h.Targets (r.record id) q) : q = base ++ [id] :=
  ho.targets_child (ne_up hi) (hl base ho id) ht

namespace Holds

/-! ## Looking records up -/

theorem isLeaf (hh : r.Holds L base h) (id : String) : h.store.IsLeaf (base ++ [id]) := by
  cases hl : L id with
  | none => exact Or.inl (hh.empty id hl)
  | some file =>
    obtain ⟨content, mode, hs, -⟩ := hh.recorded id file hl
    exact Or.inr ⟨content, mode, hs⟩

theorem leads (hh : r.Holds L base h) (hfit : (h.absolute r.storage).IsFit id) :
    h.Leads (r.record id) (base ++ [id]) :=
  hh.opens.leads_child hfit fun _ => (hh.isLeaf id).ne_link

/-- A listed id is the name of a file. -/
theorem isFile_of_listed (hh : r.Holds L base h) (hl : L id = some file) :
    h.isNode Node.isFile (r.record id) = .ok true := by
  obtain ⟨content, mode, hs, -⟩ := hh.recorded id file hl
  exact (hh.leads (hh.fit id file hl)).isFile_of_file hs

/-- The record of a listed id is read. -/
theorem readRecord_exec (hh : r.Holds L base h) (hl : L id = some file) :
    (readRecord (r.record id)).exec h = (.ok file, h) := by
  obtain ⟨content, mode, hs, hc⟩ := hh.recorded id file hl
  exact readRecord_of_file (hh.leads (hh.fit id file hl)) hs hc

/-- Nothing is found under an id that is not listed, unless the system refuses to look. -/
theorem isFile_of_unlisted (hh : r.Holds L base h) (hi : isId id = true) (hl : L id = none) :
    h.isNode Node.isFile (r.record id) = .ok false ∨
      h.isNode Node.isFile (r.record id) = .error (.system .nameTooLong) ∧ h.IsLong r.storage id := by
  by_cases hfit : (h.absolute r.storage).IsFit id
  · exact Or.inl ((hh.leads hfit).isFile_of_none (hh.empty id hl))
  · obtain hv | ⟨ht, hlong⟩ := hh.opens.refuses_child (ne_up hi) hfit
    · left
      rw [isNode, node, record, hv]
      rfl
    · right
      rw [isNode, node, record, ht]
      exact ⟨rfl, hlong⟩

end Holds

/-- Without a storage directory there are no records. -/
theorem isFile_of_not_directory (hd : h.isNode Node.isDirectory r.storage = .ok false) (id : String) :
    h.isNode Node.isFile (r.record id) = .ok false ∨
      h.isNode Node.isFile (r.record id) = .error (.system .nameTooLong) ∧ h.IsLong r.storage id := by
  obtain ⟨e, hr, he⟩ := reach_child_of_not_directory id hd
  rw [isNode, node, record, hr]
  obtain he | ⟨rfl, hlong⟩ := he
  · left
    dsimp only
    rw [if_pos he]
  · exact Or.inr ⟨rfl, hlong⟩

/-! ## Listing records -/

namespace Holds

theorem entriesOf_exec (hh : r.Holds L base h) {ids : List String}
    (hall : ∀ id ∈ ids, ∃ file, L id = some file) :
    ∃ xs : List Registration, (entriesOf r ids).exec h = (.ok xs, h) ∧ xs.map (·.id) = ids ∧
      ∀ x ∈ xs, L x.id = some x.file := by
  induction ids with
  | nil => exact ⟨[], rfl, rfl, by simp⟩
  | cons id ids ih =>
    obtain ⟨file, hl⟩ := hall id List.mem_cons_self
    obtain ⟨xs, hxs, hids, hlisted⟩ := ih fun id hid => hall id (List.mem_cons_of_mem _ hid)
    have hfile : (isFile (r.record id)).exec h = (.ok true, h) := by
      rw [isFile, exec_look, hh.isFile_of_listed hl]
    refine ⟨⟨id, file⟩ :: xs, ?_, by rw [List.map_cons, hids], ?_⟩
    · rw [entriesOf, exec_bind_ok hfile]
      show (readRecord (r.record id) >>= fun file => entriesOf r ids >>= fun xs =>
        pure (⟨id, file⟩ :: xs)).exec h = _
      rw [exec_bind_ok (hh.readRecord_exec hl), exec_bind_ok hxs]
      rfl
    · intro x hx
      rcases List.mem_cons.mp hx with rfl | hx
      · exact hl
      · exact hlisted x hx

/-- The names in the directory are the ids that are listed. -/
theorem mem_names (hh : r.Holds L base h) (id : String) :
    id ∈ h.store.names base ↔ ∃ file, L id = some file := by
  rw [Store.mem_names]
  constructor
  · intro hs
    exact Option.ne_none_iff_exists'.mp fun hl => hs (hh.empty id hl)
  · rintro ⟨file, hl⟩ hs
    obtain ⟨content, mode, hf, -⟩ := hh.recorded id file hl
    rw [hs] at hf
    cases hf

/-- All records are listed, each once and in the order of their ids. -/
theorem entries_exec (hh : r.Holds L base h) (hk : h.store.IsKeyed) :
    ∃ xs : List Registration, r.entries.exec h = (.ok xs, h) ∧
      (xs.map (·.id)).Pairwise (· < ·) ∧ ∀ x, x ∈ xs ↔ L x.id = some x.file := by
  obtain ⟨xs, hxs, hids, hlisted⟩ := hh.entriesOf_exec fun id => (hh.mem_names id).mp
  refine ⟨xs, ?_, by rw [hids]; exact hk.names_increasing base, fun x => ⟨hlisted x, fun hx => ?_⟩⟩
  · have hdirectory : (isDirectory r.storage).exec h = (.ok true, h) := by
      rw [isDirectory, exec_look, hh.opens.isNode]
    have hlist : (Work.names r.storage).exec h = (.ok (h.store.names base), h) := by
      rw [Work.names, exec_look, hh.opens.names]
    rw [entries, exec_bind_ok hdirectory]
    show (Work.names r.storage >>= fun ids => entriesOf r ids).exec h = _
    rw [exec_bind_ok hlist, hxs]
  · have hid : x.id ∈ xs.map (·.id) := by
      rw [hids]
      exact (hh.mem_names x.id).mpr ⟨x.file, hx⟩
    obtain ⟨y, hy, hxy⟩ := List.mem_map.mp hid
    have hfile : y.file = x.file := by
      have := hlisted y hy
      rw [hxy, hx] at this
      exact (Option.some.inj this).symm
    rwa [show x = y by cases x; cases y; simp_all]

/-! ## Changing records -/

/-- What is done to one record is not seen in the others. -/
theorem set (hh : r.Holds L base h) {c : Change} {o : Option Path}
    (hd : Store.DiffersAt (base ++ [id]) h.store (c.apply h.store))
    (hnone : o = none → (c.apply h.store).seen (base ++ [id]) = none)
    (hsome : ∀ file, o = some file → Registry.isId id = true ∧ (h.absolute r.storage).IsFit id ∧
      ∃ content mode, (c.apply h.store).seen (base ++ [id]) =
        some (.file content mode (.counted 0)) ∧ recorded? content = some file) :
    r.Holds (Function.update L id o) base (h.change c) := by
  have hother : ∀ {id'}, id' ≠ id → (h.change c).store.seen (base ++ [id']) =
      h.store.seen (base ++ [id']) := fun hne => hd.others _ fun he => hne (by simpa using he)
  have hkeep : ∀ {id' file}, Function.update L id o id' = some file →
      (id' = id ∧ o = some file) ∨ (id' ≠ id ∧ L id' = some file) := by
    intro id' file hl
    by_cases hid : id' = id
    · rw [hid, Function.update_self] at hl
      exact Or.inl ⟨hid, hl⟩
    · rw [Function.update_of_ne hid] at hl
      exact Or.inr ⟨hid, hl⟩
  refine ⟨⟨hh.opens.sound, hh.opens.leads.of_sameWays hd.ways,
    hd.ways.isDirectory hh.opens.isDirectory⟩, fun id' file hl => ?_, fun id' file hl => ?_,
    fun id' file hl => ?_, fun id' hl => ?_⟩
  · obtain ⟨rfl, ho⟩ | ⟨-, hl⟩ := hkeep hl
    · exact (hsome file ho).1
    · exact hh.valid id' file hl
  · obtain ⟨rfl, ho⟩ | ⟨-, hl⟩ := hkeep hl
    · exact (hsome file ho).2.1
    · exact hh.fit id' file hl
  · obtain ⟨rfl, ho⟩ | ⟨hid, hl⟩ := hkeep hl
    · exact (hsome file ho).2.2
    · rw [hother hid]
      exact hh.recorded id' file hl
  · by_cases hid : id' = id
    · rw [hid, Function.update_self] at hl
      rw [hid]
      exact hnone hl
    · rw [Function.update_of_ne hid] at hl
      rw [hother hid]
      exact hh.empty id' hl

theorem write (hh : r.Holds L base h) (hi : Registry.isId id = true)
    (hfit : (h.absolute r.storage).IsFit id) (file : Path) (mode : Nat) :
    r.Holds (Function.update L id (some (noted file))) base
      (h.change (.write (base ++ [id]) (Text.toBytes file.text) mode)) := by
  refine hh.set (Change.differsAt_write (hh.isLeaf id) _ _) (fun ho => nomatch ho) fun _ ho => ?_
  obtain rfl := Option.some.inj ho
  refine ⟨hi, hfit, Text.toBytes file.text, mode, ?_, recorded?_toBytes file⟩
  rw [Change.seen_write h.store _ _ _ (by simp), if_pos rfl]

theorem remove (hh : r.Holds L base h) (id : String) :
    r.Holds (Function.update L id none) base (h.change (.remove (base ++ [id]))) := by
  refine hh.set (Change.differsAt_remove (hh.isLeaf id)) (fun _ => ?_) fun _ ho => nomatch ho
  rw [Change.seen_remove h.store _ (by simp), if_pos rfl]

end Holds

end Registry
end Vitrine
