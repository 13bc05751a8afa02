import Vitrine.Proofs.Files.Recasting
import Vitrine.Proofs.Registry.Ledger

/-!
# The footprint of a registry

The contents that a call depends on: those of the files directly in the storage directory, and of the
preview file that is registered. With other contents anywhere else a call does the same.
-/
namespace Vitrine

open Work Host

variable {f : Place → List UInt8 → List UInt8} {h k : Host}

theorem Preview.loadEntries_commutes {file : Path}
    (hf : ∀ q n, h.node file = .ok (q, n) → Keeps f q) : Commutes f (loadEntries file) h := by
  refine (readText_commutes hf).attempt.bind fun x k _ => ?_
  split
  · exact commutes_look rfl
  · exact commutes_throw _
  · exact commutes_throw _

namespace Registry

/-- The files that a call may touch, by their places. -/
inductive Touches (r : Registry) (h : Host) : Call → Place → Prop
  | record {c : Call} {base : Place} (opens : (r.made h).Opens r.storage base) (id : String) :
      Touches r h c (base ++ [id])
  | preview {file real : Path} {q : Place} {n : Node} (resolved : h.realPath file = .ok real)
      (found : h.node real = .ok (q, n)) : Touches r h (.register file) q

variable {r : Registry} {L : Ledger} {base : Place} {id : String} {file : Path} {c : Call}

/-- Where the storage directory is there, nothing needs to be made. -/
theorem Touches.of_opens (ho : h.Opens r.storage base) (id : String) :
    r.Touches h c (base ++ [id]) :=
  .record (by rwa [made, makeDirectories_of_opens ho]) id

/-! ## Records that are read -/

theorem readRecord_still (p : Path) : (readRecord p).Still :=
  (moves_look _).bind fun _ => moves_pure _

namespace Holds

theorem readRecord_commutes (hh : r.Holds L base h) (hf : ∀ id, Keeps f (base ++ [id]))
    (hl : L id = some file) : Commutes f (readRecord (r.record id)) h := by
  refine (readText_commutes fun q n hn => ?_).bind fun text k _ => commutes_pure _
  rw [(node_eq_ok hn).2.1.unique ((hh.leads (hh.fit id file hl)).leads true)]
  exact hf id

theorem entriesOf_commutes (hh : r.Holds L base h) (hf : ∀ id, Keeps f (base ++ [id]))
    {ids : List String} (hall : ∀ id ∈ ids, ∃ file, L id = some file) :
    Commutes f (entriesOf r ids) h := by
  induction ids with
  | nil => exact commutes_pure _
  | cons id ids ih =>
    obtain ⟨file, hl⟩ := hall id List.mem_cons_self
    have hrest := ih fun id hid => hall id (List.mem_cons_of_mem _ hid)
    rw [entriesOf]
    refine Still.commutes_bind (moves_look _) (isFile_commutes _) fun there _ =>
      .ite (fun _ => ?_) fun _ => hrest
    refine Still.commutes_bind (readRecord_still _) (hh.readRecord_commutes hf hl) fun file _ => ?_
    exact hrest.bind fun xs k _ => commutes_pure _

end Holds

namespace Reflects

/-- What is found under an id is its record. -/
theorem listed_of_isFile (hr : r.Reflects L h)
    (hthere : h.isNode Node.isFile (r.record id) = .ok true) (hi : isId id = true) :
    ∃ file base, L id = some file ∧ r.Holds L base h := by
  cases hr.look id with
  | listed file base listed holds => exact ⟨file, base, listed, holds⟩
  | invalid unlisted invalid => cases hi.symm.trans invalid
  | absent unlisted valid absent => cases hthere.symm.trans absent
  | refused unlisted refused => cases hthere.symm.trans refused.tooLong

theorem lookup_commutes (hr : r.Reflects L h) (hf : ∀ q, r.Touches h (.lookup id) q → Keeps f q) :
    Commutes f (r.lookup id) h := by
  cases hi : isId id with
  | false =>
    rw [lookup, hi]
    exact commutes_pure _
  | true =>
    rw [lookup_of_valid hi]
    refine Still.commutes_bind (moves_look _) (isFile_commutes _) fun there hthere =>
      .ite (fun _ => commutes_pure _) fun hfound => ?_
    rw [Bool.not_eq_true, Bool.not_eq_false'] at hfound
    rw [isFile, outcome_look, hfound] at hthere
    obtain ⟨file, base, hl, hh⟩ := hr.listed_of_isFile hthere hi
    refine (hh.readRecord_commutes (fun id => hf _ (.of_opens hh.opens id)) hl).bind
      fun file k _ => commutes_pure _

theorem unregister_commutes (id : String) : Commutes f (r.unregister id) h := by
  cases hi : isId id with
  | false =>
    rw [unregister, hi]
    exact commutes_throw _
  | true =>
    rw [unregister_of_valid hi]
    exact (isFile_commutes _).bind fun _ _ _ =>
      .ite (fun _ => commutes_throw _) fun _ => remove_commutes _

theorem entries_commutes (hr : r.Reflects L h) (hf : ∀ q, r.Touches h .entries q → Keeps f q) :
    Commutes f r.entries h := by
  rw [entries]
  refine Still.commutes_bind (moves_look _) (isDirectory_commutes _) fun there hthere =>
    .ite (fun _ => commutes_pure _) fun hfound => ?_
  rw [Bool.not_eq_true, Bool.not_eq_false'] at hfound
  rw [isDirectory, outcome_look, hfound] at hthere
  obtain ⟨base, ho⟩ := opens_of_isNode hthere
  have hh := hr.holds_of_opens ho
  refine Still.commutes_bind (moves_look _) (commutes_look (h.names_recast _)) fun ids hids => ?_
  rw [Work.names, outcome_look, ho.names] at hids
  obtain rfl := Except.ok.inj hids
  exact hh.entriesOf_commutes (fun id => hf _ (.of_opens ho id)) fun id => (hh.mem_names id).mp

/-! ## Registering -/

theorem enter_commutes (hr : r.Reflects L h) (hi : isId id = true) (file : Path)
    (hf : ∀ base id, (r.made h).Opens r.storage base → Keeps f (base ++ [id])) :
    Commutes f (r.enter id file) h := by
  refine (makeDirectories_commutes r.storage h).bind fun _ k hm => ?_
  have hk : r.made h = k := by rw [Registry.made, hm]
  obtain ⟨base, ho⟩ := makeDirectories_opens r.storage h k _ hm
  have hlinks : r.Unlinked k := hk ▸ hr.made.unlinked
  refine Still.commutes_bind (moves_look _) (exists_commutes _) fun _ _ => ?_
  refine (writeText_commutes fun c hc => ?_).bind fun _ k _ => commutes_pure _
  obtain ⟨q, ht, hleaf⟩ := leaf_of_writing hc
  obtain rfl := hlinks.place ho hi ht
  obtain rfl := Except.ok.inj ((ht.writing_of_leaf hleaf _).symm.trans hc)
  exact hf base id (hk ▸ ho) _

theorem register_commutes (hr : r.Reflects L h)
    (hf : ∀ q, r.Touches h (.register file) q → Keeps f q) : Commutes f (r.register file) h := by
  rw [register_eq]
  refine Still.commutes_bind (moves_look _) (commutes_look (h.realPath_recast _)) fun real hreal => ?_
  rw [Work.realPath, outcome_look] at hreal
  refine Still.commutes_bind (Preview.loadEntries_moves real)
    (Preview.loadEntries_commutes fun q n hn => hf q (.preview hreal hn)) fun entries _ => ?_
  refine Still.commutes_bind (moves_look _) (commutes_look rfl) fun id _ =>
    .ite (fun _ => commutes_throw _) fun hi => ?_
  exact hr.enter_commutes (by simpa using hi) real fun base id ho => hf _ (.record ho id)

/-- A call does not depend on the contents of the files that it may not touch. -/
theorem commutes (hr : r.Reflects L h) (c : Call) (hf : ∀ q, r.Touches h c q → Keeps f q) :
    Commutes f (c.perform r) h := by
  cases c with
  | register file => exact (hr.register_commutes hf).bind fun _ _ _ => commutes_pure _
  | unregister id => exact (unregister_commutes id).bind fun _ _ _ => commutes_pure _
  | lookup id => exact (hr.lookup_commutes hf).bind fun _ _ _ => commutes_pure _
  | entries => exact (hr.entries_commutes hf).bind fun _ _ _ => commutes_pure _

end Reflects
end Registry
end Vitrine
