import Vitrine.Proofs.Registry.Footprint

/-!
# The agreement of the calls

Calls follow one another, and others go on with their own files meanwhile. At every moment the registry
answers what the calls so far have registered and not unregistered since, and it touches nothing but its
storage directory and the preview file that is registered.
-/
namespace Vitrine
namespace Registry

open Work Host

/-- What others do if they leave the storage directory alone. -/
structure Spares (r : Registry) (h k : Host) : Prop where
  keyed : h.store.IsKeyed → k.store.IsKeyed
  vacant : r.IsVacant h → r.IsVacant k
  absolute : k.absolute r.storage = h.absolute r.storage
  opens : ∀ base, h.Opens r.storage base → k.Opens r.storage base
  same : ∀ base, h.Opens r.storage base → ∀ id,
    k.store.seen (base ++ [id]) = h.store.seen (base ++ [id])

/-- The calls so far, with what they came to, lead from a host to another one. -/
inductive Follows (r : Registry) (start : Host) : List (Call × Result Answer) → Host → Prop
  | start : Follows r start [] start
  | call {t : List (Call × Result Answer)} {h k : Host} {a : Result Answer} (before : Follows r start t h)
      (c : Call) (performed : (c.perform r).exec h = (a, k)) : Follows r start (t ++ [(c, a)]) k
  | others {t : List (Call × Result Answer)} {h k : Host} (before : Follows r start t h)
      (spares : r.Spares h k) : Follows r start t k

/-- What was registered and not unregistered since. -/
def ledger (t : List (Call × Result Answer)) : Ledger :=
  t.foldl (fun L x => L.after x.1 x.2) fun _ => none

variable {r : Registry} {L : Ledger} {base q : Place} {h k start : Host} {c : Call}
  {t : List (Call × Result Answer)} {a : Result Answer}

theorem ledger_concat (t : List (Call × Result Answer)) (c : Call) (a : Result Answer) :
    ledger (t ++ [(c, a)]) = (ledger t).after c a := by
  rw [ledger, List.foldl_append]
  rfl

/-! ## What others do -/

/-- An empty storage directory is vacant. -/
theorem isVacant_of_empty (ho : h.Opens r.storage base) (he : ∀ id, h.store.seen (base ++ [id]) = none) :
    r.IsVacant h := by
  have htries : ∀ l, r.Tries h l → l = h := by
    intro l hl
    induction hl with
    | refl => rfl
    | again _ ih => rw [ih, made, makeDirectories_of_opens ho]
  refine ⟨fun l hl => ⟨true, ?_⟩, fun l hl base' ho' id => ?_⟩
  · rw [htries l hl]
    exact ho.isNode
  · obtain rfl := htries l hl
    rw [ho'.unique ho]
    exact he id

/-- Others may write files anywhere else. -/
theorem spares_write (ho : h.Opens r.storage base) (hq : h.store.IsLeaf q) (hne : q.dropLast ≠ base)
    (content : List UInt8) (mode : Nat) : r.Spares h (h.change (.write q content mode)) := by
  have hd := Change.differsAt_write hq content mode
  have hopens : (h.change (.write q content mode)).Opens r.storage base :=
    ⟨ho.sound, ho.leads.of_sameWays hd.ways, hd.ways.isDirectory ho.isDirectory⟩
  have hsame : ∀ id, (h.change (.write q content mode)).store.seen (base ++ [id]) =
      h.store.seen (base ++ [id]) := by
    intro id
    refine hd.others _ fun he => hne ?_
    rw [← he, List.dropLast_concat]
  refine ⟨fun hk => hk.apply _, fun hv => isVacant_of_empty hopens fun id => ?_, rfl,
    fun base' ho' => ?_, fun base' ho' => ?_⟩
  · rw [hsame id]
    exact hv.empty h .refl base ho id
  · rwa [ho'.unique ho]
  · rwa [ho'.unique ho]

theorem Reflects.of_spares (hr : r.Reflects L h) (hs : r.Spares h k) : r.Reflects L k := by
  cases hr with
  | vacant vacant nothing => exact .vacant (hs.vacant vacant) nothing
  | holds base hh =>
    have hsame := hs.same base hh.opens
    refine .holds base ⟨hs.opens base hh.opens, hh.valid, ?_, ?_, ?_⟩
    · rw [hs.absolute]
      exact hh.fit
    · intro id file hl
      rw [hsame id]
      exact hh.recorded id file hl
    · intro id hl
      rw [hsame id]
      exact hh.empty id hl

/-! ## What every call comes to -/

/-- What the registry keeps is always what its ledger says. -/
theorem Follows.reflects (hv : r.IsVacant start) (hk : start.store.IsKeyed)
    (ht : r.Follows start t h) : r.Reflects (ledger t) h ∧ h.store.IsKeyed := by
  induction ht with
  | start => exact ⟨.vacant hv fun _ => rfl, hk⟩
  | call before c performed ih =>
    obtain ⟨hr, hk⟩ := ih
    obtain ⟨-, heffects, hnext⟩ := hr.step hk c performed
    rw [ledger_concat]
    exact ⟨hnext, heffects.isKeyed hk⟩
  | others before spares ih => exact ⟨ih.1.of_spares spares, spares.keyed ih.2⟩

/-- Every call answers what the ledger says, changes nothing but what is its own, and does not depend on
the content of any other file. -/
theorem calls_agree (hv : r.IsVacant start) (hk : start.store.IsKeyed) (ht : r.Follows start t h)
    (c : Call) :
    ∃ a k, (c.perform r).exec h = (a, k) ∧ r.Answers h (ledger t) c a ∧ r.Effects h c a k ∧
      ∀ f, (∀ q, r.Touches h c q → Keeps f q) →
        (c.perform r).exec (h.recast f) = (a, k.recast f) := by
  obtain ⟨hr, hkeyed⟩ := ht.reflects hv hk
  obtain ⟨hanswers, heffects, -⟩ := hr.step hkeyed c rfl
  exact ⟨_, _, rfl, hanswers, heffects, fun f hf => hr.commutes c hf⟩

/-! ## A sample -/

def sample : Registry := ⟨⟨.absolute, ["w", "state", "previews"]⟩⟩

def sampleFile : Path := ⟨.absolute, ["w", "p.yml"]⟩

def sampleNode : Node := .file (Text.toBytes "source: App.js\nid: demo\n") 0o644 (.counted 1)

/-- A host without a storage directory. -/
def sampleHost : Host where
  store := ⟨[(["w"], .directory 0o755 (.counted 0)), (["w", "p.yml"], sampleNode)], 2⟩
  history := []
  workingDirectory := ⟨.absolute, ["w"]⟩
  logs := []
  issued := 0
  processId := 1
  running := []
  now := ""

/-- The sample with its storage directory. -/
def sampleMade : Host :=
  { sampleHost with
    store := ⟨[(["w"], .directory 0o755 (.counted 2)), (["w", "p.yml"], sampleNode),
      (["w", "state"], .directory 0o755 (.counted 3)),
      (["w", "state", "previews"], .directory 0o755 (.counted 3))], 4⟩
    history := [.makeDirectory ["w", "state"], .makeDirectory ["w", "state", "previews"]] }

theorem sample_made : (makeDirectories sample.storage).exec sampleHost = (.ok (), sampleMade) := by
  cbv

theorem sample_opens : sampleMade.Opens sample.storage ["w", "state", "previews"] where
  sound := by decide
  leads := .of_reach (x := .there ["w", "state", "previews"] (.directory 0o755 (.counted 3))) (by cbv)
  isDirectory := ⟨0o755, by cbv⟩

theorem sample_empty (id : String) : sampleMade.store.seen (["w", "state", "previews"] ++ [id]) = none := by
  rw [Store.seen_eq_none]
  simp [Store.get?, sampleMade, List.lookup]

theorem sample_isVacant : sample.IsVacant sampleHost :=
  isVacant_of_made sample_made sample_opens sample_empty ⟨false, by cbv⟩

theorem sample_isKeyed : sampleHost.store.IsKeyed := by
  rw [Store.IsKeyed]
  decide

theorem sample_text : sampleHost.text sampleFile = .ok "source: App.js\nid: demo\n" := by cbv

theorem sample_realPath : sampleHost.realPath sampleFile = .ok sampleFile := by cbv

theorem sample_entered : ((sample.enter "demo" sampleFile).exec sampleHost).1 =
    .ok ⟨"demo", sampleFile⟩ := by
  cbv

theorem sample_id : (match Preview.readEntries sampleFile "source: App.js\nid: demo\n" with
    | .ok entries =>
      match idOf sampleFile entries with
      | .ok id => id == "demo"
      | .error _ => false
    | .error _ => false) = true := by
  decide +kernel

theorem sample_loaded : ∃ entries,
    (Preview.loadEntries sampleFile).exec sampleHost = (.ok entries, sampleHost) ∧
      idOf sampleFile entries = .ok "demo" := by
  have hid := sample_id
  have hread : (attempt (readText sampleFile)).exec sampleHost =
      (.ok (.ok "source: App.js\nid: demo\n"), sampleHost) := by
    refine exec_attempt_ok ?_
    rw [readText, exec_look, sample_text]
  cases he : Preview.readEntries sampleFile "source: App.js\nid: demo\n" with
  | error e => simp [he] at hid
  | ok entries =>
    refine ⟨entries, ?_, ?_⟩
    · rw [Preview.loadEntries, exec_bind_ok hread, exec_look, he]
    · cases hn : idOf sampleFile entries with
      | error e => simp [he, hn] at hid
      | ok id => simpa [he, hn] using hid

theorem sample_register : (sample.register sampleFile).exec sampleHost =
    (.ok ⟨"demo", sampleFile⟩, ((sample.enter "demo" sampleFile).exec sampleHost).2) := by
  obtain ⟨entries, hload, hid⟩ := sample_loaded
  have hreal : (Work.realPath sampleFile).exec sampleHost = (.ok sampleFile, sampleHost) := by
    rw [Work.realPath, exec_look, sample_realPath]
  have hname : (look fun _ => idOf sampleFile entries).exec sampleHost = (.ok "demo", sampleHost) := by
    rw [exec_look, hid]
  rw [register_eq, exec_bind_ok hreal, exec_bind_ok hload, exec_bind_ok hname]
  exact Prod.ext sample_entered rfl

theorem sample_registered : ∃ k, ((Call.register sampleFile).perform sample).exec sampleHost =
    (.ok (.registered ⟨"demo", sampleFile⟩), k) := by
  refine ⟨((sample.enter "demo" sampleFile).exec sampleHost).2, ?_⟩
  show (sample.register sampleFile >>= fun x => pure (Answer.registered x)).exec sampleHost = _
  rw [exec_bind_ok sample_register]
  rfl

/-- What was registered is found. -/
theorem calls_agree_sample : ∃ k l, ((Call.register sampleFile).perform sample).exec sampleHost =
      (.ok (.registered ⟨"demo", sampleFile⟩), k) ∧
    ((Call.lookup "demo").perform sample).exec k = (.ok (.found (some sampleFile)), l) := by
  obtain ⟨k, hk⟩ := sample_registered
  obtain ⟨a, l, hl, hanswers, -⟩ := calls_agree sample_isVacant sample_isKeyed
    (.call .start (.register sampleFile) hk) (.lookup "demo")
  have hledger : ledger [(.register sampleFile, .ok (.registered ⟨"demo", sampleFile⟩))] "demo" =
      some sampleFile := by
    show some (noted sampleFile) = some sampleFile
    rw [noted_eq (by decide) (by decide) (by decide)]
  refine ⟨k, l, hk, ?_⟩
  rw [hl]
  cases hanswers with
  | found listed => rw [Option.some.inj (hledger.symm.trans listed)]
  | missed unlisted => cases hledger.symm.trans unlisted
  | unseen unlisted => cases hledger.symm.trans unlisted

end Registry
end Vitrine
