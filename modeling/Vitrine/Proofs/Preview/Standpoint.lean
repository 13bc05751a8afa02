import Vitrine.Proofs.Preview.Location

/-!
# One preview file under two paths

A preview file is loaded, its entry file is found and its code is generated under two paths, and on two
hosts. Both times the same comes out, or both times it fails, if the same text is read and the paths that
the file names mean the same.
-/
namespace Vitrine

open Result

namespace Work

variable {α β : Type} {h k : Host}

theorem alike_look {f g : Host → Result α} (hfg : Alike (f h) (g k)) :
    Alike ((look f).outcome h) ((look g).outcome k) := by
  rwa [outcome_look, outcome_look]

/-- Work that leaves its hosts alone comes to the same step by step. -/
theorem Still.alike_bind {w w' : Work α} {f f' : α → Work β} (hw : w.Still) (hw' : w'.Still)
    (hfirst : Alike (w.outcome h) (w'.outcome k))
    (hrest : ∀ a, w.outcome h = .ok a → Alike ((f a).outcome h) ((f' a).outcome k)) :
    Alike ((w >>= f).outcome h) ((w' >>= f').outcome k) := by
  rw [hw.outcome_bind, hw'.outcome_bind]
  exact hfirst.bind hrest

theorem alike_look_bind {f g : Host → Result α} {v w : α → Work β} (hfg : Alike (f h) (g k))
    (hrest : ∀ a, f h = .ok a → Alike ((v a).outcome h) ((w a).outcome k)) :
    Alike ((look f >>= v).outcome h) ((look g >>= w).outcome k) := by
  rw [outcome_look_bind, outcome_look_bind]
  exact hfg.bind hrest

end Work

namespace Preview

open Work

variable {h k : Host} {file file' entry : Path} {language : Language} {c : Config}
  {settings : Settings} {directory : Option Path}

theorem loadConfig_alike (ht : Alike (h.text file) (k.text file')) :
    Alike ((loadConfig file).outcome h) ((loadConfig file').outcome k) := by
  refine Still.alike_bind (loadEntries_moves file) (loadEntries_moves file') ?_ fun entries _ =>
    alike_look (readConfig_alike file file' entries)
  rw [outcome_loadEntries, outcome_loadEntries]
  generalize h.text file = x, k.text file' = y at ht
  cases ht with
  | result text => exact readEntries_alike file file' text
  | failure d e =>
    -- A text that is missing, cannot be read or is none: each of them fails.
    split
    · next heq => cases heq
    all_goals
      split
      · next heq => cases heq
      all_goals exact .failure _ _

/-- What is loaded was read. -/
theorem text_of_loadConfig (hc : (loadConfig file).outcome h = .ok c) : ∃ s, h.text file = .ok s := by
  cases ht : h.text file with
  | ok s => exact ⟨s, rfl⟩
  | error e =>
    obtain ⟨e', he⟩ : ∃ e', (loadEntries file).outcome h = .error e' := by
      rw [outcome_loadEntries, ht]
      split
      · next heq => cases heq
      all_goals exact ⟨_, rfl⟩
    rw [loadConfig, Still.outcome_bind (loadEntries_moves file), he] at hc
    cases hc

theorem outcome_render : (render file settings directory).outcome h =
    (resolveEntry file settings directory).outcome h >>= fun x =>
      (generate file x.1 x.2).outcome h >>= fun code => .ok (x.1, code) := by
  rw [render, Still.outcome_bind (resolveEntry_still _ _ _)]
  refine bind_congr fun x => ?_
  rw [Still.outcome_bind (generate_moves _ _ _)]
  rfl

/-- A preview file that has an entry file was loaded. -/
theorem loadConfig_of_resolveEntry {x : Path × Language}
    (hx : (resolveEntry file settings directory).outcome h = .ok x) :
    ∃ c, (loadConfig file).outcome h = .ok c := by
  rw [resolveEntry, Still.outcome_bind (loadConfig_moves file)] at hx
  cases hc : (loadConfig file).outcome h with
  | error e =>
    rw [hc] at hx
    cases hx
  | ok c => exact ⟨c, rfl⟩

theorem resolveEntry_of_unreadable (hfile : ∀ s, h.text file ≠ .ok s) (settings : Settings)
    (directory : Option Path) : ∃ e, (resolveEntry file settings directory).outcome h = .error e := by
  cases hx : (resolveEntry file settings directory).outcome h with
  | error e => exact ⟨e, rfl⟩
  | ok x =>
    obtain ⟨c, hc⟩ := loadConfig_of_resolveEntry hx
    obtain ⟨s, hs⟩ := text_of_loadConfig hc
    exact absurd hs (hfile s)

/-- The output that a preview file names, if it names one. -/
def Config.outputPath? (c : Config) : Option Path := (c.output.filter (· ≠ "")).map Path.ofText

/-- The same entry file is found if the same output is meant. -/
theorem resolveEntry_alike (ht : Alike (h.text file) (h.text file')) (settings : Settings)
    (directory : Option Path)
    (houtput : ∀ c, (loadConfig file).outcome h = .ok c → ∀ p, c.outputPath? = some p →
      h.realPath (file'.parent.join p) = h.realPath (file.parent.join p)) :
    Alike ((resolveEntry file settings directory).outcome h)
      ((resolveEntry file' settings directory).outcome h) := by
  refine Still.alike_bind (loadConfig_moves file) (loadConfig_moves file') (loadConfig_alike ht)
    fun c hc => ?_
  have hsame := houtput c hc
  rw [Config.outputPath?] at hsame
  split
  · next output ho =>
    rw [ho] at hsame
    refine alike_look_bind ?_ fun entry _ => .refl _
    rw [hsame _ rfl]
    exact .refl _
  · exact .refl _

/-- What fails without a file fails where there is none. -/
theorem fails_of_not_isFile {α : Type} {p : Path} {f : Bool → Work α}
    (hp : h.isNode Node.isFile p ≠ .ok true) (hf : ∃ e, (f false).outcome h = .error e) :
    ∃ e, (isFile p >>= f).outcome h = .error e := by
  rw [isFile, outcome_look_bind]
  cases hthere : h.isNode Node.isFile p with
  | error e => exact ⟨e, rfl⟩
  | ok there =>
    cases there with
    | false => exact hf
    | true => exact absurd hthere hp

/-- The same component is meant from the one preview file on the one host and from the other one on the
other host, and it is imported by the same path. -/
structure SameImport (h k : Host) (file file' entry : Path) (c : Config) : Prop where
  source : k.realPath (file'.parent.join (Path.ofText c.source)) =
    h.realPath (file.parent.join (Path.ofText c.source))
  component : ∀ component, h.realPath (file.parent.join (Path.ofText c.source)) = .ok component →
    k.realPath component = h.realPath component ∧
      (h.isNode Node.isFile component = .ok true ↔ k.isNode Node.isFile component = .ok true)
  entry : k.realPath entry = h.realPath entry

theorem resolve_alike (hs : SameImport h k file file' entry c) :
    Alike ((resolve c file entry language).outcome h) ((resolve c file' entry language).outcome k) := by
  refine alike_look_bind (hs.source ▸ .refl _) fun component hcomponent => ?_
  obtain ⟨hreal, hsame⟩ := hs.component component hcomponent
  by_cases hthere : h.isNode Node.isFile component = .ok true
  · have hthere' := hsame.mp hthere
    refine alike_look_bind (by rw [hthere, hthere']; exact .refl _) fun there hlooked => ?_
    obtain rfl := Except.ok.inj (hthere.symm.trans hlooked)
    refine alike_look_bind (resolveName_alike file file' c component) fun name _ => ?_
    refine alike_look_bind (resolveProps_alike file file' c) fun props _ => ?_
    refine Still.alike_bind (importPath_moves _ _) (importPath_moves _ _) ?_ fun path _ =>
      alike_look_bind (.refl _) fun _ _ => .refl _
    exact alike_look_bind (hreal ▸ .refl _) fun _ _ =>
      alike_look_bind (hs.entry ▸ .refl _) fun _ _ => .refl _
  · have hthere' : k.isNode Node.isFile component ≠ .ok true := fun hk => hthere (hsame.mpr hk)
    exact .of_errors (fails_of_not_isFile hthere ⟨_, rfl⟩) (fails_of_not_isFile hthere' ⟨_, rfl⟩)

/-- The same code is generated. -/
theorem generate_alike (ht : Alike (h.text file) (k.text file'))
    (hs : ∀ c, (loadConfig file).outcome h = .ok c → SameImport h k file file' entry c) :
    Alike ((generate file entry language).outcome h) ((generate file' entry language).outcome k) :=
  Still.alike_bind (resolveFile_moves _ _ _) (resolveFile_moves _ _ _)
    (Still.alike_bind (loadConfig_moves file) (loadConfig_moves file') (loadConfig_alike ht)
      fun c hc => resolve_alike (hs c hc)) fun _ _ => alike_look (.refl _)

end Preview
end Vitrine
