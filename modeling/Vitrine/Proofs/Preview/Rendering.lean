import Vitrine.Proofs.Preview.Generation
import Vitrine.Proofs.Preview.Interpreting
import Vitrine.Session.Run

/-!
# How rendering ends

Rendering a preview leaves all files alone and ends in the entry file and its code, in an error that
is reported in words, or in one of the escapes that `Escapes` lists (`render_ends`).
-/
namespace Vitrine

variable {h : Host}

/-! ## Errors of paths -/

namespace Host

theorem walk_errors {s : Store} {follow : Bool} {links : Nat} {here : Place} {names : List String}
    {e : Errno} (h : s.walk follow links here names = .error e) :
    e ∈ [Errno.nameTooLong, .noEntry, .notDirectory, .linkLoop] := by
  fun_induction Store.walk s follow links here names <;> simp_all

theorem reach_errors {follow : Bool} {p : Path} {e : Error} (he : h.reach follow p = .error e) :
    (e = .fault .value ∧ p.isSound = false) ∨
      ∃ n ∈ [Errno.nameTooLong, .noEntry, .notDirectory, .linkLoop], e = .system n := by
  rw [reach] at he
  split at he
  · split at he
    · cases he
    · next n hreach =>
      cases he
      refine .inr ⟨n, ?_, rfl⟩
      rw [Store.reach] at hreach
      split at hreach
      · cases hreach
        exact List.mem_cons_self
      · exact walk_errors hreach
  · next hsound =>
    cases he
    exact .inl ⟨rfl, Bool.eq_false_iff.mpr hsound⟩

/-- Looking what a path leads to fails for no other reason than that it is too long. -/
theorem isNode_errors {kind : Node → Bool} {p : Path} {e : Error} (he : h.isNode kind p = .error e) :
    e = .system .nameTooLong ∧ h.reach true p = .error (.system .nameTooLong) := by
  rw [isNode, node] at he
  cases hreach : h.reach true p with
  | ok r =>
    rw [hreach] at he
    cases r with
    | there place n => cases he
    | free place => cases he
  | error f =>
    rw [hreach] at he
    dsimp only at he
    split at he
    · cases he
    · next hf =>
      cases he
      rcases reach_errors hreach with ⟨rfl, -⟩ | ⟨n, hn, rfl⟩
      · exact absurd rfl hf
      · simp only [List.mem_cons, List.not_mem_nil, or_false] at hn
        rcases hn with rfl | rfl | rfl | rfl
        · exact ⟨rfl, rfl⟩
        all_goals exact absurd rfl hf

/-- A path has no real path if no name can hold a part of it, or if links lead in a circle. -/
theorem realPath_errors {p : Path} {e : Error} (he : h.realPath p = .error e) :
    (e = .fault .value ∧ p.isSound = false) ∨
      (e = .fault .runtime ∧ h.store.reach true (h.store.realPath (h.absolute p)) = .error .linkLoop) := by
  rw [realPath] at he
  split at he
  · dsimp only at he
    split at he
    · next hloop =>
      cases he
      exact .inr ⟨rfl, hloop⟩
    · cases he
  · next hsound =>
    cases he
    exact .inl ⟨rfl, Bool.eq_false_iff.mpr hsound⟩

/-- A file has no text if the system keeps it from being read, if no name can hold a part of its
path, or if its bytes are none. -/
theorem text_errors {p : Path} {e : Error} (he : h.text p = .error e) :
    (∃ n, e = .system n) ∨ (e = .fault .value ∧ p.isSound = false) ∨
      (e = .fault .decoding ∧ ∃ content, h.bytes p = .ok content ∧ Text.ofFile? content = none) := by
  rw [text] at he
  split at he
  · next content hcontent =>
    split at he
    · cases he
    · next htext =>
      cases he
      exact .inr (.inr ⟨rfl, content, hcontent, htext⟩)
  · next f hbytes =>
    cases he
    rw [bytes, node] at hbytes
    cases hreach : h.reach true p with
    | ok r =>
      rw [hreach] at hbytes
      cases r with
      | there place n =>
        cases n <;> cases hbytes <;> exact .inl ⟨_, rfl⟩
      | free place =>
        cases hbytes
        exact .inl ⟨_, rfl⟩
    | error g =>
      rw [hreach] at hbytes
      cases hbytes
      rcases reach_errors hreach with hvalue | ⟨n, -, rfl⟩
      · exact .inr (.inl hvalue)
      · exact .inl ⟨n, rfl⟩

end Host

/-! ## Contained errors -/

/-- A result that is no error, an error that is reported in words, or one of some others. -/
def Contained {α : Type} (S : Error → Prop) (x : Result α) : Prop :=
  ∀ e, x = .error e → e.isReported = true ∨ S e

namespace Contained

variable {α β : Type} {S : Error → Prop}

theorem ok (a : α) : Contained S (.ok a) := fun _ h => by cases h

theorem reported {e : Error} (he : e.isReported = true) : Contained S (.error e : Result α) :=
  fun _ h => Except.error.inj h ▸ .inl he

theorem bind {x : Result α} {f : α → Result β} (hx : Contained S x)
    (hf : ∀ a, x = .ok a → Contained S (f a)) : Contained S (x >>= f) := by
  cases x with
  | ok a => exact hf a rfl
  | error e => exact fun _ h => Except.error.inj h ▸ hx e rfl

theorem ofReads {T : Fault → Prop} {P : α → Prop} {x : Result α} (hx : Preview.Reads T P x)
    (hT : ∀ f, T f → S (.fault f)) : Contained S x := by
  cases hx with
  | result => exact .ok _
  | refusal => exact .reported rfl
  | fault hf => exact fun _ h => Except.error.inj h ▸ .inr (hT _ hf)

end Contained

namespace Preview

open Value

/-! ## Keys of props -/

/-- Keys that are texts, as they are or as the bytes of one. -/
def IsText (k : Key) : Prop := ∃ s, readText k.toValue = .ok s

theorem textEntries_cons (e : Key × Data) (es : List (Key × Data)) :
    textEntries (e :: es) = Checked.ap (Checked.map List.cons
      (((textOf e.1.toValue).within "[key]").within (keyPlace e.1) |>.map fun name => (name, e.2)))
      (textEntries es) := rfl

theorem textEntries_valid {entries : List (Key × Data)} (h : ∀ e ∈ entries, IsText e.1) :
    ∃ ds, textEntries entries = .valid ds := by
  induction entries with
  | nil => exact ⟨[], rfl⟩
  | cons e es ih =>
    obtain ⟨ds, hds⟩ := ih fun d hd => h d (List.mem_cons_of_mem _ hd)
    obtain ⟨s, hs⟩ := h e List.mem_cons_self
    exact ⟨(s, e.2) :: ds, by rw [textEntries_cons, textOf, hs, hds]; rfl⟩

theorem mem_of_textEntries {entries : List (Key × Data)} {ds : List (String × Data)}
    (h : textEntries entries = .valid ds) : ∀ d ∈ ds, ∃ e ∈ entries, d.2 = e.2 := by
  induction entries generalizing ds with
  | nil =>
    cases h
    exact fun _ hd => absurd hd List.not_mem_nil
  | cons e es ih =>
    rw [textEntries_cons, textOf] at h
    cases htext : readText e.1.toValue with
    | error c =>
      rw [htext] at h
      cases hes : textEntries es <;> (rw [hes] at h; cases h)
    | ok s =>
      rw [htext] at h
      cases hes : textEntries es with
      | invalid issues => rw [hes] at h; cases h
      | valid others =>
        rw [hes] at h
        cases h
        intro d hd
        rcases List.mem_cons.mp hd with rfl | hd
        · exact ⟨e, List.mem_cons_self, rfl⟩
        · obtain ⟨e', he', heq⟩ := ih hes d hd
          exact ⟨e', List.mem_cons_of_mem _ he', heq⟩

/-- Props whose keys are texts make a descriptor. -/
theorem checkProps_errors {props : List (Key × Data)} {e : Error} (he : checkProps props = .error e) :
    ∃ issues, e = .invalidDescriptor issues ∧ ∃ p ∈ props, ¬IsText p.1 := by
  rw [checkProps, mappingOf] at he
  cases hentries : textEntries props with
  | valid ds => rw [hentries] at he; cases he
  | invalid issues =>
    rw [hentries] at he
    refine ⟨_, (Except.error.inj he).symm, ?_⟩
    by_contra hall
    push Not at hall
    obtain ⟨ds, hds⟩ := textEntries_valid hall
    exact nomatch hentries.symm.trans hds

theorem checkProps_hasLiterals {props checked : List (Key × Data)}
    (h : checkProps props = .ok checked) (hprops : HasLiterals (.object () props)) :
    HasLiterals (.object () checked) := by
  rw [checkProps, mappingOf] at h
  cases hentries : textEntries props with
  | invalid issues => rw [hentries] at h; cases h
  | valid ds =>
    rw [hentries] at h
    cases h
    refine hasLiterals_object fun e he => ?_
    refine Entries.forall_values_ofList (fun d hd => ?_) e he
    obtain ⟨pair, hpair, rfl⟩ := List.mem_map.mp hd
    obtain ⟨p, hp, heq⟩ := mem_of_textEntries hentries pair hpair
    exact fun w hw => hprops w (.entry hp (heq ▸ hw))

/-! ## Escapes -/

section Escapes

variable (h : Host) (file : Path) (settings : Settings) (directory : Option Path)

/-- A preview file holds a configuration. -/
def Loads (c : Config) : Prop :=
  ∃ text, h.text file = .ok text ∧ (readEntries file text).bind (readConfig file) = .ok c

/-- The directory in which an entry file is looked for. -/
def entryDirectory : Path := settings.workingDirectory.join (directory.getD (Path.ofText "src"))

/-- The paths that are followed to their real paths: those of the entry file and of the component,
and the real paths themselves. -/
inductive Follows (c : Config) : Path → Prop
  | output {output : String} (ho : c.output.filter (· ≠ "") = some output) :
      Follows c (file.parent.join (Path.ofText output))
  | entry (language : Language) :
      Follows c ((entryDirectory settings directory).child language.entryName)
  | source : Follows c (file.parent.join (Path.ofText c.source))
  | real {p q : Path} (hp : Follows c p) (hq : h.realPath p = .ok q) : Follows c q

/-- The paths that are asked about: the directory of the entry file, what decides on its language,
and the component. -/
inductive Asks (c : Config) : Path → Prop
  | directory : Asks c (entryDirectory settings directory)
  | typed : Asks c ((entryDirectory settings directory).child "tsconfig.json")
  | parent {p q : Path} (hp : Follows h file settings directory c p) (hq : h.realPath p = .ok q) :
      Asks c q.parent
  | component {q : Path} (hq : h.realPath (file.parent.join (Path.ofText c.source)) = .ok q) :
      Asks c q

/-- The errors that rendering ends in without words of its own. -/
inductive Escapes : Error → Prop
  /-- No name can hold a part of the preview file's path. -/
  | file (hp : file.isSound = false) : Escapes (.fault .value)
  /-- The preview file is no text. -/
  | encoding {content : List UInt8} (hc : h.bytes file = .ok content)
      (ht : Text.ofFile? content = none) : Escapes (.fault .decoding)
  /-- The preview file has a scalar that its tag does not fit or an escape of no character. -/
  | document {text : String} {f : Fault} (ht : h.text file = .ok text)
      (hf : Yaml.read text = .error (.fault f)) : Escapes (.fault f)
  /-- No name can hold a part of a path that is followed. -/
  | name {c : Config} {p : Path} (hc : Loads h file c) (hp : Follows h file settings directory c p)
      (hs : p.isSound = false) : Escapes (.fault .value)
  /-- A path that is followed leads to links in a circle. -/
  | linkLoop {c : Config} {p : Path} (hc : Loads h file c)
      (hp : Follows h file settings directory c p)
      (hl : h.store.reach true (h.store.realPath (h.absolute p)) = .error .linkLoop) :
      Escapes (.fault .runtime)
  /-- A path that is asked about is too long. -/
  | tooLong {c : Config} {p : Path} (hc : Loads h file c) (hp : Asks h file settings directory c p)
      (hl : h.reach true p = .error (.system .nameTooLong)) : Escapes (.system .nameTooLong)
  /-- The props hold a text that the parser faults on or too long an integer. -/
  | props {c : Config} {f : Fault} (hc : Loads h file c) (hf : Unreadable c.props f) :
      Escapes (.fault f)
  /-- The props are a mapping tagged as something else, with a key that is no text. -/
  | keys {c : Config} {entries : List (Key × Data)} {e : Key × Data} {issues : List Issue}
      (hc : Loads h file c) (hm : Mistagged entries c.props) (he : e ∈ entries)
      (hk : ¬IsText e.1) : Escapes (.invalidDescriptor issues)
  /-- A part of the style is of a kind without a literal. -/
  | style {c : Config} {w : Data} (hc : Loads h file c) (hw : w.LacksLiteral)
      (hp : Part w (.object () (resolveStyle c))) : Escapes (.fault .type)
  /-- An integer in the style or in the props that were read is too long. -/
  | integer {c : Config} {d : Descriptor} {entry : Path} {language : Language}
      (hc : Loads h file c) (hd : (resolve c file entry language).outcome h = .ok d)
      (hl : d.propsObject.HasLong ∨ d.styleObject.HasLong) : Escapes (.fault .value)

variable {h file settings directory}

theorem loads_unique {c c' : Config} (hc : Loads h file c) (hc' : Loads h file c') : c = c' := by
  obtain ⟨text, htext, hconfig⟩ := hc
  obtain ⟨text', htext', hconfig'⟩ := hc'
  rw [htext] at htext'
  cases htext'
  rw [hconfig] at hconfig'
  exact Except.ok.inj hconfig'

theorem realPath_contained {c : Config} {p : Path} (hc : Loads h file c)
    (hp : Follows h file settings directory c p) :
    Contained (Escapes h file settings directory) (h.realPath p) := by
  intro e he
  rcases Host.realPath_errors he with ⟨rfl, hsound⟩ | ⟨rfl, hloop⟩
  · exact .inr (.name hc hp hsound)
  · exact .inr (.linkLoop hc hp hloop)

theorem isNode_contained {c : Config} {p : Path} (hc : Loads h file c)
    (hp : Asks h file settings directory c p) (kind : Node → Bool) :
    Contained (Escapes h file settings directory) (h.isNode kind p) := by
  intro e he
  obtain ⟨rfl, hlong⟩ := Host.isNode_errors he
  exact .inr (.tooLong hc hp hlong)

/-! ## Loading -/

theorem loadConfig_contained :
    Contained (Escapes h file settings directory) ((loadConfig file).outcome h) := by
  rw [loadConfig, Work.Still.outcome_bind (loadEntries_moves file)]
  refine .bind ?_ fun entries _ => ?_
  · rw [outcome_loadEntries]
    cases htext : h.text file with
    | ok text =>
      dsimp only
      rw [readEntries]
      split
      · exact .reported rfl
      · next f hf => exact fun _ h => Except.error.inj h ▸ .inr (.document htext hf)
      · exact .ok _
      · exact .ok _
      · exact .reported rfl
    | error e =>
      rcases Host.text_errors htext with ⟨n, rfl⟩ | ⟨rfl, hsound⟩ | ⟨rfl, content, hbytes, hnone⟩
      · cases n <;> exact .reported rfl
      · exact fun _ h => Except.error.inj h ▸ .inr (.file hsound)
      · exact fun _ h => Except.error.inj h ▸ .inr (.encoding hbytes hnone)
  · rw [Work.outcome_look]
    unfold readConfig
    split
    · exact .ok _
    · exact .reported rfl

theorem loads_of_loadConfig {c : Config} (hc : (loadConfig file).outcome h = .ok c) :
    Loads h file c := by
  rw [loadConfig, Work.Still.outcome_bind (loadEntries_moves file), outcome_loadEntries] at hc
  obtain ⟨entries, hentries, hc⟩ := bind_eq_ok.mp hc
  rw [Work.outcome_look] at hc
  split at hentries
  · next text htext => exact ⟨text, htext, bind_eq_ok.mpr ⟨entries, hentries, hc⟩⟩
  all_goals cases hentries

/-! ## The entry file -/

theorem detectEntry_contained {c : Config} (hc : Loads h file c) (language : Option Language) :
    Contained (Escapes h file settings directory)
      ((detectEntry directory settings.workingDirectory language).outcome h) := by
  have hreal : ∀ l : Language, Contained (Escapes h file settings directory)
      ((do return (← Work.realPath ((entryDirectory settings directory).child l.entryName), l) :
        Work (Path × Language)).outcome h) := by
    intro l
    rw [Work.realPath, Work.outcome_look_bind]
    exact .bind (realPath_contained hc (.entry l)) fun entry _ => .ok _
  rw [detectEntry, Work.isDirectory, Work.outcome_look_bind]
  refine .bind (isNode_contained hc .directory _) fun found _ => ?_
  cases language with
  | some l =>
    dsimp only
    split
    · exact .reported rfl
    · exact hreal l
  | none =>
    dsimp only
    split
    · exact .reported rfl
    · rw [Work.exists_, Work.outcome_look_bind]
      exact .bind (isNode_contained hc .typed _) fun typed _ => hreal _

theorem resolveEntry_contained :
    Contained (Escapes h file settings directory)
      ((resolveEntry file settings directory).outcome h) := by
  rw [resolveEntry, Work.Still.outcome_bind (loadConfig_moves file)]
  refine .bind loadConfig_contained fun c hload => ?_
  have hc := loads_of_loadConfig hload
  split
  · next output houtput =>
    rw [Work.realPath, Work.outcome_look_bind]
    refine .bind (realPath_contained hc (.output houtput)) fun entry hentry => ?_
    rw [Work.isDirectory, Work.outcome_look_bind]
    refine .bind (isNode_contained hc (.parent (.output houtput) hentry) _) fun found _ => ?_
    split
    · exact .reported rfl
    · exact .ok _
  · exact detectEntry_contained hc c.language

/-- The entry file is a real path that was followed. -/
theorem follows_detectEntry {c : Config} {entry : Path} {language : Option Language}
    {decided : Language}
    (he : (detectEntry directory settings.workingDirectory language).outcome h =
      .ok (entry, decided)) : Follows h file settings directory c entry := by
  have hreal : ∀ l : Language, (do
      return (← Work.realPath ((entryDirectory settings directory).child l.entryName), l) :
        Work (Path × Language)).outcome h = .ok (entry, decided) →
      Follows h file settings directory c entry := by
    intro l hl
    rw [Work.realPath, Work.outcome_look_bind] at hl
    obtain ⟨p, hp, hl⟩ := bind_eq_ok.mp hl
    cases hl
    exact .real (.entry decided) hp
  rw [detectEntry, Work.isDirectory, Work.outcome_look_bind] at he
  obtain ⟨found, -, he⟩ := bind_eq_ok.mp he
  cases language with
  | some l =>
    dsimp only at he
    split at he
    · cases he
    · exact hreal l he
  | none =>
    dsimp only at he
    split at he
    · cases he
    · rw [Work.exists_, Work.outcome_look_bind] at he
      obtain ⟨typed, -, he⟩ := bind_eq_ok.mp he
      exact hreal _ he

theorem follows_resolveEntry {entry : Path} {language : Language}
    (he : (resolveEntry file settings directory).outcome h = .ok (entry, language)) {c : Config}
    (hc : Loads h file c) : Follows h file settings directory c entry := by
  rw [resolveEntry, Work.Still.outcome_bind (loadConfig_moves file)] at he
  obtain ⟨c', hload, he⟩ := bind_eq_ok.mp he
  cases loads_unique hc (loads_of_loadConfig hload)
  split at he
  · next output houtput =>
    rw [Work.realPath, Work.outcome_look_bind] at he
    obtain ⟨p, hp, he⟩ := bind_eq_ok.mp he
    rw [Work.isDirectory, Work.outcome_look_bind] at he
    obtain ⟨found, -, he⟩ := bind_eq_ok.mp he
    split at he
    · cases he
    · cases he
      exact .real (.output houtput) hp
  · exact follows_detectEntry he

/-! ## The descriptor -/

theorem resolveProps_contained {c : Config} (hc : Loads h file c) :
    Contained (Escapes h file settings directory) (resolveProps c file) := by
  refine .bind (.ofReads (Reading.read_reads _ _ c.props) fun f hf => .props hc hf) fun v _ => ?_
  split
  · exact .ok _
  · exact .ok _
  · exact .reported rfl

/-- What props are resolved to has literals, and texts as keys unless it was tagged as something
else. -/
theorem resolveProps_eq_ok {c : Config} {props : List (Key × Data)}
    (hp : resolveProps c file = .ok props) :
    HasLiterals (.object () props) ∧ (AreNamed props ∨ Mistagged props c.props) := by
  obtain ⟨v, hread, hp⟩ := bind_eq_ok.mp hp
  split at hp
  · cases hp
    exact ⟨areNamed_nil.hasLiterals, .inl areNamed_nil⟩
  · cases hp
    exact ⟨(Reading.read_reads _ _ c.props).of_eq_ok hread, Reading.read_eq_object hread⟩
  · cases hp

theorem checkProps_contained {c : Config} (hc : Loads h file c) {props : List (Key × Data)}
    (hp : resolveProps c file = .ok props) :
    Contained (Escapes h file settings directory) (checkProps props) := by
  intro e he
  obtain ⟨issues, rfl, p, hmem, hkey⟩ := checkProps_errors he
  rcases (resolveProps_eq_ok hp).2 with hnamed | hmistagged
  · obtain ⟨s, hs⟩ := (hnamed p hmem).1
    exact absurd ⟨s, by rw [hs]; rfl⟩ hkey
  · exact .inr (.keys hc hmistagged hmem hkey)

theorem importPath_contained {c : Config} {entry component : Path} (hc : Loads h file c)
    (hentry : Follows h file settings directory c entry)
    (hcomponent : Follows h file settings directory c component) :
    Contained (Escapes h file settings directory) ((importPath entry component).outcome h) := by
  rw [importPath, Work.realPath, Work.outcome_look_bind]
  refine .bind (realPath_contained hc hcomponent) fun there _ => ?_
  rw [Work.realPath, Work.outcome_look_bind]
  exact .bind (realPath_contained hc hentry) fun here _ => .ok _

theorem resolveName_contained {S : Error → Prop} (c : Config) (component : Path) :
    Contained S (resolveName c file component) := by
  rw [resolveName]
  split
  · exact .ok _
  · split
    · exact .ok _
    · exact .reported rfl

theorem resolve_contained {c : Config} {entry : Path} {language : Language} (hc : Loads h file c)
    (hentry : Follows h file settings directory c entry) :
    Contained (Escapes h file settings directory) ((resolve c file entry language).outcome h) := by
  rw [resolve, Work.realPath, Work.outcome_look_bind]
  refine .bind (realPath_contained hc .source) fun component hcomponent => ?_
  rw [Work.isFile, Work.outcome_look_bind]
  refine .bind (isNode_contained hc (.component hcomponent) _) fun found _ => ?_
  split
  · exact .reported rfl
  · rw [Work.outcome_look_bind]
    refine .bind (resolveName_contained c component) fun name _ => ?_
    rw [Work.outcome_look_bind]
    refine .bind (resolveProps_contained hc) fun props hprops => ?_
    rw [Work.Still.outcome_bind (importPath_moves entry component)]
    refine .bind (importPath_contained hc hentry (.real .source hcomponent)) fun path _ => ?_
    rw [Work.outcome_look_bind]
    exact .bind (checkProps_contained hc hprops) fun checked _ => .ok _

/-- The props of a descriptor have literals; its style is taken as the configuration gives it. -/
theorem resolve_eq_ok {c : Config} {entry : Path} {language : Language} {d : Descriptor}
    (hd : (resolve c file entry language).outcome h = .ok d) :
    HasLiterals d.propsObject ∧ d.style = resolveStyle c := by
  rw [resolve, Work.realPath, Work.outcome_look_bind] at hd
  obtain ⟨component, -, hd⟩ := bind_eq_ok.mp hd
  rw [Work.isFile, Work.outcome_look_bind] at hd
  obtain ⟨found, -, hd⟩ := bind_eq_ok.mp hd
  split at hd
  · cases hd
  · rw [Work.outcome_look_bind] at hd
    obtain ⟨name, -, hd⟩ := bind_eq_ok.mp hd
    rw [Work.outcome_look_bind] at hd
    obtain ⟨props, hprops, hd⟩ := bind_eq_ok.mp hd
    rw [Work.Still.outcome_bind (importPath_moves entry component)] at hd
    obtain ⟨path, -, hd⟩ := bind_eq_ok.mp hd
    rw [Work.outcome_look_bind] at hd
    obtain ⟨checked, hchecked, hd⟩ := bind_eq_ok.mp hd
    cases hd
    exact ⟨checkProps_hasLiterals hchecked (resolveProps_eq_ok hprops).1, rfl⟩

/-! ## The code -/

theorem code_contained {c : Config} {entry : Path} {language : Language} {d : Descriptor}
    (hc : Loads h file c) (hd : (resolve c file entry language).outcome h = .ok d) :
    Contained (Escapes h file settings directory) (Result.ofFault d.code) := by
  obtain ⟨hliterals, hstyle⟩ := resolve_eq_ok hd
  cases hcode : d.code with
  | ok text => exact .ok _
  | error f =>
    refine fun _ he => Except.error.inj he ▸ .inr ?_
    rcases d.code_faults f hcode with (⟨hw, hpart⟩ | ⟨hlong⟩) | ⟨hw, hpart⟩ | ⟨hlong⟩
    · exact absurd hw (hliterals _ hpart)
    · exact .integer hc hd (.inl hlong)
    · exact .style hc hw (hstyle ▸ hpart)
    · exact .integer hc hd (.inr hlong)

theorem generate_contained {c : Config} {entry : Path} {language : Language} (hc : Loads h file c)
    (hentry : Follows h file settings directory c entry) :
    Contained (Escapes h file settings directory) ((generate file entry language).outcome h) := by
  rw [generate, Work.Still.outcome_bind (resolveFile_moves file entry language), resolveFile,
    Work.Still.outcome_bind (loadConfig_moves file)]
  have hresolved : Contained (Escapes h file settings directory)
      ((loadConfig file).outcome h >>= fun c => (resolve c file entry language).outcome h) := by
    refine .bind loadConfig_contained fun c' hload => ?_
    cases loads_unique hc (loads_of_loadConfig hload)
    exact resolve_contained hc hentry
  refine .bind hresolved fun d hd => ?_
  obtain ⟨c', hload, hd⟩ := bind_eq_ok.mp hd
  rw [Work.outcome_look]
  exact code_contained (loads_of_loadConfig hload) hd

theorem render_contained :
    Contained (Escapes h file settings directory) ((render file settings directory).outcome h) := by
  rw [render, Work.Still.outcome_bind (resolveEntry_moves file settings directory)]
  refine .bind resolveEntry_contained fun resolved hresolved => ?_
  obtain ⟨entry, language⟩ := resolved
  have hload : ∃ c, Loads h file c := by
    rw [resolveEntry, Work.Still.outcome_bind (loadConfig_moves file)] at hresolved
    obtain ⟨c, hload, -⟩ := bind_eq_ok.mp hresolved
    exact ⟨c, loads_of_loadConfig hload⟩
  obtain ⟨c, hc⟩ := hload
  show Contained _ ((do return (entry, ← generate file entry language) :
    Work (Path × String)).outcome h)
  rw [Work.Still.outcome_bind (generate_moves file entry language)]
  exact .bind (generate_contained hc (follows_resolveEntry hresolved hc)) fun code _ => .ok _

end Escapes

/-- A host with a component. -/
def plainHost : Host where
  store := {
    nodes := [(["w"], .directory 0o755 (.counted 1)), (["w", "A.js"], .file [] 0o644 (.counted 2))]
    clock := 3 }
  history := []
  workingDirectory := ⟨.absolute, ["w"]⟩
  logs := []
  issued := 0
  processId := 7
  running := []
  now := "2000-01-01T00:00:00+00:00"

/-- A configuration with a set in its style. -/
def setConfig : Config where
  source := "A.js"
  id := none
  componentName := none
  output := none
  language := none
  height := none
  width := none
  style := [(.str "data", .set () [.str "a"])]
  importStyle := .default
  props := .null
  legacyNulls := false

def setDescriptor : Descriptor :=
  ⟨"A", .default, "../A", [], resolveStyle setConfig, .js⟩

end Preview
end Vitrine
