import Vitrine.Proofs.Session.Glances
import Vitrine.Proofs.Session.Regeneration

/-!
# Edits at any time

The preview file may be edited between any two statements of a session, and the watcher may look at it and
tell of it there, from the installation until the session ends. Every session heeds its preview file then
(`runBetween_answers`). Of an edit before the watcher is started it never tells (`early_edit_missed`); an
edit once the session is active gets into the entry file (`late_edit_heeded`).
-/
namespace Vitrine

/-- A dev server with nothing else going on around its session. -/
def Script.alone {σ τ : Type} (b : Script τ) : Script σ where
  exitCode := b.exitCode
  timeouts := b.timeouts
  ignoresTermination := b.ignoresTermination
  startError := b.startError
  signalAtStart := b.signalAtStart
  waitFails := b.waitFails
  duringStart := id
  duringWait := fun _ => id
  onTermination := id
  duringRestoration := id

namespace Session

variable {σ : Type}

/-! ## A session among events -/

/-- The first notes are made where the preview file is read and where the watcher is started. -/
def Diary.noted (d : Diary) (h : Host) : Gap → Diary
  | .rendered => { d with read := d.read.or (some h) }
  | .watching => { d with started := d.started.or (some h) }
  | _ => d

/-- The gaps in which a session ends. -/
def Gap.isLate : Gap → Bool
  | leaving | restoring | unwatched | asking | asked | outlasted | ending | ended | restored
  | discarded | unmarked => true
  | _ => false

/-- Events in every gap until the session ends. -/
def among (events : Gap → List Happening) (gap : Gap) : Act Diary Unit :=
  if gap.isLate then pure ()
  else modify fun t =>
    (events gap).foldl Happening.enact { t with outside := t.outside.noted t.host gap }

/-- What a diary says of a session: nothing, or it heeds the preview file with the entry file and the
language that were found in the beginning. -/
def Diary.Answers (t : Scene Unit) (d : Diary) : Prop :=
  d = .blank ∨ ∃ g : Target, g.file = t.session.configFile ∧
    ((Preview.resolveEntry t.session.configFile t.session.settings
      t.session.entryDirectory).exec t.host).1 = .ok (g.entry, g.language) ∧ d.Heeds g

variable {g : Target} {read started : Host} {code : String} {t : Scene Diary}

namespace Minded

theorem noted (h : Minded g read started code t) (k : Host) (gap : Gap) :
    t.outside.noted k gap = t.outside := by
  obtain ⟨⟨read', started', glances, pending⟩, ht⟩ : ∃ d, t.outside = d := ⟨_, rfl⟩
  have hread := h.hasRead
  have hstarted := h.hasStarted
  rw [ht] at hread hstarted ⊢
  obtain rfl : read' = some read := hread
  obtain rfl : started' = some started := hstarted
  cases gap <;> rfl

theorem keeps_among (events : Gap → List Happening) (gap : Gap) :
    Act.Keeps (Minded g read started code) (among events gap) := by
  intro t h
  rw [among]
  cases gap.isLate with
  | true => exact h
  | false =>
    show Minded g read started code ((events gap).foldl Happening.enact _)
    rw [h.noted]
    exact List.foldlRecOn (motive := Minded g read started code) (events gap) Happening.enact h
      fun u hu e _ => hu.enact e

theorem keeps_start {τ : Type} (b : Script τ) (events : Gap → List Happening) :
    Act.Keeps (Minded g read started code) (startBetween b.alone (among events)) := by
  let script : Script Diary := b.alone
  have hI : Indifferent script (Minded g read started code) := indifferent _ rfl
  have hend : ∀ command, Act.Keeps (Minded g read started code) (endStart script command) := by
    intro command
    rw [endStart]
    cases script.startError with
    | some e => exact Act.keeps_throw _
    | none =>
      exact Act.keeps_setSession fun t h =>
        h.of_attends fun _ hr => ⟨hr.config, hr.target, hr.watching, hr.content⟩
  have hcommand : ∀ c, Act.Keeps (Minded g read started code)
      (Act.setServer fun v => { v with command := c }) :=
    fun c => hI.keeps_setServer fun _ => ⟨le_rfl, id, id⟩
  have hduring : Act.Keeps (Minded g read started code) (modify script.duringStart) :=
    Act.keeps_modify fun _ h => h
  refine Act.keeps_session.bind fun s => (hI.keeps_quiet s.settings.command_quiet).bind fun command =>
    (keeps_among events _).bind fun _ => (hcommand _).bind fun _ => hduring.bind fun _ =>
      (keeps_among events _).bind fun _ => ?_
  cases (b.alone : Script Diary).signalAtStart with
  | none => exact (hend command).bind fun _ => keeps_among events _
  | some n =>
    exact (hI.keeps_receive n).bind fun _ => (hend command).bind fun _ => keeps_among events _

end Minded

/-! ## Installing -/

/-- A session whose watcher was not started, and what was noted of it. -/
structure Unwatched (g : Target) (read : Option Host) (t : Scene Diary) : Prop where
  outside : t.outside = ⟨read, none, [], []⟩
  config : t.session.configFile = g.file
  target : t.session.entry = some (g.entry, g.language)

/-- Generated code was written. -/
structure Written (g : Target) (read : Host) (code : String) (t : Scene Diary) : Prop extends
    Unwatched g (some read) t where
  usable : read.code g = some code
  content : t.host.bytes g.entry = .ok (Text.toBytes code)

theorem among_ok {I : Scene Diary → Prop} (events : Gap → List Happening) (gap : Gap)
    (hlate : gap.isLate = false) (hI : ∀ u e, I u → I (Happening.enact u e))
    (h : I { t with outside := t.outside.noted t.host gap }) :
    ∃ u, (among events gap).exec t = (.ok (), u) ∧ I u := by
  rw [among, hlate]
  exact ⟨_, rfl, List.foldlRecOn (motive := I) (events gap) Happening.enact h fun u hu e _ => hI u e hu⟩

namespace Unwatched

variable {seen : Option Host}

theorem heeds (h : Unwatched g seen t) : t.outside.Heeds g := by
  intro before k hp
  rw [h.outside] at hp
  simp at hp

theorem edited (h : Unwatched g seen t) (c : Change) : Unwatched g seen (t.edited c) := by
  obtain ⟨host, he⟩ := t.edited_eq c
  rw [he]
  exact ⟨h.outside, h.config, h.target⟩

/-- Nothing but an edit happens then. -/
theorem enact_eq (h : Unwatched g seen t) (e : Happening) :
    e.enact t = t ∨ ∃ c, e.enact t = t.edited c := by
  cases e with
  | edit c => exact Or.inr ⟨c, rfl⟩
  | scan =>
    left
    rw [Happening.enact, if_neg (by simp [h.outside])]
  | tell edits =>
    left
    rw [Happening.enact, if_pos (by simp [h.outside])]

theorem enact (h : Unwatched g seen t) (e : Happening) : Unwatched g seen (e.enact t) := by
  rcases h.enact_eq e with he | ⟨c, he⟩
  · rw [he]
    exact h
  · rw [he]
    exact h.edited c

theorem keeps_work {α : Type} (w : Work α) : Act.Keeps (Unwatched g seen) (Act.work w) := by
  intro t h
  rw [Act.exec_work]
  exact ⟨h.outside, h.config, h.target⟩

theorem keeps_prepare (entry : Path) (language : Preview.Language) :
    Act.Keeps (Unwatched g seen) (prepare entry language) := by
  have hmark : ∀ s, Act.Keeps (Unwatched g seen) (leaveMarker entry language s) := by
    intro s
    refine Act.keeps_session.bind fun backup => (keeps_work _).bind fun marker => ?_
    exact Act.keeps_setSession fun t h => ⟨h.outside, h.config, h.target⟩
  refine Act.keeps_session.bind fun s => (keeps_work _).bind fun there => Act.Keeps.ite ?_ (hmark s)
  refine (keeps_work _).bind fun backup => Act.Keeps.bind (Act.keeps_setSession ?_) fun _ => hmark s
  exact fun t h => ⟨h.outside, h.config, h.target⟩

end Unwatched

theorem Written.enact (h : Written g read code t) (e : Happening) :
    Written g read code (e.enact t) := by
  rcases h.enact_eq e with he | ⟨c, he⟩
  · rw [he]
    exact h
  · rw [he]
    exact ⟨h.toUnwatched.edited c, h.usable, Scene.bytes_edited h.target h.content c⟩

variable (events : Gap → List Happening)

/-- The code for the version that was read is written, or nothing is noted but that it was read. -/
theorem Unwatched.writeGenerated (h : Unwatched g none t) :
    ∃ x u, (writeGeneratedBetween (among events) g.entry g.language).exec t = (x, u) ∧
      u.outside.Heeds g ∧ (x = .ok () → ∃ read code, Written g read code u) := by
  cases hcode : t.host.code g with
  | none =>
    obtain ⟨e, he⟩ := writeGeneratedBetween_of_none (among events) h.config hcode
    exact ⟨_, _, he, h.heeds, fun hx => by cases hx⟩
  | some code =>
    obtain ⟨t₁, ht₁, h₁⟩ := among_ok (I := Unwatched g (some t.host)) events .rendered (t := t) rfl
      (fun _ e hu => hu.enact e)
      ⟨by rw [h.outside]; rfl, h.config, h.target⟩
    let t₂ : Scene Diary := { t₁ with session := { t₁.session with generated := true } }
    have h₂ : Unwatched g (some t.host) t₂ := ⟨h₁.outside, h₁.config, h₁.target⟩
    obtain ⟨t₃, ht₃, h₃⟩ := among_ok (I := Unwatched g (some t.host)) events .touched (t := t₂) rfl
      (fun _ e hu => hu.enact e) h₂
    rw [writeGeneratedBetween_of_some h.config hcode, putGenerated, Act.exec_bind_ok ht₁,
      Act.exec_bind_ok (Act.exec_setSession _ t₁), Act.exec_bind_ok ht₃, Act.exec_bind,
      Act.exec_work, Work.exec_attempt]
    have hkept : ∀ host, Unwatched g (some t.host) { t₃ with host } := fun host =>
      ⟨h₃.outside, h₃.config, h₃.target⟩
    rcases hw : (Work.writeText g.entry code).exec t₃.host with ⟨e | ⟨⟩, k⟩
    · cases e with
      | system n => exact ⟨_, _, rfl, (hkept k).heeds, fun hx => by cases hx⟩
      | _ => exact ⟨_, _, rfl, (hkept k).heeds, fun hx => by cases hx⟩
    · exact ⟨_, _, rfl, (hkept k).heeds, fun _ =>
        ⟨t.host, code, hkept k, hcode, Host.bytes_of_writeText hw⟩⟩

/-- The watcher is started. -/
theorem Written.watching (h : Written g read code t) :
    ∃ u, (among events .watching).exec { t with session := { t.session with
      watcher := some (Watcher.start t.host [t.session.configFile]) } } = (.ok (), u) ∧
        Minded g read t.host code u := by
  refine among_ok events .watching rfl (fun _ e hu => hu.enact e) ?_
  have hnoted : t.outside.noted t.host .watching = ⟨some read, some t.host, [], []⟩ := by
    rw [h.outside]
    rfl
  show Minded g read t.host code { t with outside := t.outside.noted t.host .watching, session := _ }
  rw [hnoted, h.config]
  refine ⟨rfl, rfl, h.usable, ⟨h.config, h.target, ⟨_, rfl, ?_⟩, h.content⟩,
    Or.inl ⟨rfl, settled_nil h.usable⟩, ?_⟩
  · exact t.host.lookup_snapshot_singleton g.file
  · intro before k hp
    simp at hp

/-! ## A whole run -/

variable {τ : Type} (b : Script τ)

theorem Unwatched.generateAndStart (h : Unwatched g none t) :
    ((generateAndStartBetween b.alone (among events) g.entry g.language).exec t).2.outside.Heeds g ∧
      (((generateAndStartBetween b.alone (among events) g.entry g.language).exec t).1 = .ok () →
        ∃ read started code, Minded g read started code
          ((generateAndStartBetween b.alone (among events) g.entry g.language).exec t).2) := by
  obtain ⟨t₁, ht₁, h₁⟩ := among_ok (I := Unwatched g none) events .marked rfl
    (fun _ e hu => hu.enact e) h
  obtain ⟨x, t₂, ht₂, hheeds, hwritten⟩ := h₁.writeGenerated events
  rw [generateAndStartBetween, Act.exec_bind_ok ht₁]
  cases x with
  | error e =>
    rw [Act.exec_bind_error ht₂]
    exact ⟨hheeds, fun hx => by cases hx⟩
  | ok _ =>
    obtain ⟨read, code, h₂⟩ := hwritten rfl
    obtain ⟨t₃, ht₃, h₃⟩ := among_ok (I := Written g read code) events .written rfl
      (fun _ e hu => hu.enact e) (show Written g read code { t₂ with outside := _ } from h₂)
    obtain ⟨t₄, ht₄, h₄⟩ := h₃.watching events
    rw [Act.exec_bind_ok ht₂, Act.exec_bind_ok ht₃, Act.exec_bind_ok (Act.exec_get t₃),
      Act.exec_bind_ok (Act.exec_setSession _ t₃), Act.exec_bind_ok ht₄]
    have hstarted := Minded.keeps_start b events t₄ h₄
    exact ⟨hstarted.heeds, fun _ => ⟨read, t₃.host, code, hstarted⟩⟩

/-- From the installation on the session heeds the preview file. -/
theorem Unwatched.occupy (h : Unwatched g none t) :
    ((occupyBetween b.alone (among events) g.entry g.language).exec t).2.outside.Heeds g := by
  refine (Unwatched.keeps_prepare g.entry g.language).bind_ends (Q := fun _ u => u.outside.Heeds g)
    (fun _ _ hu => hu.heeds) (fun _ u hu => ?_) t h
  obtain ⟨hheeds, hminded⟩ := hu.generateAndStart events b
  rw [Act.exec_bind]
  rcases hx : (generateAndStartBetween b.alone (among events) g.entry g.language).exec u with
    ⟨e | ⟨⟩, v⟩
  · rw [hx] at hheeds
    exact hheeds
  · rw [hx] at hminded
    obtain ⟨read, started, code, hv⟩ := hminded rfl
    have hactive : Act.Keeps (Minded g read started code) (Act.enter .active) :=
      Act.keeps_setSession fun _ h =>
        h.of_attends fun _ hr => ⟨hr.config, hr.target, hr.watching, hr.content⟩
    have hsupervise : Act.Keeps (Minded g read started code)
        (superviseBetween b.alone (among events) (waitBound (b.alone : Script Diary)) .unset) :=
      (Minded.indifferent b.alone rfl).keeps_superviseBetween (fun _ _ h => h)
        (Minded.keeps_among events) _ _
    exact (Act.Keeps.bind hactive (fun _ => (Minded.keeps_among events .active).bind fun _ =>
      hsupervise) v hv).heeds

/-- Nothing more is noted of a session that ends. -/
theorem outside_tearDownBetween (entry : Path) (t : Scene Diary) :
    ((tearDownBetween b.alone (among events) entry).exec t).2.outside = t.outside := by
  let I (u : Scene Diary) : Prop := u.outside = t.outside
  have hI : Indifferent b.alone I := ⟨fun _ _ h _ => h, fun _ _ h => h, fun _ _ h => h, fun _ h _ => h⟩
  have hdetached : Detached I := ⟨fun _ _ h => h, fun _ _ h => h⟩
  have hrestoring : Act.Keeps I (modify b.alone.duringRestoration) := Act.keeps_modify fun _ h => h
  show ((tearDown b.alone entry).exec t).2.outside = t.outside
  rw [tearDown_eq, Act.exec_bind_ok (Act.exec_setSession _ t)]
  exact (hrestoring.bind fun _ => (hI.keeps_endServer fun _ _ h => h).bind fun _ =>
    hdetached.keeps_release entry) { t with session := _ } rfl

theorem outside_replaceEntryBetween (entry : Path) (language : Preview.Language) (t : Scene Diary) :
    ((replaceEntryBetween b.alone (among events) entry language).exec t).2.outside =
      ((occupyBetween b.alone (among events) entry language).exec t).2.outside := by
  let u := ((occupyBetween b.alone (among events) entry language).exec t).2
  have hleft : (among events .leaving).exec u = (.ok (), u) := rfl
  have htorn : ((tearDownBetween b.alone (among events) entry).exec u).2.outside = u.outside :=
    outside_tearDownBetween events b entry u
  rw [replaceEntryBetween, Act.exec_bind_ok (Act.exec_outcome _ t), Act.exec_bind_ok hleft]
  refine Act.holds_bind (I := fun v => v.outside = u.outside) htorn fun _ v hv => ?_
  show ((report _).exec v).2.outside = _
  rw [report_exec]
  exact hv

/-- Events after the generated code is written, and once the session is active. -/
def pairEvents (early late : List Happening) : Gap → List Happening
  | .written => early
  | .active => late
  | _ => []

/-- The scenes before the installation and after it, with what the preview file says then. -/
def pairBegin : Scene Diary where
  host := pairBefore.host
  session := pairBefore.session
  server := pairBefore.server
  outside := .blank

def pairWatched (marker : Marker) (mark : List UInt8) (k : Host) : Scene Diary where
  host := k
  session := (pairAfter marker k).session
  server := (pairAfter marker k).server
  outside := ⟨some (pairMarked mark), some k, [], []⟩

/-- The scene once the session is active. -/
def pairActive (marker : Marker) (mark : List UInt8) (k : Host) : Scene Diary :=
  let t := pairWatched marker mark k
  { t with session := { t.session with phase := .active } }

/-- Some events do nothing but change the host. -/
def TurnsInto (events : List Happening) (h k : Host) : Prop :=
  ∀ t : Scene Diary, t.session.entry = some (pairTarget.entry, pairTarget.language) →
    events.foldl Happening.enact { t with host := h } = { t with host := k }

/-- The code for a version that names one of the components. -/
theorem pair_code {h : Host} {text source : String} {component : Path} {c : Preview.Config}
    (htext : h.bytes pairTarget.file = .ok (Text.toBytes text)) (hlines : '\r' ∉ text.toList)
    (hpath : pairTarget.file.parent.join (Path.ofText source) = component)
    (hfound : h.realPath component = .ok component ∧ h.isNode Node.isFile component = .ok true)
    (hentry : h.realPath pairTarget.entry = .ok pairTarget.entry) (hc : pairRead text = .ok c)
    (hs : c.source = source) (hcode : pairCode c component = .ok code) :
    h.code pairTarget = some code := by
  rw [Host.code, pair_generated htext hlines hpath hfound hentry hc hs, hcode]
  rfl

section

variable {c : Preview.Config} {early late : List Happening} {mark text : List UInt8} {changed : Nat}
  {edits : List Change} {marker : Marker}

/-- The preview file is edited. -/
theorem pair_edited {t : Scene Diary} {content : List UInt8}
    (ht : t.session.entry = some (pairTarget.entry, pairTarget.language)) :
    Scene.edited { t with host := pairSpawned mark content appText 4 [] } swapping =
      { t with host := pairSpawned mark content bppText 9 [swapping] } := by
  rw [Scene.edited, ht]
  show (ite _ _ _ : Scene Diary) = _
  rw [pair_swapped, if_pos ((found_pairSpawned ..).trans (found_pairSpawned ..).symm)]

/-- The code for the first version is written, and then come the early events. -/
theorem pair_startedBetween (hc : pairRead "source: App.js\n" = .ok c) (hs : c.source = "App.js")
    (hcode : pairCode c appPath = .ok code)
    (hearly : TurnsInto early (pairSpawned mark (Text.toBytes code) appText 4 [])
      (pairSpawned mark (Text.toBytes code) text changed edits)) :
    (generateAndStartBetween briefScript.alone (among (pairEvents early late)) pairTarget.entry
      pairTarget.language).exec { pairBegin with
        host := pairMarked mark, session := { pairBegin.session with marker := some marker } } =
      (.ok (), pairWatched marker mark
        (pairSpawned mark (Text.toBytes code) text changed edits)) := by
  have hgenerated : (pairMarked mark).code pairTarget = some code :=
    pair_code (pair_sources ..).1 (by decide) appPath_eq (pair_sources ..).2.1
      (pair_found mark [] [] 0 []).2.2.1 hc hs hcode
  let t₁ : Scene Diary := { pairBegin with
    host := pairMarked mark, session := { pairBegin.session with marker := some marker } }
  let t₂ : Scene Diary := { t₁ with
    host := pairSpawned mark (Text.toBytes code) appText 4 []
    session := { t₁.session with generated := true }
    outside := ⟨some (pairMarked mark), none, [], []⟩ }
  let t₃ : Scene Diary := { t₂ with host := pairSpawned mark (Text.toBytes code) text changed edits }
  have hwrite : (writeGeneratedBetween (among (pairEvents early late)) pairTarget.entry
      pairTarget.language).exec t₁ = (.ok (), t₂) := by
    have hattempt : (Act.work (Work.attempt (Work.writeText pairTarget.entry code)) :
        Act Diary _).exec { t₂ with host := pairMarked mark } = (.ok (.ok ()), t₂) :=
      Act.exec_work_of (Work.exec_attempt_ok (pair_written mark code))
    have hrendered : (among (pairEvents early late) .rendered).exec t₁ =
        (.ok (), { t₁ with outside := ⟨some (pairMarked mark), none, [], []⟩ }) := rfl
    have htouched : (among (pairEvents early late) .touched).exec
        { t₂ with host := pairMarked mark } = (.ok (), { t₂ with host := pairMarked mark }) := rfl
    rw [writeGeneratedBetween_of_some (g := pairTarget) (t := t₁) rfl hgenerated, putGenerated,
      Act.exec_bind_ok hrendered, Act.exec_bind_ok (Act.exec_setSession _ _),
      Act.exec_bind_ok htouched, Act.exec_bind_ok hattempt]
    rfl
  have hwritten : (among (pairEvents early late) .written).exec t₂ = (.ok (), t₃) :=
    congrArg (Except.ok (), ·) (hearly t₂ rfl)
  have hmarked : (among (pairEvents early late) .marked).exec t₁ = (.ok (), t₁) := rfl
  rw [generateAndStartBetween, Act.exec_bind_ok hmarked, Act.exec_bind_ok hwrite,
    Act.exec_bind_ok hwritten]
  rfl

/-- The dev server ends with the first wait, and nothing is noted of that. -/
theorem pair_supervisedBetween {t : Scene Diary} {command : Option (List String × Path)}
    (hserver : t.server = { DevServer.fresh 0 with command }) :
    ((superviseBetween briefScript.alone (among (pairEvents early late))
      (waitBound (briefScript.alone : Script Diary)) .unset).exec t).2.outside = t.outside := by
  obtain ⟨host, session, server, outside⟩ := t
  subst hserver
  show ((superviseBetween briefScript.alone _ (19 + 1) .unset).exec _).2.outside = _
  rfl

/-- What is noted of a run. -/
def pairDiary (early late : List Happening) : Diary :=
  ((runBetween briefScript.alone (among (pairEvents early late))).exec
    (pairScene.withOutside .blank)).2.outside

/-- That is what the late events make of the scene that the early ones have led to. -/
theorem pairDiary_eq (early late : List Happening) (hc : pairRead "source: App.js\n" = .ok c)
    (hs : c.source = "App.js") (hcode : pairCode c appPath = .ok code) (houtput : c.output = none)
    (hlanguage : c.language = none)
    (hearly : ∀ mark, TurnsInto early (pairSpawned mark (Text.toBytes code) appText 4 [])
      (pairSpawned mark (Text.toBytes code) text changed edits)) :
    ∃ marker mark, ∀ u, late.foldl Happening.enact (pairActive marker mark
        (pairSpawned mark (Text.toBytes code) text changed edits)) = u →
      u.server = (pairActive marker mark u.host).server → pairDiary early late = u.outside := by
  obtain ⟨marker, mark, hmark⟩ := pair_marked
  refine ⟨marker, mark, fun u hu hserver => ?_⟩
  let t := pairWatched marker mark (pairSpawned mark (Text.toBytes code) text changed edits)
  let t₁ : Scene Diary := { pairBegin with
    host := pairMarked mark, session := { pairBegin.session with marker := some marker } }
  have hprepare : (prepare pairTarget.entry pairTarget.language).exec pairBegin = (.ok (), t₁) := by
    rw [prepare, Act.exec_bind_ok (Act.exec_session _), Act.exec_bind_ok (Act.exec_work_of pair_begun.1)]
    show (leaveMarker _ _ _).exec pairBegin = _
    rw [leaveMarker, Act.exec_bind_ok (Act.exec_session _), Act.exec_bind_ok (Act.exec_work_of hmark)]
    rfl
  have hstart : (generateAndStartBetween briefScript.alone (among (pairEvents early late))
      pairTarget.entry pairTarget.language).exec t₁ = (.ok (), t) :=
    pair_startedBetween hc hs hcode (hearly mark)
  have hactive : (among (pairEvents early late) .active).exec (pairActive marker mark t.host) =
      (.ok (), u) := congrArg (Except.ok (), ·) hu
  have hresolved := pair_resolved hc houtput hlanguage
  rw [pairDiary, runBetween, Act.exec_bind_ok (Act.exec_session _),
    Act.exec_bind_ok (Act.exec_work_of hresolved), Act.exec_bind_ok (Act.exec_setSession _ _),
    Act.exec_bind_ok (Act.exec_work_of pair_begun.2.1)]
  show ((replaceEntryBetween _ _ pairTarget.entry pairTarget.language).exec pairBegin).2.outside = _
  rw [outside_replaceEntryBetween, occupyBetween, Act.exec_bind_ok hprepare, Act.exec_bind_ok hstart,
    Act.exec_bind_ok (Act.exec_enter _ _)]
  show ((among (pairEvents early late) .active >>= _ : Act Diary Int).exec
    (pairActive marker mark t.host)).2.outside = _
  rw [Act.exec_bind_ok hactive]
  exact pair_supervisedBetween hserver

end

/-- What is noted of a run with an edit before the watcher is started. -/
def earlyDiary : Diary := pairDiary [.edit swapping] [.scan]

/-- The host once the code for the other component is in the entry file. -/
def pairRewritten (mark content again : List UInt8) : Host :=
  pairWith { pairMarked mark with
    history := (pairMarked mark).history ++
      [.write pairTarget.entry.parts content 0o644, swapping,
        .write pairTarget.entry.parts again 0o644] }
    8 bppText 9
    (pairMarkNodes mark ++ [(pairTarget.entry.parts, .file again 0o644 (.counted 10))]) 11

theorem pair_rewritten (mark content again : List UInt8) :
    ((pairSpawned mark content bppText 9 [swapping]).writing pairTarget.entry again =
        .ok (.write pairTarget.entry.parts again 0o644) ∧
      (pairSpawned mark content bppText 9 [swapping]).change
        (.write pairTarget.entry.parts again 0o644) = pairRewritten mark content again) ∧
    (pairRewritten mark content again).measure pairTarget.file =
      some (.counted 9, bppText.length) ∧
    (pairRewritten mark content again).found pairTarget.entry =
      some (.file again 0o644 (.counted 0)) ∧
    (pairRewritten mark content again).realPath pairTarget.entry = .ok pairTarget.entry :=
  ⟨⟨by cbv, by cbv⟩, by cbv, by cbv, by cbv⟩

/-- The stamps of two versions, one after the other, tell them apart. -/
theorem stamps_of_two {m n : Option (Stamp × Nat)} {a b : Option String} (hmn : m ≠ n)
    {first second : List Host} (hfirst : ∀ x ∈ first, x.measure g.file = m ∧ x.code g = a)
    (hsecond : ∀ x ∈ second, x.measure g.file = n ∧ x.code g = b)
    {before : List Host} {h : Host} {between : List Host} {k : Host} {after : List Host}
    (he : first ++ second = before ++ h :: between ++ k :: after)
    (hhk : h.measure g.file = k.measure g.file) : ∀ x ∈ h :: between, x.code g = k.code g := by
  intro x hx
  have hapart : ∀ y z, y ∈ first → z ∈ second → y.measure g.file ≠ z.measure g.file := by
    intro y z hy hz
    rw [(hfirst y hy).1, (hsecond z hz).1]
    exact hmn
  rcases List.append_eq_append_iff.mp he with ⟨rest, hbefore, rfl⟩ | ⟨rest, rfl, hrest⟩
  · have hk : k ∈ rest ++ k :: after := by simp
    have hlater : ∀ y ∈ h :: between, y ∈ rest := by
      rcases List.append_eq_append_iff.mp hbefore with ⟨c, rfl, hc⟩ | ⟨c, -, rfl⟩
      · cases c with
        | nil =>
          intro y hy
          rwa [← show h :: between = rest from hc]
        | cons z c =>
          obtain rfl : h = z := (List.cons.inj hc).1
          exact absurd hhk (hapart h k (by simp) hk)
      · exact fun y hy => List.mem_append_right _ hy
    rw [(hsecond x (List.mem_append_left _ (hlater x hx))).2, (hsecond k hk).2]
  · have hx' : x ∈ before ++ h :: between ++ rest :=
      List.mem_append_left _ (List.mem_append_right _ hx)
    cases rest with
    | nil =>
      have hk : k ∈ second := by
        rw [← show k :: after = second from hrest]
        exact List.mem_cons_self
      exact absurd hhk (hapart h k (by simp) hk)
    | cons z rest =>
      obtain rfl : k = z := (List.cons.inj hrest).1
      rw [(hfirst x hx').2, (hfirst k (by simp)).2]

/-- What is noted of a run with an edit while the session is active. -/
def lateDiary : Diary := pairDiary [] [.edit swapping, .scan, .tell [], .scan]

/-- What the watcher does in that run. -/
def lateGlances (h k : Host) : List Glance :=
  [.scan h .active [pairTarget.file], .tell h .active, .scan k .active []]

/-- The watcher finds the edit and tells of it, and after that it finds nothing more. -/
theorem pair_late {marker : Marker} {mark : List UInt8} {code hidden : String}
    (hcode : (pairSpawned mark (Text.toBytes code) bppText 9 [swapping]).code pairTarget =
      some hidden) :
    ∃ w, [Happening.edit swapping, .scan, .tell [], .scan].foldl Happening.enact
        (pairActive marker mark (pairSpawned mark (Text.toBytes code) appText 4 [])) =
      let t := pairActive marker mark (pairSpawned mark (Text.toBytes code) appText 4 [])
      let k := pairRewritten mark (Text.toBytes code) (Text.toBytes hidden)
      { t with
        host := k
        session := { t.session with watcher := w }
        outside := { t.outside with
          glances := lateGlances (pairSpawned mark (Text.toBytes code) bppText 9 [swapping]) k } } := by
  let h₀ := pairSpawned mark (Text.toBytes code) appText 4 []
  let h₁ := pairSpawned mark (Text.toBytes code) bppText 9 [swapping]
  let h₂ := pairRewritten mark (Text.toBytes code) (Text.toBytes hidden)
  obtain ⟨⟨hwriting, hchange⟩, hmeasure₂, hfound₂, -⟩ :=
    pair_rewritten mark (Text.toBytes code) (Text.toBytes hidden)
  have hmeasure₁ : h₁.measure pairTarget.file = some (.counted 9, bppText.length) :=
    measure_pairSpawned ..
  have hmeasure₀ : h₀.measure pairTarget.file = some (.counted 4, appText.length) :=
    measure_pairSpawned ..
  -- The edit, which the watcher finds.
  let t₀ := pairActive marker mark h₀
  let t₁ : Scene Diary := { t₀ with host := h₁ }
  have hedit : Happening.enact t₀ (.edit swapping) = t₁ := pair_edited (t := t₀) rfl
  have h₁attends : Attends pairTarget ⟨h₀.measure pairTarget.file, code⟩ t₁ :=
    ⟨rfl, rfl, ⟨_, rfl, h₀.lookup_snapshot_singleton pairTarget.file⟩,
      Host.bytes_eq_ok.mpr ⟨0o644, found_pairSpawned ..⟩⟩
  obtain ⟨w, hlook, h₂attends⟩ := h₁attends.enact_scan rfl rfl
  have hnews : Course.found pairTarget ⟨h₀.measure pairTarget.file, code⟩ t₁.host =
      [pairTarget.file] := by
    refine Course.found_of_ne ?_ ?_
    · show h₁.measure _ ≠ none
      simp [hmeasure₁]
    · show h₁.measure _ ≠ h₀.measure _
      simp [hmeasure₁, hmeasure₀]
  rw [hnews] at hlook h₂attends
  let d : Diary := ⟨some (pairMarked mark), some h₀, [.scan h₁ .active [pairTarget.file]],
    [pairTarget.file]⟩
  let t₂ : Scene Diary := { t₁ with session := { t₁.session with watcher := w }, outside := d }
  -- It tells of it, and the code for the other version is written.
  obtain ⟨seen, hwatcher, hseen⟩ := h₂attends.watching
  have hwrite : (Work.writeText pairTarget.entry hidden).exec h₁ = (.ok (), h₂) := by
    rw [← show _ = h₂ from hchange]
    exact Work.exec_perform_ok hwriting
  have htold : (tellBetween (meanwhile []) [pairTarget.file]).exec t₂ = (.ok (), { t₂ with
      host := h₂, session := { t₂.session with generated := true } }) :=
    tellBetween_exec rfl rfl rfl hwatcher hcode hwrite
  let t₃ : Scene Diary := { t₂ with
    host := h₂
    outside := { d with glances := d.glances ++ [.tell h₁ .active], pending := [] } }
  have htell : Happening.enact t₂ (.tell []) = t₃ := by
    rw [Happening.enact, if_neg (by simp [t₂, d]), show t₂.outside.pending = [pairTarget.file] from rfl,
      htold]
    rfl
  -- After that it finds nothing more.
  have h₃attends : Attends pairTarget ⟨h₁.measure pairTarget.file, hidden⟩ t₃ :=
    ⟨rfl, rfl, ⟨seen, hwatcher, hseen⟩, Host.bytes_eq_ok.mpr ⟨0o644, hfound₂⟩⟩
  obtain ⟨w', hlook', -⟩ := h₃attends.enact_scan rfl rfl
  rw [Course.found_of_seen (h := t₃.host) (hmeasure₂.trans hmeasure₁.symm)] at hlook'
  refine ⟨w', ?_⟩
  show Happening.enact (Happening.enact (Happening.enact (Happening.enact t₀ (.edit swapping))
    .scan) (.tell [])) .scan = _
  rw [hedit, hlook]
  show Happening.enact (Happening.enact t₂ (.tell [])) .scan = _
  rw [htell, hlook']
  rfl

/-- Each version has a stamp of its own. -/
theorem steady_late {k m x h : Host} {seen known : Stamp × Nat} {code hidden : String}
    (hne : known ≠ seen)
    (hfirst : ∀ y ∈ [k, m], y.measure g.file = some known ∧ y.code g = some code)
    (hsecond : ∀ y ∈ [x, x, h], y.measure g.file = some seen ∧ y.code g = some hidden) :
    Steady g k m (lateGlances x h) where
  told before y phase after he _ := by
    have hmem : Glance.tell y phase ∈ lateGlances x h := by
      rw [he]
      simp
    simp only [lateGlances, List.mem_cons, Glance.tell.injEq, reduceCtorEq, List.not_mem_nil, or_false,
      false_or] at hmem
    exact hmem.2
  first hnone := absurd (by simp [lateGlances]) (hnone x .active)
  stamps before y between z after he hyz := by
    have happart : [k, m] ++ [x, x, h] = before ++ y :: between ++ z :: after := he
    exact stamps_of_two (by simpa using hne) hfirst hsecond happart hyz

/-- An edit while the session is active keeps the diary steady, and the code for it is in the entry file
when the watcher finds nothing more. -/
theorem late_edit_heeded : ∃ k m x h, lateDiary.read = some k ∧ lateDiary.started = some m ∧
    lateDiary.glances = lateGlances x h ∧ Steady pairTarget k m lateDiary.glances ∧
    ∃ code, k.code pairTarget ≠ some code ∧ h.code pairTarget = some code ∧
      h.bytes pairTarget.entry = .ok (Text.toBytes code) := by
  obtain ⟨c, d, code, hidden, ⟨hc, hs, hcode⟩, ⟨hd, hsd, hhidden⟩, houtput, hlanguage, hne⟩ :=
    pair_versions
  obtain ⟨marker, mark, hdiary⟩ :=
    pairDiary_eq [] [.edit swapping, .scan, .tell [], .scan] hc hs hcode houtput hlanguage
      (fun _ _ _ => rfl)
  let k := pairMarked mark
  let h₀ := pairSpawned mark (Text.toBytes code) appText 4 []
  let h₁ := pairSpawned mark (Text.toBytes code) bppText 9 [swapping]
  let h₂ := pairRewritten mark (Text.toBytes code) (Text.toBytes hidden)
  obtain ⟨-, hmeasure₂, hfound₂, hreal₂⟩ :=
    pair_rewritten mark (Text.toBytes code) (Text.toBytes hidden)
  have hfirst : ∀ y ∈ [k, h₀], y.measure pairTarget.file = some (.counted 4, appText.length) ∧
      y.code pairTarget = some code := by
    have hk : k.measure pairTarget.file = some (.counted 4, appText.length) := by cbv
    have hcodes : k.code pairTarget = some code ∧ h₀.code pairTarget = some code :=
      ⟨pair_code (pair_sources ..).1 (by decide) appPath_eq (pair_sources ..).2.1
        (pair_found mark [] [] 0 []).2.2.1 hc hs hcode,
      pair_code (pair_sources ..).1 (by decide) appPath_eq (pair_sources ..).2.1
        (pair_found ..).2.2.2.1 hc hs hcode⟩
    simp [hk, hcodes, show h₀.measure _ = _ from measure_pairSpawned ..]
  have hsecond : ∀ y ∈ [h₁, h₁, h₂], y.measure pairTarget.file = some (.counted 9, bppText.length) ∧
      y.code pairTarget = some hidden := by
    have hcodes : h₁.code pairTarget = some hidden ∧ h₂.code pairTarget = some hidden :=
      ⟨pair_code (pair_sources ..).1 (by decide) bppPath_eq (pair_sources ..).2.2
        (pair_found ..).2.2.2.1 hd hsd hhidden,
      pair_code (pair_sources ..).1 (by decide) bppPath_eq (pair_sources ..).2.2 hreal₂ hd hsd hhidden⟩
    simp [hcodes, show h₁.measure _ = _ from measure_pairSpawned ..,
      show h₂.measure _ = _ from hmeasure₂]
  obtain ⟨w, hlate⟩ := pair_late (hsecond h₁ (by simp)).2
  have hrun : lateDiary = ⟨some k, some h₀, lateGlances h₁ h₂, []⟩ := hdiary _ hlate rfl
  have hsteady : Steady pairTarget k h₀ (lateGlances h₁ h₂) :=
    steady_late (by simp) hfirst hsecond
  rw [hrun]
  refine ⟨k, h₀, h₁, h₂, rfl, rfl, rfl, hsteady, hidden, ?_, (hsecond h₂ (by simp)).2,
    Host.bytes_eq_ok.mpr ⟨0o644, hfound₂⟩⟩
  rw [(hfirst k (by simp)).2]
  exact fun he => hne (congrArg Text.toBytes (Option.some.inj he))

end Session
end Vitrine
