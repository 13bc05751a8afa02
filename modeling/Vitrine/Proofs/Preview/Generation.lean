import Vitrine.Preview.Resolution
import Vitrine.Proofs.Outcome
import Vitrine.Proofs.Work

/-!
# Resolving and generating

Finding the entry file of a preview and generating its code only read files, and generated code
begins with the line that marks it.
-/
namespace Vitrine
namespace Preview

open Work

section Moves

variable {R : Host → Host → Prop} [Std.Refl R] [Trans R R R]

theorem loadEntries_moves (file : Path) : Moves R (loadEntries file) := by
  refine (moves_look _).attempt.bind fun r => ?_
  split
  · exact moves_look _
  · exact moves_throw _
  · exact moves_throw _

theorem loadConfig_moves (file : Path) : Moves R (loadConfig file) :=
  (loadEntries_moves file).bind fun _ => moves_look _

theorem importPath_moves (entry component : Path) : Moves R (importPath entry component) :=
  (moves_look _).bind fun _ => (moves_look _).bind fun _ => moves_pure _

theorem resolve_moves (c : Config) (configFile entry : Path) (language : Language) :
    Moves R (resolve c configFile entry language) := by
  refine (moves_look _).bind fun component => (moves_look _).bind fun isFile => ?_
  refine Moves.ite (moves_throw _) ?_
  refine (moves_look _).bind fun _ => (moves_look _).bind fun _ => ?_
  exact (importPath_moves _ _).bind fun _ => (moves_look _).bind fun _ => moves_pure _

theorem resolveFile_moves (configFile entry : Path) (language : Language) :
    Moves R (resolveFile configFile entry language) :=
  (loadConfig_moves configFile).bind fun c => resolve_moves c configFile entry language

theorem generate_moves (configFile entry : Path) (language : Language) :
    Moves R (generate configFile entry language) :=
  (resolveFile_moves configFile entry language).bind fun _ => moves_look _

theorem detectEntry_moves (directory : Option Path) (workingDirectory : Path)
    (language : Option Language) : Moves R (detectEntry directory workingDirectory language) := by
  refine (moves_look _).bind fun isDirectory => Moves.ite (moves_throw _) ?_
  cases language with
  | some language => exact (moves_look _).bind fun _ => moves_pure _
  | none => exact (moves_look _).bind fun _ => (moves_look _).bind fun _ => moves_pure _

theorem resolveEntry_moves (configFile : Path) (settings : Settings) (directory : Option Path) :
    Moves R (resolveEntry configFile settings directory) := by
  refine (loadConfig_moves configFile).bind fun c => ?_
  split
  · refine (moves_look _).bind fun entry => (moves_look _).bind fun isDirectory => ?_
    exact Moves.ite (moves_throw _) (moves_pure _)
  · exact detectEntry_moves _ _ _

theorem render_moves (configFile : Path) (settings : Settings) (directory : Option Path) :
    Moves R (render configFile settings directory) :=
  (resolveEntry_moves configFile settings directory).bind fun _ =>
    (generate_moves _ _ _).bind fun _ => moves_pure _

end Moves

theorem resolveEntry_still (configFile : Path) (settings : Settings) (directory : Option Path) :
    (resolveEntry configFile settings directory).Still :=
  resolveEntry_moves configFile settings directory

end Preview

theorem Settings.command_quiet (s : Settings) : s.command.Quiet :=
  Work.Moves.ite (Work.moves_pure _) ((Work.moves_look _).bind fun _ => Work.moves_pure _)

namespace Preview

open Work

/-- Texts whose first line marks them as generated. -/
def IsMarked (s : String) : Prop := ∃ rest, s = generatedMarker ++ "\n" ++ rest

theorem Descriptor.isMarked_code {d : Descriptor} {s : String} (h : d.code = .ok s) :
    IsMarked s := by
  rw [Descriptor.code] at h
  cases he : d.elementText with
  | error f => simp [he, bind, Except.bind] at h
  | ok element =>
    rw [he] at h
    cases h
    refine ⟨"\n" ++ "import React from 'react';\n" ++ "import ReactDOM from 'react-dom';\n" ++
      "import './index.css';\n" ++ d.importText ++ "\n\n" ++ "ReactDOM.render(\n" ++
      "  <React.StrictMode>\n" ++ "    " ++ element ++ "\n" ++ "  </React.StrictMode>,\n" ++
      "  document.getElementById('root')\n" ++ ");\n", ?_⟩
    simp only [String.append_assoc]
    rfl

/-- Generated code is marked. -/
theorem isMarked_of_generate {configFile entry : Path} {language : Language} {h : Host}
    {s : String} (hg : (generate configFile entry language).outcome h = .ok s) : IsMarked s := by
  rw [generate, Still.outcome_bind (resolveFile_moves configFile entry language)] at hg
  cases hr : (resolveFile configFile entry language).outcome h with
  | error e =>
    rw [hr] at hg
    cases hg
  | ok d =>
    rw [hr] at hg
    change (look fun _ => Result.ofFault d.code).outcome h = .ok s at hg
    rw [outcome_look] at hg
    cases hc : d.code with
    | error f =>
      rw [hc] at hg
      cases hg
    | ok t =>
      rw [hc] at hg
      cases hg
      exact d.isMarked_code hc

/-! ## What generating comes to -/

theorem outcome_loadEntries (file : Path) (h : Host) : (loadEntries file).outcome h =
    match h.text file with
    | .ok text => readEntries file text
    | .error (.system .noEntry) => .error (.notFound (.previewFile file))
    | .error (.system e) => .error (.config (.unreadable file e) Location.nowhere)
    | .error e => .error e := by
  rw [loadEntries, outcome, exec_bind, exec_attempt, Work.readText, exec_look]
  cases h.text file with
  | ok text => exact outcome_look _ h
  | error e =>
    cases e with
    | system n => cases n <;> rfl
    | _ => rfl

theorem exec_loadConfig {file : Path} {h : Host} {text : String} (ht : h.text file = .ok text) :
    (loadConfig file).exec h = ((readEntries file text).bind (readConfig file), h) := by
  rw [Still.exec_eq (loadConfig_moves file), loadConfig, Still.outcome_bind (loadEntries_moves file),
    outcome_loadEntries, ht]
  simp only [outcome_look]
  rfl

/-- The descriptor of a configuration whose component was found and is imported by a path. -/
def descriptorOf (c : Config) (file component : Path) (path : String) (language : Language) :
    Result Descriptor := do
  let name ← resolveName c file component
  let props ← resolveProps c file
  let props ← checkProps props
  return ⟨name, c.importStyle, path, props, resolveStyle c, c.language.getD language⟩

/-- A component is imported from where it is found, seen from where the entry file is found. -/
theorem exec_importPath {entry component there here : Path} {h : Host}
    (hthere : h.realPath component = .ok there) (hhere : h.realPath entry = .ok here) :
    (importPath entry component).exec h = (.ok (modulePath here there), h) := by
  have hthere' : (Work.realPath component).exec h = (.ok there, h) := by
    rw [Work.realPath, exec_look, hthere]
  have hhere' : (Work.realPath entry).exec h = (.ok here, h) := by
    rw [Work.realPath, exec_look, hhere]
  rw [importPath, exec_bind_ok hthere', exec_bind_ok hhere']
  rfl

/-- Resolving depends on where the component and the entry file are found. -/
theorem exec_resolve {file entry component there here : Path} {language : Language} {h : Host}
    {c : Config} (hcomponent : h.realPath (file.parent.join (Path.ofText c.source)) = .ok component)
    (hfile : h.isNode Node.isFile component = .ok true) (hthere : h.realPath component = .ok there)
    (hhere : h.realPath entry = .ok here) :
    (resolve c file entry language).exec h =
      (descriptorOf c file component (modulePath here there) language, h) := by
  have hcomponent' : (Work.realPath (file.parent.join (Path.ofText c.source))).exec h =
      (.ok component, h) := by
    rw [Work.realPath, exec_look, hcomponent]
  have hfile' : (Work.isFile component).exec h = (.ok true, h) := by
    rw [Work.isFile, exec_look, hfile]
  have hpath := exec_importPath hthere hhere
  have hrest : (do
      let name ← Work.look fun _ => resolveName c file component
      let props ← Work.look fun _ => resolveProps c file
      let path ← importPath entry component
      let props ← Work.look fun _ => checkProps props
      return ⟨name, c.importStyle, path, props, resolveStyle c, c.language.getD language⟩ :
        Work Descriptor).exec h = (descriptorOf c file component (modulePath here there) language, h) := by
    rw [descriptorOf, exec_bind, exec_look]
    cases resolveName c file component with
    | error e => rfl
    | ok name =>
      simp only [exec_bind, exec_look, ok_bind]
      cases resolveProps c file with
      | error e => rfl
      | ok props =>
        simp only [hpath, ok_bind]
        cases checkProps props with
        | error e => rfl
        | ok props => rfl
  rw [resolve, exec_bind_ok hcomponent', exec_bind_ok hfile']
  exact hrest

/-- Generating depends on the text of the preview file besides. -/
theorem exec_generate {file entry component there here : Path} {language : Language} {h : Host}
    {text : String} {c : Config} (ht : h.text file = .ok text)
    (hc : (readEntries file text).bind (readConfig file) = .ok c)
    (hcomponent : h.realPath (file.parent.join (Path.ofText c.source)) = .ok component)
    (hfile : h.isNode Node.isFile component = .ok true) (hthere : h.realPath component = .ok there)
    (hhere : h.realPath entry = .ok here) :
    (generate file entry language).exec h =
      ((descriptorOf c file component (modulePath here there) language).bind
        fun d => Result.ofFault d.code, h) := by
  have hload := exec_loadConfig ht
  rw [hc] at hload
  rw [generate, exec_bind, resolveFile, exec_bind_ok hload,
    exec_resolve hcomponent hfile hthere hhere]
  cases descriptorOf c file component (modulePath here there) language with
  | error e => rfl
  | ok d => exact exec_look _ h

end Preview
end Vitrine
