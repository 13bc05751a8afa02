import Vitrine.Instance.Recovery
import Vitrine.Proofs.Files.Spelling
import Vitrine.Proofs.Instance.Names
import Vitrine.Proofs.Json.Printable
import Vitrine.Proofs.Preview.Generation

/-!
# Reading markers and generated files back

A marker is read from its file as it was written there, and generated code is recognised.
-/
namespace Vitrine

/-- The name of a copy stands for one part of a path. -/
theorem Backup.isPart_copyName (n : Nat) : Path.IsPart (copyName n) := by
  have hlength : (copyName n).toList.length = 36 := by
    rw [toList_copyName, List.length_append, Text.length_hexDigits]
    rfl
  have hne : ∀ s : String, s.toList.length ≠ 36 → copyName n ≠ s := by
    rintro s hs rfl
    exact hs hlength
  refine ⟨hne "" (by decide), hne "." (by decide), fun hslash => ?_⟩
  rw [toList_copyName, List.mem_append] at hslash
  rcases hslash with h | h
  · exact absurd (Text.mem_hexDigits h) (by decide)
  · exact absurd h (by decide)

namespace Marker

/-- Markers that lose nothing in their files. -/
structure IsWritten (m : Marker) : Prop where
  entry : m.entry.IsWritten
  workingDirectory : m.workingDirectory.IsWritten
  backup : ∀ p, m.backup = some p → p.IsWritten
  language : m.language.IsReadable
  createdAt : m.createdAt.IsReadable
  fileMode : m.fileMode.IsReadable
  processId : (Decimal.digitChars m.processId.natAbs).length ≤ Decimal.digitLimit

variable {m : Marker}

theorem isReadable_toJson (h : m.IsWritten) : m.toJson.IsReadable := by
  have hnames : (["indexFilename", "workingDirectory", "language", "createdAt", "pid", "fileMode",
      "backupFile"] : List String).Nodup := by decide
  rw [toJson]
  cases m.backup <;> exact ⟨hnames, trivial, trivial, h.language, h.createdAt, h.processId,
    h.fileMode, trivial, trivial⟩

theorem text_ne_empty {p : Path} (h : p.IsWritten) : p.text ≠ "" := by
  intro hp
  have hdot : p = ⟨.relative, []⟩ := by
    rw [← Path.ofText_text h, hp]
    decide
  rw [hdot] at hp
  exact absurd hp (by decide)

theorem processIdOf_int (n : Int) : processIdOf (.int n) = .ok n := by
  rw [processIdOf]
  by_cases hn : n = 0
  · rw [hn]
    rfl
  · rw [if_neg]
    · rfl
    · simp [isVoid, hn]

theorem backupOf_str {p : Path} (h : p.IsWritten) : backupOf (.str p.text) = .ok (some p) := by
  rw [backupOf, if_neg]
  · rw [pathOf, Path.ofText_text h]
    rfl
  · simp [isVoid, text_ne_empty h]

theorem ofJson_toJson (h : m.IsWritten) : ofJson m.file m.toJson = .ok m := by
  have hbackup : backupOf (memberOr .null m.toJson "backupFile") = .ok m.backup := by
    rw [toJson]
    cases hb : m.backup with
    | none => rfl
    | some p => exact backupOf_str (h.backup p hb)
  show ((pathOf (.str m.entry.text)).bind fun entry =>
    (pathOf (.str m.workingDirectory.text)).bind fun workingDirectory =>
    (processIdOf (.int m.processId)).bind fun processId =>
    (backupOf (memberOr .null m.toJson "backupFile")).bind fun backup =>
    Except.ok (⟨entry, workingDirectory, m.language, m.createdAt, m.file, processId, m.fileMode,
      backup⟩ : Marker)) = _
  rw [hbackup, processIdOf_int, pathOf, pathOf, Path.ofText_text h.entry,
    Path.ofText_text h.workingDirectory]
  rfl

/-- The marker that the content of a file describes. -/
def ofContent (file : Path) (content : List UInt8) : Except Trouble Marker :=
  match Text.ofFile? content with
  | some text => ofText file text
  | none => .error (Trouble.ofFault .decoding)

/-- A marker is read from its file as it was written. -/
theorem ofContent_toBytes (h : m.IsWritten) :
    ofContent m.file (Text.toBytes (m.toJson.write Json.spaced)) = .ok m := by
  have hreturn : '\r' ∉ (m.toJson.write Json.spaced).toList := by
    intro hr
    exact absurd (Json.printable_write Json.isPrintable_spaced _ (isReadable_toJson h) _ hr)
      (by decide)
  rw [ofContent, Text.ofFile?_toBytes hreturn]
  show ofText m.file _ = _
  rw [ofText, Json.read_write true Json.isReadable_spaced (isReadable_toJson h)]
  dsimp only
  rw [ofJson_toJson h]

end Marker

theorem Instances.readMarker_exec {h : Host} {file : Path} {content : List UInt8}
    (hb : h.bytes file = .ok content) :
    (readMarker file).exec h = (.ok (Marker.ofContent file content), h) := by
  rw [readMarker, Work.exec_tryCatch, Work.exec_bind, Work.readText, Work.exec_look, Host.text, hb,
    Marker.ofContent]
  dsimp only
  cases Text.ofFile? content <;> rfl

/-- Contents that are recognised as generated. -/
def IsRecognised (content : List UInt8) : Prop :=
  ∃ text, Text.ofFile? content = some text ∧ firstLine text = Preview.generatedMarker

/-- Generated code is recognised. -/
theorem isRecognised_of_isMarked {s : String} (h : Preview.IsMarked s) :
    IsRecognised (Text.toBytes s) := by
  obtain ⟨rest, rfl⟩ := h
  have hchars : (Preview.generatedMarker ++ "\n" ++ rest).toList =
      Preview.generatedMarker.toList ++ '\n' :: rest.toList := by simp
  refine ⟨_, by rw [Text.ofFile?, Text.ofBytes?_toBytes, Option.map_some], ?_⟩
  rw [hchars, Text.unifyLines_append (by decide), firstLine, String.toList_ofList,
    List.takeWhile_append_of_pos (by decide), List.takeWhile_cons_of_neg (by decide),
    List.append_nil]
  decide

theorem isGenerated_exec {h : Host} {p : Path} {content : List UInt8}
    (hb : h.bytes p = .ok content) (hr : IsRecognised content) :
    (isGenerated p).exec h = (.ok true, h) := by
  obtain ⟨text, htext, hfirst⟩ := hr
  rw [isGenerated, Work.exec_tryCatch, Work.exec_bind, Work.readText, Work.exec_look, Host.text, hb]
  dsimp only
  rw [htext]
  show (Except.ok (decide (firstLine text = Preview.generatedMarker)), h) = _
  rw [hfirst, decide_eq_true rfl]

end Vitrine
