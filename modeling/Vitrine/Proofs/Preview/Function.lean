import Vitrine.Preview.Function
import Vitrine.Proofs.Script.Heads
import Vitrine.Proofs.Text.Lines

/-!
# Functions and their texts

A text that the parser reads as a function becomes that function, unless a comment at its beginning
keeps the shape test from taking it for one. The text that a function is written as is read back as a
function that does the same, provided that its parts keep their meaning when they are put together.
-/
namespace Vitrine
namespace Preview

open Script (Lexes IsPlainName IsLastLine IsVeiled SameOutcome shown)

/-! ## Texts that look like functions -/

theorem strip_of_ends {c d : Char} {cs : List Char} (hc : Text.isBlank c = false)
    (hd : Text.isBlank d = false) :
    Text.strip (String.ofList (c :: (cs ++ [d]))) = String.ofList (c :: (cs ++ [d])) := by
  have hfront : Text.dropBlanks (c :: (cs ++ [d])) = c :: (cs ++ [d]) :=
    List.dropWhile_cons_of_neg (by simp [hc])
  have hback : Text.dropBlanks (c :: (cs ++ [d])).reverse = (c :: (cs ++ [d])).reverse := by
    rw [List.reverse_cons, List.reverse_append, List.reverse_singleton, List.cons_append,
      List.cons_append]
    exact List.dropWhile_cons_of_neg (by simp [hd])
  rw [Text.strip, String.toList_ofList, Text.stripChars, hfront, hback, List.reverse_reverse]

theorem toList_arrowText (params lines : List String) :
    (Script.arrowText params lines).toList =
      '(' :: ((joinWith ", " params).toList ++
        ')' :: ' ' :: '=' :: '>' :: ' ' :: '\x7b' :: '\n' :: (joinWith "\n" lines).toList ++
          ['\n', '\x7d']) := by
  simp [Script.arrowText]

theorem strip_arrowText (params lines : List String) :
    Text.strip (Script.arrowText params lines) = Script.arrowText params lines := by
  have htext : Script.arrowText params lines = String.ofList ('(' ::
      (((joinWith ", " params).toList ++ ')' :: ' ' :: '=' :: '>' :: ' ' :: '\x7b' :: '\n' ::
        (joinWith "\n" lines).toList ++ ['\n']) ++ ['\x7d'])) := by
    rw [← String.toList_inj, toList_arrowText, String.toList_ofList]
    simp
  rw [htext]
  exact strip_of_ends (by decide) (by decide)

/-- Parameters are written without parentheses. -/
theorem isFree_joined {params : List String} (h : ∀ name ∈ params, IsPlainName name) :
    Script.IsFree (joinWith ", " params).toList := by
  have hname : ∀ name ∈ params, Script.IsFree name.toList := fun name hname =>
    Script.isFree_of_isNameChar (h name hname).1.isNameChar
  clear h
  induction params with
  | nil => exact Script.isFree_nil
  | cons name params ih =>
    obtain ⟨hfirst, hrest⟩ := List.forall_mem_cons.mp hname
    cases params with
    | nil => exact hfirst
    | cons other params =>
      rw [Script.joinWith_cons_cons, String.toList_append, String.toList_append]
      exact (hfirst.append (by decide)).append (ih hrest)

theorem isFunctionSource_arrowText {params : List String} (lines : List String)
    (h : ∀ name ∈ params, IsPlainName name) :
    Script.isFunctionSource (Script.arrowText params lines) = true := by
  have hblank : Script.AreSkipped [' '] := by
    rw [Script.AreSkipped]
    decide
  have hbegins : Script.beginsFunction (Script.arrowText params lines).toList = true := by
    rw [toList_arrowText, List.append_assoc, List.cons_append,
      Script.beginsFunction_list (isFree_joined h) (Or.inr rfl)]
    exact Script.arrowFollows_arrow hblank _
  have hblanks : Text.dropBlanks (Script.arrowText params lines).toList =
      (Script.arrowText params lines).toList := by
    rw [toList_arrowText]
    exact List.dropWhile_cons_of_neg (by decide)
  rw [Script.isFunctionSource, hblanks, hbegins, Bool.or_true]

/-! ## Functions from their texts -/

section Compile

variable {source : String} {f : Script.FunctionDef}

theorem isFunctionSource_strip (h : Script.parseFunction (Text.strip source) = .ok f) :
    Script.isFunctionSource (Text.strip source) = true ↔ ¬ IsVeiled (Text.strip source).toList := by
  refine Script.isFunctionSource_iff h fun c hc => ?_
  rw [Text.strip, String.toList_ofList] at hc
  exact Text.head_stripChars hc

/-- A text that is parsed as a function is compiled to just that function, with its body and with the
stripped text as its source; it is refused, as no function at all, exactly if a comment hides its
beginning. -/
theorem compileFunction_parsed (h : Script.parseFunction (Text.strip source) = .ok f)
    (location : Location) :
    (¬ IsVeiled (Text.strip source).toList →
      compileFunction source location = .ok ⟨f.params, Text.strip source, some f.body⟩) ∧
    (IsVeiled (Text.strip source).toList → compileFunction source location =
      .error (.config (.notFunction (Text.strip source)) location)) := by
  constructor
  · intro hbare
    have hsource := (isFunctionSource_strip h).mpr hbare
    rw [compileFunction, if_pos hsource, h]
  · intro hveiled
    have hsource : ¬ Script.isFunctionSource (Text.strip source) = true := fun hs =>
      (isFunctionSource_strip h).mp hs hveiled
    rw [compileFunction, if_neg hsource]

/-- A function with a comment among its parameters. -/
def commentedSource : String := " (a, // first\n b) => a\n"

/-- A function behind a comment. -/
def veiledSource : String := "// one\n() => 1"

theorem compileFunction_parsed_sample :
    compileFunction commentedSource .nowhere = .ok
      ⟨["a", "b"], "(a, // first\n b) => a", some [.ret (some (.ident "a"))]⟩ ∧
    compileFunction veiledSource .nowhere =
      .error (.config (.notFunction "// one\n() => 1") .nowhere) := by
  have hstrip : Text.strip commentedSource = "(a, // first\n b) => a" := by decide
  have hstrip' : Text.strip veiledSource = "// one\n() => 1" := by decide
  have hparse : Script.parseFunction (Text.strip commentedSource) =
      .ok ⟨["a", "b"], [.ret (some (.ident "a"))]⟩ := by
    rw [hstrip]
    cbv
  have hparse' : Script.parseFunction (Text.strip veiledSource) =
      .ok ⟨[], [.ret (some (.literal (.int 1)))]⟩ := by
    rw [hstrip']
    cbv
  have hbare : ¬ IsVeiled (Text.strip commentedSource).toList :=
    (isFunctionSource_strip hparse).mp (by rw [hstrip]; rfl)
  have hveiled : IsVeiled (Text.strip veiledSource).toList := by
    rw [hstrip']
    exact .front " one\n() => 1".toList
  have hbuilt := (compileFunction_parsed hparse .nowhere).1 hbare
  have hrefused := (compileFunction_parsed hparse' .nowhere).2 hveiled
  rw [hstrip] at hbuilt
  rw [hstrip'] at hrefused
  exact ⟨hbuilt, hrefused⟩

end Compile

/-! ## Parts that keep their meaning -/

/-- Characters that a string in a function text can hold. -/
def IsWritable (c : Char) : Prop :=
  0x20 ≤ c.toNat ∨ c ∈ ['\n', '\r', '\t', Char.ofNat 12, Char.ofNat 8]

instance (c : Char) : Decidable (IsWritable c) := inferInstanceAs (Decidable (_ ∨ _))

theorem isPiece_escapeChar {c : Char} (h : IsWritable c) :
    Script.IsPiece c (Json.escapeChar false c) := by
  rw [Json.escapeChar]
  by_cases hquote : c = '"'
  · rw [if_pos hquote, hquote]
    exact Or.inl ⟨'"', rfl, rfl⟩
  by_cases hback : c = '\\'
  · rw [if_neg hquote, if_pos hback, hback]
    exact Or.inl ⟨'\\', rfl, rfl⟩
  by_cases hmem : c ∈ ['\n', '\r', '\t', Char.ofNat 12, Char.ofNat 8]
  · simp only [List.mem_cons, List.not_mem_nil, or_false] at hmem
    rcases hmem with rfl | rfl | rfl | rfl | rfl
    · exact Or.inl ⟨'n', rfl, rfl⟩
    · exact Or.inl ⟨'r', rfl, rfl⟩
    · exact Or.inl ⟨'t', rfl, rfl⟩
    · exact Or.inl ⟨'f', rfl, rfl⟩
    · exact Or.inl ⟨'b', rfl, rfl⟩
  · have hlarge : ¬ c.toNat < 0x20 := Nat.not_lt_of_le (h.resolve_right hmem)
    simp only [List.mem_cons, List.not_mem_nil, or_false, not_or] at hmem
    obtain ⟨hnewline, hreturn, htab, hform, hbackspace⟩ := hmem
    rw [if_neg hquote, if_neg hback, if_neg hnewline, if_neg hreturn, if_neg htab, if_neg hform,
      if_neg hbackspace, if_neg hlarge]
    exact Or.inr ⟨rfl, hquote, hback, hnewline⟩

namespace FunctionSpec

variable {spec : FunctionSpec} {location : Location}

/-- The statements of the body as they are written into the function text. -/
def bodyText (spec : FunctionSpec) : String := Text.strip (spec.bodyStatements.getD "")

/-- Whether the body declares a name. -/
def declares (spec : FunctionSpec) (name : String) : Bool :=
  match Script.parseStatements spec.bodyText with
  | .ok ss => ss.any (Script.Stmt.declares name)
  | .error _ => false

/-- The parts of the function text keep the meaning that they have alone. -/
structure IsFaithful (spec : FunctionSpec) : Prop where
  /-- Parameters are names, not keywords, and without a line feed behind them. -/
  params : ∀ name ∈ spec.parameters, IsPlainName name
  /-- The last line is not taken as what the body returns. -/
  body : Script.endsWithReturn spec.bodyText = false
  /-- No comma between returned expressions is hidden by a comment. -/
  returns : ∀ text ∈ spec.returnExpressions.dropLast, Script.endsInComment 0 text.toList = false
  /-- A thrown message can be read back. -/
  message : ∀ message, spec.throwsMessage = some message → ∀ c ∈ message.toList, IsWritable c
  /-- The function that makes the thrown error is not hidden by a name of the function. -/
  error : spec.throwsMessage.isSome = true →
    "Error" ∉ spec.parameters ∧ spec.declares "Error" = false

end FunctionSpec

/-! ## Last statements -/

theorem parsed_eq_ok {α : Type} {r : Except Script.ParseError α}
    {problem : Script.ParseError → ConfigProblem} {location : Location} {a : α}
    (h : parsed r problem location = .ok a) : r = .ok a := by
  rw [parsed.eq_def] at h
  split at h
  · cases h
    rfl
  · cases h
  · cases h

theorem parseReturns_eq_ok {location : Location} {texts : List String} {position : Nat}
    {es : List Script.Expr} (h : parseReturns location position texts = .ok es) :
    List.Forall₂ (fun text e => Script.parseExpr text = .ok e) texts es := by
  induction texts generalizing position es with
  | nil =>
    rw [parseReturns] at h
    cases h
    exact .nil
  | cons text texts ih =>
    rw [parseReturns] at h
    obtain ⟨e, he, h⟩ := bind_eq_ok.mp h
    obtain ⟨others, hothers, h⟩ := bind_eq_ok.mp h
    cases h
    exact .cons (parsed_eq_ok he) (ih hothers)

variable {invoke : Script.Invoke}

/-- The last line of a function text says what the last statement does. -/
theorem lastStatement_faithful {spec : FunctionSpec} {location : Location} {st : Script.Stmt}
    {line : String} (h : lastStatement spec location = .ok (st, line)) (hspec : spec.IsFaithful) :
    ∃ st', IsLastLine line st' ∧ ∀ source s t,
      (spec.throwsMessage.isSome = true → Script.Scope.get? "Error" s = none) →
      shown source ((Script.runStmts invoke [st]).exec s t) =
        shown source ((Script.runStmts invoke [st']).exec s t) := by
  rw [lastStatement] at h
  cases hthrows : spec.throwsMessage with
  | some message =>
    rw [hthrows] at h
    cases h
    have hpieces : ∀ c ∈ message.toList, Script.IsPiece c (Json.escapeChar false c) :=
      fun c hc => isPiece_escapeChar (hspec.message message hthrows c hc)
    exact ⟨_, Script.isLastLine_throw hpieces,
      fun source s t herror => Script.shown_throw (herror rfl) message t⟩
  | none =>
    rw [hthrows] at h
    dsimp only at h
    obtain ⟨es, hes, h⟩ := bind_eq_ok.mp h
    have htexts := parseReturns_eq_ok hes
    cases es with
    | nil =>
      cases h
      exact ⟨_, Script.isLastLine_return, fun source s t _ => rfl⟩
    | cons e es =>
      have hne : spec.returnExpressions ≠ [] := by
        intro hnil
        rw [hnil] at htexts
        cases htexts
      obtain ⟨b, items, hjoins, hline⟩ := Script.isLastLine_returns htexts hne hspec.returns
      have hsame : ∀ scope, Script.evalExpr invoke scope (Script.Expr.ofItems e es) =
          Script.evalExpr invoke scope (Script.Expr.ofItems b items) := by
        intro scope
        rw [Script.evalExpr_ofItems, Script.evalExpr_ofItems, hjoins.evalExpr (List.cons_ne_nil _ _)]
      have hst : st = .ret (some (Script.Expr.ofItems e es)) ∧
          line = "return " ++ joinWith ", " spec.returnExpressions ++ ";" := by
        cases es <;> (cases h; exact ⟨rfl, rfl⟩)
      obtain ⟨rfl, rfl⟩ := hst
      refine ⟨_, hline, fun source s t _ => ?_⟩
      rw [Script.runStmts, Script.runStmts, Script.Run.exec_ofEval, Script.Run.exec_ofEval, hsame]

/-! ## Whole functions -/

theorem parseStatements_empty : Script.parseStatements "" = .ok [] := by cbv

section Build

variable {spec : FunctionSpec} {location : Location}

/-- A function is its body with the last statement behind it, and the lines that say them. -/
theorem buildFunction_eq {body : List Script.Stmt}
    (hbody : Script.parseStatements spec.bodyText = .ok body) :
    buildFunction spec location = (lastStatement spec location).map fun last =>
      ⟨spec.parameters, Script.arrowText spec.parameters
        ((if spec.bodyText = "" then [] else [spec.bodyText]) ++ [last.2]),
        some (body ++ [last.1])⟩ := by
  rw [FunctionSpec.bodyText] at hbody
  rw [buildFunction, FunctionSpec.bodyText]
  dsimp only
  by_cases hempty : Text.strip (spec.bodyStatements.getD "") = ""
  · rw [hempty, parseStatements_empty] at hbody
    obtain rfl := Except.ok.inj hbody
    rw [if_pos hempty, if_pos hempty]
    cases lastStatement spec location <;> rfl
  · rw [if_neg hempty, if_neg hempty, hbody]
    cases lastStatement spec location <;> rfl

/-- What a function is made of: its statements, and the lines that say them. -/
theorem buildFunction_eq_ok {f : PropFunction} (h : buildFunction spec location = .ok f) :
    ∃ body last line, Script.parseStatements spec.bodyText = .ok body ∧
      lastStatement spec location = .ok (last, line) ∧
      f = ⟨spec.parameters, Script.arrowText spec.parameters
        ((if spec.bodyText = "" then [] else [spec.bodyText]) ++ [line]), some (body ++ [last])⟩ := by
  have hparse : ∃ body, Script.parseStatements spec.bodyText = .ok body := by
    by_cases hempty : spec.bodyText = ""
    · exact ⟨[], by rw [hempty, parseStatements_empty]⟩
    · rw [FunctionSpec.bodyText] at hempty
      rw [buildFunction] at h
      dsimp only at h
      rw [if_neg hempty] at h
      obtain ⟨body, hbody, -⟩ := bind_eq_ok.mp h
      exact ⟨body, parsed_eq_ok hbody⟩
  obtain ⟨body, hbody⟩ := hparse
  rw [buildFunction_eq hbody, map_eq_ok] at h
  obtain ⟨⟨last, line⟩, hlast, rfl⟩ := h
  exact ⟨body, last, line, hbody, hlast, rfl⟩

end Build

/-- The lines of a function text are read as the statements of the body and the last one. -/
theorem parseFunction_lines {params : List String} {text line : String} {body : List Script.Stmt}
    {st : Script.Stmt} (hparams : ∀ name ∈ params, IsPlainName name)
    (hbody : Script.parseStatements text = .ok body) (hreturn : Script.endsWithReturn text = false)
    (hline : IsLastLine line st) :
    Script.parseFunction
      (Script.arrowText params ((if text = "" then [] else [text]) ++ [line])) =
        .ok ⟨params, body ++ [st]⟩ := by
  by_cases hempty : text = ""
  · subst hempty
    obtain rfl := Except.ok.inj (parseStatements_empty.symm.trans hbody)
    exact Script.parseFunction_line hparams hline
  · rw [if_neg hempty]
    exact Script.parseFunction_body_line hparams hbody hreturn hline

theorem compileFunction_arrowText {params lines : List String} {body : List Script.Stmt}
    (hparams : ∀ name ∈ params, IsPlainName name)
    (hparse : Script.parseFunction (Script.arrowText params lines) = .ok ⟨params, body⟩)
    (location : Location) :
    compileFunction (Script.arrowText params lines) location =
      .ok ⟨params, Script.arrowText params lines, some body⟩ := by
  rw [compileFunction, strip_arrowText, if_pos (isFunctionSource_arrowText lines hparams), hparse]

/-- A function whose parts keep their meaning is written as a text that is read back as a function
with the same parameters, and the two do the same on all arguments. -/
theorem buildFunction_faithful {spec : FunctionSpec} {location : Location} {f : PropFunction}
    (h : buildFunction spec location = .ok f) (hspec : spec.IsFaithful) (place : Location) :
    ∃ g, compileFunction f.source place = .ok g ∧ g.body.isSome = true ∧ g.params = f.params ∧
      SameOutcome f g := by
  obtain ⟨body, last, line, hbody, hlast, rfl⟩ := buildFunction_eq_ok h
  obtain ⟨last', hline, hsame⟩ :=
    @lastStatement_faithful (Script.invokeWithin 189) _ _ _ _ hlast hspec
  have hparse := parseFunction_lines hspec.params hbody hspec.body hline
  refine ⟨_, compileFunction_arrowText hspec.params hparse place, rfl, rfl, ?_⟩
  refine Script.sameOutcome_of_shown fun args t => ?_
  -- a body that throws must not see another `Error`, from the parameters on to its last statement
  refine Script.exec_append_congr
    (P := fun s => spec.throwsMessage.isSome = true → Script.Scope.get? "Error" s = none)
    (R := fun o o' => shown _ o = shown _ o') (fun _ => rfl) (fun s t hs => hsame _ s t hs)
    (fun st hst s t s' t' hs hexec hthrows => ?_)
    (fun hthrows => Script.get?_bindParams (hspec.error hthrows).1 args) t
  have hdeclares := (hspec.error hthrows).2
  rw [FunctionSpec.declares, hbody] at hdeclares
  exact Script.get?_step (Bool.eq_false_iff.mpr fun hd =>
    Bool.eq_false_iff.mp hdeclares (List.any_eq_true.mpr ⟨st, hst, hd⟩)) (hs hthrows) hexec

/-- A function with two parameters, a declaration and two returned expressions. -/
def sampleSpec : FunctionSpec where
  parameters := ["a", "b"]
  bodyStatements := some "let c = a + b"
  returnExpressions := ["c", "c * 2 // doubled"]
  throwsMessage := none

theorem sampleSpec_isFaithful : sampleSpec.IsFaithful where
  params := by decide
  body := by cbv
  returns := by
    intro text htext
    obtain rfl := List.mem_singleton.mp htext
    cbv
  message := nofun
  error := nofun

theorem buildFunction_faithful_sample : ∃ f g,
    buildFunction sampleSpec .nowhere = .ok f ∧ sampleSpec.IsFaithful ∧
      f.source = "(a, b) => \x7b\nlet c = a + b\nreturn c, c * 2 // doubled;\n\x7d" ∧
      compileFunction f.source .nowhere = .ok g ∧ g.body.isSome = true ∧ g.params = f.params ∧
      SameOutcome f g := by
  have hbuilt : (buildFunction sampleSpec .nowhere).map PropFunction.source =
      .ok "(a, b) => \x7b\nlet c = a + b\nreturn c, c * 2 // doubled;\n\x7d" := by cbv
  cases hf : buildFunction sampleSpec .nowhere with
  | error e =>
    rw [hf] at hbuilt
    cases hbuilt
  | ok f =>
    rw [hf] at hbuilt
    obtain ⟨g, hg, hbody, hparams, hsame⟩ :=
      buildFunction_faithful hf sampleSpec_isFaithful .nowhere
    exact ⟨f, g, rfl, sampleSpec_isFaithful, Except.ok.inj hbuilt, hg, hbody, hparams, hsame⟩

end Preview
end Vitrine
