import Vitrine.Preview.Code
import Vitrine.Proofs.Json.RoundTrip
import Vitrine.Proofs.Script.Identities
import Vitrine.Proofs.Script.Running

/-!
# Literals

Plain values, made of what JSON knows except doubles, are written into the generated code as the
JSON texts that expressions see, and both those texts and the attributes of an element are read back
as the values (`toCode_plain`).
-/
namespace Vitrine

variable {ι : Type}

/-! ## Plain values -/

namespace Value

mutual

/-- Values that JSON texts carry: null, truth values, integers of no more digits than are read,
texts, arrays of such values, and objects of them under texts, no two of which are the same. -/
def IsPlain : Value ι → Prop
  | .null | .bool _ | .str _ => True
  | .int n => (Decimal.digitChars n.natAbs).length ≤ Decimal.digitLimit
  | .array _ items => ArePlain items
  | .object _ entries => (entries.map (·.1)).Nodup ∧ ArePlainEntries entries
  | _ => False

def ArePlain : List (Value ι) → Prop
  | [] => True
  | v :: vs => v.IsPlain ∧ ArePlain vs

def ArePlainEntries : List (Key × Value ι) → Prop
  | [] => True
  | (.str _, v) :: es => v.IsPlain ∧ ArePlainEntries es
  | _ => False

end

end Value

open Script (toJson toJsonItems toJsonEntries ofJson ofJsonItems ofJsonMembers)

namespace Json

theorem writeItems_eq (style : Style) (js : List Json) :
    writeItems style js = joinWith style.itemSep (js.map (write style)) := by
  induction js with
  | nil => rfl
  | cons j js ih =>
    cases js with
    | nil => rfl
    | cons k ks =>
      rw [writeItems, ih]
      · rfl
      · exact List.cons_ne_nil k ks

/-- A member of an object as it is written. -/
def memberText (style : Style) (m : String × Json) : String :=
  quote style.ascii m.1 ++ style.nameSep ++ m.2.write style

theorem writeMembers_eq (style : Style) (ms : List (String × Json)) :
    writeMembers style ms = joinWith style.itemSep (ms.map (memberText style)) := by
  induction ms with
  | nil => rfl
  | cons m ms ih =>
    cases ms with
    | nil => rfl
    | cons n ns =>
      rw [writeMembers, ih]
      · rfl
      · exact List.cons_ne_nil n ns

end Json

theorem writtenInt_eq (n : Int) : writtenInt n =
    if Decimal.digitLimit < (Decimal.digitChars n.natAbs).length then .error .value
    else .ok (Decimal.intText n) := by
  have hlength : (Decimal.intText n).length - (if n < 0 then 1 else 0) =
      (Decimal.digitChars n.natAbs).length := by
    rw [Decimal.intText, String.length_ofList, Decimal.intChars]
    by_cases hn : n < 0
    · rw [if_pos hn, if_pos hn]
      rfl
    · rw [if_neg hn, if_neg hn]
      rfl
  rw [writtenInt, hlength]

theorem writtenInt_of_length {n : Int}
    (h : (Decimal.digitChars n.natAbs).length ≤ Decimal.digitLimit) :
    writtenInt n = .ok (Decimal.intText n) := by
  rw [writtenInt_eq, if_neg (Nat.not_lt.mpr h)]

namespace Preview

theorem isOmitted_of_isPlain {v : Value ι} (h : v.IsPlain) : Script.isOmitted v = false := by
  cases v <;> first | rfl | simp only [Value.IsPlain] at h

mutual

/-- A plain value is written as the text of a JSON value that stands for it. -/
theorem exists_json (v : Data) (h : v.IsPlain) :
    ∃ j, j.IsReadable ∧ toJson v = .ok j ∧ toCode v = .ok (j.write Json.compact) ∧ ofJson j = v := by
  cases v with
  | null => exact ⟨.null, trivial, by rw [toJson], by rw [toCode, Json.write], by rw [ofJson]⟩
  | bool b => exact ⟨.bool b, trivial, by rw [toJson], by rw [toCode, Json.write], by rw [ofJson]⟩
  | str s => exact ⟨.str s, trivial, by rw [toJson], by rw [toCode, Json.write]; rfl, by rw [ofJson]⟩
  | int n =>
    rw [Value.IsPlain] at h
    refine ⟨.int n, by rwa [Json.IsReadable], ?_, ?_, by rw [ofJson]⟩
    · rw [toJson, writtenInt_of_length h]
      rfl
    · rw [toCode, writtenInt_of_length h, Json.write]
  | array id items =>
    rw [Value.IsPlain] at h
    obtain ⟨js, hread, hjson, hcode, hof⟩ := exists_jsonItems items h
    refine ⟨.array js, by rwa [Json.IsReadable], ?_, ?_, by rw [ofJson, hof]⟩
    · rw [toJson, hjson]
      rfl
    · rw [toCode, hcode, Json.write, Json.writeItems_eq]
      rfl
  | object id entries =>
    rw [Value.IsPlain] at h
    obtain ⟨ms, hread, hjson, hcode, hof, hnames⟩ := exists_jsonEntries entries h.2
    refine ⟨.object ms, ?_, ?_, ?_, by rw [ofJson, hof]⟩
    · rw [Json.IsReadable]
      refine ⟨?_, hread⟩
      have hnodup := h.1
      rw [hnames] at hnodup
      exact (List.pairwise_map.mp hnodup).imp fun hne heq => hne (congrArg Key.str heq)
    · rw [toJson, hjson]
      rfl
    · rw [toCode, hcode, Json.write, Json.writeMembers_eq]
      rfl
  | _ => simp only [Value.IsPlain] at h

theorem exists_jsonItems (vs : List Data) (h : Value.ArePlain vs) :
    ∃ js, Json.AreReadable js ∧ toJsonItems vs = .ok js ∧
      toCodeItems vs = .ok (js.map (Json.write Json.compact)) ∧ ofJsonItems js = vs := by
  cases vs with
  | nil => exact ⟨[], trivial, by rw [toJsonItems], by rw [toCodeItems]; rfl, by rw [ofJsonItems]⟩
  | cons v vs =>
    rw [Value.ArePlain] at h
    obtain ⟨j, hread, hjson, hcode, hof⟩ := exists_json v h.1
    obtain ⟨js, hreads, hjsons, hcodes, hofs⟩ := exists_jsonItems vs h.2
    refine ⟨j :: js, ⟨hread, hreads⟩, ?_, ?_, by rw [ofJsonItems, hof, hofs]⟩
    · rw [toJsonItems, isOmitted_of_isPlain h.1, hjson, hjsons]
      rfl
    · rw [toCodeItems, hcode, hcodes]
      rfl

theorem exists_jsonEntries (es : List (Key × Data)) (h : Value.ArePlainEntries es) :
    ∃ ms, Json.AreReadableMembers ms ∧ toJsonEntries es = .ok ms ∧
      toCodeEntries es = .ok (ms.map (Json.memberText Json.compact)) ∧ ofJsonMembers ms = es ∧
      es.map (·.1) = (ms.map (·.1)).map Key.str := by
  match es, h with
  | [], _ =>
    exact ⟨[], trivial, by rw [toJsonEntries], by rw [toCodeEntries]; rfl, by rw [ofJsonMembers],
      rfl⟩
  | (.str name, v) :: es, h =>
    rw [Value.ArePlainEntries] at h
    obtain ⟨j, hread, hjson, hcode, hof⟩ := exists_json v h.1
    obtain ⟨ms, hreads, hjsons, hcodes, hofs, hnames⟩ := exists_jsonEntries es h.2
    refine ⟨(name, j) :: ms, ⟨hread, hreads⟩, ?_, ?_, by rw [ofJsonMembers, hof, hofs], ?_⟩
    · rw [toJsonEntries, isOmitted_of_isPlain h.1, hjson, hjsons]
      rfl
    · rw [toCodeEntries, hcode, hcodes]
      rfl
    · rw [List.map_cons, hnames]
      rfl

end

/-! ## Reading back -/

open Script (Cell Eval Trace evaluate)

/-- A call of a function of the `JSON` namespace with the value of the name `v`. -/
def jsonCall (function : String) : Script.Expr :=
  .call (.member (.ident "JSON") function) [.ident "v"]

theorem evaluate_jsonCall {function : String} {b : Builtin}
    (h : (function, b) ∈ [("stringify", Builtin.jsonStringify), ("parse", .jsonParse)]) (c : Cell) :
    evaluate (jsonCall function) [("v", c)] =
      Eval.naming (.member (.ident "JSON") function) (Script.runBuiltin b [c]) := by
  have hlook : Script.lookUp [("v", c)] "JSON" = pure (Script.namespaceOf ("JSON",
      [("stringify", .builtin .jsonStringify), ("parse", .builtin .jsonParse)])).2 := rfl
  have hmember : Script.property (Script.namespaceOf ("JSON",
      [("stringify", .builtin .jsonStringify), ("parse", .builtin .jsonParse)])).2 (.str function) =
        pure (.builtin b) := by
    simp only [List.mem_cons, List.not_mem_nil, or_false] at h
    rcases h with h | h <;> (cases h; rfl)
  have hvalue : Script.lookUp [("v", c)] "v" = pure c := rfl
  rw [evaluate, jsonCall, Script.evalExpr, Script.evalExpr, Script.evalExpr, hlook, pure_bind,
    hmember, pure_bind, Script.evalItems, Script.evalExpr, hvalue, pure_bind, Script.evalItems,
    pure_bind]
  rfl

/-- What `JSON.stringify` comes to on a value with a JSON text. -/
theorem exec_stringify {c : Cell} {text : String} (h : Script.stringify c = .ok (some text))
    (t : Trace) :
    (evaluate (jsonCall "stringify") [("v", c)]).exec t = (.ok (.str text), t) := by
  have hjson : ("stringify", Builtin.jsonStringify) ∈
      [("stringify", Builtin.jsonStringify), ("parse", .jsonParse)] := by decide
  rw [evaluate_jsonCall hjson, Eval.naming, Eval.exec_tryCatch, Script.runBuiltin, h]
  rfl

/-- What `JSON.parse` comes to on a JSON text: its value, with identities of its own. -/
theorem exec_parse {text : String} {j : Json} (h : Json.read false text = .ok j) (t : Trace) :
    (evaluate (jsonCall "parse") [("v", .str text)]).exec t =
      (.ok (Script.identify t.next (ofJson j)).1,
        { t with next := (Script.identify t.next (ofJson j)).2 }) := by
  have hdisplay : Value.display (.str text : Cell) = .ok text := rfl
  have hjson : ("parse", Builtin.jsonParse) ∈
      [("stringify", Builtin.jsonStringify), ("parse", .jsonParse)] := by decide
  rw [evaluate_jsonCall hjson, Eval.naming, Eval.exec_tryCatch, Script.runBuiltin,
    Script.parseJson, hdisplay]
  dsimp only
  rw [h]
  rfl

/-- The value that `JSON.parse` makes of a text. -/
def parsedText? (text : String) : Option Data :=
  ((evaluate (jsonCall "parse") [("v", .str text)]).exec .start).1.toOption.map Value.forget

/-- What an attribute of a known name says: the text between its quotes, or the JSON value of the
text between its braces. -/
def attributeValue? (name written : String) : Option Data :=
  match written.toList.drop name.length with
  | '=' :: '"' :: cs => some (.str (String.ofList cs.dropLast))
  | '=' :: '\x7b' :: cs => parsedText? (String.ofList cs.dropLast)
  | _ => none

theorem attributeValue?_quoted (name s : String) :
    attributeValue? name (name ++ "=\"" ++ s ++ "\"") = some (.str s) := by
  have htext : (name ++ "=\"" ++ s ++ "\"").toList.drop name.length =
      '=' :: '"' :: (s.toList ++ ['"']) := by
    rw [← String.length_toList, String.toList_append, String.toList_append, String.toList_append,
      List.append_assoc, List.append_assoc, List.drop_left]
    rfl
  rw [attributeValue?, htext]
  show some (Value.str (String.ofList (s.toList ++ ['"']).dropLast)) = _
  rw [List.dropLast_concat, String.ofList_toList]

theorem attributeValue?_braced (name text : String) :
    attributeValue? name (name ++ "=\x7b" ++ text ++ "\x7d") = parsedText? text := by
  have htext : (name ++ "=\x7b" ++ text ++ "\x7d").toList.drop name.length =
      '=' :: '\x7b' :: (text.toList ++ ['\x7d']) := by
    rw [← String.length_toList, String.toList_append, String.toList_append, String.toList_append,
      List.append_assoc, List.append_assoc, List.drop_left]
    rfl
  rw [attributeValue?, htext]
  show parsedText? (String.ofList (text.toList ++ ['\x7d']).dropLast) = _
  rw [List.dropLast_concat, String.ofList_toList]

/-- An attribute is the literal between braces, or a text between quotes. -/
theorem attributeText_eq_ok {v : Data} {text : String} (h : toCode v = .ok text) (name : String) :
    attributeText name v = .ok (name ++ "=\x7b" ++ text ++ "\x7d") ∨
      ∃ s, v = .str s ∧ attributeText name v = .ok (name ++ "=\"" ++ s ++ "\"") := by
  have hbraced : (do return name ++ "=\x7b" ++ (← toCode v) ++ "\x7d" : Except Fault String) =
      .ok (name ++ "=\x7b" ++ text ++ "\x7d") := by
    rw [h]
    rfl
  cases v with
  | str s =>
    rw [attributeText]
    by_cases hplain : isPlainAttribute s = true
    · rw [if_pos hplain]
      exact Or.inr ⟨s, rfl, rfl⟩
    · rw [if_neg hplain]
      exact Or.inl hbraced
  | _ => exact Or.inl hbraced

/-- Plain values survive code generation: the literal of such a value is the text that
`JSON.stringify` makes of it, `JSON.parse` makes the value of this text again, and its attribute
says the value. -/
theorem toCode_plain {v : Data} (h : v.IsPlain) :
    ∃ text, toCode v = .ok text ∧
      (∀ c : Cell, c.forget = v → ∀ t,
        (evaluate (jsonCall "stringify") [("v", c)]).exec t = (.ok (.str text), t)) ∧
      (∀ t, ∃ c next, (evaluate (jsonCall "parse") [("v", .str text)]).exec t =
        (.ok c, { t with next := next }) ∧ c.forget = v) ∧
      ∀ name, ∃ written, attributeText name v = .ok written ∧
        attributeValue? name written = some v := by
  obtain ⟨j, hreadable, hjson, hcode, hof⟩ := exists_json v h
  have hread := Json.read_write false Json.isReadable_compact hreadable
  have hparsed : ∀ t, (evaluate (jsonCall "parse") [("v", .str (j.write Json.compact))]).exec t =
      (.ok (Script.identify t.next v).1, { t with next := (Script.identify t.next v).2 }) :=
    fun t => hof ▸ exec_parse hread t
  have hbraced : ∀ name, attributeValue? name
      (name ++ "=\x7b" ++ j.write Json.compact ++ "\x7d") = some v := by
    intro name
    rw [attributeValue?_braced, parsedText?, hparsed]
    exact congrArg some ((Script.forget_identify _ v).trans (Value.forget_data v))
  refine ⟨j.write Json.compact, hcode, fun c hc t => ?_, fun t => ?_, fun name => ?_⟩
  · have hstringify : Script.stringify c = .ok (some (j.write Json.compact)) := by
      rw [← Script.stringify_forget, hc, Script.stringify, isOmitted_of_isPlain h, hjson]
      rfl
    exact exec_stringify hstringify t
  · exact ⟨_, _, hparsed t, by rw [Script.forget_identify, Value.forget_data]⟩
  · rcases attributeText_eq_ok hcode name with hwritten | ⟨s, rfl, hwritten⟩
    · exact ⟨_, hwritten, hbraced name⟩
    · exact ⟨_, hwritten, attributeValue?_quoted name s⟩

/-- A mapping with an empty array, a negative number, a text to be quoted and a truth value. -/
def sampleValue : Data := .object () [(.str "a", .array () []), (.str "", .int (-12)),
  (.str "q", .array () [.str "\"x\\ & \u2028", .null, .bool true])]

theorem toCode_plain_sample : sampleValue.IsPlain ∧ ∃ text, toCode sampleValue = .ok text ∧
    (∀ c : Cell, c.forget = sampleValue → ∀ t,
      (evaluate (jsonCall "stringify") [("v", c)]).exec t = (.ok (.str text), t)) ∧
    (∀ t, ∃ c next, (evaluate (jsonCall "parse") [("v", .str text)]).exec t =
      (.ok c, { t with next := next }) ∧ c.forget = sampleValue) ∧
    ∀ name, ∃ written, attributeText name sampleValue = .ok written ∧
      attributeValue? name written = some sampleValue := by
  have hplain : sampleValue.IsPlain := by
    simp [sampleValue, Value.IsPlain, Value.ArePlainEntries, Value.ArePlain]
    decide
  exact ⟨hplain, toCode_plain hplain⟩

end Preview
end Vitrine
