import Vitrine.Proofs.Preview.Literals

/-!
# Reading stringified values

`JSON.stringify` writes every value of the expression language that is neither undefined nor a
function, unless an integer in it has more digits than are written. `JSON.parse` takes the text as long
as all doubles in it are finite, and refuses it at the first that is not (`parse_stringify`).
-/
namespace Vitrine

variable {ι : Type}

/-! ## The numbers in a text -/

namespace Value

mutual

/-- Values as expressions make them: arrays, and objects under texts, of null, undefined, truth
values, numbers, texts, functions and such values. -/
def IsScripted : Value ι → Prop
  | .array _ items => AreScripted items
  | .object _ entries => AreScriptedEntries entries
  | .date .. | .datetime .. | .bytes .. | .set .. | .pair .. => False
  | _ => True

def AreScripted : List (Value ι) → Prop
  | [] => True
  | v :: vs => v.IsScripted ∧ AreScripted vs

def AreScriptedEntries : List (Key × Value ι) → Prop
  | [] => True
  | (.str _, v) :: es => v.IsScripted ∧ AreScriptedEntries es
  | _ => False

end

mutual

/-- The numbers that are written in the JSON text of a value, in their order. -/
def numbers : Value ι → List (Int ⊕ Float)
  | .int n => [.inl n]
  | .float x => [.inr x]
  | .array _ items => numbersOfItems items
  | .object _ entries => numbersOfEntries entries
  | _ => []

def numbersOfItems : List (Value ι) → List (Int ⊕ Float)
  | [] => []
  | v :: vs => v.numbers ++ numbersOfItems vs

def numbersOfEntries : List (Key × Value ι) → List (Int ⊕ Float)
  | [] => []
  | (_, v) :: es => v.numbers ++ numbersOfEntries es

end

theorem numbers_of_isOmitted {v : Value ι} (h : Script.isOmitted v = true) : v.numbers = [] := by
  cases v <;> first | rfl | cases h

end Value

namespace Script

/-- The word that is written for a number that is none. -/
def constant? : Int ⊕ Float → Option String
  | .inl _ => none
  | .inr x => if (Decimal.Binary.ofFloat? x).isNone then some (Json.constantOf x).1 else none

/-- The first word among numbers that stands for none. -/
def firstConstant? (ns : List (Int ⊕ Float)) : Option String := ns.findSome? constant?

/-- An integer of no more digits than are written. -/
def IsShort (n : Int) : Prop := (Decimal.digitChars n.natAbs).length ≤ Decimal.digitLimit

variable {α β γ δ : Type} {ns ms : List (Int ⊕ Float)}

/-! ## Reading numbers one after the other -/

/-- What is read where these numbers are written: a value, or the first word for no number as an
error. -/
def Rereads (ns : List (Int ⊕ Float)) (r : Except Json.ReadError α) : Prop :=
  match firstConstant? ns with
  | none => ∃ a, r = .ok a
  | some word => r = .error (.constant word)

theorem Rereads.pure (a : α) : Rereads [] (.ok a) := ⟨a, rfl⟩

theorem Rereads.bind {r : Except Json.ReadError α} {f : α → Except Json.ReadError β}
    (h : Rereads ns r) (hf : ∀ a, r = .ok a → Rereads ms (f a)) : Rereads (ns ++ ms) (r >>= f) := by
  unfold Rereads at h ⊢
  rw [firstConstant?, List.findSome?_append, ← firstConstant?, ← firstConstant?]
  cases hns : firstConstant? ns with
  | some word =>
    rw [hns] at h
    rw [h]
    rfl
  | none =>
    rw [hns] at h
    obtain ⟨a, rfl⟩ := h
    exact hf a rfl

theorem Rereads.map {r : Except Json.ReadError α} (h : Rereads ns r) (f : α → β) :
    Rereads ns (do return f (← r)) := by
  rw [← List.append_nil ns]
  exact h.bind fun a _ => .pure (f a)

theorem rereads_int {n : Int} (h : IsShort n) : Rereads [.inl n] ((Json.int n).reread false) :=
  ⟨.int n, Json.reread_of_isReadable false (.int n) h⟩

/-- A finite double is read as a double, whatever digits it is written with. -/
theorem rereads_float (x : Float) : Rereads [.inr x] ((Json.float x).reread false) := by
  unfold Rereads
  rw [firstConstant?, List.findSome?_singleton, constant?, Json.reread]
  cases hx : Decimal.Binary.ofFloat? x with
  | none => rfl
  | some b =>
    obtain ⟨m, -, hm⟩ := Decimal.chars_standard b
    obtain ⟨y, hy⟩ := Option.isSome_iff_exists.mp (m.isSome_float?_chars b.negative)
    refine ⟨.float y, ?_⟩
    show Json.ofNumber (Decimal.standard.chars b) false = _
    rw [hm, Json.ofNumber, if_neg Bool.false_ne_true, hy]

/-! ## JSON values of values -/

/-- What is written where these numbers stand: something that is read as they allow, or a fault if one
of them is too long. -/
inductive Writes (ns : List (Int ⊕ Float)) (reading : α → Except Json.ReadError β) :
    Except Fault α → Prop
  | written {a : α} (hshort : ∀ n, .inl n ∈ ns → IsShort n) (h : Rereads ns (reading a)) :
      Writes ns reading (.ok a)
  | refused {n : Int} (hn : .inl n ∈ ns) (hlong : ¬ IsShort n) : Writes ns reading (.error .value)

namespace Writes

variable {f : α → Except Json.ReadError γ} {g : β → Except Json.ReadError δ}

theorem pure {a : α} {c : γ} (h : f a = .ok c) : Writes [] f (.ok a) :=
  .written nofun (h ▸ .pure c)

theorem map {κ μ : Type} {r : Except Fault α} (h : Writes ns f r) {c : α → κ} {d : γ → μ}
    {reading : κ → Except Json.ReadError μ} (hreading : ∀ a, reading (c a) = do return d (← f a)) :
    Writes ns reading (do return c (← r)) := by
  cases h with
  | written hshort h =>
    refine .written hshort ?_
    rw [hreading]
    exact h.map d
  | refused hn hlong => exact .refused hn hlong

/-- One thing is written behind the other. -/
theorem pair {κ μ : Type} {r : Except Fault α} {rs : Except Fault β} (h : Writes ns f r)
    (hs : Writes ms g rs) {c : α → β → κ} {d : γ → δ → μ} {reading : κ → Except Json.ReadError μ}
    (hreading : ∀ a b, reading (c a b) = do return d (← f a) (← g b)) :
    Writes (ns ++ ms) reading (do return c (← r) (← rs)) := by
  cases h with
  | refused hn hlong => exact .refused (List.mem_append_left _ hn) hlong
  | written hshort h =>
    cases hs with
    | refused hn hlong => exact .refused (List.mem_append_right _ hn) hlong
    | written hshort' h' =>
      refine .written (fun n hn => ?_) ?_
      · rcases List.mem_append.mp hn with hn | hn
        · exact hshort n hn
        · exact hshort' n hn
      · rw [hreading]
        exact h.bind fun a _ => h'.map (d a)

end Writes

theorem writes_int (n : Int) : Writes [.inl n] (Json.reread false) (toJson (.int n : Value ι)) := by
  rw [toJson, writtenInt_eq]
  by_cases h : IsShort n
  · rw [if_neg (Nat.not_lt.mpr h)]
    refine .written (fun m hm => ?_) (rereads_int h)
    rw [Sum.inl.inj (List.mem_singleton.mp hm)]
    exact h
  · rw [if_pos (Nat.lt_of_not_le h)]
    exact .refused List.mem_cons_self h

mutual

/-- The text of a value is read as the numbers in it allow. -/
theorem writes_toJson (v : Value ι) (hv : v.IsScripted) (homit : isOmitted v = false) :
    Writes v.numbers (Json.reread false) (toJson v) := by
  cases v with
  | null =>
    rw [toJson]
    exact .pure (c := Json.null) (by rw [Json.reread] <;> simp)
  | bool b =>
    rw [toJson]
    exact .pure (c := Json.bool b) (by rw [Json.reread] <;> simp)
  | str s =>
    rw [toJson]
    exact .pure (c := Json.str s) (by rw [Json.reread] <;> simp)
  | int n =>
    rw [Value.numbers]
    exact writes_int n
  | float x =>
    rw [Value.numbers, toJson]
    exact .written (by simp) (rereads_float x)
  | array id items =>
    rw [Value.IsScripted] at hv
    rw [Value.numbers, toJson]
    exact (writes_toJsonItems items hv).map fun js => by rw [Json.reread]
  | object id entries =>
    rw [Value.IsScripted] at hv
    rw [Value.numbers, toJson]
    exact (writes_toJsonEntries entries hv).map fun ms => by rw [Json.reread]
  | undefined | function | builtin | method => cases homit
  | date | datetime | bytes | set | pair => simp only [Value.IsScripted] at hv

theorem writes_toJsonItems (vs : List (Value ι)) (hv : Value.AreScripted vs) :
    Writes (Value.numbersOfItems vs) (Json.rereadItems false) (toJsonItems vs) := by
  cases vs with
  | nil =>
    rw [Value.numbersOfItems, toJsonItems]
    exact .pure (by rw [Json.rereadItems])
  | cons v vs =>
    rw [Value.AreScripted] at hv
    have hpair : ∀ {r : Except Fault Json}, Writes v.numbers (Json.reread false) r →
        Writes (v.numbers ++ Value.numbersOfItems vs) (Json.rereadItems false)
          (do return (← r) :: (← toJsonItems vs)) :=
      fun h => h.pair (writes_toJsonItems vs hv.2) fun j js => by rw [Json.rereadItems]
    rw [Value.numbersOfItems, toJsonItems]
    cases homit : isOmitted v with
    | true =>
      rw [if_pos rfl]
      refine hpair (r := pure .null) ?_
      rw [Value.numbers_of_isOmitted homit]
      exact .pure (c := Json.null) (by rw [Json.reread] <;> simp)
    | false =>
      rw [if_neg Bool.false_ne_true]
      exact hpair (writes_toJson v hv.1 homit)

theorem writes_toJsonEntries (es : List (Key × Value ι)) (hv : Value.AreScriptedEntries es) :
    Writes (Value.numbersOfEntries es) (Json.rereadMembers false) (toJsonEntries es) := by
  match es, hv with
  | [], _ =>
    rw [Value.numbersOfEntries, toJsonEntries]
    exact .pure (by rw [Json.rereadMembers])
  | (.str name, v) :: es, hv =>
    rw [Value.AreScriptedEntries] at hv
    have hothers := writes_toJsonEntries es hv.2
    rw [Value.numbersOfEntries, toJsonEntries]
    cases homit : isOmitted v with
    | true =>
      rw [Value.numbers_of_isOmitted homit]
      exact hothers
    | false =>
      exact (writes_toJson v hv.1 homit).pair hothers fun j ms => by rw [Json.rereadMembers]

end

/-! ## Writing and reading -/

theorem firstConstant?_eq_none_iff : firstConstant? ns = none ↔
    ∀ x, .inr x ∈ ns → (Decimal.Binary.ofFloat? x).isSome := by
  rw [firstConstant?, List.findSome?_eq_none_iff]
  constructor
  · intro h x hx
    have hnone := h (.inr x) hx
    cases hfloat : Decimal.Binary.ofFloat? x with
    | some b => rfl
    | none => simp [constant?, hfloat] at hnone
  · intro h n hn
    match n with
    | .inl _ => rfl
    | .inr x =>
      obtain ⟨b, hb⟩ := Option.isSome_iff_exists.mp (h x hn)
      simp [constant?, hb]

open Preview (jsonCall evaluate_jsonCall exec_stringify exec_parse)

/-- What `JSON.parse` comes to on a text that is no JSON: what is wrong with it is thrown. -/
theorem exec_parse_error {text : String} {e : Json.ReadError}
    (h : Json.read false text = .error e) (t : Trace) :
    let message := e.message text.toList
    (evaluate (jsonCall "parse") [("v", .str text)]).exec t =
      (.error (.thrown (.object (.cell t.next)
        [(.str "name", .str "SyntaxError"), (.str "message", .str message)]) message),
        { t with next := t.next + 1 }) := by
  have hdisplay : Value.display (.str text : Cell) = .ok text := rfl
  have hjson : ("parse", Builtin.jsonParse) ∈
      [("stringify", Builtin.jsonStringify), ("parse", .jsonParse)] := by decide
  rw [evaluate_jsonCall hjson, Eval.naming, Eval.exec_tryCatch, runBuiltin, parseJson, hdisplay]
  dsimp only
  rw [h]
  rfl

/-- What `JSON.stringify` comes to on a value that is not written. -/
theorem exec_stringify_error {c : Cell} (h : stringify c = .error .value) (t : Trace) :
    (evaluate (jsonCall "stringify") [("v", c)]).exec t =
      (.error (.error (.faultIn "JSON.stringify" .value)), t) := by
  have hjson : ("stringify", Builtin.jsonStringify) ∈
      [("stringify", Builtin.jsonStringify), ("parse", .jsonParse)] := by decide
  rw [evaluate_jsonCall hjson, Eval.naming, Eval.exec_tryCatch, runBuiltin, h]
  rfl

/-- A value of the expression language that is neither undefined nor a function has a JSON text
unless an integer in it is too long. `JSON.parse` takes that text exactly if no NaN and no infinity is
in the value, and else throws an error that names the first of them. -/
theorem parse_stringify {v : Cell} (hv : v.IsScripted) (homit : isOmitted v = false) (t : Trace) :
    (∀ n, .inl n ∈ v.numbers → ¬ IsShort n →
      (evaluate (jsonCall "stringify") [("v", v)]).exec t =
        (.error (.error (.faultIn "JSON.stringify" .value)), t)) ∧
    ((∀ n, .inl n ∈ v.numbers → IsShort n) → ∃ text,
      (evaluate (jsonCall "stringify") [("v", v)]).exec t = (.ok (.str text), t) ∧
      ((∃ w u, (evaluate (jsonCall "parse") [("v", .str text)]).exec t = (.ok w, u)) ↔
        ∀ x, .inr x ∈ v.numbers → (Decimal.Binary.ofFloat? x).isSome) ∧
      ∀ word, firstConstant? v.numbers = some word →
        let message := "Unexpected token " ++ word
        (evaluate (jsonCall "parse") [("v", .str text)]).exec t =
          (.error (.thrown (.object (.cell t.next)
            [(.str "name", .str "SyntaxError"), (.str "message", .str message)]) message),
            { t with next := t.next + 1 })) := by
  obtain ⟨r, hr⟩ : ∃ r, r = toJson v := ⟨_, rfl⟩
  have hwrites := writes_toJson v hv homit
  rw [← hr] at hwrites
  cases hwrites with
  | refused hn hlong =>
    have hstringify : stringify v = .error .value := by
      rw [stringify, homit, ← hr]
      rfl
    exact ⟨fun _ _ _ => exec_stringify_error hstringify t, fun hshort => absurd (hshort _ hn) hlong⟩
  | @written j hshort hreads =>
    have hstringify : stringify v = .ok (some (j.write Json.compact)) := by
      rw [stringify, homit, ← hr]
      rfl
    have hread := Json.read_written false Json.isReadable_compact j
    have hrefused : ∀ word, firstConstant? v.numbers = some word →
        Json.read false (j.write Json.compact) = .error (.constant word) := by
      intro word hword
      rw [Rereads, hword] at hreads
      exact hread.trans hreads
    refine ⟨fun n hn hlong => absurd (hshort n hn) hlong, fun _ => ⟨j.write Json.compact,
      exec_stringify hstringify t, ?_, fun word hword => exec_parse_error (hrefused word hword) t⟩⟩
    rw [← firstConstant?_eq_none_iff]
    constructor
    · rintro ⟨w, u, hparsed⟩
      cases hfirst : firstConstant? v.numbers with
      | none => rfl
      | some word =>
        rw [exec_parse_error (hrefused word hfirst) t] at hparsed
        cases hparsed
    · intro hfirst
      rw [Rereads, hfirst] at hreads
      obtain ⟨k, hk⟩ := hreads
      exact ⟨_, _, exec_parse (hread.trans hk) t⟩

/-- An object of an array with a half, in which a function and undefined stand, and another function. -/
def halfCell : Cell := .object (.cell 0)
  [(.str "a", .array (.cell 1) [.int 1, .undefined, .float (Float.ofBits 0x3fe0000000000000),
    .builtin .mathMax]), (.str "f", .builtin .isNaN)]

/-- The text of one value is taken; the text of another is refused because of a NaN. -/
theorem parse_stringify_half : ∃ text refused,
    (evaluate (jsonCall "stringify") [("v", halfCell)]).exec .start = (.ok (.str text), .start) ∧
    (∃ w u, (evaluate (jsonCall "parse") [("v", .str text)]).exec .start = (.ok w, u)) ∧
    (evaluate (jsonCall "stringify") [("v", .array (.cell 0) [.float Decimal.notANumber])]).exec
      .start = (.ok (.str refused), .start) ∧
    ∃ w u, (evaluate (jsonCall "parse") [("v", .str refused)]).exec .start =
      (.error (.thrown w "Unexpected token NaN"), u) := by
  have hnumbers : halfCell.numbers = [.inl 1, .inr (Float.ofBits 0x3fe0000000000000)] := by
    simp [halfCell, Value.numbers, Value.numbersOfItems, Value.numbersOfEntries]
  have hscripted : halfCell.IsScripted := by
    simp [halfCell, Value.IsScripted, Value.AreScripted, Value.AreScriptedEntries]
  obtain ⟨text, hstringify, hparse, -⟩ := (parse_stringify hscripted rfl .start).2 fun n hn => by
    obtain rfl : n = 1 := by simpa [hnumbers] using hn
    show (Decimal.digitChars 1).length ≤ Decimal.digitLimit
    decide
  have hnan : (Value.array (.cell 0) [.float Decimal.notANumber] : Cell).IsScripted := by
    simp [Value.IsScripted, Value.AreScripted]
  have hword : firstConstant?
      (Value.array (.cell 0) [.float Decimal.notANumber] : Cell).numbers = some "NaN" := by
    decide
  obtain ⟨refused, hwritten, -, hrefused⟩ := (parse_stringify hnan rfl .start).2 fun n hn => by
    simp [Value.numbers, Value.numbersOfItems] at hn
  refine ⟨text, refused, hstringify, hparse.mpr fun x hx => ?_, hwritten, _, _,
    hrefused "NaN" hword⟩
  obtain rfl : x = Float.ofBits 0x3fe0000000000000 := by simpa [hnumbers] using hx
  decide

end Script
end Vitrine
