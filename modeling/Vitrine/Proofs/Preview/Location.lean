import Vitrine.Proofs.Preview.Generation

/-!
# Where errors are located

The name of the preview file stands in errors only: what is read from one text, and what is made of it,
is the same under every name, or it fails under every name.
-/
namespace Vitrine

/-- The same result, or a failure on both sides. -/
inductive Result.Alike {α : Type} : Result α → Result α → Prop
  | result (a : α) : Alike (.ok a) (.ok a)
  | failure (d e : Error) : Alike (.error d) (.error e)

namespace Result.Alike

variable {α β : Type} {x y : Result α} {f g : α → Result β}

theorem refl (x : Result α) : Alike x x := by
  cases x with
  | ok a => exact .result a
  | error e => exact .failure e e

theorem of_errors (hx : ∃ e, x = .error e) (hy : ∃ e, y = .error e) : Alike x y := by
  obtain ⟨d, rfl⟩ := hx
  obtain ⟨e, rfl⟩ := hy
  exact .failure d e

theorem bind (hx : Alike x y) (hf : ∀ a, x = .ok a → Alike (f a) (g a)) :
    Alike (x >>= f) (y >>= g) := by
  cases hx with
  | result a => exact hf a rfl
  | failure d e => exact .failure d e

theorem ok_iff (h : Alike x y) (a : α) : x = .ok a ↔ y = .ok a := by
  cases h with
  | result b => exact Iff.rfl
  | failure d e => exact iff_of_false (fun h => by cases h) fun h => by cases h

end Result.Alike

namespace Preview

open Result

/-! ## Functions -/

theorem parsed_alike {α : Type} (r : Except Script.ParseError α)
    (problem : Script.ParseError → ConfigProblem) (l l' : Location) :
    Alike (parsed r problem l) (parsed r problem l') := by
  cases r with
  | ok a => exact .result a
  | error e => cases e <;> exact .failure _ _

theorem parseReturns_alike (l l' : Location) (position : Nat) (texts : List String) :
    Alike (parseReturns l position texts) (parseReturns l' position texts) := by
  induction texts generalizing position with
  | nil => exact .result _
  | cons text texts ih =>
    exact (parsed_alike _ _ _ _).bind fun e _ => (ih _).bind fun es _ => .result _

theorem lastStatement_alike (spec : FunctionSpec) (l l' : Location) :
    Alike (lastStatement spec l) (lastStatement spec l') := by
  rw [lastStatement, lastStatement]
  cases spec.throwsMessage with
  | some message => exact .result _
  | none => exact (parseReturns_alike l l' 0 _).bind fun es _ => .refl _

theorem buildFunction_alike (spec : FunctionSpec) (l l' : Location) :
    Alike (buildFunction spec l) (buildFunction spec l') := by
  rw [buildFunction, buildFunction]
  have hrest := lastStatement_alike spec l l'
  split
  · exact .bind (.refl _) fun body _ => hrest.bind fun last _ => .refl _
  · exact (parsed_alike _ _ _ _).bind fun body _ => hrest.bind fun last _ => .refl _

theorem compileFunction_alike (source : String) (l l' : Location) :
    Alike (compileFunction source l) (compileFunction source l') := by
  rw [compileFunction, compileFunction]
  split
  · exact .refl _
  · exact .failure _ _

/-! ## Props -/

namespace Reading

variable (r : Reading) (file : Option Path)

mutual

theorem checkPlain_alike (keyPath : String) (v : Data) :
    Alike (r.checkPlain keyPath v) (checkPlain { r with file } keyPath v) := by
  cases v with
  | array id items => exact checkItems_alike keyPath 0 items
  | object id entries => exact checkEntries_alike keyPath entries
  | _ =>
    rw [checkPlain, checkPlain]
    · split
      · exact .failure _ _
      · exact .refl _
    all_goals nofun

theorem checkItems_alike (keyPath : String) (position : Nat) (vs : List Data) :
    Alike (r.checkItems keyPath position vs) (checkItems { r with file } keyPath position vs) := by
  cases vs with
  | nil => exact .result _
  | cons v vs =>
    exact (checkPlain_alike _ v).bind fun _ _ => checkItems_alike keyPath (position + 1) vs

theorem checkEntries_alike (keyPath : String) (es : List (Key × Data)) :
    Alike (r.checkEntries keyPath es) (checkEntries { r with file } keyPath es) := by
  cases es with
  | nil => exact .result _
  | cons e es =>
    refine .bind (.refl _) fun name _ => ?_
    exact (checkPlain_alike _ e.2).bind fun _ _ => checkEntries_alike keyPath es

end

theorem plain_alike (keyPath : String) (v : Data) :
    Alike (r.plain keyPath v) (plain { r with file } keyPath v) :=
  (checkPlain_alike r file keyPath v).bind fun _ _ => .refl _

theorem functionOf_alike (keyPath : String) (entries : List (Key × Data)) :
    Alike (r.functionOf keyPath entries) (functionOf { r with file } keyPath entries) := by
  rw [functionOf, functionOf]
  split
  · split
    · exact .refl _
    · exact (compileFunction_alike _ _ _).bind fun f _ => .refl _
    · exact .failure _ _
  · split
    · exact .failure _ _
    · exact (buildFunction_alike _ _ _).bind fun f _ => .refl _

theorem kindOf_alike (keyPath : String) (named : Data) :
    Alike (r.kindOf keyPath named) (kindOf { r with file } keyPath named) := by
  cases named with
  | str s =>
    rw [kindOf, kindOf]
    cases valueKinds.lookup s with
    | some kind => exact .refl _
    | none => exact .failure _ _
  | _ =>
    rw [kindOf, kindOf]
    · exact .bind (.refl _) fun text _ => .failure _ _
    all_goals nofun

mutual

theorem read_alike (keyPath : String) (v : Data) :
    Alike (r.read keyPath v) (read { r with file } keyPath v) := by
  cases v with
  | array id items =>
    rw [read, read]
    exact (readItems_alike keyPath 0 items).bind fun ws _ => .refl _
  | null =>
    rw [read, read]
    exact .refl _
  | object id entries =>
    rw [read, read]
    split
    · refine (kindOf_alike r file keyPath _).bind fun kind _ => ?_
      cases kind with
      | object => exact readObjectPayload_alike keyPath entries
      | array => exact readArrayPayload_alike keyPath entries
      | string | number | boolean => exact plain_alike r file _ _
      | null | undefined => exact .refl _
      | function => exact functionOf_alike r file keyPath entries
    · exact (readEntries_alike keyPath entries).bind fun es _ => .refl _
  | _ => exact plain_alike r file keyPath _

theorem readItems_alike (keyPath : String) (position : Nat) (vs : List Data) :
    Alike (r.readItems keyPath position vs) (readItems { r with file } keyPath position vs) := by
  cases vs with
  | nil => exact .refl _
  | cons v vs =>
    rw [readItems, readItems]
    refine (read_alike _ v).bind fun w _ => ?_
    exact (readItems_alike keyPath (position + 1) vs).bind fun ws _ => .refl _

theorem readEntries_alike (keyPath : String) (es : List (Key × Data)) :
    Alike (r.readEntries keyPath es) (readEntries { r with file } keyPath es) := by
  cases es with
  | nil => exact .refl _
  | cons e es =>
    rw [readEntries, readEntries]
    refine .bind (.refl _) fun name _ => (read_alike _ e.2).bind fun w _ => ?_
    exact (readEntries_alike keyPath es).bind fun ws _ => .refl _

theorem readObjectPayload_alike (keyPath : String) (es : List (Key × Data)) :
    Alike (r.readObjectPayload keyPath es) (readObjectPayload { r with file } keyPath es) := by
  match es with
  | [] => exact .refl _
  | (k, v) :: es =>
    by_cases hk : k = .str "value"
    · subst hk
      cases v with
      | null => exact .refl _
      | object id entries =>
        exact (readEntries_alike (keyPath ++ ".value") entries).bind fun ws _ => .refl _
      | _ => exact .failure _ _
    · have hne : ∀ w, (k, v) ≠ (.str "value", w) := fun w heq => hk (congrArg Prod.fst heq)
      rw [readObjectPayload, readObjectPayload]
      · exact readObjectPayload_alike keyPath es
      all_goals
        intros
        exact hne _ ‹_›

theorem readArrayPayload_alike (keyPath : String) (es : List (Key × Data)) :
    Alike (r.readArrayPayload keyPath es) (readArrayPayload { r with file } keyPath es) := by
  match es with
  | [] => exact .refl _
  | (k, v) :: es =>
    by_cases hk : k = .str "value"
    · subst hk
      cases v with
      | null => exact .refl _
      | array id items =>
        exact (readItems_alike (keyPath ++ ".value") 0 items).bind fun ws _ => .refl _
      | _ => exact .failure _ _
    · have hne : ∀ w, (k, v) ≠ (.str "value", w) := fun w heq => hk (congrArg Prod.fst heq)
      rw [readArrayPayload, readArrayPayload]
      · exact readArrayPayload_alike keyPath es
      all_goals
        intros
        exact hne _ ‹_›

end

end Reading

/-! ## Preview files -/

section Files

variable (file file' : Path)

theorem readEntries_alike (text : String) :
    Alike (readEntries file text) (readEntries file' text) := by
  rw [readEntries, readEntries]
  split
  · exact .failure _ _
  · exact .failure _ _
  · exact .refl _
  · exact .refl _
  · exact .failure _ _

theorem readConfig_alike (entries : List (Key × Data)) :
    Alike (readConfig file entries) (readConfig file' entries) := by
  unfold readConfig
  cases Config.ofEntries entries with
  | valid config => exact .refl _
  | invalid issues => exact .failure _ _

theorem resolveName_alike (c : Config) (component : Path) :
    Alike (resolveName c file component) (resolveName c file' component) := by
  rw [resolveName, resolveName]
  split
  · exact .refl _
  · split
    · exact .refl _
    · exact .failure _ _

theorem resolveProps_alike (c : Config) :
    Alike (resolveProps c file) (resolveProps c file') := by
  refine (Reading.read_alike ⟨!c.legacyNulls, some file⟩ (some file') "props" c.props).bind
    fun props _ => ?_
  split
  · exact .refl _
  · exact .refl _
  · exact .failure _ _

end Files

end Preview
end Vitrine
