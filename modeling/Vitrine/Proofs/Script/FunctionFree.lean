import Vitrine.Proofs.Entries
import Vitrine.Proofs.Outcome
import Vitrine.Proofs.Script.Faults

/-!
# Values without functions

No operation of the expression language brings about a prop function: from values in which none
occurs, properties, operators, built-in functions and methods come to such values
(`property_yields`, `combine_yields`, `runBuiltin_yields`, `runMethod_yields`).
-/
namespace Vitrine

variable {ι : Type}

namespace Value

mutual

/-- No prop function occurs in a value at any depth; built-in functions and methods may. -/
def FunctionFree : Value ι → Prop
  | .function .. => False
  | .array _ items => ItemsFunctionFree items
  | .object _ entries => EntriesFunctionFree entries
  | .pair v w => v.FunctionFree ∧ w.FunctionFree
  | .method _ receiver _ => receiver.FunctionFree
  | _ => True

def ItemsFunctionFree : List (Value ι) → Prop
  | [] => True
  | v :: vs => v.FunctionFree ∧ ItemsFunctionFree vs

def EntriesFunctionFree : List (Key × Value ι) → Prop
  | [] => True
  | (_, v) :: es => v.FunctionFree ∧ EntriesFunctionFree es

end

theorem itemsFunctionFree_iff {vs : List (Value ι)} :
    ItemsFunctionFree vs ↔ ∀ v ∈ vs, v.FunctionFree := by
  induction vs with
  | nil => simp [ItemsFunctionFree]
  | cons v vs ih => rw [ItemsFunctionFree, ih, List.forall_mem_cons]

theorem entriesFunctionFree_iff {es : List (Key × Value ι)} :
    EntriesFunctionFree es ↔ ∀ e ∈ es, e.2.FunctionFree := by
  induction es with
  | nil => simp [EntriesFunctionFree]
  | cons e es ih => rw [EntriesFunctionFree, ih, List.forall_mem_cons]

@[simp]
theorem functionFree_array {id : ι} {items : List (Value ι)} :
    (Value.array id items).FunctionFree ↔ ∀ v ∈ items, v.FunctionFree := by
  rw [FunctionFree, itemsFunctionFree_iff]

@[simp]
theorem functionFree_object {id : ι} {entries : List (Key × Value ι)} :
    (Value.object id entries).FunctionFree ↔ ∀ e ∈ entries, e.2.FunctionFree := by
  rw [FunctionFree, entriesFunctionFree_iff]

@[simp]
theorem functionFree_method {id : ι} {receiver : Value ι} {m : Method} :
    (Value.method id receiver m).FunctionFree ↔ receiver.FunctionFree := by
  rw [FunctionFree]

theorem functionFree_toValue (k : Key) : k.toValue.FunctionFree := by
  cases k <;> simp [Key.toValue, FunctionFree]

end Value

open Value (FunctionFree)

namespace Script

/-! ## Values from outside -/

mutual

theorem functionFree_identify {n : Nat} {v : Value ι} (h : v.FunctionFree) :
    (identify n v).1.FunctionFree := by
  cases v with
  | array id items =>
    rw [Value.functionFree_array] at h
    rw [identify, Value.functionFree_array]
    exact functionFree_identifyItems h
  | object id entries =>
    rw [Value.functionFree_object] at h
    rw [identify, Value.functionFree_object]
    exact functionFree_identifyEntries h
  | pair v w =>
    rw [FunctionFree] at h
    rw [identify, FunctionFree]
    exact ⟨functionFree_identify h.1, functionFree_identify h.2⟩
  | method id receiver m =>
    rw [FunctionFree] at h
    rw [identify, FunctionFree]
    exact functionFree_identify h
  | function id f => cases h
  | _ => exact trivial

theorem functionFree_identifyItems {n : Nat} {vs : List (Value ι)}
    (h : ∀ v ∈ vs, v.FunctionFree) : ∀ v ∈ (identifyItems n vs).1, v.FunctionFree := by
  cases vs with
  | nil => exact nofun
  | cons v vs =>
    rw [List.forall_mem_cons] at h
    rw [identifyItems]
    exact List.forall_mem_cons.mpr
      ⟨functionFree_identify h.1, functionFree_identifyItems h.2⟩

theorem functionFree_identifyEntries {n : Nat} {es : List (Key × Value ι)}
    (h : ∀ e ∈ es, e.2.FunctionFree) : ∀ e ∈ (identifyEntries n es).1, e.2.FunctionFree := by
  cases es with
  | nil => exact nofun
  | cons e es =>
    rw [List.forall_mem_cons] at h
    rw [identifyEntries]
    exact List.forall_mem_cons.mpr
      ⟨functionFree_identify h.1, functionFree_identifyEntries h.2⟩

end

mutual

theorem functionFree_ofJson (j : Json) : (ofJson j).FunctionFree := by
  cases j with
  | array items =>
    rw [ofJson, Value.functionFree_array]
    exact functionFree_ofJsonItems items
  | object members =>
    rw [ofJson, Value.functionFree_object]
    exact functionFree_ofJsonMembers members
  | _ => rw [ofJson]; exact trivial

theorem functionFree_ofJsonItems (js : List Json) : ∀ v ∈ ofJsonItems js, v.FunctionFree := by
  cases js with
  | nil => exact nofun
  | cons j js =>
    rw [ofJsonItems]
    exact List.forall_mem_cons.mpr ⟨functionFree_ofJson j, functionFree_ofJsonItems js⟩

theorem functionFree_ofJsonMembers (ms : List (String × Json)) :
    ∀ e ∈ ofJsonMembers ms, e.2.FunctionFree := by
  cases ms with
  | nil => exact nofun
  | cons m ms =>
    rw [ofJsonMembers]
    exact List.forall_mem_cons.mpr ⟨functionFree_ofJson m.2, functionFree_ofJsonMembers ms⟩

end

/-! ## Evaluations -/

variable {α β : Type} {P : α → Prop} {Q : β → Prop}

/-- An outcome without functions: a value that satisfies `P`, an error, a thrown value in which no
function occurs, or a fault. -/
inductive Clean (P : α → Prop) : Except Failure α → Prop
  | value {a : α} (h : P a) : Clean P (.ok a)
  | error (e : EvalError) : Clean P (.error (.error e))
  | thrown {v : Cell} (h : v.FunctionFree) (message : String) : Clean P (.error (.thrown v message))
  | fault (f : Fault) : Clean P (.error (.fault f))

/-- An evaluation that ends without functions. -/
def Eval.Yields (P : α → Prop) (e : Eval α) : Prop := ∀ t, Clean P (e.exec t).1

namespace Eval.Yields

theorem pure {a : α} (h : P a) : Eval.Yields P (Pure.pure a : Eval α) := fun _ => .value h

theorem fault (f : Fault) : Eval.Yields P (Eval.fault f : Eval α) := fun _ => .fault f

theorem fail (e : EvalError) : Eval.Yields P (Eval.fail e : Eval α) := fun _ => .error e

theorem lift {r : Except Fault α} (h : ∀ a, r = .ok a → P a) : Eval.Yields P (Eval.lift r) := by
  cases r with
  | ok a => exact .pure (h a rfl)
  | error f => exact .fault f

theorem bind {e : Eval α} {g : α → Eval β} (h : Eval.Yields P e)
    (hg : ∀ a, P a → Eval.Yields Q (g a)) : Eval.Yields Q (e >>= g) := by
  intro t
  have hclean := h t
  rw [Eval.exec_bind]
  rcases hexec : e.exec t with ⟨r, t'⟩
  rw [hexec] at hclean
  cases hclean with
  | value ha => exact hg _ ha t'
  | error e => exact .error e
  | thrown hv message => exact .thrown hv message
  | fault f => exact .fault f

/-- Behind a conversion whose result does not matter. -/
theorem lift_bind {r : Except Fault α} {g : α → Eval β} (h : ∀ a, Eval.Yields Q (g a)) :
    Eval.Yields Q (Eval.lift r >>= g) :=
  .bind (.lift fun _ _ => trivial : Eval.Yields (fun _ => True) _) fun a _ => h a

theorem fresh : Eval.Yields (fun _ => True) Eval.fresh := fun _ => .value trivial

theorem newArray {items : List Cell} (h : ∀ v ∈ items, v.FunctionFree) :
    Eval.Yields FunctionFree (Eval.newArray items) :=
  .bind .fresh fun _ _ => .pure (Value.functionFree_array.mpr h)

theorem newObject {entries : List (Key × Cell)} (h : ∀ e ∈ entries, e.2.FunctionFree) :
    Eval.Yields FunctionFree (Eval.newObject entries) :=
  .bind .fresh fun _ _ => .pure (Value.functionFree_object.mpr h)

theorem adopt {v : Value ι} (h : v.FunctionFree) : Eval.Yields FunctionFree (adopt v) :=
  fun _ => .value (functionFree_identify h)

theorem throwValue {v : Cell} (h : v.FunctionFree) :
    Eval.Yields P (Eval.throwValue v : Eval α) := by
  rw [Eval.throwValue.eq_def]
  exact .lift_bind fun message _ => .thrown h message

theorem mapM {g : β → Eval α} {bs : List β} (h : ∀ b ∈ bs, Eval.Yields P (g b)) :
    Eval.Yields (fun as => ∀ a ∈ as, P a) (bs.mapM g) := by
  induction bs with
  | nil => exact .pure nofun
  | cons b bs ih =>
    rw [List.forall_mem_cons] at h
    rw [List.mapM_cons]
    exact .bind h.1 fun a ha => .bind (ih h.2) fun as has =>
      .pure (List.forall_mem_cons.mpr ⟨ha, has⟩)

end Eval.Yields

/-! ## Names and properties -/

/-- No function occurs in the values of a scope. -/
def Scope.FunctionFree (s : Scope) : Prop := ∀ b ∈ s, b.2.FunctionFree

theorem Scope.FunctionFree.get? {s : Scope} (h : s.FunctionFree) {name : String} {v : Cell}
    (hv : s.get? name = some v) : v.FunctionFree := by
  obtain ⟨front, rest, rfl, -⟩ := List.lookup_eq_some_iff.mp hv
  exact h (name, v) (List.mem_append_right front List.mem_cons_self)

theorem Scope.FunctionFree.set {s : Scope} (h : s.FunctionFree) (name : String) {v : Cell}
    (hv : v.FunctionFree) : (s.set name v).FunctionFree := by
  induction s with
  | nil => exact List.forall_mem_singleton.mpr hv
  | cons b s ih =>
    obtain ⟨hb, hs⟩ := List.forall_mem_cons.mp h
    rw [Scope.set]
    split
    · exact List.forall_mem_cons.mpr ⟨hv, hs⟩
    · exact List.forall_mem_cons.mpr ⟨hb, ih hs⟩

theorem functionFree_globals : globals.FunctionFree := by
  simp [Scope.FunctionFree, globals, builtinTable, namespaceOf, FunctionFree,
    Value.EntriesFunctionFree]

theorem lookUp_yields {s : Scope} (h : s.FunctionFree) (name : String) :
    Eval.Yields FunctionFree (lookUp s name) := by
  rw [lookUp]
  split
  · next v hv =>
    rw [lookUp?, Option.or_eq_some_iff] at hv
    rcases hv with hv | ⟨-, hv⟩
    · exact .pure (h.get? hv)
    · exact .pure (functionFree_globals.get? hv)
  · exact .fail _

theorem functionFree_getD {o : Option Cell} (h : ∀ v, o = some v → v.FunctionFree) :
    (o.getD .undefined).FunctionFree := by
  cases o with
  | none => exact trivial
  | some v => exact h v rfl

theorem itemAt_yields {items : List Cell} (h : ∀ v ∈ items, v.FunctionFree) (n : Number) :
    Eval.Yields FunctionFree (itemAt items n) := by
  refine .lift_bind fun i => .pure ?_
  split
  · exact trivial
  · exact functionFree_getD fun v hv => h v (List.mem_of_getElem? hv)

theorem itemProperty_yields {target : Cell} {items : List Cell} (htarget : target.FunctionFree)
    (h : ∀ v ∈ items, v.FunctionFree) (methods : List (String × Method)) (key : Cell) :
    Eval.Yields FunctionFree (itemProperty target items methods key) := by
  rw [itemProperty.eq_def]
  split
  · split
    · exact .pure trivial
    · split
      · exact .bind .fresh fun _ _ => .pure htarget
      · exact .pure trivial
  · exact itemAt_yields h _
  · exact itemAt_yields h _
  · exact .pure trivial

/-- The properties of values without functions are such values. -/
theorem property_yields {target : Cell} (h : target.FunctionFree) (key : Cell) :
    Eval.Yields FunctionFree (property target key) := by
  rw [property.eq_def]
  split
  · exact .lift_bind fun _ => .fail _
  · exact .lift_bind fun _ => .fail _
  · next id entries =>
    refine .lift_bind fun name => .pure (functionFree_getD fun v hv => ?_)
    exact Value.functionFree_object.mp h _ (Entries.mem_of_get? hv)
  · exact itemProperty_yields h (Value.functionFree_array.mp h) _ _
  · refine itemProperty_yields h (fun v hv => ?_) _ _
    obtain ⟨c, -, rfl⟩ := List.mem_map.mp hv
    exact trivial
  · exact .pure trivial

/-! ## Operators -/

theorem functionFree_toValue_number (n : Number) : (n.toValue : Cell).FunctionFree := by
  cases n <;> exact trivial

theorem numberResult_yields (r : Except Fault Number) :
    Eval.Yields FunctionFree (numberResult r) :=
  .lift_bind fun n => .pure (functionFree_toValue_number n)

theorem comparison_yields (onTexts : String → String → Bool) (onNumbers : Number → Number → Bool)
    (a b : Cell) : Eval.Yields FunctionFree (comparison onTexts onNumbers a b) := by
  rw [comparison.eq_def]
  split
  · exact .pure trivial
  · refine .lift_bind fun _ => ?_
    split
    · exact .pure trivial
    · refine .lift_bind fun _ => ?_
      split <;> exact .pure trivial

theorem plus_yields (a b : Cell) : Eval.Yields FunctionFree (plus a b) := by
  rw [plus]
  split
  · exact .lift_bind fun _ => .lift_bind fun _ => .pure trivial
  · exact numberResult_yields _

theorem combine_yields (op : BinaryOp) (a : Cell) {b : Cell} (h : b.FunctionFree) :
    Eval.Yields FunctionFree (combine op a b) := by
  cases op with
  | add => exact plus_yields a b
  | sub | mul | div | mod => exact numberResult_yields _
  | lt | gt | le | ge =>
    rw [combine]
    exact comparison_yields _ _ a b
  | and | or | nullish => exact .pure h
  | _ => exact .pure trivial

theorem functionFree_applyUnary (op : UnaryOp) (v : Cell) : (applyUnary op v).FunctionFree := by
  cases op with
  | neg | pos => exact functionFree_toValue_number _
  | _ => exact trivial

/-! ## Built-in functions and methods -/

theorem parseJson_yields (v : Cell) : Eval.Yields FunctionFree (parseJson v) := by
  have hmalformed : ∀ message, Eval.Yields FunctionFree (parseJson.malformed message) := by
    intro message
    refine .bind (.newObject ?_) fun w hw => .throwValue hw
    simp [FunctionFree]
  rw [parseJson]
  split
  · exact hmalformed _
  · split
    · exact .adopt (functionFree_ofJson _)
    · exact hmalformed _

theorem writeLog_yields (level : Level) (args : List Cell) :
    Eval.Yields FunctionFree (writeLog level args) :=
  .lift_bind fun _ _ => .value trivial

theorem makeError_yields (message : String) :
    Eval.Yields FunctionFree (makeError message) :=
  .newObject (by simp [FunctionFree])

/-- Built-in functions come to values without functions on such values. -/
theorem runBuiltin_yields (b : Builtin) {args : List Cell} (h : ∀ v ∈ args, v.FunctionFree) :
    Eval.Yields FunctionFree (runBuiltin b args) := by
  rw [runBuiltin.eq_def]
  split
  -- in the order of the definition: numbers, JSON, the console, objects, conversions
  case h_1 | h_2 | h_3 | h_7 | h_8 => exact .pure (functionFree_toValue_number _)
  case h_4 | h_5 | h_6 => exact numberResult_yields _
  case h_9 =>
    refine .lift_bind fun text => .pure ?_
    split <;> exact trivial
  case h_10 => exact parseJson_yields _
  case h_11 | h_12 | h_13 | h_14 => exact writeLog_yields _ _
  case h_15 =>
    refine .bind (.mapM fun e _ => .adopt (Value.functionFree_toValue e.1)) fun keys hkeys => ?_
    exact .newArray hkeys
  case h_17 id entries =>
    have hentries := Value.functionFree_object.mp (h _ List.mem_cons_self)
    refine .newArray fun v hv => ?_
    obtain ⟨e, he, rfl⟩ := List.mem_map.mp hv
    exact hentries e he
  case h_16 | h_18 => exact .newArray (List.forall_mem_nil _)
  case h_22 => exact .lift_bind fun _ => .pure trivial
  case h_24 => exact .pure (functionFree_toValue_number _)
  case h_27 => exact makeError_yields _
  case h_28 => exact .lift_bind fun _ => makeError_yields _
  case h_29 | h_30 => exact .lift_bind fun _ => numberResult_yields _
  case h_31 => exact .lift_bind fun _ => .lift_bind fun _ => .pure trivial
  case h_32 => exact .lift_bind fun _ => .pure trivial
  case h_33 => exact .fault _
  all_goals exact .pure trivial

theorem slice_sublist {items items' : List α} {args : List Cell}
    (h : slice items args = .ok items') : items'.Sublist items := by
  rw [slice.eq_def] at h
  dsimp only at h
  split at h
  · cases h
    exact .refl _
  · obtain ⟨first, -, h⟩ := bind_eq_ok.mp h
    cases h
    exact List.drop_sublist _ _
  · obtain ⟨first, -, h⟩ := bind_eq_ok.mp h
    cases h
    exact List.drop_sublist _ _
  · obtain ⟨first, -, h⟩ := bind_eq_ok.mp h
    obtain ⟨last, -, h⟩ := bind_eq_ok.mp h
    cases h
    exact (List.drop_sublist _ _).trans (List.take_sublist _ _)
  · cases h

theorem runStringMethod_yields (s : String) (m : Method) (args : List Cell) :
    Eval.Yields FunctionFree (runStringMethod s m args) := by
  rw [runStringMethod.eq_def]
  split
  case h_8 =>
    refine .lift_bind fun text => .pure ?_
    split <;> exact trivial
  case h_1 | h_2 | h_3 | h_4 => exact .pure trivial
  case h_11 => exact .fault _
  all_goals exact .lift_bind fun _ => .pure trivial

theorem runArrayMethod_yields {items : List Cell} (hitems : ∀ v ∈ items, v.FunctionFree)
    (m : Method) {args : List Cell} (hargs : ∀ v ∈ args, v.FunctionFree) :
    Eval.Yields FunctionFree (runArrayMethod items m args) := by
  rw [runArrayMethod.eq_def]
  split
  · exact .lift_bind fun _ => .pure trivial
  · exact .lift_bind fun _ => .lift_bind fun _ => .pure trivial
  · exact .pure trivial
  · exact .pure trivial
  · refine .bind (.lift fun items' h v hv => ?_) fun items' h => .newArray h
    exact hitems v ((slice_sublist h).subset hv)
  · refine .newArray (List.forall_mem_append.mpr ⟨hitems, fun v hv => ?_⟩)
    obtain ⟨arg, harg, hv⟩ := List.mem_flatMap.mp hv
    split at hv
    · exact Value.functionFree_array.mp (hargs _ harg) v hv
    · rw [List.mem_singleton.mp hv]
      exact hargs _ harg
  · exact .fault _

/-- Methods come to values without functions for such receivers and arguments. -/
theorem runMethod_yields {receiver : Cell} (hreceiver : receiver.FunctionFree) (m : Method)
    {args : List Cell} (hargs : ∀ v ∈ args, v.FunctionFree) :
    Eval.Yields FunctionFree (runMethod receiver m args) := by
  rw [runMethod.eq_def]
  split
  · exact runStringMethod_yields _ m args
  · exact runArrayMethod_yields (Value.functionFree_array.mp hreceiver) m hargs
  · exact .fault _

end Script
end Vitrine
