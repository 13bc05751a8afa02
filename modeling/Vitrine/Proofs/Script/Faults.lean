import Vitrine.Proofs.Script.Running

/-!
# Faults of operations

Which faults the operations of the expression language end in. Conversions to text fault at integers
that are too long to be written, arithmetic at integers beyond all doubles, and a call in no other
way than a call turns into an error, except where calls nest too deep (`call_faults`).
-/
namespace Vitrine

variable {ε α β ι : Type} {S S' : Fault → Prop}

/-! ## Faults of results and evaluations -/

/-- All faults that a result may be lie in a set. -/
def FaultsIn (S : Fault → Prop) (r : Except Fault α) : Prop := ∀ f, r = .error f → S f

namespace FaultsIn

theorem ok (a : α) : FaultsIn S (.ok a : Except Fault α) := nofun

theorem error {f : Fault} (h : S f) : FaultsIn S (.error f : Except Fault α) :=
  fun _ hf => Except.error.inj hf ▸ h

theorem mono {r : Except Fault α} (h : FaultsIn S r) (hS : ∀ f, S f → S' f) : FaultsIn S' r :=
  fun f hf => hS f (h f hf)

theorem bind {r : Except Fault α} {g : α → Except Fault β} (h : FaultsIn S r)
    (hg : ∀ a, FaultsIn S (g a)) : FaultsIn S (r >>= g) := by
  cases r with
  | ok a => exact hg a
  | error f => exact .error (h f rfl)

theorem ite {c : Prop} [Decidable c] {r r' : Except Fault α} (h : FaultsIn S r)
    (h' : FaultsIn S r') : FaultsIn S (if c then r else r') := by
  split
  · exact h
  · exact h'

theorem mapM {g : α → Except Fault β} (h : ∀ a, FaultsIn S (g a)) (as : List α) :
    FaultsIn S (as.mapM g) := by
  induction as with
  | nil => exact .ok []
  | cons a as ih =>
    rw [List.mapM_cons]
    exact .bind (h a) fun b => .bind ih fun bs => .ok (b :: bs)

end FaultsIn

namespace Script

/-- A sequence faults in its first step or, behind what that comes to, in its second. -/
theorem Eval.exec_bind_fault {e : Eval α} {g : α → Eval β} {t t' : Trace} {f : Fault}
    (h : (e >>= g).exec t = (.error (.fault f), t')) :
    e.exec t = (.error (.fault f), t') ∨
      ∃ a t'', e.exec t = (.ok a, t'') ∧ (g a).exec t'' = (.error (.fault f), t') := by
  rw [Eval.exec_bind] at h
  rcases he : e.exec t with ⟨r, t''⟩
  rw [he] at h
  cases r with
  | ok a => exact Or.inr ⟨a, t'', rfl, h⟩
  | error failure =>
    cases h
    exact Or.inl rfl

/-- All faults that an evaluation may end in lie in a set. -/
def Eval.FaultsIn (S : Fault → Prop) (e : Eval α) : Prop :=
  ∀ t f t', e.exec t = (.error (.fault f), t') → S f

namespace Eval.FaultsIn

/-- Evaluations that always succeed. -/
theorem ok {e : Eval α} (h : ∀ t, ∃ a t', e.exec t = (.ok a, t')) : Eval.FaultsIn S e := by
  intro t f t' hf
  obtain ⟨a, t'', ha⟩ := h t
  rw [ha] at hf
  cases hf

theorem pure (a : α) : Eval.FaultsIn S (Pure.pure a : Eval α) := .ok fun t => ⟨a, t, rfl⟩

theorem fault {f : Fault} (h : S f) : Eval.FaultsIn S (Eval.fault f : Eval α) := by
  intro t f' t' hf
  cases hf
  exact h

theorem fail (e : EvalError) : Eval.FaultsIn S (Eval.fail e : Eval α) := fun _ _ _ hf => by cases hf

theorem lift {r : Except Fault α} (h : Vitrine.FaultsIn S r) : Eval.FaultsIn S (Eval.lift r) := by
  cases r with
  | ok a => exact .pure a
  | error f => exact .fault (h f rfl)

theorem mono {e : Eval α} (h : Eval.FaultsIn S e) (hS : ∀ f, S f → S' f) : Eval.FaultsIn S' e :=
  fun t f t' hf => hS f (h t f t' hf)

theorem bind {e : Eval α} {g : α → Eval β} (h : Eval.FaultsIn S e)
    (hg : ∀ a, Eval.FaultsIn S (g a)) : Eval.FaultsIn S (e >>= g) := by
  intro t f t' hf
  rcases exec_bind_fault hf with hf | ⟨a, t'', -, hf⟩
  · exact h t f t' hf
  · exact hg a t'' f t' hf

theorem mapM {g : α → Eval β} (h : ∀ a, Eval.FaultsIn S (g a)) (as : List α) :
    Eval.FaultsIn S (as.mapM g) := by
  induction as with
  | nil => exact .pure []
  | cons a as ih =>
    rw [List.mapM_cons]
    exact .bind (h a) fun b => .bind ih fun bs => .pure (b :: bs)

theorem fresh : Eval.FaultsIn S Eval.fresh := .ok fun _ => ⟨_, _, rfl⟩

theorem newArray (items : List Cell) : Eval.FaultsIn S (Eval.newArray items) :=
  .ok fun _ => ⟨_, _, rfl⟩

theorem newObject (entries : List (Key × Cell)) : Eval.FaultsIn S (Eval.newObject entries) :=
  .ok fun _ => ⟨_, _, rfl⟩

theorem log (level : Level) (text : String) : Eval.FaultsIn S (Eval.log level text) :=
  .ok fun _ => ⟨_, _, rfl⟩

theorem adopt (v : Value ι) : Eval.FaultsIn S (adopt v) := .ok fun _ => ⟨_, _, rfl⟩

end Eval.FaultsIn

end Script

/-! ## Texts -/

/-- What cannot be written as text is an integer that is too long. -/
def IsUnwritable (f : Fault) : Prop := f = .value

theorem writtenInt_faults (n : Int) : FaultsIn IsUnwritable (writtenInt n) := by
  exact .ite (.error rfl) (.ok _)

theorem Key.shown_faults (k : Key) : FaultsIn IsUnwritable k.shown := by
  cases k with
  | int n => exact writtenInt_faults n
  | _ => exact .ok _

theorem setShown_faults (keys : List Key) : FaultsIn IsUnwritable (setShown keys) := by
  rw [setShown]
  split
  · exact .ok _
  · exact .bind (.mapM Key.shown_faults keys) fun shown => .ok _

namespace Value

mutual

theorem shown_faults (v : Value ι) : FaultsIn IsUnwritable v.shown := by
  cases v with
  | int n => rw [shown]; exact writtenInt_faults n
  | set id keys => rw [shown]; exact setShown_faults keys
  | array id items =>
    rw [shown]
    exact .bind (shownItems_faults items) fun texts => .ok _
  | object id entries =>
    rw [shown]
    exact .bind (shownEntries_faults entries) fun texts => .ok _
  | pair v w =>
    rw [shown]
    exact .bind (shown_faults v) fun first => .bind (shown_faults w) fun second => .ok _
  | _ => rw [shown]; exact .ok _

theorem shownItems_faults (vs : List (Value ι)) : FaultsIn IsUnwritable (shownItems vs) := by
  cases vs with
  | nil => rw [shownItems]; exact .ok _
  | cons v vs =>
    rw [shownItems]
    exact .bind (shown_faults v) fun text => .bind (shownItems_faults vs) fun texts => .ok _

theorem shownEntries_faults (es : List (Key × Value ι)) :
    FaultsIn IsUnwritable (shownEntries es) := by
  cases es with
  | nil => rw [shownEntries]; exact .ok _
  | cons e es =>
    rw [shownEntries]
    exact .bind (Key.shown_faults e.1) fun key => .bind (shown_faults e.2) fun text =>
      .bind (shownEntries_faults es) fun texts => .ok _

end

mutual

theorem display_faults (v : Value ι) : FaultsIn IsUnwritable v.display := by
  cases v with
  | int n => rw [display]; exact writtenInt_faults n
  | set id keys => rw [display]; exact setShown_faults keys
  | array id items =>
    rw [display]
    exact .bind (displayItems_faults items) fun texts => .ok _
  | pair v w => rw [display]; exact shown_faults (.pair v w)
  | _ => rw [display]; exact .ok _

theorem displayItems_faults (vs : List (Value ι)) : FaultsIn IsUnwritable (displayItems vs) := by
  cases vs with
  | nil => rw [displayItems]; exact .ok _
  | cons v vs =>
    have hothers := displayItems_faults vs
    have hvalue := display_faults v
    cases v with
    | null => rw [displayItems]; exact .bind hothers fun texts => .ok _
    | undefined => rw [displayItems]; exact .bind hothers fun texts => .ok _
    | _ =>
      rw [displayItems]
      · exact .bind hvalue fun text => .bind hothers fun texts => .ok _
      all_goals nofun

end

end Value

namespace Script

/-! ## Numbers -/

/-- Faults of conversions and of arithmetic. -/
def IsNumeric (f : Fault) : Prop := f = .value ∨ f = .overflow

/-- Faults that a call turns into errors. -/
def IsNamed (f : Fault) : Prop := f = .value ∨ f = .overflow ∨ f = .type

theorem IsNumeric.isNamed {f : Fault} (h : IsNumeric f) : IsNamed f :=
  h.imp_right Or.inl

theorem isNamed_type : IsNamed .type := Or.inr (Or.inr rfl)

theorem isNumeric_of_isUnwritable {f : Fault} (h : IsUnwritable f) : IsNumeric f := Or.inl h

theorem isNamed_of_isUnwritable {f : Fault} (h : IsUnwritable f) : IsNamed f := Or.inl h

namespace Number

theorem toFloat_faults (a : Number) : FaultsIn IsNumeric a.toFloat := by
  cases a with
  | float x => exact .ok x
  | int n =>
    rw [toFloat]
    split
    · exact .ok _
    · exact .error (Or.inr rfl)

theorem isNaN_faults (a : Number) : FaultsIn IsNumeric a.isNaN :=
  .bind a.toFloat_faults fun _ => .ok _

theorem toInt_faults (a : Number) : FaultsIn IsNumeric a.toInt := by
  cases a with
  | int n => exact .ok n
  | float x =>
    rw [toInt]
    split
    · exact .ok _
    · refine .error ?_
      split
      · exact Or.inr rfl
      · exact Or.inl rfl

theorem combine_faults (onInts : Int → Int → Int) (onFloats : Float → Float → Float)
    (a b : Number) : FaultsIn IsNumeric (combine onInts onFloats a b) := by
  rw [combine.eq_def]
  split
  · exact .ok _
  · exact .bind a.toFloat_faults fun x => .bind b.toFloat_faults fun y => .ok _

theorem div_faults (a b : Number) : FaultsIn IsNumeric (a.div b) := by
  rw [div.eq_def]
  refine .ite ?_ ?_
  · exact .bind a.isNaN_faults fun _ => .ite (.ok _) (.ok _)
  · split
    · split
      · exact .ok _
      · exact .error (Or.inr rfl)
    · exact .bind a.toFloat_faults fun x => .bind b.toFloat_faults fun y => .ok _

theorem floatRemainder_faults (x y : Float) : FaultsIn IsNumeric (floatRemainder x y) := by
  rw [floatRemainder.eq_def]
  split
  · exact .ok _
  · exact .ok _
  · exact .ite (.error (Or.inl rfl)) (.ok _)

theorem mod_faults (a b : Number) : FaultsIn IsNumeric (a.mod b) := by
  rw [mod.eq_def]
  refine .ite (.ok _) ?_
  refine .bind a.toFloat_faults fun x => .bind b.toFloat_faults fun y => ?_
  refine .bind (floatRemainder_faults x y) fun r => ?_
  split <;> exact .ok _

theorem round_faults (a : Number) : FaultsIn IsNumeric a.round := by
  rw [round]
  exact .ite (.bind (combine_faults _ _ a _) fun _ => .ok _) (.ok _)

theorem sqrt_faults (a : Number) : FaultsIn IsNumeric a.sqrt := by
  rw [sqrt]
  exact .ite (.ok _) (.ite (.bind a.toFloat_faults fun _ => .ok _) (.ok _))

theorem pow_faults (a b : Number) : FaultsIn IsNumeric (a.pow b) := by
  rw [pow]
  refine .bind a.toFloat_faults fun x => .bind b.toFloat_faults fun y => ?_
  exact .ite (.ok _) (.ite (.ok _) (.ite (.ok _) (.ok _)))

end Number

/-! ## Operations outside calls -/

theorem numberResult_faults {r : Except Fault Number} (h : FaultsIn S r) :
    Eval.FaultsIn S (numberResult r) :=
  .bind (.lift h) fun _ => .pure _

/-- A value on its way to text. -/
theorem lift_display {S : Fault → Prop} (h : ∀ f, IsUnwritable f → S f) (v : Cell) :
    Eval.FaultsIn S (Eval.lift v.display) :=
  .lift (v.display_faults.mono h)

theorem itemAt_faults (items : List Cell) (n : Number) :
    Eval.FaultsIn IsNumeric (itemAt items n) :=
  .bind (.lift n.toInt_faults) fun _ => .pure _

theorem itemProperty_name_faults (target : Cell) (items : List Cell)
    (methods : List (String × Method)) (name : String) :
    Eval.FaultsIn S (itemProperty target items methods (.str name)) := by
  rw [itemProperty]
  split
  · exact .pure _
  · split
    · exact .bind .fresh fun _ => .pure _
    · exact .pure _

theorem itemProperty_faults (target : Cell) (items : List Cell)
    (methods : List (String × Method)) (key : Cell) :
    Eval.FaultsIn IsNumeric (itemProperty target items methods key) := by
  rw [itemProperty.eq_def]
  split
  · exact itemProperty_name_faults target items methods _
  · exact itemAt_faults items _
  · exact itemAt_faults items _
  · exact .pure _

/-- A property access faults only as conversions do. -/
theorem property_faults (target key : Cell) : Eval.FaultsIn IsNumeric (property target key) := by
  have hshown : Eval.FaultsIn IsNumeric (Eval.lift key.shown) :=
    .lift (key.shown_faults.mono fun _ => isNumeric_of_isUnwritable)
  have hdisplay : Eval.FaultsIn IsNumeric (Eval.lift key.display) :=
    lift_display (fun _ => isNumeric_of_isUnwritable) key
  rw [property.eq_def]
  split
  · exact .bind hshown fun _ => .fail _
  · exact .bind hshown fun _ => .fail _
  · exact .bind hdisplay fun _ => .pure _
  · exact itemProperty_faults _ _ _ _
  · exact itemProperty_faults _ _ _ _
  · exact .pure _

/-- The property of a name is always found or missing. -/
theorem property_name_faults (target : Cell) (name : String) :
    Eval.FaultsIn S (property target (.str name)) := by
  rw [property.eq_def]
  split
  · exact .bind (.lift (.ok _)) fun _ => .fail _
  · exact .bind (.lift (.ok _)) fun _ => .fail _
  · exact .bind (.lift (.ok _)) fun _ => .pure _
  · exact itemProperty_name_faults _ _ _ name
  · exact itemProperty_name_faults _ _ _ name
  · exact .pure _

theorem comparison_faults (onTexts : String → String → Bool) (onNumbers : Number → Number → Bool)
    (a b : Cell) : Eval.FaultsIn IsNumeric (comparison onTexts onNumbers a b) := by
  rw [comparison.eq_def]
  split
  · exact .pure _
  · refine .bind (.lift (Number.isNaN_faults _)) fun _ => ?_
    split
    · exact .pure _
    · refine .bind (.lift (Number.isNaN_faults _)) fun _ => ?_
      split <;> exact .pure _

theorem plus_faults (a b : Cell) : Eval.FaultsIn IsNumeric (plus a b) := by
  rw [plus]
  split
  · exact .bind (lift_display (fun _ => isNumeric_of_isUnwritable) a) fun _ =>
      .bind (lift_display (fun _ => isNumeric_of_isUnwritable) b) fun _ => .pure _
  · exact numberResult_faults (Number.combine_faults _ _ _ _)

/-- An operation on two values faults only as conversions and arithmetic do. -/
theorem combine_faults (op : BinaryOp) (a b : Cell) : Eval.FaultsIn IsNumeric (combine op a b) := by
  cases op with
  | add => exact plus_faults a b
  | sub | mul => exact numberResult_faults (Number.combine_faults _ _ _ _)
  | div => exact numberResult_faults (Number.div_faults _ _)
  | mod => exact numberResult_faults (Number.mod_faults _ _)
  | lt | gt | le | ge =>
    rw [combine]
    exact comparison_faults _ _ a b
  | _ => exact .pure _

theorem throwValue_faults (v : Cell) : Eval.FaultsIn IsUnwritable (Eval.throwValue v : Eval α) := by
  rw [Eval.throwValue.eq_def]
  refine .bind (.lift (Value.display_faults _)) fun message => ?_
  intro t f t' hf
  cases hf

/-! ## Calls -/

theorem keyName_faults (k : Key) : FaultsIn IsNamed (keyName k) := by
  cases k with
  | int n => exact (writtenInt_faults n).mono fun _ => isNamed_of_isUnwritable
  | date | datetime | bytes => exact .error isNamed_type
  | _ => exact .ok _

mutual

theorem toJson_faults (v : Value ι) : FaultsIn IsNamed (toJson v) := by
  cases v with
  | int n =>
    rw [toJson]
    exact .bind ((writtenInt_faults n).mono fun _ => isNamed_of_isUnwritable) fun _ => .ok _
  | array id items =>
    rw [toJson]
    exact .bind (toJsonItems_faults items) fun _ => .ok _
  | object id entries =>
    rw [toJson]
    exact .bind (toJsonEntries_faults entries) fun _ => .ok _
  | pair v w =>
    rw [toJson]
    exact .bind (toJson_faults v) fun _ => .bind (toJson_faults w) fun _ => .ok _
  | null | bool | float | str => rw [toJson]; exact .ok _
  | _ => rw [toJson]; exact .error isNamed_type

theorem toJsonItems_faults (vs : List (Value ι)) : FaultsIn IsNamed (toJsonItems vs) := by
  cases vs with
  | nil => rw [toJsonItems]; exact .ok _
  | cons v vs =>
    rw [toJsonItems]
    split
    · exact .bind (.ok _) fun _ => .bind (toJsonItems_faults vs) fun _ => .ok _
    · exact .bind (toJson_faults v) fun _ => .bind (toJsonItems_faults vs) fun _ => .ok _

theorem toJsonEntries_faults (es : List (Key × Value ι)) :
    FaultsIn IsNamed (toJsonEntries es) := by
  cases es with
  | nil => rw [toJsonEntries]; exact .ok _
  | cons e es =>
    rw [toJsonEntries]
    split
    · exact toJsonEntries_faults es
    · exact .bind (keyName_faults e.1) fun _ => .bind (toJson_faults e.2) fun _ =>
        .bind (toJsonEntries_faults es) fun _ => .ok _

end

theorem stringify_faults (v : Value ι) : FaultsIn IsNamed (stringify v) :=
  .ite (.ok _) (.bind (toJson_faults v) fun _ => .ok _)

theorem display_named (v : Cell) : Eval.FaultsIn IsNamed (Eval.lift v.display) :=
  lift_display (fun _ => isNamed_of_isUnwritable) v

theorem number_named {r : Except Fault Number} (h : FaultsIn IsNumeric r) :
    Eval.FaultsIn IsNamed (numberResult r) :=
  numberResult_faults (h.mono fun _ => IsNumeric.isNamed)

theorem double_named (n : Number) : Eval.FaultsIn IsNamed (Eval.lift n.toFloat) :=
  .lift (n.toFloat_faults.mono fun _ => IsNumeric.isNamed)

theorem intOfText_faults (cs : List Char) (base : Number) :
    FaultsIn IsNumeric (intOfText cs base) := by
  have hbase := base.toInt_faults
  rw [intOfText.eq_def]
  split
  · exact .ite (.ok _) (.ok _)
  · exact .ok _
  · next f hf heq =>
    rw [heq] at hbase
    exact .error (hbase f rfl)

theorem parseJson_faults (v : Cell) : Eval.FaultsIn IsNamed (parseJson v) := by
  have hmalformed : ∀ message, Eval.FaultsIn IsNamed (parseJson.malformed message) :=
    fun message => .bind (.newObject _) fun thrown =>
      (throwValue_faults thrown).mono fun _ => isNamed_of_isUnwritable
  rw [parseJson.eq_def]
  split
  · exact hmalformed _
  · split
    · exact .adopt _
    · exact hmalformed _

theorem writeLog_faults (level : Level) (args : List Cell) :
    Eval.FaultsIn IsNamed (writeLog level args) :=
  .bind (.lift (.mapM (fun v => v.display_faults.mono fun _ => isNamed_of_isUnwritable) args))
    fun _ => .bind (.log level _) fun _ => .pure _

theorem makeError_faults (message : String) : Eval.FaultsIn S (makeError message) := .newObject _

/-- A built-in function faults only in ways that its call gives a name to. -/
theorem runBuiltin_faults (b : Builtin) (args : List Cell) :
    Eval.FaultsIn IsNamed (runBuiltin b args) := by
  rw [runBuiltin.eq_def]
  split
  -- in the order of the definition: numbers, JSON, the console, objects, conversions; what is left
  -- takes its arguments as they are
  case h_4 => exact number_named (Number.round_faults _)
  case h_5 => exact number_named (Number.sqrt_faults _)
  case h_6 => exact number_named (Number.pow_faults _ _)
  case h_9 => exact .bind (.lift (stringify_faults _)) fun _ => .pure _
  case h_10 => exact parseJson_faults _
  case h_11 | h_12 | h_13 | h_14 => exact writeLog_faults _ _
  case h_15 => exact .bind (.mapM (fun _ => .adopt _) _) fun _ => .newArray _
  case h_16 | h_17 | h_18 => exact .newArray _
  case h_22 => exact .bind (display_named _) fun _ => .pure _
  case h_27 => exact makeError_faults _
  case h_28 => exact .bind (display_named _) fun _ => makeError_faults _
  case h_29 | h_30 => exact .bind (display_named _) fun _ => number_named (intOfText_faults _ _)
  case h_31 => exact .bind (display_named _) fun _ => .bind (double_named _) fun _ => .pure _
  case h_32 =>
    exact .bind (.lift ((Number.isNaN_faults _).mono fun _ => IsNumeric.isNamed)) fun _ => .pure _
  case h_33 => exact .fault isNamed_type
  all_goals exact .pure _

theorem slice_faults (items : List α) (args : List Cell) : FaultsIn IsNamed (slice items args) := by
  have hbound : ∀ v : Cell, FaultsIn IsNamed (do
      return slicePlace items.length (← (toNumber v).toInt) : Except Fault Nat) :=
    fun v => .bind ((Number.toInt_faults _).mono fun _ => IsNumeric.isNamed) fun _ => .ok _
  rw [slice.eq_def]
  dsimp only
  split
  · exact .ok _
  · exact .bind (hbound _) fun _ => .ok _
  · exact .bind (hbound _) fun _ => .ok _
  · exact .bind (hbound _) fun _ => .bind (hbound _) fun _ => .ok _
  · exact .error isNamed_type

theorem joinItems_faults (sep : String) (items : List Cell) :
    Eval.FaultsIn IsNamed (Eval.lift (joinItems sep items)) :=
  .lift (.bind ((Value.displayItems_faults items).mono fun _ => isNamed_of_isUnwritable)
    fun _ => .ok _)

theorem runStringMethod_faults (s : String) (m : Method) (args : List Cell) :
    Eval.FaultsIn IsNamed (runStringMethod s m args) := by
  rw [runStringMethod.eq_def]
  split
  all_goals with_reducible first
    | exact .pure _
    | exact .fault isNamed_type
    | exact .bind (display_named _) fun _ => .pure _
    | exact .bind (.lift (slice_faults _ _)) fun _ => .pure _
    | exact .bind (.lift (.mapM (fun v => v.display_faults.mono fun _ => isNamed_of_isUnwritable)
        _)) fun _ => .pure _

theorem runArrayMethod_faults (items : List Cell) (m : Method) (args : List Cell) :
    Eval.FaultsIn IsNamed (runArrayMethod items m args) := by
  rw [runArrayMethod.eq_def]
  split
  all_goals with_reducible first
    | exact .pure _
    | exact .newArray _
    | exact .fault isNamed_type
    | exact .bind (joinItems_faults _ _) fun _ => .pure _
    | exact .bind (display_named _) fun _ => .bind (joinItems_faults _ _) fun _ => .pure _
    | exact .bind (.lift (slice_faults _ _)) fun _ => .newArray _

theorem runMethod_faults (receiver : Cell) (m : Method) (args : List Cell) :
    Eval.FaultsIn IsNamed (runMethod receiver m args) := by
  rw [runMethod.eq_def]
  split
  · exact runStringMethod_faults _ m args
  · exact runArrayMethod_faults _ m args
  · exact .fault isNamed_type

/-- Faults of calls: those that get a name, and calls nested too deep. -/
def IsCallFault (f : Fault) : Prop := IsNamed f ∨ f = .depth

section

variable {invoke : Invoke} (hinvoke : ∀ g args, Eval.FaultsIn IsCallFault (invoke g args))

include hinvoke

theorem callBack_faults (f item : Cell) (position : Nat) :
    Eval.FaultsIn IsCallFault (callBack invoke f item position) := by
  rw [callBack.eq_def]
  split
  · exact hinvoke _ _
  · exact (runBuiltin_faults _ _).mono fun _ => Or.inl
  · exact (runMethod_faults _ _ _).mono fun _ => Or.inl
  · exact .fault (Or.inl isNamed_type)

theorem mapItems_faults (f : Cell) (position : Nat) (items : List Cell) :
    Eval.FaultsIn IsCallFault (mapItems invoke f position items) := by
  induction items generalizing position with
  | nil => exact .pure _
  | cons v vs ih =>
    exact .bind (callBack_faults hinvoke f v position) fun _ => .bind (ih _) fun _ => .pure _

theorem filterItems_faults (f : Cell) (position : Nat) (items : List Cell) :
    Eval.FaultsIn IsCallFault (filterItems invoke f position items) := by
  induction items generalizing position with
  | nil => exact .pure _
  | cons v vs ih =>
    exact .bind (callBack_faults hinvoke f v position) fun _ => .bind (ih _) fun _ => .pure _

/-- A call faults only in ways that get a name, unless the functions that it runs do otherwise. -/
theorem call_faults (f : Cell) (args : List Cell) :
    Eval.FaultsIn IsCallFault (call invoke f args) := by
  rw [call.eq_def]
  split
  · exact .bind (mapItems_faults hinvoke _ 0 _) fun _ => .newArray _
  · exact .bind (filterItems_faults hinvoke _ 0 _) fun _ => .newArray _
  · exact hinvoke _ _
  · exact (runBuiltin_faults _ _).mono fun _ => Or.inl
  · exact (runMethod_faults _ _ _).mono fun _ => Or.inl
  · exact .fault (Or.inl isNamed_type)

/-- Once a call's faults have their names, only the depth of calls is left. -/
theorem naming_faults (callee : Expr) (f : Cell) (args : List Cell) {t t' : Trace} {fault : Fault}
    (h : (Eval.naming callee (call invoke f args)).exec t = (.error (.fault fault), t')) :
    fault = .depth ∧ (call invoke f args).exec t = (.error (.fault .depth), t') := by
  rw [Eval.naming, Eval.exec_tryCatch] at h
  rcases hcall : (call invoke f args).exec t with ⟨r, t''⟩
  rw [hcall] at h
  cases r with
  | ok v => cases h
  | error failure =>
    cases failure with
    | fault f' =>
      rcases call_faults hinvoke f args t f' t'' hcall with (rfl | rfl | rfl) | rfl
      · cases h
      · cases h
      · cases h
      · cases h
        exact ⟨rfl, rfl⟩
    | _ => cases h

end

end Script

end Vitrine
