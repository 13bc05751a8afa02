import Vitrine.Preview.Props
import Vitrine.Proofs.Entries
import Vitrine.Proofs.Preview.Outcomes
import Vitrine.Proofs.Preview.Writing

/-!
# How reading props ends

Props are read, refused as a configuration, or keep from being read by a text that the parser faults
on or by an integer that is too long; what they are read as has only parts with literals
(`read_reads`), so that code can be written of it (`interpret_writable`).
-/
namespace Vitrine

namespace Preview

open Value
open Script (Obstacle)

variable {α β : Type}

/-! ## Outcomes -/

/-- How reading may end: in a result with a property, in a refusal, or in one of some faults. -/
inductive Reads (S : Fault → Prop) (P : α → Prop) : Result α → Prop
  | result {a : α} (h : P a) : Reads S P (.ok a)
  | refusal (problem : ConfigProblem) (location : Location) :
      Reads S P (.error (.config problem location))
  | fault {f : Fault} (h : S f) : Reads S P (.error (.fault f))

namespace Reads

variable {S S' : Fault → Prop} {P P' : α → Prop} {Q : β → Prop}

theorem bind {x : Result α} {f : α → Result β} (hx : Reads S P x)
    (hf : ∀ a, P a → Reads S Q (f a)) : Reads S Q (x >>= f) := by
  cases hx with
  | result h => exact hf _ h
  | refusal problem location => exact .refusal problem location
  | fault h => exact .fault h

theorem mono {x : Result α} (hx : Reads S P x) (hS : ∀ f, S f → S' f) (hP : ∀ a, P a → P' a) :
    Reads S' P' x := by
  cases hx with
  | result h => exact .result (hP _ h)
  | refusal problem location => exact .refusal problem location
  | fault h => exact .fault (hS _ h)

theorem of_eq_ok {x : Result α} {a : α} (hx : Reads S P x) (h : x = .ok a) : P a := by
  cases hx with
  | result ha => exact Except.ok.inj h ▸ ha
  | _ => cases h

theorem ofSettles {x : Result α} (hx : Settles S x) : Reads S (fun _ => True) x := by
  cases hx with
  | result a => exact .result trivial
  | refusal problem location => exact .refusal problem location
  | fault h => exact .fault h

theorem ofFault {r : Except Fault α} (h : FaultsIn S r) :
    Reads S (fun _ => True) (Result.ofFault r) := by
  cases r with
  | ok a => exact .result trivial
  | error f => exact .fault (h f rfl)

end Reads

/-! ## Plain values -/

/-- Values all parts of which are of kinds with a literal. -/
def HasLiterals (v : Data) : Prop := ∀ w, Part w v → ¬w.LacksLiteral

theorem hasLiterals_array {items : List Data} (h : ∀ v ∈ items, HasLiterals v) :
    HasLiterals (.array () items) := by
  intro w hw
  cases hw with
  | refl => exact id
  | item hv hw => exact h _ hv _ hw

theorem hasLiterals_object {entries : List (Key × Data)} (h : ∀ e ∈ entries, HasLiterals e.2) :
    HasLiterals (.object () entries) := by
  intro w hw
  cases hw with
  | refl => exact id
  | entry he hw => exact h _ he _ hw

namespace Reading

mutual

theorem checkPlain_reads (r : Reading) (keyPath : String) (v : Data) :
    Reads v.IsTooLong (fun _ => HasLiterals v) (r.checkPlain keyPath v) := by
  cases v with
  | array id items =>
    rw [checkPlain]
    exact (checkItems_reads r keyPath 0 items fun v hv f hf => hf.mono (.item hv (.refl v))).mono
      (fun _ hf => hf) fun _ => hasLiterals_array
  | object id entries =>
    rw [checkPlain]
    exact (checkEntries_reads r keyPath entries
      (fun e he f hf => ⟨hf.1, hasLong_of_key he hf.2⟩)
      fun e he f hf => hf.mono (.entry he (.refl _))).mono (fun _ hf => hf)
      fun _ => hasLiterals_object
  | undefined | bytes | set | pair | function | builtin | method => exact .refusal _ _
  | _ => exact .result fun w hw => by cases hw; exact id

theorem checkItems_reads {S : Fault → Prop} (r : Reading) (keyPath : String) (position : Nat)
    (vs : List Data) (h : ∀ v ∈ vs, ∀ f, v.IsTooLong f → S f) :
    Reads S (fun _ => ∀ v ∈ vs, HasLiterals v) (r.checkItems keyPath position vs) := by
  cases vs with
  | nil => exact .result fun _ hv => absurd hv List.not_mem_nil
  | cons v vs =>
    rw [checkItems]
    refine .bind ((checkPlain_reads r _ v).mono (h v List.mem_cons_self) fun _ hv => hv) fun _ hv => ?_
    refine (checkItems_reads r keyPath (position + 1) vs
      fun w hw => h w (List.mem_cons_of_mem _ hw)).mono (fun _ hf => hf) fun _ hvs => ?_
    exact List.forall_mem_cons.mpr ⟨hv, hvs⟩

theorem checkEntries_reads {S : Fault → Prop} (r : Reading) (keyPath : String)
    (es : List (Key × Data))
    (hkey : ∀ e ∈ es, ∀ f, (f = .value ∧ ∃ n, e.1 = .int n ∧ IsLong n) → S f)
    (hvalue : ∀ e ∈ es, ∀ f, e.2.IsTooLong f → S f) :
    Reads S (fun _ => ∀ e ∈ es, HasLiterals e.2) (r.checkEntries keyPath es) := by
  cases es with
  | nil => exact .result fun _ he => absurd he List.not_mem_nil
  | cons e es =>
    rw [checkEntries]
    refine .bind (.ofFault ((Key.text_faults_isLong e.1).mono (hkey e List.mem_cons_self)))
      fun name _ => ?_
    refine .bind ((checkPlain_reads r _ e.2).mono (hvalue e List.mem_cons_self) fun _ hv => hv)
      fun _ he => ?_
    refine (checkEntries_reads r keyPath es (fun d hd => hkey d (List.mem_cons_of_mem _ hd))
      fun d hd => hvalue d (List.mem_cons_of_mem _ hd)).mono (fun _ hf => hf) fun _ hes => ?_
    exact List.forall_mem_cons.mpr ⟨he, hes⟩

end

end Reading

/-! ## Props -/

/-- Why a value cannot be read though no configuration is to blame: a text in the specification of a
function or the source of one is an obstacle for the parser, or an integer is too long. -/
inductive Unreadable (v : Data) : Fault → Prop
  | specification {entries : List (Key × Data)} {s : Data} {spec : FunctionSpec} {f : Fault}
      (h : Part (.object () entries) v) (hs : Entries.get? "spec" entries = some s)
      (hspec : FunctionSpec.ofValue s = .valid spec) (hf : spec.HasObstacle f) : Unreadable v f
  | source {entries : List (Key × Data)} {source : String} {f : Fault}
      (h : Part (.object () entries) v) (hs : Entries.get? "value" entries = some (.str source))
      (hf : Obstacle (Text.strip source) f) : Unreadable v f
  | integer (h : v.HasLong) : Unreadable v .value

theorem Unreadable.mono {v w : Data} {f : Fault} (h : Unreadable v f) (hvw : Part v w) :
    Unreadable w f := by
  cases h with
  | specification h hs hspec hf => exact .specification (h.trans hvw) hs hspec hf
  | source h hs hf => exact .source (h.trans hvw) hs hf
  | integer h => exact .integer (h.mono hvw)

/-- A mapping tagged as a text, a number or a truth value whose value are these entries. -/
inductive Mistagged (entries : List (Key × Data)) : Data → Prop
  | mk {id payloadId : Unit} {es : List (Key × Data)} {name : String} {kind : ValueKind}
      (hnamed : Entries.get? "kind" es = some (.str name))
      (hname : valueKinds.lookup name = some kind)
      (hkind : kind = .string ∨ kind = .number ∨ kind = .boolean)
      (hvalue : Entries.get? "value" es = some (.object payloadId entries)) :
      Mistagged entries (.object id es)

theorem unreadable_of_isTooLong {v : Data} {f : Fault} (h : v.IsTooLong f) : Unreadable v f :=
  h.1 ▸ .integer h.2

/-- Entries under texts whose values have literals. -/
def AreNamed (entries : List (Key × Data)) : Prop :=
  ∀ e ∈ entries, (∃ s, e.1 = .str s) ∧ HasLiterals e.2

theorem areNamed_nil : AreNamed [] := fun _ he => absurd he List.not_mem_nil

theorem AreNamed.ofList {entries : List (Key × Data)} (h : AreNamed entries) :
    AreNamed (Entries.ofList entries) :=
  Entries.forall_ofList (P := fun k => ∃ s, k = .str s) h

theorem AreNamed.hasLiterals {entries : List (Key × Data)} (h : AreNamed entries) :
    HasLiterals (.object () entries) := hasLiterals_object fun e he => (h e he).2

theorem hasLiterals_null : HasLiterals .null := fun w hw => by cases hw; exact id

theorem hasLiterals_undefined : HasLiterals .undefined := fun w hw => by cases hw; exact id

theorem hasLiterals_function (f : PropFunction) : HasLiterals (.function () f) :=
  fun w hw => by cases hw; exact id

theorem get?_of_getD {name : String} {entries : List (Key × Data)} {v : Data}
    (h : (Entries.get? name entries).getD .null = v) (hv : v ≠ .null) :
    Entries.get? name entries = some v := by
  cases hget : Entries.get? name entries with
  | none => exact absurd (by rw [← h, hget]; rfl) hv
  | some w => rw [hget] at h; exact congrArg some h

theorem compileFunction_reads {S : Fault → Prop} (source : String) (location : Location)
    (h : ∀ f, Obstacle (Text.strip source) f → S f) :
    Reads S (fun _ => True) (compileFunction source location) := by
  have hcompiles := compiles_compileFunction source location
  generalize compileFunction source location = x at hcompiles ⊢
  cases hcompiles with
  | function | bodiless => exact .result trivial
  | refusal => exact .refusal _ _
  | fault hf => exact .fault (h _ hf)

namespace Reading

theorem plain_reads (r : Reading) (keyPath : String) (v : Data) :
    Reads (Unreadable v) HasLiterals (r.plain keyPath v) :=
  .bind ((checkPlain_reads r keyPath v).mono (fun _ => unreadable_of_isTooLong) fun _ h => h)
    fun _ h => .result h

/-- A tagged value without parts of its own. -/
theorem payload_reads (r : Reading) (keyPath : String) (entries : List (Key × Data)) :
    Reads (Unreadable (.object () entries)) HasLiterals
      (r.plain keyPath ((Entries.get? "value" entries).getD .null)) := by
  cases hget : Entries.get? "value" entries with
  | none => exact .result hasLiterals_null
  | some v =>
    exact (plain_reads r keyPath v).mono
      (fun f hf => hf.mono (.entry (Entries.mem_of_get? hget) (.refl v))) fun _ h => h

theorem functionOf_reads (r : Reading) (keyPath : String) (entries : List (Key × Data)) :
    Reads (Unreadable (.object () entries)) (fun w => ∃ f, w = .function () f)
      (r.functionOf keyPath entries) := by
  rw [functionOf]
  split
  · split
    · exact .result ⟨_, rfl⟩
    · next source hsource =>
      have hvalue := get?_of_getD hsource nofun
      refine .bind (compileFunction_reads source _ fun f hf => ?_) fun g _ => .result ⟨g, rfl⟩
      exact .source (.refl _) hvalue hf
    · exact .refusal _ _
  · next spec hne =>
    have hspec := get?_of_getD rfl hne
    split
    · exact .refusal _ _
    · next checked hchecked =>
      have hbuild := (Reads.ofSettles (settles_buildFunction checked
        ⟨r.file, some (keyPath ++ ".spec")⟩)).mono
        (fun f hf => Unreadable.specification (.refl _) hspec hchecked hf) fun _ h => h
      exact .bind hbuild fun g _ => .result ⟨g, rfl⟩

theorem kindOf_reads (r : Reading) (keyPath : String) (named : Data) :
    Reads (Unreadable named) (fun _ => True) (r.kindOf keyPath named) := by
  cases named with
  | str s =>
    rw [kindOf]
    split
    · exact .result trivial
    · exact .refusal _ _
  | _ =>
    rw [kindOf]
    · exact .bind (.ofFault ((shown_faults_isTooLong _).mono fun _ => unreadable_of_isTooLong))
        fun text _ => .refusal _ _
    all_goals nofun

mutual

theorem read_reads (r : Reading) (keyPath : String) (v : Data) :
    Reads (Unreadable v) HasLiterals (r.read keyPath v) := by
  cases v with
  | array id items =>
    rw [read]
    refine .bind (readItems_reads r keyPath 0 items
      fun v hv f hf => Unreadable.mono hf (.item hv (.refl v))) fun ws hws => ?_
    exact .result (hasLiterals_array hws)
  | null =>
    rw [read]
    split
    · exact .result hasLiterals_null
    · exact .result areNamed_nil.hasLiterals
  | object id entries =>
    have hvalue : ∀ e ∈ entries, ∀ f, Unreadable e.2 f → Unreadable (.object id entries) f :=
      fun e he f hf => hf.mono (.entry he (.refl _))
    have hget : ∀ {name w}, Entries.get? name entries = some w →
        ∀ f, Unreadable w f → Unreadable (.object id entries) f :=
      fun h => hvalue _ (Entries.mem_of_get? h)
    rw [read]
    split
    · next named hnamed =>
      refine .bind ((kindOf_reads r keyPath named).mono (hget hnamed) fun _ h => h) fun kind _ => ?_
      have hpayload := payload_reads r (keyPath ++ ".value") entries
      cases kind with
      | object =>
        refine (readObjectPayload_reads r keyPath entries hvalue).mono (fun _ hf => hf)
          fun w hw => ?_
        obtain ⟨payload, rfl, hpayload⟩ := hw
        exact hpayload.hasLiterals
      | array =>
        refine (readArrayPayload_reads r keyPath entries hvalue).mono (fun _ hf => hf)
          fun w hw => ?_
        obtain ⟨payload, rfl, hpayload⟩ := hw
        exact hasLiterals_array hpayload
      | string | number | boolean => exact hpayload
      | null => exact .result hasLiterals_null
      | undefined => exact .result hasLiterals_undefined
      | function =>
        refine (functionOf_reads r keyPath entries).mono (fun _ hf => hf) fun w hw => ?_
        obtain ⟨f, rfl⟩ := hw
        exact hasLiterals_function f
    · refine .bind (readEntries_reads r keyPath entries
        (fun e he f hf => unreadable_of_isTooLong ⟨hf.1, hasLong_of_key he hf.2⟩) hvalue)
        fun ds hds => ?_
      exact .result hds.ofList.hasLiterals
  | _ => exact plain_reads r keyPath _

theorem readItems_reads {S : Fault → Prop} (r : Reading) (keyPath : String) (position : Nat)
    (vs : List Data) (h : ∀ v ∈ vs, ∀ f, Unreadable v f → S f) :
    Reads S (fun ws => ∀ w ∈ ws, HasLiterals w) (r.readItems keyPath position vs) := by
  cases vs with
  | nil => exact .result fun _ hv => absurd hv List.not_mem_nil
  | cons v vs =>
    rw [readItems]
    refine .bind ((read_reads r _ v).mono (h v List.mem_cons_self) fun _ hw => hw) fun w hw => ?_
    refine .bind (readItems_reads r keyPath (position + 1) vs
      fun w hw => h w (List.mem_cons_of_mem _ hw)) fun ws hws => ?_
    exact .result (List.forall_mem_cons.mpr ⟨hw, hws⟩)

theorem readEntries_reads {S : Fault → Prop} (r : Reading) (keyPath : String)
    (es : List (Key × Data))
    (hkey : ∀ e ∈ es, ∀ f, (f = .value ∧ ∃ n, e.1 = .int n ∧ IsLong n) → S f)
    (hvalue : ∀ e ∈ es, ∀ f, Unreadable e.2 f → S f) :
    Reads S AreNamed (r.readEntries keyPath es) := by
  cases es with
  | nil => exact .result areNamed_nil
  | cons e es =>
    rw [readEntries]
    refine .bind (.ofFault ((Key.text_faults_isLong e.1).mono (hkey e List.mem_cons_self)))
      fun name _ => ?_
    refine .bind ((read_reads r _ e.2).mono (hvalue e List.mem_cons_self) fun _ hw => hw)
      fun w hw => ?_
    refine .bind (readEntries_reads r keyPath es (fun d hd => hkey d (List.mem_cons_of_mem _ hd))
      fun d hd => hvalue d (List.mem_cons_of_mem _ hd)) fun ds hds => ?_
    exact .result (List.forall_mem_cons.mpr ⟨⟨⟨name, rfl⟩, hw⟩, hds⟩)

theorem readObjectPayload_reads {S : Fault → Prop} (r : Reading) (keyPath : String)
    (es : List (Key × Data)) (h : ∀ e ∈ es, ∀ f, Unreadable e.2 f → S f) :
    Reads S (fun w => ∃ entries, w = .object () entries ∧ AreNamed entries)
      (r.readObjectPayload keyPath es) := by
  match es with
  | [] => exact .result ⟨[], rfl, areNamed_nil⟩
  | (k, v) :: es =>
    by_cases hk : k = .str "value"
    · subst hk
      have hfirst := h (.str "value", v) List.mem_cons_self
      cases v with
      | null => exact .result ⟨[], rfl, areNamed_nil⟩
      | object id entries =>
        refine .bind (readEntries_reads r (keyPath ++ ".value") entries
          (fun e he f hf => hfirst f (unreadable_of_isTooLong ⟨hf.1, hasLong_of_key he hf.2⟩))
          fun e he f hf => hfirst f (hf.mono (.entry he (.refl _)))) fun ds hds => ?_
        exact .result ⟨_, rfl, hds.ofList⟩
      | _ => exact .refusal _ _
    · rw [readObjectPayload]
      · exact readObjectPayload_reads r keyPath es fun d hd => h d (List.mem_cons_of_mem _ hd)
      · exact fun heq => hk (congrArg Prod.fst heq)
      · exact fun _ _ heq => hk (congrArg Prod.fst heq)
      · exact fun _ heq => hk (congrArg Prod.fst heq)

theorem readArrayPayload_reads {S : Fault → Prop} (r : Reading) (keyPath : String)
    (es : List (Key × Data)) (h : ∀ e ∈ es, ∀ f, Unreadable e.2 f → S f) :
    Reads S (fun w => ∃ items, w = .array () items ∧ ∀ v ∈ items, HasLiterals v)
      (r.readArrayPayload keyPath es) := by
  match es with
  | [] => exact .result ⟨[], rfl, fun _ hv => absurd hv List.not_mem_nil⟩
  | (k, v) :: es =>
    by_cases hk : k = .str "value"
    · subst hk
      have hfirst := h (.str "value", v) List.mem_cons_self
      cases v with
      | null => exact .result ⟨[], rfl, fun _ hv => absurd hv List.not_mem_nil⟩
      | array id items =>
        refine .bind (readItems_reads r (keyPath ++ ".value") 0 items
          fun v hv f hf => hfirst f (hf.mono (.item hv (.refl v)))) fun ws hws => ?_
        exact .result ⟨ws, rfl, hws⟩
      | _ => exact .refusal _ _
    · rw [readArrayPayload]
      · exact readArrayPayload_reads r keyPath es fun d hd => h d (List.mem_cons_of_mem _ hd)
      · exact fun heq => hk (congrArg Prod.fst heq)
      · exact fun _ _ heq => hk (congrArg Prod.fst heq)
      · exact fun _ heq => hk (congrArg Prod.fst heq)

end

/-! ## Keys -/

theorem kindOf_eq_ok {r : Reading} {keyPath : String} {named : Data} {kind : ValueKind}
    (h : r.kindOf keyPath named = .ok kind) :
    ∃ name, named = .str name ∧ valueKinds.lookup name = some kind := by
  cases named with
  | str name =>
    rw [kindOf] at h
    split at h
    · next found hfound =>
      cases h
      exact ⟨name, rfl, hfound⟩
    · cases h
  | _ =>
    rw [kindOf] at h
    · obtain ⟨text, -, h⟩ := bind_eq_ok.mp h
      cases h
    all_goals nofun

theorem plain_eq_ok {r : Reading} {keyPath : String} {v w : Data}
    (h : r.plain keyPath v = .ok w) : w = v := by
  obtain ⟨-, -, h⟩ := bind_eq_ok.mp h
  cases h
  rfl

/-- The keys of an object that is read are texts, unless it was tagged as something else. -/
theorem read_eq_object {r : Reading} {keyPath : String} {v : Data} {id : Unit}
    {entries : List (Key × Data)} (h : r.read keyPath v = .ok (.object id entries)) :
    AreNamed entries ∨ Mistagged entries v := by
  cases v with
  | null =>
    rw [read] at h
    split at h
    · cases h
    · cases h
      exact .inl areNamed_nil
  | array id items =>
    rw [read] at h
    obtain ⟨ws, -, h⟩ := bind_eq_ok.mp h
    cases h
  | object id es =>
    rw [read] at h
    split at h
    · next named hnamed =>
      obtain ⟨kind, hkind, h⟩ := bind_eq_ok.mp h
      obtain ⟨name, rfl, hname⟩ := kindOf_eq_ok hkind
      have hmistagged : (kind = .string ∨ kind = .number ∨ kind = .boolean) →
          r.plain (keyPath ++ ".value") ((Entries.get? "value" es).getD .null) =
            .ok (.object () entries) → Mistagged entries (.object () es) := fun hk hplain =>
        .mk hnamed hname hk (get?_of_getD (plain_eq_ok hplain).symm nofun)
      cases kind with
      | object =>
        obtain ⟨payload, heq, hpayload⟩ := (readObjectPayload_reads r keyPath es
          fun _ _ _ _ => trivial).of_eq_ok h
        cases heq
        exact .inl hpayload
      | array =>
        obtain ⟨payload, heq, -⟩ := (readArrayPayload_reads r keyPath es
          fun _ _ _ _ => trivial).of_eq_ok h
        cases heq
      | string => exact .inr (hmistagged (.inl rfl) h)
      | number => exact .inr (hmistagged (.inr (.inl rfl)) h)
      | boolean => exact .inr (hmistagged (.inr (.inr rfl)) h)
      | null => cases h
      | undefined => cases h
      | function =>
        obtain ⟨f, heq⟩ := (functionOf_reads r keyPath es).of_eq_ok h
        cases heq
    · obtain ⟨ds, hds, h⟩ := bind_eq_ok.mp h
      cases h
      exact .inl ((readEntries_reads r keyPath es (fun _ _ _ _ => trivial)
        fun _ _ _ _ => trivial).of_eq_ok hds).ofList
  | _ => cases plain_eq_ok h

end Reading

/-! ## As code -/

theorem HasLiterals.not_bytes {w : Data} (h : HasLiterals w) (bs : List UInt8) :
    ¬Part (.bytes () bs) w := fun hpart => h _ hpart trivial

theorem HasLiterals.not_set {w : Data} (h : HasLiterals w) (keys : List Key) :
    ¬Part (.set () keys) w := fun hpart => h _ hpart trivial

theorem HasLiterals.toCode_ne_type {w : Data} (h : HasLiterals w) : toCode w ≠ .error .type := by
  intro hcode
  cases toCode_faults w _ hcode with
  | literal hu hpart => exact h _ hpart hu

/-- Whatever props are read from, no bytes and no set stand anywhere in them, and code can be
written of them unless an integer in them is too long: they are never of the wrong type. -/
theorem interpret_writable (r : Reading) {v w : Data} (h : interpret r v = .ok w) :
    ((∀ bs, ¬Part (.bytes () bs) w) ∧ ∀ keys, ¬Part (.set () keys) w) ∧
    toCode w ≠ .error .type ∧ ((∃ text, toCode w = .ok text) ↔ ¬w.HasLong) := by
  have hliterals : HasLiterals w := (r.read_reads "props" v).of_eq_ok h
  refine ⟨⟨hliterals.not_bytes, hliterals.not_set⟩, hliterals.toCode_ne_type, ?_⟩
  rw [toCode_succeeds_iff]
  exact and_iff_right hliterals

/-- A sequence of a text, of an object that is tagged as one and holds a date under a number, and of
a tagged function. -/
def assortment : Data := .array () [
  .object () [(.str "kind", .str "string"), (.str "value", .str "a")],
  .object () [(.str "kind", .str "object"), (.str "value", .object () [
    (.int 1, .array () [.date () ⟨2020, 2, 29⟩, .null])])],
  .object () [(.str "kind", .str "function")]]

/-- What the sequence is read as if null becomes an empty object. -/
def assortmentProps : Data := .array () [
  .str "a",
  .object () [(.str "1", .array () [.date () ⟨2020, 2, 29⟩, .object () []])],
  .function () noopFunction]

theorem interpret_writable_assortment :
    interpret ⟨false, none⟩ assortment = .ok assortmentProps ∧
    toCode assortmentProps ≠ .error .type := by
  have hread : interpret ⟨false, none⟩ assortment = .ok assortmentProps := by cbv
  exact ⟨hread, (interpret_writable _ hread).2.1⟩

end Preview
end Vitrine
