import Vitrine.Preview.EntryCode
import Vitrine.Proofs.Outcome
import Vitrine.Proofs.Script.Faults

/-!
# What can be written

A value has a literal unless a part of it is of a kind without one, or an integer in it has too many
digits to be written (`toCode_succeeds_iff`). The same holds of a descriptor and its code
(`Descriptor.code_succeeds_iff`).
-/
namespace Vitrine

variable {ι : Type}

/-! ## Integers -/

/-- Integers of more digits than are written. -/
def IsLong (n : Int) : Prop := ∃ f, writtenInt n = .error f

theorem writtenInt_faults_isLong (n : Int) : FaultsIn (fun f => f = .value ∧ IsLong n) (writtenInt n) :=
  fun f hf => ⟨writtenInt_faults n f hf, f, hf⟩

/-- The only keys without a text are integers that are too long. -/
theorem Key.shown_faults_isLong (k : Key) :
    FaultsIn (fun f => f = .value ∧ ∃ n, k = .int n ∧ IsLong n) k.shown := by
  cases k with
  | int n => exact (writtenInt_faults_isLong n).mono fun f hf => ⟨hf.1, n, rfl, hf.2⟩
  | _ => exact .ok _

theorem Key.text_faults_isLong (k : Key) :
    FaultsIn (fun f => f = .value ∧ ∃ n, k = .int n ∧ IsLong n) k.text := by
  cases k with
  | str s => exact .ok _
  | date d => exact .ok _
  | datetime t => exact .ok _
  | _ => exact Key.shown_faults_isLong _

namespace Value

/-! ## Parts of values -/

/-- The first value is the second or stands in it: as an item, under a key, or in a pair. -/
inductive Part : Value ι → Value ι → Prop
  | refl (v : Value ι) : Part v v
  | item {w v : Value ι} {id : ι} {items : List (Value ι)} (hv : v ∈ items) (h : Part w v) :
      Part w (.array id items)
  | entry {w : Value ι} {e : Key × Value ι} {id : ι} {entries : List (Key × Value ι)}
      (he : e ∈ entries) (h : Part w e.2) : Part w (.object id entries)
  | first {w u v : Value ι} (h : Part w u) : Part w (.pair u v)
  | second {w u v : Value ι} (h : Part w v) : Part w (.pair u v)

theorem Part.trans {u v w : Value ι} (huv : Part u v) (hvw : Part v w) : Part u w := by
  induction hvw with
  | refl => exact huv
  | item hv _ ih => exact .item hv ih
  | entry he _ ih => exact .entry he ih
  | first _ ih => exact .first ih
  | second _ ih => exact .second ih

/-- An integer in a value is too long: a part of it, a key, or an element of a set. -/
inductive HasLong (v : Value ι) : Prop
  | part {n : Int} (hn : IsLong n) (h : Part (.int n) v)
  | key {n : Int} {id : ι} {entries : List (Key × Value ι)} (hn : IsLong n)
      (hk : .int n ∈ entries.map (·.1)) (h : Part (.object id entries) v)
  | element {n : Int} {id : ι} {keys : List Key} (hn : IsLong n) (hk : .int n ∈ keys)
      (h : Part (.set id keys) v)

theorem HasLong.mono {v w : Value ι} (h : v.HasLong) (hvw : Part v w) : w.HasLong := by
  cases h with
  | part hn h => exact .part hn (h.trans hvw)
  | key hn hk h => exact .key hn hk (h.trans hvw)
  | element hn hk h => exact .element hn hk (h.trans hvw)

theorem hasLong_of_key {k : Key} {v : Value ι} {id : ι} {entries : List (Key × Value ι)}
    (he : (k, v) ∈ entries) (h : ∃ n, k = .int n ∧ IsLong n) : (object id entries).HasLong := by
  obtain ⟨n, rfl, hn⟩ := h
  exact .key hn (List.mem_map_of_mem he) (.refl _)

/-! ## In messages -/

/-- A fault that a too long integer in a value accounts for. -/
def IsTooLong (v : Value ι) (f : Fault) : Prop := f = .value ∧ v.HasLong

theorem IsTooLong.mono {v w : Value ι} {f : Fault} (h : v.IsTooLong f) (hvw : Part v w) :
    w.IsTooLong f := ⟨h.1, h.2.mono hvw⟩

theorem setShown_faults_isTooLong (id : ι) (keys : List Key) :
    FaultsIn (set id keys).IsTooLong (setShown keys) := by
  have hkeys : ∀ ks : List Key, (∀ k ∈ ks, k ∈ keys) →
      FaultsIn (set id keys).IsTooLong (ks.mapM Key.shown) := by
    intro ks hks
    induction ks with
    | nil => exact .ok []
    | cons k ks ih =>
      rw [List.mapM_cons]
      refine .bind ((Key.shown_faults_isLong k).mono fun f hf => ?_) fun text =>
        .bind (ih fun k hk => hks k (List.mem_cons_of_mem _ hk)) fun texts => .ok _
      obtain ⟨hf, n, rfl, hn⟩ := hf
      exact ⟨hf, .element hn (hks _ List.mem_cons_self) (.refl _)⟩
  rw [setShown]
  split
  · exact .ok _
  · exact .bind (hkeys keys fun _ hk => hk) fun texts => .ok _

mutual

theorem shown_faults_isTooLong (v : Value ι) : FaultsIn v.IsTooLong v.shown := by
  cases v with
  | int n =>
    rw [shown]
    exact (writtenInt_faults_isLong n).mono fun f hf => ⟨hf.1, .part hf.2 (.refl _)⟩
  | set id keys => rw [shown]; exact setShown_faults_isTooLong id keys
  | array id items =>
    rw [shown]
    have hitems := shownItems_faults_isTooLong (S := (array id items).IsTooLong) items
      fun v hv f hf => hf.mono (.item hv (.refl v))
    exact .bind hitems fun texts => .ok _
  | object id entries =>
    rw [shown]
    have hentries := shownEntries_faults_isTooLong (S := (object id entries).IsTooLong) entries
      (fun e he f hf => ⟨hf.1, hasLong_of_key he hf.2⟩)
      fun e he f hf => hf.mono (.entry he (.refl _))
    exact .bind hentries fun texts => .ok _
  | pair v w =>
    rw [shown]
    refine .bind ((shown_faults_isTooLong v).mono fun f hf => hf.mono (.first (.refl v)))
      fun first => .bind ((shown_faults_isTooLong w).mono fun f hf => hf.mono (.second (.refl w)))
      fun second => .ok _
  | _ => rw [shown]; exact .ok _

theorem shownItems_faults_isTooLong {S : Fault → Prop} (vs : List (Value ι))
    (h : ∀ v ∈ vs, ∀ f, v.IsTooLong f → S f) : FaultsIn S (shownItems vs) := by
  cases vs with
  | nil => rw [shownItems]; exact .ok _
  | cons v vs =>
    rw [shownItems]
    refine .bind ((shown_faults_isTooLong v).mono (h v List.mem_cons_self)) fun text => ?_
    exact .bind (shownItems_faults_isTooLong vs fun w hw => h w (List.mem_cons_of_mem _ hw))
      fun texts => .ok _

theorem shownEntries_faults_isTooLong {S : Fault → Prop} (es : List (Key × Value ι))
    (hkey : ∀ e ∈ es, ∀ f, (f = .value ∧ ∃ n, e.1 = .int n ∧ IsLong n) → S f)
    (hvalue : ∀ e ∈ es, ∀ f, e.2.IsTooLong f → S f) : FaultsIn S (shownEntries es) := by
  cases es with
  | nil => rw [shownEntries]; exact .ok _
  | cons e es =>
    rw [shownEntries]
    refine .bind ((Key.shown_faults_isLong e.1).mono (hkey e List.mem_cons_self)) fun key => ?_
    refine .bind ((shown_faults_isTooLong e.2).mono (hvalue e List.mem_cons_self)) fun text => ?_
    exact .bind (shownEntries_faults_isTooLong es
      (fun e he => hkey e (List.mem_cons_of_mem _ he))
      fun e he => hvalue e (List.mem_cons_of_mem _ he)) fun texts => .ok _

end

/-! ## As code -/

/-- Values of a kind without a literal. -/
def LacksLiteral : Value ι → Prop
  | .bytes .. | .set .. | .builtin _ | .method .. => True
  | _ => False

/-- Why a value cannot be written. -/
inductive Unwritten (v : Value ι) : Fault → Prop
  | literal {w : Value ι} (hw : w.LacksLiteral) (h : Part w v) : Unwritten v .type
  | integer (h : v.HasLong) : Unwritten v .value

theorem Unwritten.mono {v w : Value ι} {f : Fault} (h : v.Unwritten f) (hvw : Part v w) :
    w.Unwritten f := by
  cases h with
  | literal hw h => exact .literal hw (h.trans hvw)
  | integer h => exact .integer (h.mono hvw)

end Value

namespace Preview

open Value

mutual

theorem toCode_faults (v : Value ι) : FaultsIn v.Unwritten (toCode v) := by
  cases v with
  | int n =>
    rw [toCode]
    refine (writtenInt_faults_isLong n).mono fun f hf => ?_
    rw [hf.1]
    exact .integer (.part hf.2 (.refl _))
  | bytes | set | builtin | method =>
    rw [toCode]
    exact .error (.literal (by trivial) (.refl _))
  | array id items =>
    rw [toCode]
    have hitems := toCodeItems_faults (S := (array id items).Unwritten) items
      fun v hv f hf => hf.mono (.item hv (.refl v))
    exact .bind hitems fun texts => .ok _
  | object id entries =>
    rw [toCode]
    have hentries := toCodeEntries_faults (S := (object id entries).Unwritten) entries
      (fun e he f hf => hf.1 ▸ .integer (hasLong_of_key he hf.2))
      fun e he f hf => hf.mono (.entry he (.refl _))
    exact .bind hentries fun texts => .ok _
  | pair v w =>
    rw [toCode]
    refine .bind ((toCode_faults v).mono fun f hf => hf.mono (.first (.refl v))) fun first => ?_
    exact .bind ((toCode_faults w).mono fun f hf => hf.mono (.second (.refl w))) fun second => .ok _
  | _ => rw [toCode]; exact .ok _

theorem toCodeItems_faults {S : Fault → Prop} (vs : List (Value ι)) (h : ∀ v ∈ vs, ∀ f, v.Unwritten f → S f) :
    FaultsIn S (toCodeItems vs) := by
  cases vs with
  | nil => rw [toCodeItems]; exact .ok _
  | cons v vs =>
    rw [toCodeItems]
    refine .bind ((toCode_faults v).mono (h v List.mem_cons_self)) fun text => ?_
    exact .bind (toCodeItems_faults vs fun w hw => h w (List.mem_cons_of_mem _ hw)) fun texts => .ok _

theorem toCodeEntries_faults {S : Fault → Prop} (es : List (Key × Value ι))
    (hkey : ∀ e ∈ es, ∀ f, (f = .value ∧ ∃ n, e.1 = .int n ∧ IsLong n) → S f)
    (hvalue : ∀ e ∈ es, ∀ f, e.2.Unwritten f → S f) : FaultsIn S (toCodeEntries es) := by
  cases es with
  | nil => rw [toCodeEntries]; exact .ok _
  | cons e es =>
    rw [toCodeEntries]
    refine .bind ((Key.text_faults_isLong e.1).mono (hkey e List.mem_cons_self)) fun key => ?_
    refine .bind ((toCode_faults e.2).mono (hvalue e List.mem_cons_self)) fun text => ?_
    exact .bind (toCodeEntries_faults es (fun e he => hkey e (List.mem_cons_of_mem _ he))
      fun e he => hvalue e (List.mem_cons_of_mem _ he)) fun texts => .ok _

end

/-- The parts of a written value are written. -/
theorem toCodeItems_eq_ok {items : List (Value ι)} {texts : List String}
    (h : toCodeItems items = .ok texts) : ∀ v ∈ items, ∃ text, toCode v = .ok text := by
  induction items generalizing texts with
  | nil => exact fun v hv => absurd hv List.not_mem_nil
  | cons v vs ih =>
    rw [toCodeItems] at h
    obtain ⟨text, htext, h⟩ := bind_eq_ok.mp h
    obtain ⟨others, hothers, -⟩ := bind_eq_ok.mp h
    intro w hw
    rcases List.mem_cons.mp hw with rfl | hw
    · exact ⟨text, htext⟩
    · exact ih hothers w hw

theorem toCodeEntries_eq_ok {entries : List (Key × Value ι)} {texts : List String}
    (h : toCodeEntries entries = .ok texts) :
    ∀ e ∈ entries, (∃ name, e.1.text = .ok name) ∧ ∃ text, toCode e.2 = .ok text := by
  induction entries generalizing texts with
  | nil => exact fun e he => absurd he List.not_mem_nil
  | cons e es ih =>
    rw [toCodeEntries] at h
    obtain ⟨name, hname, h⟩ := bind_eq_ok.mp h
    obtain ⟨text, htext, h⟩ := bind_eq_ok.mp h
    obtain ⟨others, hothers, -⟩ := bind_eq_ok.mp h
    intro d hd
    rcases List.mem_cons.mp hd with rfl | hd
    · exact ⟨⟨name, hname⟩, text, htext⟩
    · exact ih hothers d hd

theorem toCode_part {v w : Value ι} (h : Part w v) {text : String} (hv : toCode v = .ok text) :
    ∃ text, toCode w = .ok text := by
  induction h generalizing text with
  | refl => exact ⟨text, hv⟩
  | item hmem _ ih =>
    rw [toCode] at hv
    obtain ⟨texts, htexts, -⟩ := bind_eq_ok.mp hv
    obtain ⟨itemText, hitem⟩ := toCodeItems_eq_ok htexts _ hmem
    exact ih hitem
  | entry hmem _ ih =>
    rw [toCode] at hv
    obtain ⟨texts, htexts, -⟩ := bind_eq_ok.mp hv
    obtain ⟨-, entryText, hentry⟩ := toCodeEntries_eq_ok htexts _ hmem
    exact ih hentry
  | first _ ih =>
    rw [toCode] at hv
    obtain ⟨firstText, hfirst, -⟩ := bind_eq_ok.mp hv
    exact ih hfirst
  | second _ ih =>
    rw [toCode] at hv
    obtain ⟨firstText, hfirst, hv⟩ := bind_eq_ok.mp hv
    obtain ⟨secondText, hsecond, -⟩ := bind_eq_ok.mp hv
    exact ih hsecond

theorem toCode_lacksLiteral {w : Value ι} (hw : w.LacksLiteral) : toCode w = .error .type := by
  cases w with
  | bytes | set | builtin | method => rw [toCode]
  | _ => exact hw.elim

/-- A value is written exactly if all of its parts have literals and no integer in it is too
long. -/
theorem toCode_succeeds_iff {v : Value ι} :
    (∃ text, toCode v = .ok text) ↔ (∀ w, Part w v → ¬w.LacksLiteral) ∧ ¬v.HasLong := by
  constructor
  · rintro ⟨text, htext⟩
    refine ⟨fun w hw hlacks => ?_, fun hlong => ?_⟩
    · obtain ⟨t, ht⟩ := toCode_part hw htext
      rw [toCode_lacksLiteral hlacks] at ht
      cases ht
    · cases hlong with
      | part hn h =>
        obtain ⟨t, ht⟩ := toCode_part h htext
        obtain ⟨f, hf⟩ := hn
        rw [toCode, hf] at ht
        cases ht
      | key hn hk h =>
        obtain ⟨t, ht⟩ := toCode_part h htext
        rw [toCode] at ht
        obtain ⟨texts, htexts, -⟩ := bind_eq_ok.mp ht
        obtain ⟨e, he, hkey⟩ := List.mem_map.mp hk
        obtain ⟨⟨name, hname⟩, -⟩ := toCodeEntries_eq_ok htexts e he
        obtain ⟨f, hf⟩ := hn
        rw [hkey] at hname
        exact nomatch hf.symm.trans hname
      | element hn hk h =>
        obtain ⟨t, ht⟩ := toCode_part h htext
        rw [toCode] at ht
        cases ht
  · rintro ⟨hliterals, hshort⟩
    cases hcode : toCode v with
    | ok text => exact ⟨text, rfl⟩
    | error f =>
      cases toCode_faults v f hcode with
      | literal hw h => exact absurd hw (hliterals _ h)
      | integer h => exact absurd h hshort

/-! ## Descriptors -/

theorem attributeText_eq_error_iff {name : String} {v : Data} {f : Fault} :
    attributeText name v = .error f ↔ toCode v = .error f := by
  have hbraced : (do return name ++ "=\x7b" ++ (← toCode v) ++ "\x7d" : Except Fault String) =
      .error f ↔ toCode v = .error f := by
    cases toCode v with
    | ok text => exact ⟨nofun, nofun⟩
    | error g => exact ⟨fun h => by cases h; rfl, fun h => by cases h; rfl⟩
  cases v with
  | str s =>
    rw [attributeText]
    split
    · rw [toCode]
      exact ⟨nofun, nofun⟩
    · exact hbraced
  | _ => exact hbraced

theorem toCode_of_attributeText {name : String} {v : Data} {text : String}
    (h : attributeText name v = .ok text) : ∃ code, toCode v = .ok code := by
  cases hcode : toCode v with
  | ok code => exact ⟨code, rfl⟩
  | error f => exact nomatch h.symm.trans (attributeText_eq_error_iff.mpr hcode)

namespace Descriptor

/-- If attributes are written, the object that they are the entries of can be written too. -/
theorem toCodeEntries_of_attributes {props : List (Key × Data)} {texts : List String}
    (h : attributes props = .ok texts) : ∃ codes, toCodeEntries props = .ok codes := by
  induction props generalizing texts with
  | nil => exact ⟨[], by rw [toCodeEntries]⟩
  | cons e es ih =>
    rw [attributes] at h
    obtain ⟨name, hname, h⟩ := bind_eq_ok.mp h
    obtain ⟨text, htext, h⟩ := bind_eq_ok.mp h
    obtain ⟨others, hothers, -⟩ := bind_eq_ok.mp h
    obtain ⟨code, hcode⟩ := toCode_of_attributeText htext
    obtain ⟨codes, hcodes⟩ := ih hothers
    exact ⟨_, by rw [toCodeEntries, hname, ok_bind, hcode, ok_bind, hcodes]; rfl⟩

theorem attributes_faults {S : Fault → Prop} (props : List (Key × Data))
    (hkey : ∀ e ∈ props, ∀ f, (f = .value ∧ ∃ n, e.1 = .int n ∧ IsLong n) → S f)
    (hvalue : ∀ e ∈ props, ∀ f, e.2.Unwritten f → S f) : FaultsIn S (attributes props) := by
  induction props with
  | nil => exact .ok _
  | cons e es ih =>
    rw [attributes]
    refine .bind ((Key.text_faults_isLong e.1).mono (hkey e List.mem_cons_self)) fun name => ?_
    refine .bind (fun f hf => ?_) fun text => .bind (ih
      (fun e he => hkey e (List.mem_cons_of_mem _ he))
      fun e he => hvalue e (List.mem_cons_of_mem _ he)) fun texts => .ok _
    exact hvalue e List.mem_cons_self f (toCode_faults e.2 f (attributeText_eq_error_iff.mp hf))

/-- The props of a descriptor as one object. -/
def propsObject (d : Descriptor) : Data := .object () d.props

/-- The style of a descriptor as one object. -/
def styleObject (d : Descriptor) : Data := .object () d.style

/-- What keeps code from being written is something in the props or in the style. -/
theorem code_faults (d : Descriptor) :
    FaultsIn (fun f => d.propsObject.Unwritten f ∨ d.styleObject.Unwritten f) d.code := by
  have hattributes : FaultsIn d.propsObject.Unwritten (attributes d.props) :=
    attributes_faults d.props
      (fun e he f hf => hf.1 ▸ .integer (hasLong_of_key he hf.2))
      fun e he f hf => hf.mono (.entry he (.refl _))
  rw [code, elementText]
  refine .bind ?_ fun element => .ok _
  refine .bind (hattributes.mono fun f => Or.inl) fun texts => ?_
  exact .bind ((toCode_faults d.styleObject).mono fun f => Or.inr) fun style => .ok _

theorem code_eq_ok {d : Descriptor} {text : String} (h : d.code = .ok text) :
    (∃ s, toCode d.propsObject = .ok s) ∧ ∃ s, toCode d.styleObject = .ok s := by
  rw [code, elementText] at h
  obtain ⟨element, h, -⟩ := bind_eq_ok.mp h
  obtain ⟨texts, htexts, h⟩ := bind_eq_ok.mp h
  obtain ⟨style, hstyle, -⟩ := bind_eq_ok.mp h
  obtain ⟨codes, hcodes⟩ := toCodeEntries_of_attributes htexts
  exact ⟨⟨_, by rw [propsObject, toCode, hcodes]; rfl⟩, style, hstyle⟩

/-- A descriptor has code exactly if every part of its props and of its style has a literal and no
integer in them is too long. -/
theorem code_succeeds_iff {d : Descriptor} :
    (∃ text, d.code = .ok text) ↔
      ((∀ w, Part w d.propsObject → ¬w.LacksLiteral) ∧ ¬d.propsObject.HasLong) ∧
      (∀ w, Part w d.styleObject → ¬w.LacksLiteral) ∧ ¬d.styleObject.HasLong := by
  rw [← toCode_succeeds_iff, ← toCode_succeeds_iff]
  constructor
  · rintro ⟨text, htext⟩
    exact code_eq_ok htext
  · rintro ⟨hprops, hstyle⟩
    rw [toCode_succeeds_iff] at hprops hstyle
    cases hcode : d.code with
    | ok text => exact ⟨text, rfl⟩
    | error f =>
      rcases code_faults d f hcode with (⟨hw, h⟩ | ⟨h⟩) | ⟨hw, h⟩ | ⟨h⟩
      · exact absurd hw (hprops.1 _ h)
      · exact absurd h hprops.2
      · exact absurd hw (hstyle.1 _ h)
      · exact absurd h hstyle.2

end Descriptor

end Preview
end Vitrine
