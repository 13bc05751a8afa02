import Vitrine.Proofs.Preview.Interpreting
import Vitrine.Proofs.Preview.Notation
import Vitrine.Proofs.Script.Lexemes

/-!
# Reading props twice

Props that are tagged nowhere are read as a value that is read as itself (`interpret_idempotent`). If
null stays null and all keys are texts, it is the value that was given.
-/
namespace Vitrine

/-! ## The characters of numbers -/

namespace Decimal

theorem isNumberChar_of_isAsciiDigit {c : Char} (h : Text.isAsciiDigit c = true) :
    IsNumberChar c := by
  have hbounds := isAsciiDigit_iff.mp h
  exact Or.inl ((Script.isDecimalDigit_of_lt (by omega)).trans h)

theorem isNumberChar_of_mem_digitChars {n : Nat} {c : Char} (h : c ∈ digitChars n) :
    IsNumberChar c := isNumberChar_of_isAsciiDigit (isAsciiDigit_of_mem_digitChars h)

theorem isNumberChar_of_mem_padLeft {width : Nat} {cs : List Char} (h : ∀ c ∈ cs, IsNumberChar c) :
    ∀ c ∈ padLeft width cs, IsNumberChar c := by
  intro c hc
  rcases List.mem_append.mp hc with hc | hc
  · rw [List.eq_of_mem_replicate hc]
    exact isNumberChar_of_isAsciiDigit (by decide)
  · exact h c hc

theorem isNumberChar_of_mem_intChars {n : Int} {c : Char} (h : c ∈ intChars n) : IsNumberChar c := by
  rw [intChars] at h
  split at h
  · rcases List.mem_cons.mp h with rfl | h
    · exact Or.inr (by decide)
    · exact isNumberChar_of_mem_digitChars h
  · exact isNumberChar_of_mem_digitChars h

section Layouts

variable {digits : List Char} (h : ∀ c ∈ digits, IsNumberChar c)
include h

theorem isNumberChar_of_mem_positional (point : Int) :
    ∀ c ∈ positional digits point, IsNumberChar c := by
  have hpoint : IsNumberChar '.' := Or.inr (by decide)
  have hzero : IsNumberChar '0' := isNumberChar_of_isAsciiDigit (by decide)
  have hzeros : ∀ n, ∀ c ∈ List.replicate n '0', IsNumberChar c :=
    fun n c hc => List.eq_of_mem_replicate hc ▸ hzero
  rw [positional]
  dsimp only
  split
  · exact List.forall_mem_cons.mpr ⟨hzero, List.forall_mem_cons.mpr
      ⟨hpoint, List.forall_mem_append.mpr ⟨hzeros _, h⟩⟩⟩
  · split
    · refine List.forall_mem_append.mpr ⟨List.forall_mem_append.mpr ⟨h, hzeros _⟩, ?_⟩
      exact List.forall_mem_cons.mpr ⟨hpoint, List.forall_mem_singleton.mpr hzero⟩
    · exact List.forall_mem_append.mpr ⟨fun c hc => h c (List.mem_of_mem_take hc),
        List.forall_mem_cons.mpr ⟨hpoint, fun c hc => h c (List.mem_of_mem_drop hc)⟩⟩

theorem isNumberChar_of_mem_scientific (width : Nat) (exponent : Int) :
    ∀ c ∈ scientific width digits exponent, IsNumberChar c := by
  have hmarks : ∀ c ∈ ['.', 'e', 'E', '+', '-'], IsNumberChar c := fun c hc => Or.inr hc
  have htail : ∀ c ∈ digits.drop 1, IsNumberChar c := fun c hc => h c (List.mem_of_mem_drop hc)
  rw [scientific]
  refine List.forall_mem_append.mpr ⟨List.forall_mem_append.mpr
    ⟨fun c hc => h c (List.mem_of_mem_take hc), ?_⟩, List.forall_mem_cons.mpr
    ⟨hmarks _ (by decide), List.forall_mem_cons.mpr
      ⟨?_, isNumberChar_of_mem_padLeft fun _ => isNumberChar_of_mem_digitChars⟩⟩⟩
  · split
    · exact List.forall_mem_nil _
    · exact List.forall_mem_cons.mpr ⟨hmarks _ (by decide), htail⟩
  · split <;> exact hmarks _ (by decide)

end Layouts

theorem Layout.isNumberChar_of_mem_chars (l : Layout) (b : Binary) :
    ∀ c ∈ l.chars b, IsNumberChar c := by
  have hdigits : ∀ c ∈ digitChars (shortest b).digits, IsNumberChar c :=
    fun c => isNumberChar_of_mem_digitChars
  rw [Layout.chars]
  have hsize : ∀ size : List Char, (∀ c ∈ size, IsNumberChar c) →
      ∀ c ∈ (if b.negative then '-' :: size else size), IsNumberChar c := by
    intro size hsize
    split
    · exact List.forall_mem_cons.mpr ⟨Or.inr (by decide), hsize⟩
    · exact hsize
  refine hsize _ ?_
  split
  · exact isNumberChar_of_mem_positional hdigits _
  · split
    · exact isNumberChar_of_mem_positional hdigits _
    · exact isNumberChar_of_mem_scientific hdigits _ _

end Decimal

/-! ## The texts of keys -/

open Decimal (IsNumberChar)

/-- A text with no letter but that of an exponent. -/
theorem ofList_ne_kind {cs : List Char} (h : ∀ c ∈ cs, IsNumberChar c) :
    String.ofList cs ≠ "kind" := by
  intro heq
  have hk : ¬ IsNumberChar 'k' := by
    rw [IsNumberChar]
    decide
  have hchars : cs = "kind".toList := by rw [← heq, String.toList_ofList]
  exact hk (h _ (hchars ▸ by decide))

theorem ne_kind_of_mem {text : String} {c : Char} (hc : c ∉ "kind".toList) (h : c ∈ text.toList) :
    text ≠ "kind" := by
  rintro rfl
  exact hc h

theorem messageFloat_ne_kind (x : Float) : messageFloat x ≠ "kind" := by
  rw [messageFloat, Decimal.floatText]
  split
  · exact ofList_ne_kind (Decimal.Layout.isNumberChar_of_mem_chars _ _)
  · split
    · split <;> decide
    · decide

theorem Date.mem_text (d : Date) : '-' ∈ d.text.toList := by
  rw [Date.text]
  simp only [String.toList_append, List.mem_append]
  exact Or.inl (Or.inr (by decide))

theorem DateTime.mem_text (t : DateTime) : ' ' ∈ t.text.toList := by
  rw [DateTime.text]
  simp only [String.toList_append, List.mem_append]
  exact Or.inl (Or.inr (by decide))

theorem writtenInt_eq_ok {n : Int} {text : String} (h : writtenInt n = .ok text) :
    text = Decimal.intText n := by
  rw [writtenInt] at h
  by_cases hlong : Decimal.digitLimit < (Decimal.intText n).length - (if n < 0 then 1 else 0)
  · rw [if_pos hlong] at h
    cases h
  · rw [if_neg hlong] at h
    exact (Except.ok.inj h).symm

/-- Only the text itself becomes the key of a tag. -/
theorem Key.text_ne_kind {k : Key} {name : String} (hk : k ≠ .str "kind") (h : k.text = .ok name) :
    name ≠ "kind" := by
  cases k with
  | str s =>
    cases h
    exact fun heq => hk (congrArg Key.str heq)
  | null => cases h; decide
  | bool b => cases h; cases b <;> decide
  | int n =>
    rw [writtenInt_eq_ok (show writtenInt n = .ok name from h)]
    exact ofList_ne_kind fun c => Decimal.isNumberChar_of_mem_intChars
  | float x =>
    cases h
    exact messageFloat_ne_kind x
  | date d => cases h; exact ne_kind_of_mem (by decide) d.mem_text
  | datetime t => cases h; exact ne_kind_of_mem (by decide) t.mem_text
  | bytes bs =>
    cases h
    refine ne_kind_of_mem (c := 'b') (by decide) ?_
    rw [Text.quoteBytes, String.toList_ofList]
    exact List.mem_append_left _ List.mem_cons_self

namespace Preview

open Value

/-! ## Settled values -/

/-- Mappings without a tag. -/
def Untagged (v : Data) : Prop :=
  ∀ id entries, Part (.object id entries) v → .str "kind" ∉ entries.map (·.1)

/-- Mappings with texts as keys, no two of which are the same. -/
def HasTextKeys (v : Data) : Prop :=
  ∀ id entries, Part (.object id entries) v →
    (∀ e ∈ entries, ∃ s, e.1 = .str s) ∧ (entries.map (·.1)).Nodup

theorem Untagged.part {v w : Data} (h : Untagged v) (hw : Part w v) : Untagged w :=
  fun id entries hpart => h id entries (hpart.trans hw)

theorem HasTextKeys.part {v w : Data} (h : HasTextKeys v) (hw : Part w v) : HasTextKeys w :=
  fun id entries hpart => h id entries (hpart.trans hw)

/-- A value that stays as it is when it is read, if its parts do. -/
def StaysAt (strict : Bool) : Data → Prop
  | .null => strict = true
  | .array .. => True
  | .object _ entries => (∀ e ∈ entries, ∃ s, e.1 = .str s) ∧ (entries.map (·.1)).Nodup ∧
      .str "kind" ∉ entries.map (·.1)
  | v => Reading.typeName? v = none

/-- A value that is read as itself. -/
def Settled (strict : Bool) (v : Data) : Prop := ∀ w, Part w v → StaysAt strict w

theorem Settled.items {strict : Bool} {id : Unit} {items : List Data}
    (h : Settled strict (.array id items)) : ∀ v ∈ items, Settled strict v :=
  fun _ hv w hw => h w (.item hv hw)

theorem Settled.entries {strict : Bool} {id : Unit} {entries : List (Key × Data)}
    (h : Settled strict (.object id entries)) : ∀ e ∈ entries, Settled strict e.2 :=
  fun _ he w hw => h w (.entry he hw)

theorem settled_array {strict : Bool} {items : List Data} (h : ∀ v ∈ items, Settled strict v) :
    Settled strict (.array () items) := by
  intro w hw
  cases hw with
  | refl => exact trivial
  | item hv hw => exact h _ hv _ hw

theorem settled_object {strict : Bool} {entries : List (Key × Data)}
    (hstays : StaysAt strict (.object () entries)) (h : ∀ e ∈ entries, Settled strict e.2) :
    Settled strict (.object () entries) := by
  intro w hw
  cases hw with
  | refl => exact hstays
  | entry he hw => exact h _ he _ hw

theorem get?_eq_none {name : String} {entries : List (Key × Data)}
    (h : .str name ∉ entries.map (·.1)) : Entries.get? name entries = none := by
  rw [Option.eq_none_iff_forall_ne_some]
  exact fun v hv => h (List.mem_map_of_mem (Entries.mem_of_get? hv))

namespace Reading

/-- A value without parts that code can hold is taken as it is, and no other. -/
theorem plain_eq_ok_iff {r : Reading} {keyPath : String} {v w : Data}
    (harray : ∀ id items, v ≠ .array id items) (hobject : ∀ id entries, v ≠ .object id entries) :
    r.plain keyPath v = .ok w ↔ typeName? v = none ∧ w = v := by
  cases v with
  | array id items => exact absurd rfl (harray id items)
  | object id entries => exact absurd rfl (hobject id entries)
  | undefined | bytes | set | pair | function | builtin | method =>
    exact ⟨nofun, fun h => nomatch h.1⟩
  | _ =>
    refine ⟨fun h => ⟨rfl, plain_eq_ok h⟩, fun ⟨_, hsame⟩ => ?_⟩
    rw [hsame]
    rfl

mutual

/-- A settled value is read as itself. -/
theorem read_settled (r : Reading) (keyPath : String) (v : Data) (h : Settled r.strict v) :
    r.read keyPath v = .ok v := by
  cases v with
  | array id items =>
    rw [read, readItems_settled r keyPath 0 items h.items]
    rfl
  | null =>
    have hstrict : r.strict = true := h _ (.refl _)
    rw [read, if_pos hstrict]
  | object id entries =>
    obtain ⟨htexts, hnodup, hkind⟩ := h _ (.refl _)
    rw [read, get?_eq_none hkind]
    dsimp only
    rw [readEntries_settled r keyPath entries htexts h.entries, ok_bind,
      Entries.ofList_of_nodup htexts hnodup]
    rfl
  | _ => refine (plain_eq_ok_iff ?_ ?_).mpr ⟨h _ (.refl _), rfl⟩ <;> nofun

theorem readItems_settled (r : Reading) (keyPath : String) (position : Nat) (vs : List Data)
    (h : ∀ v ∈ vs, Settled r.strict v) : r.readItems keyPath position vs = .ok vs := by
  cases vs with
  | nil => rfl
  | cons v vs =>
    rw [readItems, read_settled r _ v (h v List.mem_cons_self), ok_bind,
      readItems_settled r keyPath (position + 1) vs fun u hu => h u (List.mem_cons_of_mem _ hu)]
    rfl

theorem readEntries_settled (r : Reading) (keyPath : String) (es : List (Key × Data))
    (htexts : ∀ e ∈ es, ∃ s, e.1 = .str s) (h : ∀ e ∈ es, Settled r.strict e.2) :
    r.readEntries keyPath es = .ok es := by
  match es with
  | [] => rfl
  | (k, v) :: es =>
    obtain ⟨name, rfl⟩ : ∃ s, k = .str s := htexts (k, v) List.mem_cons_self
    have hname : Result.ofFault (Key.str name).text = .ok name := rfl
    rw [readEntries, hname, ok_bind, read_settled r _ v (h (.str name, v) List.mem_cons_self),
      ok_bind, readEntries_settled r keyPath es
        (fun d hd => htexts d (List.mem_cons_of_mem _ hd)) fun d hd => h d (List.mem_cons_of_mem _ hd)]
    rfl

end

/-- The result of reading a value settles; it is the value if null stays null and all keys are
texts. -/
def Steadies (r : Reading) (v w : Data) : Prop :=
  Settled r.strict w ∧ (r.strict = true → HasTextKeys v → w = v)

theorem steadies_scalar {r : Reading} {keyPath : String} {v w : Data}
    (h : r.plain keyPath v = .ok w) (hparts : ∀ u, Part u v → u = v)
    (hstays : typeName? v = none → StaysAt r.strict v) (harray : ∀ id items, v ≠ .array id items)
    (hobject : ∀ id entries, v ≠ .object id entries) : r.Steadies v w := by
  obtain ⟨htype, rfl⟩ := (plain_eq_ok_iff harray hobject).mp h
  refine ⟨fun u hu => ?_, fun _ _ => rfl⟩
  rw [hparts u hu]
  exact hstays htype

mutual

theorem read_steadies {r : Reading} {keyPath : String} {v w : Data} (hv : Untagged v)
    (h : r.read keyPath v = .ok w) : r.Steadies v w := by
  cases v with
  | array id items =>
    rw [read] at h
    obtain ⟨ws, hws, h⟩ := bind_eq_ok.mp h
    cases h
    obtain ⟨hsettled, hsame⟩ := readItems_steadies (fun v hv' => hv.part (.item hv' (.refl v))) hws
    exact ⟨settled_array hsettled, fun hstrict hkeys =>
      congrArg _ (hsame hstrict fun v hv' => hkeys.part (.item hv' (.refl v)))⟩
  | null =>
    rw [read] at h
    split at h
    · next hstrict =>
      cases h
      exact ⟨fun w hw => by cases hw; exact hstrict, fun _ _ => rfl⟩
    · next hstrict =>
      cases h
      have hempty : StaysAt r.strict (.object () []) :=
        ⟨List.forall_mem_nil _, List.nodup_nil, List.not_mem_nil⟩
      exact ⟨settled_object hempty (List.forall_mem_nil _), fun hs => absurd hs hstrict⟩
  | object id entries =>
    have hkind := hv _ _ (.refl _)
    rw [read, get?_eq_none hkind] at h
    obtain ⟨ws, hws, h⟩ := bind_eq_ok.mp h
    cases h
    obtain ⟨hentries, hsame⟩ :=
      readEntries_steadies hkind (fun e he => hv.part (.entry he (.refl e.2))) hws
    have hlisted := Entries.forall_ofList (P := fun k => ∃ s, k = .str s ∧ s ≠ "kind") hentries
    have htexts : ∀ es : List (Key × Data),
        (∀ e ∈ es, (∃ s, e.1 = .str s ∧ s ≠ "kind") ∧ Settled r.strict e.2) →
          ∀ e ∈ es, ∃ s, e.1 = .str s :=
      fun es hes e he => (hes e he).1.imp fun s hs => hs.1
    refine ⟨settled_object ⟨htexts _ hlisted, Entries.nodup_ofList (htexts _ hentries), ?_⟩
      fun e he => (hlisted e he).2, fun hstrict hkeys => ?_⟩
    · intro hmem
      obtain ⟨e, he, heq⟩ := List.mem_map.mp hmem
      obtain ⟨s, hs, hne⟩ := (hlisted e he).1
      exact hne (Key.str.inj (hs.symm.trans heq))
    · obtain ⟨hnames, hnodup⟩ := hkeys _ _ (.refl _)
      rw [hsame hstrict hnames fun e he => hkeys.part (.entry he (.refl e.2)),
        Entries.ofList_of_nodup hnames hnodup]
  | undefined | bytes | set | pair | function | builtin | method => cases h
  | _ =>
    have hplain : r.plain keyPath _ = .ok w := h
    exact steadies_scalar hplain (fun u hu => by cases hu; rfl) id nofun nofun

theorem readItems_steadies {r : Reading} {keyPath : String} {position : Nat} {vs ws : List Data}
    (hvs : ∀ v ∈ vs, Untagged v) (h : r.readItems keyPath position vs = .ok ws) :
    (∀ w ∈ ws, Settled r.strict w) ∧
      (r.strict = true → (∀ v ∈ vs, HasTextKeys v) → ws = vs) := by
  cases vs with
  | nil =>
    cases h
    exact ⟨List.forall_mem_nil _, fun _ _ => rfl⟩
  | cons v vs =>
    rw [readItems] at h
    obtain ⟨w, hw, h⟩ := bind_eq_ok.mp h
    obtain ⟨us, hus, h⟩ := bind_eq_ok.mp h
    cases h
    obtain ⟨hsettled, hsame⟩ := read_steadies (hvs v List.mem_cons_self) hw
    obtain ⟨hothers, hsame'⟩ := readItems_steadies (fun u hu => hvs u (List.mem_cons_of_mem _ hu)) hus
    refine ⟨List.forall_mem_cons.mpr ⟨hsettled, hothers⟩, fun hstrict hkeys => ?_⟩
    rw [hsame hstrict (hkeys v List.mem_cons_self),
      hsame' hstrict fun u hu => hkeys u (List.mem_cons_of_mem _ hu)]

theorem readEntries_steadies {r : Reading} {keyPath : String} {es ws : List (Key × Data)}
    (hkind : .str "kind" ∉ es.map (·.1)) (hes : ∀ e ∈ es, Untagged e.2)
    (h : r.readEntries keyPath es = .ok ws) :
    (∀ e ∈ ws, (∃ s, e.1 = .str s ∧ s ≠ "kind") ∧ Settled r.strict e.2) ∧
      (r.strict = true → (∀ e ∈ es, ∃ s, e.1 = .str s) → (∀ e ∈ es, HasTextKeys e.2) → ws = es) := by
  match es with
  | [] =>
    cases h
    exact ⟨List.forall_mem_nil _, fun _ _ _ => rfl⟩
  | (k, v) :: es =>
    rw [List.map_cons, List.mem_cons, not_or] at hkind
    rw [readEntries] at h
    obtain ⟨name, hname, h⟩ := bind_eq_ok.mp h
    obtain ⟨w, hw, h⟩ := bind_eq_ok.mp h
    obtain ⟨us, hus, h⟩ := bind_eq_ok.mp h
    cases h
    have htext : k.text = .ok name := by
      cases hk : k.text with
      | ok s => rw [hk] at hname; cases hname; rfl
      | error f => rw [hk] at hname; cases hname
    obtain ⟨hsettled, hsame⟩ := read_steadies (hes (k, v) List.mem_cons_self) hw
    obtain ⟨hothers, hsame'⟩ :=
      readEntries_steadies hkind.2 (fun d hd => hes d (List.mem_cons_of_mem _ hd)) hus
    have hne := Key.text_ne_kind (Ne.symm hkind.1) htext
    refine ⟨List.forall_mem_cons.mpr ⟨⟨⟨name, rfl, hne⟩, hsettled⟩, hothers⟩,
      fun hstrict htexts hkeys => ?_⟩
    obtain ⟨s, rfl⟩ : ∃ s, k = .str s := htexts (k, v) List.mem_cons_self
    cases htext
    rw [hsame hstrict (hkeys (_, v) List.mem_cons_self),
      hsame' hstrict (fun d hd => htexts d (List.mem_cons_of_mem _ hd))
        fun d hd => hkeys d (List.mem_cons_of_mem _ hd)]

end

end Reading

/-- Props without a tag are read as a value that is read as itself, whether or not null stays null;
if it does and all keys are texts, they are read as they are. -/
theorem interpret_idempotent {r : Reading} {v w : Data} (hv : Untagged v)
    (h : interpret r v = .ok w) :
    interpret r w = .ok w ∧ (r.strict = true → HasTextKeys v → w = v) := by
  obtain ⟨hsettled, hsame⟩ := Reading.read_steadies hv h
  exact ⟨r.read_settled "props" w hsettled, hsame⟩

/-- A number and a text that become the same key. -/
def collidingProps : Data := .object () [
  (.int 1, .array () [.null, .str "kind"]),
  (.str "1", .object () [(.bool true, .null)])]

def textProps : Data := .object () [(.str "a", .array () [.null, .int 1]), (.str "b", .null)]

theorem interpret_idempotent_sample :
    (Untagged collidingProps ∧
      interpret ⟨false, none⟩ collidingProps =
        .ok (.object () [(.str "1", .object () [(.str "True", .object () [])])]) ∧
      interpret ⟨false, none⟩ (.object () [(.str "1", .object () [(.str "True", .object () [])])]) =
        .ok (.object () [(.str "1", .object () [(.str "True", .object () [])])])) ∧
    Untagged textProps ∧ HasTextKeys textProps ∧
      interpret ⟨true, none⟩ textProps = .ok textProps := by
  have hcolliding : Untagged collidingProps := by
    rintro id entries (_ | _ | ⟨he, hpart⟩)
    · simp
    · rcases List.mem_pair.mp he with rfl | rfl
      · rcases hpart with _ | ⟨hv, hpart⟩
        rcases List.mem_pair.mp hv with rfl | rfl <;> cases hpart
      · rcases hpart with _ | _ | ⟨he, hpart⟩
        · simp
        · rw [List.mem_singleton.mp he] at hpart
          cases hpart
  have hobjects : ∀ id entries, Part (.object id entries) textProps →
      entries = [(.str "a", .array () [.null, .int 1]), (.str "b", .null)] := by
    rintro id entries (_ | _ | ⟨he, hpart⟩)
    · rfl
    · rcases List.mem_pair.mp he with rfl | rfl
      · rcases hpart with _ | ⟨hv, hpart⟩
        rcases List.mem_pair.mp hv with rfl | rfl <;> cases hpart
      · cases hpart
  have htagless : Untagged textProps := fun id entries hpart => by
    rw [hobjects id entries hpart]
    simp
  have htexts : HasTextKeys textProps := fun id entries hpart => by
    rw [hobjects id entries hpart]
    simp
  have hread : interpret ⟨false, none⟩ collidingProps =
      .ok (.object () [(.str "1", .object () [(.str "True", .object () [])])]) := by cbv
  obtain ⟨w, hw⟩ : ∃ w, interpret ⟨true, none⟩ textProps = .ok w := ⟨_, by cbv⟩
  have hsame := (interpret_idempotent htagless hw).2 rfl htexts
  exact ⟨⟨hcolliding, hread, (interpret_idempotent hcolliding hread).1⟩, htagless, htexts, hsame ▸ hw⟩

end Preview
end Vitrine
