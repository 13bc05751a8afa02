import Vitrine.Preview.Props
import Vitrine.Proofs.Entries

/-!
# Tagged notation

A value of null, undefined, truth values, integers, texts, arrays and objects can be written with
the kind of every part spelled out. Props written so are read as the value, whether or not null
stays null, and also if an object has the names that the notation itself uses (`interpret_tag`).
-/
namespace Vitrine

variable {ι : Type}

/-! ## The notation -/

namespace Value

mutual

/-- Values of null, undefined, truth values, integers and texts, arrays of such values, and objects
of them under texts, no two of which are the same. -/
def IsBasic : Value ι → Prop
  | .null | .undefined | .bool _ | .int _ | .str _ => True
  | .array _ items => AreBasic items
  | .object _ entries => (entries.map (·.1)).Nodup ∧ AreBasicEntries entries
  | _ => False

def AreBasic : List (Value ι) → Prop
  | [] => True
  | v :: vs => v.IsBasic ∧ AreBasic vs

def AreBasicEntries : List (Key × Value ι) → Prop
  | [] => True
  | (.str _, v) :: es => v.IsBasic ∧ AreBasicEntries es
  | _ => False

end

theorem AreBasicEntries.texts {entries : List (Key × Value ι)} (h : AreBasicEntries entries) :
    ∀ e ∈ entries, ∃ s, e.1 = .str s := by
  match entries, h with
  | [], _ => exact fun _ he => absurd he List.not_mem_nil
  | (.str s, v) :: es, h =>
    rw [AreBasicEntries] at h
    intro e he
    rcases List.mem_cons.mp he with rfl | he
    · exact ⟨s, rfl⟩
    · exact h.2.texts e he

end Value

namespace Preview

/-- The mapping that names a kind and, after it, the value of the kind. -/
def tagged (kind : String) (value : Option Data) : Data :=
  .object () ((.str "kind", .str kind) :: (value.toList.map fun v => (.str "value", v)))

mutual

/-- A value with the kind of every part spelled out. -/
def tag : Data → Data
  | .null => tagged "null" none
  | .undefined => tagged "undefined" none
  | .bool b => tagged "boolean" (some (.bool b))
  | .int n => tagged "number" (some (.int n))
  | .str s => tagged "string" (some (.str s))
  | .array _ items => tagged "array" (some (.array () (tagItems items)))
  | .object _ entries => tagged "object" (some (.object () (tagEntries entries)))
  | v => v

def tagItems : List Data → List Data
  | [] => []
  | v :: vs => tag v :: tagItems vs

def tagEntries : List (Key × Data) → List (Key × Data)
  | [] => []
  | (k, v) :: es => (k, tag v) :: tagEntries es

end

/-! ## Reading it back -/

namespace Reading

/-- What stands under the value of a tagged object is no tagged value, whatever names it has. -/
theorem read_tagged_object {r : Reading} {keyPath : String} {entries es : List (Key × Data)}
    (h : r.readEntries (keyPath ++ ".value") entries = .ok es) :
    r.read keyPath (tagged "object" (some (.object () entries))) =
      .ok (.object () (Entries.ofList es)) := by
  show (r.readObjectPayload keyPath [(.str "kind", .str "object"),
    (.str "value", .object () entries)]) = _
  rw [readObjectPayload, readObjectPayload, h]
  · rfl
  all_goals simp

theorem read_tagged_array {r : Reading} {keyPath : String} {items vs : List Data}
    (h : r.readItems (keyPath ++ ".value") 0 items = .ok vs) :
    r.read keyPath (tagged "array" (some (.array () items))) = .ok (.array () vs) := by
  show (r.readArrayPayload keyPath [(.str "kind", .str "array"),
    (.str "value", .array () items)]) = _
  rw [readArrayPayload, readArrayPayload, h]
  · rfl
  all_goals simp

theorem read_tagged_plain {kind : String} {r : Reading} {keyPath : String} {v : Data}
    (hkind : kind = "string" ∨ kind = "number" ∨ kind = "boolean")
    (h : r.checkPlain (keyPath ++ ".value") v = .ok ()) :
    r.read keyPath (tagged kind (some v)) = .ok v := by
  have hread : r.read keyPath (tagged kind (some v)) = r.plain (keyPath ++ ".value") v := by
    rcases hkind with rfl | rfl | rfl <;> rfl
  rw [hread, plain, h]
  rfl

mutual

theorem read_tag (r : Reading) (keyPath : String) (v : Data) (h : v.IsBasic) :
    r.read keyPath (tag v) = .ok v := by
  cases v with
  | null => rfl
  | undefined => rfl
  | bool b => exact read_tagged_plain (.inr (.inr rfl)) rfl
  | int n => exact read_tagged_plain (.inr (.inl rfl)) rfl
  | str s => exact read_tagged_plain (.inl rfl) rfl
  | array id items =>
    rw [Value.IsBasic] at h
    exact read_tagged_array (readItems_tag r (keyPath ++ ".value") 0 items h)
  | object id entries =>
    rw [Value.IsBasic] at h
    rw [tag, read_tagged_object (readEntries_tag r (keyPath ++ ".value") entries h.2),
      Entries.ofList_of_nodup h.2.texts h.1]
  | _ => simp only [Value.IsBasic] at h

theorem readItems_tag (r : Reading) (keyPath : String) (position : Nat) (vs : List Data)
    (h : Value.AreBasic vs) : r.readItems keyPath position (tagItems vs) = .ok vs := by
  cases vs with
  | nil => rfl
  | cons v vs =>
    rw [Value.AreBasic] at h
    rw [tagItems, readItems, read_tag r (itemPath keyPath position) v h.1]
    show (r.readItems keyPath (position + 1) (tagItems vs) >>= fun ws => .ok (v :: ws)) = _
    rw [readItems_tag r keyPath (position + 1) vs h.2]
    rfl

theorem readEntries_tag (r : Reading) (keyPath : String) (es : List (Key × Data))
    (h : Value.AreBasicEntries es) : r.readEntries keyPath (tagEntries es) = .ok es := by
  match es, h with
  | [], _ => rfl
  | (.str name, v) :: es, h =>
    rw [Value.AreBasicEntries] at h
    rw [tagEntries, readEntries]
    show (r.read (keyPath ++ "." ++ name) (tag v) >>= fun w =>
      r.readEntries keyPath (tagEntries es) >>= fun ws => .ok ((.str name, w) :: ws)) = _
    rw [read_tag r (keyPath ++ "." ++ name) v h.1, readEntries_tag r keyPath es h.2]
    rfl

end

end Reading

/-- Tagged notation says every such value: props written in it are read as the value itself, with
items and entries in their order, whether or not null stays null. -/
theorem interpret_tag {v : Data} (h : v.IsBasic) (r : Reading) : interpret r (tag v) = .ok v :=
  r.read_tag "props" v h

/-- An object under the names of the notation, with null and undefined inside. -/
def namesake : Data := .object () [
  (.str "kind", .str "undefined"), (.str "value", .array () [.null, .object () [], .int (-7)]),
  (.str "spec", .object () [(.str "kind", .undefined), (.str "", .bool true)])]

theorem interpret_tag_namesake : namesake.IsBasic ∧
    interpret ⟨false, none⟩ (tag namesake) = .ok namesake ∧
    interpret ⟨true, none⟩ (tag namesake) = .ok namesake := by
  have hbasic : namesake.IsBasic := by
    simp [namesake, Value.IsBasic, Value.AreBasicEntries, Value.AreBasic]
  exact ⟨hbasic, interpret_tag hbasic _, interpret_tag hbasic _⟩

end Preview
end Vitrine
