import Mathlib
import Vitrine.Script.Identity
import Vitrine.Script.Stringify

/-!
# Identities

Values are told apart during evaluation and are otherwise what they were: their JSON texts do not
depend on identities (`stringify_forget`), and giving identities out changes nothing else
(`forget_identify`).
-/
namespace Vitrine

variable {ι κ : Type}

namespace Value

mutual

/-- Values outside evaluation have no identities to lose. -/
theorem forget_data (v : Data) : v.forget = v := by
  cases v with
  | array id items =>
    rw [forget, mapId, forget_items]
  | object id entries =>
    rw [forget, mapId, forget_entries]
  | pair v w =>
    rw [forget, mapId]
    exact congr (congrArg Value.pair (forget_data v)) (forget_data w)
  | method id receiver m =>
    rw [forget, mapId]
    exact congrArg (Value.method () · m) (forget_data receiver)
  | _ => rw [forget, mapId]

theorem forget_items (vs : List Data) : mapIdItems (fun _ => ()) vs = vs := by
  cases vs with
  | nil => rw [mapIdItems]
  | cons v vs =>
    rw [mapIdItems, forget_items vs]
    exact congrArg (List.cons · vs) (forget_data v)

theorem forget_entries (es : List (Key × Data)) : mapIdEntries (fun _ => ()) es = es := by
  cases es with
  | nil => rw [mapIdEntries]
  | cons e es =>
    rw [mapIdEntries, forget_entries es]
    exact congrArg (fun v => List.cons (e.1, v) es) (forget_data e.2)

end

end Value

namespace Script

theorem isOmitted_mapId (f : ι → κ) (v : Value ι) : isOmitted (v.mapId f) = isOmitted v := by
  cases v <;> simp only [Value.mapId, isOmitted]

mutual

/-- The JSON value of a value does not depend on identities. -/
theorem toJson_mapId (f : ι → κ) (v : Value ι) : toJson (v.mapId f) = toJson v := by
  cases v with
  | array id items => rw [Value.mapId, toJson, toJson, toJsonItems_mapId]
  | object id entries => rw [Value.mapId, toJson, toJson, toJsonEntries_mapId]
  | pair v w => rw [Value.mapId, toJson, toJson, toJson_mapId f v, toJson_mapId f w]
  | _ => rw [Value.mapId, toJson, toJson]

theorem toJsonItems_mapId (f : ι → κ) (vs : List (Value ι)) :
    toJsonItems (Value.mapIdItems f vs) = toJsonItems vs := by
  cases vs with
  | nil => rw [Value.mapIdItems, toJsonItems, toJsonItems]
  | cons v vs =>
    rw [Value.mapIdItems, toJsonItems, toJsonItems, isOmitted_mapId, toJson_mapId f v,
      toJsonItems_mapId f vs]

theorem toJsonEntries_mapId (f : ι → κ) (es : List (Key × Value ι)) :
    toJsonEntries (Value.mapIdEntries f es) = toJsonEntries es := by
  cases es with
  | nil => rw [Value.mapIdEntries, toJsonEntries, toJsonEntries]
  | cons e es =>
    rw [Value.mapIdEntries, toJsonEntries, toJsonEntries, isOmitted_mapId, toJson_mapId f e.2,
      toJsonEntries_mapId f es]

end

/-- The JSON text of a value does not depend on identities. -/
theorem stringify_forget (v : Value ι) : stringify v.forget = stringify v := by
  rw [stringify, stringify, Value.forget, isOmitted_mapId, toJson_mapId]

mutual

/-- Identities are all that a value gets when it is told apart from others. -/
theorem forget_identify (n : Nat) (v : Value ι) : (identify n v).1.forget = v.forget := by
  cases v with
  | array id items =>
    rw [identify, Value.forget, Value.forget, Value.mapId, Value.mapId]
    exact congrArg _ (forget_identifyItems _ items)
  | object id entries =>
    rw [identify, Value.forget, Value.forget, Value.mapId, Value.mapId]
    exact congrArg _ (forget_identifyEntries _ entries)
  | pair v w =>
    rw [identify, Value.forget, Value.forget, Value.mapId, Value.mapId]
    exact congr (congrArg Value.pair (forget_identify _ v)) (forget_identify _ w)
  | method id receiver m =>
    rw [identify, Value.forget, Value.forget, Value.mapId, Value.mapId]
    exact congrArg (Value.method () · m) (forget_identify _ receiver)
  | _ => rw [identify, Value.forget, Value.forget, Value.mapId, Value.mapId]

theorem forget_identifyItems (n : Nat) (vs : List (Value ι)) :
    Value.mapIdItems (fun _ => ()) (identifyItems n vs).1 =
      Value.mapIdItems (fun _ => ()) vs := by
  cases vs with
  | nil => rw [identifyItems, Value.mapIdItems, Value.mapIdItems]
  | cons v vs =>
    rw [identifyItems, Value.mapIdItems, Value.mapIdItems]
    exact congr (congrArg List.cons (forget_identify _ v)) (forget_identifyItems _ vs)

theorem forget_identifyEntries (n : Nat) (es : List (Key × Value ι)) :
    Value.mapIdEntries (fun _ => ()) (identifyEntries n es).1 =
      Value.mapIdEntries (fun _ => ()) es := by
  cases es with
  | nil => rw [identifyEntries, Value.mapIdEntries, Value.mapIdEntries]
  | cons e es =>
    rw [identifyEntries, Value.mapIdEntries, Value.mapIdEntries]
    exact congr (congrArg (fun v => List.cons (e.1, v)) (forget_identify _ e.2))
      (forget_identifyEntries _ es)

end

end Script

end Vitrine
