import Vitrine.Value

/-!
Identities. Every array, object, function and date that comes into being during evaluation is told
apart from all others; the namespaces of built-in functions are there from the start.
-/
namespace Vitrine
namespace Script

/-- What tells apart the values that are compared by identity. -/
inductive Identity where
  /-- A namespace of built-in functions. -/
  | builtins (name : String)
  /-- A value that came into being during evaluation. -/
  | cell (n : Nat)
  deriving DecidableEq, Repr

variable {ι : Type}

mutual

/-- The value with identities of its own, the first of them being `n`, and the next free one. -/
def identify (n : Nat) : Value ι → Value Identity × Nat
  | .null => (.null, n)
  | .undefined => (.undefined, n)
  | .bool b => (.bool b, n)
  | .int i => (.int i, n)
  | .float x => (.float x, n)
  | .str s => (.str s, n)
  | .date _ d => (.date (.cell n) d, n + 1)
  | .datetime _ t => (.datetime (.cell n) t, n + 1)
  | .bytes _ bs => (.bytes (.cell n) bs, n + 1)
  | .set _ keys => (.set (.cell n) keys, n + 1)
  | .array _ items =>
    let (items, next) := identifyItems (n + 1) items
    (.array (.cell n) items, next)
  | .object _ entries =>
    let (entries, next) := identifyEntries (n + 1) entries
    (.object (.cell n) entries, next)
  | .pair v w =>
    let (v, n) := identify n v
    let (w, n) := identify n w
    (.pair v w, n)
  | .function _ f => (.function (.cell n) f, n + 1)
  | .builtin b => (.builtin b, n)
  | .method _ receiver m =>
    let (receiver, next) := identify (n + 1) receiver
    (.method (.cell n) receiver m, next)

def identifyItems (n : Nat) : List (Value ι) → List (Value Identity) × Nat
  | [] => ([], n)
  | v :: vs =>
    let (v, n) := identify n v
    let (vs, n) := identifyItems n vs
    (v :: vs, n)

def identifyEntries (n : Nat) : List (Key × Value ι) → List (Key × Value Identity) × Nat
  | [] => ([], n)
  | (k, v) :: es =>
    let (v, n) := identify n v
    let (es, n) := identifyEntries n es
    ((k, v) :: es, n)

end

end Script
end Vitrine
