import Vitrine.Files.Node

/-!
A store: the nodes of a file system by their places, and the changes that are made to it one after
the other. The root is always there.
-/
namespace Vitrine

structure Store where
  nodes : List (Place × Node)
  /-- The number of changes so far, which is the time of the next one. -/
  clock : Nat
  deriving Repr

namespace Store

def empty : Store := ⟨[], 0⟩

def root : Node := .directory Node.directoryMode (.counted 0)

def get? (s : Store) (place : Place) : Option Node :=
  if place = [] then some root else s.nodes.lookup place

/-- The list with the entry of a place set. -/
def setEntry (place : Place) (n : Node) : List (Place × Node) → List (Place × Node)
  | [] => [(place, n)]
  | e :: es => if e.1 = place then (place, n) :: es else e :: setEntry place n es

def put (s : Store) (place : Place) (n : Node) : Store :=
  { s with nodes := setEntry place n s.nodes }

def erase (s : Store) (place : Place) : Store :=
  { s with nodes := s.nodes.filter fun e => e.1 ≠ place }

/-- The store without a place and all that lies below it. -/
def eraseTree (s : Store) (place : Place) : Store :=
  { s with nodes := s.nodes.filter fun e => !place.isPrefixOf e.1 }

/-- The name of a place that lies directly in a directory. -/
def nameIn? (directory place : Place) : Option String :=
  if place.dropLast = directory then place.getLast? else none

/-- The names in a directory, in their order. -/
def names (s : Store) (directory : Place) : List String :=
  (s.nodes.filterMap fun e => nameIn? directory e.1).mergeSort fun a b => !(b < a)

/-- The store with a node changed, if there is one; the root stays as it is. -/
def update (s : Store) (place : Place) (f : Node → Node) : Store :=
  match s.nodes.lookup place with
  | some n => s.put place (f n)
  | none => s

end Store

/-- One change, made as a whole or not at all. -/
inductive Change where
  /-- A file gets a content, and permissions. -/
  | write (place : Place) (content : List UInt8) (mode : Nat)
  | makeDirectory (place : Place)
  | link (place : Place) (target : String)
  | setMode (place : Place) (mode : Nat)
  | setStamp (place : Place) (changed : Stamp)
  | remove (place : Place)
  | removeTree (place : Place)
  deriving DecidableEq, Repr

namespace Change

/-- Whether a change adds a name to a directory or takes one away. -/
def changesNames (s : Store) : Change → Bool
  | write place .. => (s.get? place).isNone
  | makeDirectory _ | link .. | remove _ | removeTree _ => true
  | setMode .. | setStamp .. => false

def place : Change → Place
  | write p .. | makeDirectory p | link p _ | setMode p _ | setStamp p _ | remove p
  | removeTree p => p

/-- What becomes of the nodes. -/
def onNodes (s : Store) : Change → Store
  | write p content mode => s.put p (.file content mode (.counted s.clock))
  | makeDirectory p => s.put p (.directory Node.directoryMode (.counted s.clock))
  | link p target => s.put p (.link target)
  | setMode p mode => s.update p (Node.withMode mode)
  | setStamp p changed => s.update p (Node.withStamp changed)
  | remove p => s.erase p
  | removeTree p => s.eraseTree p

/-- The store after a change. A directory whose names change is changed with them. -/
def apply (s : Store) (c : Change) : Store :=
  let t := c.onNodes s
  let t := if c.changesNames s then
      t.update c.place.dropLast (Node.withStamp (.counted s.clock))
    else t
  { t with clock := s.clock + 1 }

end Change

/-- The store after changes, one after the other. -/
def Store.replay (s : Store) (changes : List Change) : Store :=
  changes.foldl (fun s c => c.apply s) s

end Vitrine
