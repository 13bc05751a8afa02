/-!
What a file system holds: files, directories and symbolic links.
-/
namespace Vitrine

/-- Where something lies: the names that lead there from the root. -/
abbrev Place := List String

/-- When something was last changed: a count of changes, or a time that was set by hand. -/
inductive Stamp where
  | counted (n : Nat)
  | set (nanoseconds : Int)
  deriving DecidableEq, Repr

inductive Node where
  | file (content : List UInt8) (mode : Nat) (changed : Stamp)
  | directory (mode : Nat) (changed : Stamp)
  | link (target : String)
  deriving DecidableEq, Repr

namespace Node

def isFile : Node → Bool
  | file .. => true
  | _ => false

def isDirectory : Node → Bool
  | directory .. => true
  | _ => false

/-- The permissions of a new file and of a new directory. -/
def fileMode : Nat := 0o644

def directoryMode : Nat := 0o755

/-- The permission bits of a mode. -/
def permissions (mode : Int) : Nat := (mode % 0o10000).toNat

/-- The permissions of a node; links have all of them. -/
def mode : Node → Nat
  | file _ mode _ => mode
  | directory mode _ => mode
  | link _ => 0o777

/-- The node with other permissions. -/
def withMode (mode : Nat) : Node → Node
  | file content _ changed => file content mode changed
  | directory _ changed => directory mode changed
  | link target => link target

/-- The node, changed at another time. -/
def withStamp (changed : Stamp) : Node → Node
  | file content mode _ => file content mode changed
  | directory mode _ => directory mode changed
  | link target => link target

/-- When the node was changed and how long it is. -/
def measure : Node → Stamp × Nat
  | file content _ changed => (changed, content.length)
  | directory _ changed => (changed, 0)
  | link target => (.counted 0, target.length)

end Node
end Vitrine
