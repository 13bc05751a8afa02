import Vitrine.Files.Errno
import Vitrine.Files.Path
import Vitrine.Files.Store

/-!
Following a path through a store, name by name. Links on the way are followed, and the last name as
well if that is wanted.
-/
namespace Vitrine

/-- Where a path leads: to a node, or to a name that is free in a directory. -/
inductive Reached where
  | there (place : Place) (n : Node)
  | free (place : Place)

namespace Store

/-- The bytes that a name and that a path may have at most. -/
def nameLimit : Nat := 255

def pathLimit : Nat := 4095

/-- The links that one path may lead over. -/
def linkLimit : Nat := 40

/-- Follows names from a directory on, over at most so many links. -/
def walk (s : Store) (follow : Bool) (links : Nat) (here : Place) :
    List String → Except Errno Reached
  | [] => .ok (.there here ((s.get? here).getD root))
  | name :: rest =>
    if name = ".." then walk s follow links here.dropLast rest
    else if nameLimit < name.utf8ByteSize then .error .nameTooLong
    else
      let place := here ++ [name]
      match s.get? place with
      | none => if rest.isEmpty then .ok (.free place) else .error .noEntry
      | some (.link target) =>
        if rest.isEmpty && !follow then .ok (.there place (.link target))
        else
          match links with
          | 0 => .error .linkLoop
          | links + 1 =>
            let path := Path.ofText target
            walk s follow links (if path.isAbsolute then [] else here) (path.parts ++ rest)
      | some (.directory mode changed) =>
        if rest.isEmpty then .ok (.there place (.directory mode changed))
        else walk s follow links place rest
      | some (.file content mode changed) =>
        if rest.isEmpty then .ok (.there place (.file content mode changed))
        else .error .notDirectory
termination_by names => (links, names.length)

/-- Where an absolute path leads. -/
def reach (s : Store) (follow : Bool) (path : Path) : Except Errno Reached :=
  if pathLimit < path.text.utf8ByteSize then .error .nameTooLong
  else s.walk follow linkLimit [] path.parts

/-! ## Real paths -/

/-- What is left of a path: a name, or the end of the target of a link. -/
inductive Leg where
  | name (s : String)
  | endOf (link : Place)

def Leg.name? : Leg → Option String
  | .name s => some s
  | .endOf _ => none

/-- A place with names behind it, double dots leading back. -/
def normalize (place : Place) : List String → Place
  | [] => place
  | name :: names => normalize (if name = ".." then place.dropLast else place ++ [name]) names

/-- The place that names lead to, whether anything is there or not. `ended` knows where links lead
that have been followed to their ends, and `open_` holds the links whose targets are being followed;
a link that leads to itself is taken as it stands. -/
def trace (s : Store) (links : Nat) (ended : List (Place × Place)) (open_ : List Place)
    (here : Place) : List Leg → Place
  | [] => here
  | .endOf link :: rest => trace s links ((link, here) :: ended) open_ here rest
  | .name name :: rest =>
    if name = ".." then trace s links ended open_ here.dropLast rest
    else
      let place := here ++ [name]
      match s.get? place with
      | some (.link target) =>
        match ended.lookup place with
        | some goal => trace s links ended open_ goal rest
        | none =>
          match links, open_.contains place with
          | links + 1, false =>
            let path := Path.ofText target
            trace s links ended (place :: open_) (if path.isAbsolute then [] else here)
              (path.parts.map .name ++ .endOf place :: rest)
          | _, _ => normalize place (rest.filterMap Leg.name?)
      | _ => trace s links ended open_ place rest
termination_by legs => (links, legs.length)

/-- The path of a place. -/
def pathOf (place : Place) : Path := ⟨.absolute, place⟩

/-- The real path behind an absolute path, over no links. -/
def realPath (s : Store) (path : Path) : Path :=
  pathOf (s.trace s.nodes.length [] [] [] (path.parts.map .name))

end Store
end Vitrine
