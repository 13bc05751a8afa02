import Vitrine.Command.Arguments
import Vitrine.Files.Path

/-!
What a command line asks for. Options for all commands stand in front of the command; its own
options and its arguments follow.
-/
namespace Vitrine

inductive Command where
  /-- Shows a component by its dev server. -/
  | run (target : String) (entryDirectory : Option Path) (devCommand : Option String)
  /-- Prints the code for the entry file. -/
  | render (target : String) (entryDirectory : Option Path)
  /-- Makes a state directory. -/
  | init (directory : Option String)
  | register (file : Path)
  | unregister (id : String)
  /-- Lists the registered preview files. -/
  | list
  /-- Puts entry files back that were left behind. -/
  | recover
  deriving DecidableEq, Repr

namespace Command

/-- What is done, apart from help and misuse. -/
inductive Outcome (α : Type) where
  | misused
  | help
  | asked (a : α)
  deriving DecidableEq, Repr

def helpSwitch : Switch := ⟨"help", none, false⟩

/-- The command of a name with its options and arguments. -/
def build : String → Given → Option Command
  | "run", g =>
    match g.arguments with
    | [target] => some (.run target none (g.value? "command"))
    | [target, directory] => some (.run target (some (Path.ofText directory)) (g.value? "command"))
    | _ => none
  | "render", g =>
    match g.arguments with
    | [target] => some (.render target none)
    | [target, directory] => some (.render target (some (Path.ofText directory)))
    | _ => none
  | "init", g =>
    match g.arguments with
    | [] => some (.init none)
    | [directory] => some (.init (some directory))
    | _ => none
  | "register", g =>
    match g.arguments with
    | [file] => some (.register (Path.ofText file))
    | _ => none
  | "unregister", g =>
    match g.arguments with
    | [id] => some (.unregister id)
    | _ => none
  | "list", g => if g.arguments.isEmpty then some .list else none
  | "recover", g => if g.arguments.isEmpty then some .recover else none
  | _, _ => none

/-- The names of the commands. -/
def names : List String := ["run", "render", "init", "register", "unregister", "list", "recover"]

/-- The options of a command. -/
def switches (name : String) : List Switch :=
  if name = "run" then [⟨"command", some 'c', true⟩, helpSwitch] else [helpSwitch]

/-- Reads what follows the name of a command. -/
def ofArguments (name : String) (arguments : List String) : Outcome Command :=
  match Given.read? (switches name) true arguments with
  | none => .misused
  | some g =>
    if g.has "help" then .help
    else
      match build name g with
      | some c => .asked c
      | none => .misused

/-- A command line that is read up to the command. -/
inductive Line where
  | version
  /-- The state directory, and what is asked for. -/
  | command (stateDirectory : Option Path) (c : Outcome Command)
  deriving DecidableEq, Repr

namespace Line

/-- The options in front of the command. -/
def switches : List Switch :=
  [⟨"version", none, false⟩, ⟨"verbose", none, false⟩, ⟨"state-dir", none, true⟩, helpSwitch]

/-- Reads a command line. The version and help win over the rest, the first of them that is
given. -/
def read (arguments : List String) : Outcome Line :=
  match Given.read? switches false arguments with
  | none => .misused
  | some g =>
    match g.options.find? fun o => o.1 = "version" || o.1 = "help" with
    | some ("version", _) => .asked .version
    | some _ => .help
    | none =>
      match g.arguments with
      | [] => .misused
      | name :: arguments =>
        if names.contains name then
          .asked (.command ((g.value? "state-dir").map Path.ofText) (ofArguments name arguments))
        else .misused

end Line
end Command
end Vitrine
