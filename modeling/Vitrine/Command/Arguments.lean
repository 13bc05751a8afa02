/-!
The arguments of a command, told apart from its options. An option starts with two dashes and may
carry its value behind an equals sign; a short one is a dash and a letter, and its value may follow
at once. Two dashes alone end the options.
-/
namespace Vitrine
namespace Command

/-- An option that is known. -/
structure Switch where
  /-- Its name, without dashes. -/
  name : String
  /-- The letter of its short form. -/
  letter : Option Char
  takesValue : Bool

/-- What was given: the options, each with its value, and the arguments. -/
structure Given where
  options : List (String × String)
  arguments : List String
  deriving DecidableEq, Repr

namespace Given

def empty : Given := ⟨[], []⟩

def withOptions (os : List (String × String)) (g : Given) : Given :=
  { g with options := os ++ g.options }

def withArgument (a : String) (g : Given) : Given := { g with arguments := a :: g.arguments }

/-- The value that an option was given last. -/
def value? (g : Given) (name : String) : Option String := g.options.reverse.lookup name

def has (g : Given) (name : String) : Bool := (g.value? name).isSome

end Given

/-- Options read from one argument, and the option whose value is the next argument. -/
abbrev Reading := List (String × String) × Option String

/-- Reads an option with two dashes, from what stands behind them. -/
def readLong (known : List Switch) (cs : List Char) : Option Reading :=
  let name := String.ofList (cs.takeWhile (· ≠ '='))
  match known.find? fun s => s.name = name, cs.dropWhile (· ≠ '=') with
  | none, _ => none
  | some s, '=' :: value =>
    if s.takesValue then some ([(name, String.ofList value)], none) else none
  | some s, _ => some (if s.takesValue then ([], some name) else ([(name, "")], none))

/-- Reads short options, from what stands behind the dash. -/
def readShort (known : List Switch) : List Char → Option Reading
  | [] => some ([], none)
  | c :: cs =>
    match known.find? fun s => s.letter = some c with
    | none => none
    | some s =>
      if s.takesValue then
        some (if cs.isEmpty then ([], some s.name) else ([(s.name, String.ofList cs)], none))
      else (readShort known cs).map fun r => ((s.name, "") :: r.1, r.2)

/-- Reads the options of an argument, if it is one that holds options. -/
def readSwitches? (known : List Switch) : List Char → Option (Option Reading)
  | '-' :: '-' :: cs => some (readLong known cs)
  | ['-'] => none
  | '-' :: cs => some (readShort known cs)
  | _ => none

/-- Tells options and arguments apart; `none` is a misuse. Where options are not mixed with
arguments, the first argument ends them. -/
def Given.read? (known : List Switch) (mixed : Bool) : List String → Option Given
  | [] => some .empty
  | "--" :: rest => some ⟨[], rest⟩
  | arg :: rest =>
    match readSwitches? known arg.toList with
    | none => if mixed then (Given.read? known mixed rest).map (withArgument arg)
      else some ⟨[], arg :: rest⟩
    | some none => none
    | some (some (os, none)) => (Given.read? known mixed rest).map (withOptions os)
    | some (some (os, some name)) =>
      match rest with
      | [] => none
      | value :: rest => (Given.read? known mixed rest).map (withOptions (os ++ [(name, value)]))

end Command
end Vitrine
