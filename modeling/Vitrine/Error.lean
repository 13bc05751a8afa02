import Vitrine.Files.Errno
import Vitrine.Preview.Issue
import Vitrine.Preview.Location
import Vitrine.Script.Parser

/-!
Why an operation fails, and what is said about it.
-/
namespace Vitrine

/-- What is wrong with a preview file or with the props in it. -/
inductive ConfigProblem where
  | unknownKind (shown : String)
  | notMapping
  | notSequence
  | unsupported (typeName : String)
  | notSourceText
  | notFunction (source : String)
  | invalidSpec (issues : List Preview.Issue)
  | invalidBody (e : Script.ParseError)
  | invalidReturn (source : String) (e : Script.ParseError)
  | propsNotMapping
  | unreadable (file : Path) (e : Errno)
  | invalidDocument
  | documentNotMapping
  | invalidFields (issues : List Preview.Issue)
  | noIdentifier (fileName : String)
  | invalidId (id : String)

def ConfigProblem.message : ConfigProblem → String
  | .unknownKind shown => "unrecognized value kind: " ++ shown
  | .notMapping => "object value must be a mapping"
  | .notSequence => "array value must be a sequence"
  | .unsupported typeName => "unsupported value of type " ++ typeName
  | .notSourceText => "function value must be source text"
  | .notFunction source => "not a function expression: " ++ Text.quote source
  | .invalidSpec issues => "invalid function spec: " ++ Preview.Issue.listText issues
  | .invalidBody e => "invalid body statements: " ++ e.message
  | .invalidReturn source e =>
    "invalid return expression " ++ Text.quote source ++ ": " ++ e.message
  | .propsNotMapping => "props must be a mapping"
  | .unreadable file e => "Cannot read preview file " ++ file.text ++ ": " ++ e.shown
  | .invalidDocument => "invalid YAML"
  | .documentNotMapping => "preview file must contain a mapping"
  | .invalidFields issues => Preview.Issue.listText issues
  | .noIdentifier fileName => "cannot derive a valid identifier from " ++ Text.quote fileName
  | .invalidId id => "Invalid preview id: " ++ Text.quote id

/-- What cannot be found. -/
inductive Missing where
  | previewFile (file : Path)
  | componentFile (file : Path)
  | directory (path : Path)
  | registration (id : String)
  | target (name : String)
  | registeredFile (id : String) (file : Path)
  | component (place : Path)

def Missing.message : Missing → String
  | .previewFile file => "Preview file does not exist: " ++ file.text
  | .componentFile file => "Component file does not exist: " ++ file.text
  | .directory path => "Directory " ++ path.text ++ " does not exist."
  | .registration id => "Could not find path associated with id " ++ id
  | .target name => "Cannot find directory, file, or registered id named " ++ name
  | .registeredFile id file =>
    "Preview file registered as " ++ id ++ " no longer exists: " ++ file.text
  | .component place =>
    "Cannot find a preview file or a component file in " ++ place.text

/-- Why the entry file cannot be kept safe. -/
inductive BackupProblem where
  | capture (entry : Path) (e : Errno)
  | marker (file : Path) (e : Errno)
  | write (entry : Path) (e : Errno)
  | recovery (entry : Path) (e : Errno)
  /-- The entry file could not be put back, neither from memory nor from its copy. -/
  | restore (entry copy : Path)

def BackupProblem.message : BackupProblem → String
  | .capture entry e => "Cannot back up " ++ entry.text ++ ": " ++ e.shown
  | .marker file e => "Cannot write marker " ++ file.text ++ ": " ++ e.shown
  | .write entry e => "Could not write " ++ entry.text ++ ": " ++ e.shown
  | .recovery entry e => "Could not restore " ++ entry.text ++ ": " ++ e.shown
  | .restore entry copy =>
    "Could not restore " ++ entry.text ++ "; original content is kept in " ++ copy.text

inductive StateProblem where
  | targetExists (target : Path)
  | creation (directory : Path) (e : Errno)

def StateProblem.message : StateProblem → String
  | .targetExists target => "Preview environment target already exists: " ++ target.text
  | .creation directory e =>
    "Cannot create state directory " ++ directory.text ++ ": " ++ e.shown

inductive Error where
  | config (problem : ConfigProblem) (location : Preview.Location)
  | notFound (what : Missing)
  /-- Another session owns the entry file. -/
  | conflict (entry : Path)
  | backup (problem : BackupProblem)
  | state (problem : StateProblem)
  /-- The dev server could not be started. -/
  | spawn (command : List String) (e : Errno)
  /-- The dev server ended with a code other than zero. -/
  | exited (code : Int)
  | interrupted (signal : Nat)
  /-- A question was answered with no. -/
  | declined
  /-- The parts of a preview do not make a descriptor. -/
  | invalidDescriptor (issues : List Preview.Issue)
  | system (e : Errno)
  | fault (f : Fault)

namespace Error

/-- What is said about an error; faults and errors of the system have no words of their own. -/
def message : Error → String
  | config problem location => location.lead problem.message
  | notFound what => what.message
  | conflict entry => "Another preview session is already running for " ++ entry.text
  | backup problem => problem.message
  | state problem => problem.message
  | spawn command e =>
    "Could not start dev server (" ++ joinWith " " command ++ "): " ++ e.shown
  | exited code => "Dev server exited with code " ++ Decimal.intText code
  | interrupted signal => "Interrupted by signal " ++ Decimal.intText signal
  | declined => "Process ended: no preview file"
  | invalidDescriptor issues => Preview.Issue.listText issues
  | system e => e.shown
  | fault f => "<" ++ f.label ++ ">"

/-- How an error is shown in a log. -/
def logged : Error → String
  | invalidDescriptor _ => "<ValidationError>"
  | e => e.message

/-- The exit code that an error asks for. A dev server that a signal ended is reported as shells
do. -/
def exitCode? : Error → Option Int
  | exited code => some (if code < 0 then 128 - code else code)
  | interrupted signal => some (128 + signal)
  | _ => none

end Error

/-- A result of an operation that may fail. -/
abbrev Result (α : Type) := Except Error α

def Result.ofFault {α : Type} : Except Fault α → Result α
  | .ok a => .ok a
  | .error f => .error (.fault f)

end Vitrine
