import Vitrine.Text.Quoted
import Vitrine.Value.Display

/-!
What is wrong with the fields of a document. A check goes on behind a faulty field, so that a
document is answered with all its issues, in the order of its fields.
-/
namespace Vitrine
namespace Preview

inductive Complaint where
  | required
  | text
  | encoding
  | list
  | mapping
  | boolean
  | booleanWord
  | integer
  | integerText
  | number
  | numberText
  | choice (options : List String)
  | importStyle (given : String)
  | parameterName (given : String)
  | throwAndReturn
  | specification
  | unwritable

/-- Words between quotes, the last one behind `or`. -/
def alternatives : List String → String
  | [] => ""
  | [s] => "'" ++ s ++ "'"
  | [s, t] => "'" ++ s ++ "' or '" ++ t ++ "'"
  | s :: ss => "'" ++ s ++ "', " ++ alternatives ss

def Complaint.message : Complaint → String
  | .required => "Field required"
  | .text => "Input should be a valid string"
  | .encoding => "Input should be a valid string, unable to parse raw data as a unicode string"
  | .list => "Input should be a valid list"
  | .mapping => "Input should be a valid dictionary"
  | .boolean => "Input should be a valid boolean"
  | .booleanWord => "Input should be a valid boolean, unable to interpret input"
  | .integer => "Input should be a valid integer"
  | .integerText => "Input should be a valid integer, unable to parse string as an integer"
  | .number => "Input should be a valid number"
  | .numberText => "Input should be a valid number, unable to parse string as a number"
  | .choice options => "Input should be " ++ alternatives options
  | .importStyle given => "Value error, " ++ Text.quote given ++ " is not a valid ImportStyle"
  | .parameterName given => "Value error, invalid parameter name: " ++ Text.quote given
  | .throwAndReturn => "Value error, throwsMessage and returnExpressions are mutually exclusive"
  | .specification => "Input should be a valid dictionary or instance of FunctionSpec"
  | .unwritable => "Value error, " ++ unwritableMessage

/-- A complaint and the place that it is about. -/
structure Issue where
  place : List String
  complaint : Complaint

def Issue.text (i : Issue) : String :=
  (if i.place.isEmpty then "<root>" else joinWith "." i.place) ++ ": " ++ i.complaint.message

/-- All issues of a document. -/
def Issue.listText (issues : List Issue) : String := joinWith "; " (issues.map Issue.text)

/-- The issue with its place inside a field. -/
def Issue.within (field : String) (i : Issue) : Issue := { i with place := field :: i.place }

/-- What was read from a document, or all that is wrong with it. -/
inductive Checked (α : Type) where
  | valid (a : α)
  | invalid (issues : List Issue)

namespace Checked

variable {α β : Type}

def map (f : α → β) : Checked α → Checked β
  | valid a => valid (f a)
  | invalid issues => invalid issues

/-- Joins two checks; the issues of the first come first. -/
def ap (f : Checked (α → β)) (a : Checked α) : Checked β :=
  match f, a with
  | valid f, valid a => valid (f a)
  | valid _, invalid issues => invalid issues
  | invalid issues, valid _ => invalid issues
  | invalid first, invalid second => invalid (first ++ second)

instance : Applicative Checked where
  pure := valid
  map f a := map f a
  seq f a := ap f (a ())

def fail (c : Complaint) : Checked α := invalid [⟨[], c⟩]

/-- A further check on what was read. -/
def andThen (a : Checked α) (f : α → Checked β) : Checked β :=
  match a with
  | valid a => f a
  | invalid issues => invalid issues

/-- The check of a field: its issues lie inside the field. -/
def within (field : String) : Checked α → Checked α
  | valid a => valid a
  | invalid issues => invalid (issues.map (Issue.within field))

def ofExcept : Except Complaint α → Checked α
  | .ok a => valid a
  | .error c => fail c

/-- The results of several checks. -/
def all : List (Checked α) → Checked (List α)
  | [] => valid []
  | c :: cs => List.cons <$> c <*> all cs

end Checked

end Preview
end Vitrine
