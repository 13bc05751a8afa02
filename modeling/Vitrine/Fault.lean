/-!
Faults: failures of an operation outside the errors that the program reports in words of its own.
A fault that is caught is shown by its label in angle brackets.
-/
namespace Vitrine

inductive Fault where
  /-- A value of the right type that an operation cannot take. -/
  | value
  /-- A number beyond the range of the result. -/
  | overflow
  /-- A value of the wrong type, or a wrong number of arguments. -/
  | type
  /-- A value that lacks an attribute. -/
  | attribute
  /-- A key that a table lacks. -/
  | key
  /-- A place outside a text or list. -/
  | index
  /-- A state that was assumed not to occur. -/
  | assertion
  /-- Bytes that are no text. -/
  | decoding
  /-- Calls nested beyond the depth that is followed. -/
  | depth
  /-- A closing tag in markup that was not opened. -/
  | markup
  /-- Any other failure while running. -/
  | runtime
  deriving DecidableEq, Repr

def Fault.label : Fault → String
  | .value => "ValueError"
  | .overflow => "OverflowError"
  | .type => "TypeError"
  | .attribute => "AttributeError"
  | .key => "KeyError"
  | .index => "IndexError"
  | .assertion => "AssertionError"
  | .decoding => "UnicodeDecodeError"
  | .depth => "RecursionError"
  | .markup => "MarkupError"
  | .runtime => "RuntimeError"

end Vitrine
