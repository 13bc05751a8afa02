/-!
Tokens of documents. The beginnings and ends of blocks, which a document shows by its indentation,
are tokens too.
-/
namespace Vitrine
namespace Yaml

inductive Directive where
  | version (major : Nat)
  | tag (handle lead : String)
  | other
  deriving DecidableEq, Repr

inductive Token where
  | directive (d : Directive)
  | documentStart
  | documentEnd
  | blockSequenceStart
  | blockMappingStart
  | blockEnd
  | flowSequenceStart
  | flowSequenceEnd
  | flowMappingStart
  | flowMappingEnd
  | blockEntry
  | flowEntry
  | key
  | value
  | alias (name : String)
  | anchor (name : String)
  | tag (handle : Option String) (suffix : String)
  | scalar (text : String) (plain : Bool)
  deriving DecidableEq, Repr

end Yaml
end Vitrine
