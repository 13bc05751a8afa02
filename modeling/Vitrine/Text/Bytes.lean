import Vitrine.Text.Blank

/-!
Texts as bytes in files. A file is read with its line ends unified.
-/
namespace Vitrine
namespace Text

/-- The bytes of a text. -/
def toBytes (s : String) : List UInt8 := s.toUTF8.toList

/-- The text that bytes encode. -/
def ofBytes? (bytes : List UInt8) : Option String := String.fromUTF8? ⟨bytes.toArray⟩

/-- The text of a file, all line ends being line feeds. -/
def ofFile? (bytes : List UInt8) : Option String :=
  (ofBytes? bytes).map fun s => String.ofList (unifyLines s.toList)

end Text
end Vitrine
