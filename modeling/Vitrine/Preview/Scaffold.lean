import Vitrine.Host
import Vitrine.Yaml.Written

/-!
New preview files: they name a component and leave everything else as it is by default.
-/
namespace Vitrine
namespace Preview

/-- The document of a preview file for a component. -/
def scaffoldText (source : String) : String :=
  Yaml.textEntry "source" source ++ "props: \x7b\x7d\n"

def scaffold (file : Path) (source : String) : Work Path := do
  Work.writeText file (scaffoldText source)
  return file

end Preview
end Vitrine
