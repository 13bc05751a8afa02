/-!
Log entries.
-/
namespace Vitrine

inductive Level where
  | info | warning | error
  deriving DecidableEq, Repr

def Level.name : Level → String
  | .info => "INFO"
  | .warning => "WARNING"
  | .error => "ERROR"

structure LogEntry where
  level : Level
  text : String
  deriving DecidableEq, Repr

end Vitrine
