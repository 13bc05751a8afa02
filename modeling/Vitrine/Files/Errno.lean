/-!
The errors that the file system and the starting of a process end in, by their usual names.
-/
namespace Vitrine

inductive Errno where
  | noEntry
  | alreadyExists
  | isDirectory
  | notDirectory
  | noSpace
  | accessDenied
  | nameTooLong
  | linkLoop
  | notEmpty
  | other (name : String)
  deriving DecidableEq, Repr

namespace Errno

def name : Errno → String
  | noEntry => "ENOENT"
  | alreadyExists => "EEXIST"
  | isDirectory => "EISDIR"
  | notDirectory => "ENOTDIR"
  | noSpace => "ENOSPC"
  | accessDenied => "EACCES"
  | nameTooLong => "ENAMETOOLONG"
  | linkLoop => "ELOOP"
  | notEmpty => "ENOTEMPTY"
  | other name => name

/-- The name between angle brackets, as messages show it. -/
def shown (e : Errno) : String := "<" ++ e.name ++ ">"

end Errno
end Vitrine
