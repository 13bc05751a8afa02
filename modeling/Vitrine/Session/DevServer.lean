import Vitrine.Files.Path

/-!
The dev server of a session, as a process: what was asked of it and how far it has come.
-/
namespace Vitrine

/-- A time or a span of time, in milliseconds. -/
abbrev Milliseconds := Nat

/-- What a session asks of its dev server. -/
inductive Request where
  /-- To wait for its end, for so long at most. -/
  | wait (limit : Option Milliseconds)
  | terminate
  | kill
  deriving DecidableEq, Repr

/-- What waiting for the end comes to. -/
inductive Waited where
  | ended (code : Int)
  | timedOut
  deriving DecidableEq, Repr

structure DevServer where
  /-- The command that it was started by, and the directory where. -/
  command : Option (List String × Path)
  requests : List Request
  /-- How many times its end was waited for. -/
  waits : Nat
  terminated : Bool
  killed : Bool
  /-- The number of waits that it will outlast. -/
  timeouts : Nat
  /-- The code that it ended with. -/
  ended : Option Int
  clock : Milliseconds

namespace DevServer

/-- A dev server that was not started. -/
def fresh (timeouts : Nat) : DevServer :=
  { command := none, requests := [], waits := 0, terminated := false, killed := false, timeouts,
    ended := none, clock := 0 }

def request (s : DevServer) (r : Request) : DevServer := { s with requests := s.requests ++ [r] }

/-- The exit codes of a process that was killed and of one that was terminated. -/
def killedCode : Int := -9

def terminatedCode : Int := -15

def finish (s : DevServer) (code : Int) : Waited × DevServer :=
  (.ended code, { s with ended := some code })

/-- How a wait ends that is under way. -/
def settleWait (s : DevServer) (ignoresTermination : Bool) (exitCode : Int)
    (limit : Option Milliseconds) : Waited × DevServer :=
  if s.killed then s.finish killedCode
  else if s.terminated && !ignoresTermination then s.finish terminatedCode
  else if s.terminated || 0 < s.timeouts then
    (.timedOut, { s with timeouts := s.timeouts - 1, clock := s.clock + limit.getD 0 })
  else s.finish exitCode

end DevServer
end Vitrine
