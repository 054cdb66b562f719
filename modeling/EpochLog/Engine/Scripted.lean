/-
**An engine that fails by script.**

Calls named in the script are refused with the script's words before they reach the engine behind
it; the others are the engine's own. A script that names nothing leaves the engine as it is, so
every store works with a scripted engine. Listing keys cannot fail.
-/
import EpochLog.Engine

set_option autoImplicit false

namespace EpochLog

/-- The calls an engine refuses, each with its words. -/
structure EngineFaults where
  set : Option String
  get : Option String
  remove : Option String
  close : Option String
  deriving DecidableEq, Repr

/-- No call is refused. -/
def EngineFaults.none : EngineFaults := ⟨.none, .none, .none, .none⟩

/-- An engine behind a script. -/
structure ScriptedEngine where
  engine : Engine
  faults : EngineFaults

namespace ScriptedEngine

/-- An engine that refuses nothing of its own accord. -/
def plain (e : Engine) : ScriptedEngine := ⟨e, .none⟩

/-- Refuses with the script's words if there are any, and asks the engine otherwise. -/
def guarded {α : Type} (fault : Option String) (answer : Except EngineError α) :
    Except EngineError α :=
  match fault with
  | some text => .error (.other text)
  | none => answer

def set (s : ScriptedEngine) (b k : UInt64) (payload : Bytes) : Except EngineError ScriptedEngine :=
  guarded s.faults.set ((s.engine.set b k payload).map fun e => { s with engine := e })

def get (s : ScriptedEngine) (b k : UInt64) : Except EngineError Bytes :=
  guarded s.faults.get (s.engine.get b k)

def remove (s : ScriptedEngine) (b k : UInt64) : Except EngineError ScriptedEngine :=
  guarded s.faults.remove ((s.engine.remove b k).map fun e => { s with engine := e })

def keys (s : ScriptedEngine) (b : UInt64) : List UInt64 := s.engine.keys b

/-- Closes the engine, unless the script refuses. -/
def close (s : ScriptedEngine) : Except EngineError Unit := guarded s.faults.close (.ok ())

end ScriptedEngine

end EpochLog
