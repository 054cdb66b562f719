/-
**The engine**: keyed payloads in numbered blocks, under a budget of bytes.

The budget counts payloads only. `used` is kept as a running total, so that a set is one comparison:
what is stored, less what it replaces, plus what it brings. A block without keys is not kept. Once
an engine is closed it refuses every call, and has nothing to list.
-/
import EpochLog.Bytes
import Std.Data.TreeMap

set_option autoImplicit false

namespace EpochLog

/-- Why an engine refuses a call. -/
inductive EngineError where
  | notFound (block key : UInt64)
  | capacityExceeded (capacity : Nat)
  | closed
  -- Any other reason, in its own words.
  | other (text : String)
  deriving DecidableEq, Repr

def EngineError.message : EngineError → String
  | .notFound b k => s!"key {k} not found in block {b}"
  | .capacityExceeded n => s!"capacity of {n} bytes exceeded"
  | .closed => "engine is closed"
  | .other text => text

/-- The payloads of one block, by key. -/
abbrev Block := Std.TreeMap UInt64 Bytes

/-- Payloads by block and key, and what they take of the budget. -/
structure Engine where
  capacity : Nat
  blocks : Std.TreeMap UInt64 Block
  used : Nat
  isOpen : Bool

namespace Engine

def ofCapacity (capacity : Nat) : Engine := ⟨capacity, ∅, 0, true⟩

/-- The block of a number; it is empty when nothing is stored under it. -/
def block (e : Engine) (b : UInt64) : Block := e.blocks[b]?.getD ∅

def find? (e : Engine) (b k : UInt64) : Option Bytes := (e.block b)[k]?

/-- The bytes in use once `payload` has replaced what is stored under a block and a key. -/
def usedAfter (e : Engine) (b k : UInt64) (payload : Bytes) : Nat :=
  e.used - ((e.find? b k).getD []).length + payload.length

def set (e : Engine) (b k : UInt64) (payload : Bytes) : Except EngineError Engine :=
  if !e.isOpen then .error .closed
  else if e.capacity < e.usedAfter b k payload then .error (.capacityExceeded e.capacity)
  else .ok { e with
    blocks := e.blocks.insert b ((e.block b).insert k payload)
    used := e.usedAfter b k payload }

def get (e : Engine) (b k : UInt64) : Except EngineError Bytes :=
  if !e.isOpen then .error .closed
  else
    match e.find? b k with
    | none => .error (.notFound b k)
    | some payload => .ok payload

def remove (e : Engine) (b k : UInt64) : Except EngineError Engine :=
  if !e.isOpen then .error .closed
  else
    match e.find? b k with
    | none => .error (.notFound b k)
    | some payload =>
      let left := (e.block b).erase k
      .ok { e with
        blocks := if left.isEmpty then e.blocks.erase b else e.blocks.insert b left
        used := e.used - payload.length }

def keys (e : Engine) (b : UInt64) : List UInt64 := if e.isOpen then (e.block b).keys else []

/-- Gives everything up. -/
def close (e : Engine) : Engine := ⟨e.capacity, ∅, 0, false⟩

end Engine

end EpochLog
