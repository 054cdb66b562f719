/-
**The command line**: recover the messages of a directory and apply them, once.

Arguments are read from left to right. An option takes its value from behind an equals sign or from
the argument after it, unless that looks like an option itself; the value is checked when the next
argument begins, so that of two faults the earlier one counts, and a request for help counts if no
fault stands before it. What the arguments leave open the environment decides.

`Request.run` is the whole program on a disk: open the store, recover, apply, close.
-/
import EpochLog.Recovery

set_option autoImplicit false

namespace EpochLog.CommandLine

/-! ## Arguments -/

/-- The options that take a value. -/
inductive Setting where
  | dir
  | size
  | epochMillis
  | blockId
  | logLevel
  deriving DecidableEq, Repr

/-- The options that take none. -/
inductive Switch where
  | reset
  | noFsync
  deriving DecidableEq, Repr

/-- What the arguments say. -/
structure Arguments where
  dir : Option Path
  size : Option Nat
  epochMillis : Option Nat
  blockId : Option Nat
  logLevel : Option String
  reset : Bool
  noFsync : Bool
  deriving DecidableEq, Repr

def Arguments.none : Arguments := ⟨.none, .none, .none, .none, .none, false, false⟩

/-- What an option is called. -/
inductive Name where
  | setting (s : Setting)
  | switch (s : Switch)
  | help
  deriving DecidableEq, Repr

/-- The option of a name. -/
def Name.ofString? : String → Option Name
  | "dir" => some (.setting .dir)
  | "size" => some (.setting .size)
  | "epoch-ms" => some (.setting .epochMillis)
  | "block-id" => some (.setting .blockId)
  | "log-level" => some (.setting .logLevel)
  | "reset" => some (.switch .reset)
  | "no-fsync" => some (.switch .noFsync)
  | "help" => some .help
  | _ => none

inductive Argument where
  -- No option.
  | value (text : String)
  -- An option by its name, and what stands behind an equals sign.
  | named (name : String) (value : Option String)
  -- Options by their first letters.
  | letters (first : Char)
  -- The end of the options.
  | endOfOptions
  deriving DecidableEq, Repr

/-- What an argument is. A hyphen alone is no option. -/
def Argument.ofString (text : String) : Argument :=
  match text.toList with
  | '-' :: '-' :: [] => .endOfOptions
  | '-' :: '-' :: rest =>
    let name := rest.takeWhile (· ≠ '=')
    let behind := rest.drop name.length
    let value := if behind.isEmpty then none else some (String.ofList (behind.drop 1))
    .named (String.ofList name) value
  -- Only the first letter matters, as only one option has a letter.
  | '-' :: first :: _ => .letters first
  | _ => .value text

namespace Arguments

/-- Settles an option with its value; none if it was settled before, or the value is no good. -/
def settle (a : Arguments) (s : Setting) (value : String) : Option Arguments :=
  match s with
  | .dir =>
    if a.dir.isSome || value.isEmpty then .none else some { a with dir := some value }
  | .size =>
    if a.size.isSome then .none else (parseWord? value).map fun n => { a with size := some n }
  | .epochMillis =>
    if a.epochMillis.isSome then .none
    else (parseWord? value).map fun n => { a with epochMillis := some n }
  | .blockId =>
    if a.blockId.isSome then .none else (parseWord? value).map fun n => { a with blockId := some n }
  | .logLevel => if a.logLevel.isSome then .none else some { a with logLevel := some value }

/-- Turns a switch on; none if it is on already. -/
def turnOn (a : Arguments) (s : Switch) : Option Arguments :=
  match s with
  | .reset => if a.reset then .none else some { a with reset := true }
  | .noFsync => if a.noFsync then .none else some { a with noFsync := true }

end Arguments

inductive Reading where
  | help
  | refused
  | arguments (a : Arguments)
  deriving DecidableEq, Repr

/-- The arguments read so far, and the option whose value is not checked yet. -/
structure Reader where
  arguments : Arguments
  unchecked : Option (Setting × Option String)

namespace Reader

/-- Checks the value that is not checked yet; none if it is missing or no good. -/
def check (r : Reader) : Option Arguments :=
  match r.unchecked with
  | none => some r.arguments
  | some (_, none) => none
  | some (s, some value) => r.arguments.settle s value

/-- Reads the option of a name. -/
def named (r : Reader) (name : Name) (value : Option String) : Option (Sum Reader Reading) :=
  match name, value with
  | .setting s, value => r.check.map fun a => .inl ⟨a, some (s, value)⟩
  | .switch s, none => (r.check.bind (·.turnOn s)).map fun a => .inl ⟨a, none⟩
  | .help, none => r.check.map fun _ => .inr .help
  | _, some _ => none

def read (r : Reader) : List String → Reading
  | [] => r.check.elim .refused .arguments
  | text :: rest =>
    match Argument.ofString text, r.unchecked with
    -- The value of the option before it, whose check waits until the next argument.
    | .value v, some (s, none) => read ⟨r.arguments, some (s, some v)⟩ rest
    | .value _, _ => .refused
    | .endOfOptions, _ => if rest.isEmpty then r.check.elim .refused .arguments else .refused
    | .letters first, _ => if first = 'h' then r.check.elim .refused fun _ => .help else .refused
    | .named text value, _ =>
      match (Name.ofString? text).bind (r.named · value) with
      | none => .refused
      | some (.inl r) => read r rest
      | some (.inr reading) => reading

end Reader

/-! ## Requests -/

structure Request where
  config : Config
  blockId : UInt64
  reset : Bool
  deriving DecidableEq, Repr

inductive Command where
  | help
  | refused
  | run (request : Request)
  deriving DecidableEq, Repr

namespace Command

/-- The configuration: that of the environment, overridden by the arguments. -/
def config (a : Arguments) (env : Environment) : Config :=
  let base := Config.ofEnvironment env
  { dir := a.dir.getD base.dir
    size := a.size.getD base.size
    epochWindow := (a.epochMillis.map .ofMillis).getD base.epochWindow
    fsync := base.fsync && !a.noFsync }

/-- The block messages are applied under: that of the arguments, else that of the environment if it
is a number, else the first. -/
def blockId? (a : Arguments) (env : Environment) : Option Nat :=
  match a.blockId, env "UNITDB_BLOCK_ID" with
  | some n, _ => some n
  | none, none => some 0
  | none, some _ => env.word? "UNITDB_BLOCK_ID"

/-- Whether a level of logging is known: that of the environment has to be text. -/
def hasLogLevel (a : Arguments) (env : Environment) : Bool :=
  a.logLevel.isSome || (env "UNITDB_LOG_LEVEL").isNone || (env.text? "UNITDB_LOG_LEVEL").isSome

/-- The command that arguments give in an environment. -/
def ofArguments (args : List String) (env : Environment) : Command :=
  match Reader.read ⟨.none, none⟩ args with
  | .help => .help
  | .refused => .refused
  | .arguments a =>
    match blockId? a env with
    | none => .refused
    | some block =>
      if hasLogLevel a env then .run ⟨config a env, .ofNat block, a.reset⟩ else .refused

end Command

/-! ## The program -/

namespace Request

/-- Recovers from the log of an open store, and applies what it holds. -/
def recoverAndApply (r : Request) (h : Host) : Host × Except StoreError Unit :=
  match h.recover r.reset with
  | (h, .error e) => (h, .error e)
  | (h, .ok pending) => h.applyPending r.blockId pending

/-- The whole program: the disk it leaves, and how it went. The store is closed in any case, and an
error at closing comes first. -/
def run (r : Request) (disk : Disk) (now : Instant) : Disk × Except StoreError Unit :=
  match (Host.start disk now).openStore r.config with
  | (h, .error e) => (h.logs.disk, .error e)
  | (h, .ok ()) =>
    let (h, reply) := r.recoverAndApply h
    let (h, closing) := h.close
    (h.logs.disk, closing.bind fun _ => reply)

end Request

end EpochLog.CommandLine
