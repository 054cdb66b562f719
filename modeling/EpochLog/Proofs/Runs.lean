/-
**Runs**: whatever can be done with a store, one thing after the other.

An operation is a call of the store, or something that happens to it or to the logs it may use: the
clock is set, a scripted log is added or told to fail elsewhere, the store is lost in a crash. What
a call answers is left aside here; a run is the host it leads to. Operations that a closed store
refuses are operations all the same, and do nothing.

Some properties hold of every run, some only as long as the store keeps to one directory and nobody
else has a hand in its logs (`Operation.StaysIn`).
-/
import EpochLog.Recovery

set_option autoImplicit false

namespace EpochLog

/-- Something that is done with a store, or happens to it. -/
inductive Operation where
  | setClock (t : Instant)
  | append (r : Record)
  | flush
  | openWith (config : Config) (engine : ScriptedEngine)
  | close
  | crash
  | recover (reset : Bool)
  -- Recovers from a log that was opened elsewhere.
  | recoverWith (id : LogId) (needsRecovery reset : Bool)
  | applyPending (block : UInt64) (pending : Pending)
  | put (block key : UInt64) (payload : Bytes)
  | delete (block key : UInt64)
  -- A scripted log is there to recover from.
  | addLog (log : ScriptedLog)
  | setFaults (id : LogId) (faults : LogFaults)
  | takeEvents (id : LogId)

namespace Operation

/-- Whether an operation keeps a store to the log of one directory, which nobody else uses. -/
def StaysIn (dir : Path) : Operation → Prop
  | .openWith config _ => config.dir = dir
  | .recoverWith _ _ _ | .addLog _ | .setFaults _ _ | .takeEvents _ => False
  | _ => True

end Operation

namespace Host

def perform (h : Host) : Operation → Host
  | .setClock t => { h with now := t }
  | .append r => (h.append r).1
  | .flush => h.flush.1
  | .openWith config engine => (h.openWith config engine).1
  | .close => h.close.1
  | .crash => h.crash
  | .recover reset => (h.recover reset).1
  | .recoverWith id needsRecovery reset => (h.recoverWith id needsRecovery reset).1
  | .applyPending block pending => (h.applyPending block pending).1
  | .put block key payload => (h.put block key payload).1
  | .delete block key => (h.delete block key).1
  | .addLog log => { h with logs := (h.logs.add (.scripted log)).1 }
  | .setFaults id faults => { h with logs := h.logs.setFaults id faults }
  | .takeEvents id => { h with logs := (h.logs.takeEvents id).2 }

def run (h : Host) (ops : List Operation) : Host := ops.foldl perform h

@[simp] theorem run_nil (h : Host) : h.run [] = h := rfl

@[simp] theorem run_cons (h : Host) (op : Operation) (ops : List Operation) :
    h.run (op :: ops) = (h.perform op).run ops := rfl

/-- A run can be cut anywhere: what is done later is done to what the earlier part left. -/
theorem run_append (h : Host) (ops more : List Operation) :
    h.run (ops ++ more) = (h.run ops).run more := List.foldl_append

/-- **What every operation keeps, every run keeps.** -/
theorem run_induction {P : Host → Prop} {Q : Operation → Prop}
    (hstep : ∀ h op, Q op → P h → P (h.perform op)) {ops : List Operation}
    (hops : ∀ op ∈ ops, Q op) {h : Host} (hstart : P h) : P (h.run ops) := by
  induction ops generalizing h with
  | nil => exact hstart
  | cons op ops ih =>
    have hop := hops op List.mem_cons_self
    have hrest : ∀ x ∈ ops, Q x := fun x hx => hops x (List.mem_cons_of_mem op hx)
    exact ih hrest (hstep h op hop hstart)

end Host

end EpochLog
