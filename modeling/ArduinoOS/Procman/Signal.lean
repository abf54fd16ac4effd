import ArduinoOS.Procman.Kill

/-!
# Signals

A signal calls the handler that its target has registered, by changing the
record that is stored for the target.
-/

set_option autoImplicit false

namespace ArduinoOS.Procman
open ArduinoOS.Faulting ArduinoOS.Kernel

def BytecodeSignalIdSuicide : ℕ := 3

/-- An index out of the table of handlers reads on in the record. -/
def signalHandler (procData : ProcManProcessProcData) (signalId : ℕ) : UInt16 :=
  (procData.toBytes.getD (16+signalId) 0).toUInt16

/-- What an interrupted wait leaves in r0. -/
def interruptedReg (state : ProcManProcessState) (procData : ProcManProcessProcData) :
    ProcManProcessProcData :=
  match state with
  | .waitingWaitpid _ _ => procData.setReg 0 ProcManExitStatusInterrupted
  | .waitingRead _ | .waitingRead32 _ | .waitingWrite _ | .waitingWrite32 _ =>
      procData.setReg 0 0
  | _ => procData

section Sending

variable {φ : Type} (F : Files φ)

/-- The call of the handler; a failure to push is not looked at. -/
def callHandler (procData : ProcManProcessProcData) (handlerAddr : UInt16)
    (process : ProcManProcess) : Run φ Fault Bool := do
  let r ← procManProcessMemoryWriteWord F process procData (procData.regs BytecodeRegisterSP)
    (procData.regs BytecodeRegisterIP)
  let pushed := r.2.setReg BytecodeRegisterSP (r.2.regs BytecodeRegisterSP+2)
  procManProcessStoreProcData F process (pushed.setReg BytecodeRegisterIP handlerAddr)

def procManProcessSendSignal (pid signalId : ℕ) : ProcManRun φ Unit :=
  if pid > ProcManPidMax then pure ()
  else if signalId > BytecodeSignalIdNB then pure ()
  else do
    let table ← getFirst
    if Live table pid then do
      let procData ← onFiles pid (fun process => procManProcessLoadProcData F process)
      match procData with
      | none => pure ()
      | some procData =>
          if signalHandler procData signalId = 0 then pure ()
          else
            match (table pid).state with
            | .unused => throw .assertFailed
            | .exiting => pure ()
            | state => do
                setFirst (Function.update table pid { table pid with state := .active })
                let _ ← onFiles pid
                  (callHandler F (interruptedReg state procData) (signalHandler procData signalId))
                pure ()
    else pure ()

end Sending

end ArduinoOS.Procman
