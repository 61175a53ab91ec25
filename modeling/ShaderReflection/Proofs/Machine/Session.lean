import ShaderReflection.Proofs.Machine.Refinement
import ShaderReflection.Proofs.Session.Growth

/-! Sessions whose state is held in plain registers. Whatever is asked of such a session, its
registers stay those of the session that runs.
-/

namespace ShaderReflection

/-- A session whose state is held in registers. -/
structure MachineSession where
  limits : Limits := {}
  machine : Machine := {}
  /-- Whether this session has made its build. -/
  used : Bool := false

namespace MachineSession

/-- A session goes on with what a run has reached, whether it was stopped or not. -/
def proceed (session : MachineSession) (run : Except Machine.Stop Machine) : MachineSession :=
  match run with
  | .ok machine => { session with machine }
  | .error stop => { session with machine := stop.machine }

/-- Makes the build of a session, unless it is made. Assembling the stages only adds warnings. -/
def build (session : MachineSession) (text : String) : MachineSession :=
  if session.used then session
  else
    match session.machine.scan session.limits text with
    | .error stop => { session with machine := stop.machine, used := true }
    | .ok machine =>
        let warnings := (machine.sections.parse machine.warnings).1
        { session with machine := { machine with warnings }, used := true }

/-- Carries out what is asked of a session. -/
def carryOut (session : MachineSession) : Operation → MachineSession
  | .uncountedLine line =>
      session.proceed (session.machine.scanUncounted session.limits line.toList)
  | .call (.scanLine line) =>
      session.proceed (session.machine.scanLine session.limits line.toList)
  | .call .finish => { session with machine := session.machine.finish }
  | .call (.scan text) => session.proceed (session.machine.scan session.limits text)
  | .call (.build text) => session.build text
  | .call (.buildFile (.ok text)) => session.build text
  | .call (.buildFile (.error _)) => session

/-- The session that some operations lead to. -/
def afterAll (limits : Limits) (operations : List Operation) : MachineSession :=
  operations.foldl carryOut { limits }

end MachineSession

namespace Session

/-- The session with its state in registers. -/
def onMachine (session : Session) : MachineSession where
  limits := session.limits
  machine := session.scanner.machine
  used := session.used

theorem onMachine_proceed (session : Session) (scanned : Except Interruption Scanner)
    : (session.proceed scanned).1.onMachine
      = session.onMachine.proceed (Scanner.machineOutcome scanned) := by
  cases scanned <;> rfl

theorem onMachine_build (session : Session) (text : String)
    : (session.build text).1.onMachine = session.onMachine.build text := by
  have scanned := Scanner.machine_scan session.limits session.scanner text
  have used : session.onMachine.used = session.used := rfl
  change _ = session.onMachine.machine.scan session.onMachine.limits text at scanned
  rw [Session.build, MachineSession.build, used, ← scanned]
  split
  · rfl
  · cases session.scanner.scan session.limits text with
    | error stopped => rfl
    | ok scanner =>
        have noticed : scanner.result.warnings
            = (scanner.machine.sections.parse scanner.machine.warnings).1 := by
          rw [scanner.machine_sections, Scanner.result]
          change _ = (scanner.sections.parse scanner.warnings).1
          cases scanner.sections.parse scanner.warnings with
          | mk warnings stages => cases stages <;> rfl
        simp only [Scanner.machineOutcome_ok, ← noticed]
        rfl

/-- A request does to a session what it does to the registers, by cases on the request. -/
theorem onMachine_carryOut (session : Session) (operation : Operation)
    : (session.carryOut operation).1.onMachine = session.onMachine.carryOut operation := by
  cases operation with
  | uncountedLine line =>
      rw [carryOut, onMachine_proceed, Scanner.machine_scanUncounted]
      rfl
  | call call =>
      cases call with
      | scanLine line =>
          rw [carryOut, perform, onMachine_proceed, Scanner.machine_scanLine]
          rfl
      | finish =>
          have finished := session.scanner.machine_finish
          simp only [carryOut, perform, onMachine, finished]
          rfl
      | scan text =>
          rw [carryOut, perform, onMachine_proceed, Scanner.machine_scan]
          rfl
      | build text => exact onMachine_build session text
      | buildFile read =>
          cases read with
          | ok text => exact onMachine_build session text
          | error cause => rfl

/-- Requests lead both sessions to the same state, by induction over the requests. -/
theorem onMachine_afterAll (limits : Limits) (operations : List Operation)
    : (afterAll limits operations).onMachine = MachineSession.afterAll limits operations := by
  have run (session : Session)
      : (operations.foldl (fun session operation => (session.carryOut operation).1)
          session).onMachine
        = operations.foldl MachineSession.carryOut session.onMachine := by
    induction operations generalizing session with
    | nil => rfl
    | cons operation rest ih =>
        rw [List.foldl_cons, List.foldl_cons, ← onMachine_carryOut]
        exact ih _
  exact run { limits }

end Session

end ShaderReflection
