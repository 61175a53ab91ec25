import ShaderReflection.Proofs.Session.Growth

/-! The scan of a session rests between requests, whatever is asked of it and whether a limit stops
it or not.
-/

namespace ShaderReflection.Session

variable {session : Session}

theorem proceed_resting {scanned : Except Interruption Scanner}
    (outcome
      : Scanner.Ends (fun u => u.Resting session.limits) (fun u => u.Resting session.limits)
          scanned)
    : (session.proceed scanned).1.limits = session.limits
      ∧ (session.proceed scanned).1.scanner.Resting session.limits := by
  cases scanned with
  | ok scanner => exact ⟨rfl, outcome⟩
  | error stopped => exact ⟨rfl, outcome⟩

theorem build_resting (h : session.scanner.Resting session.limits) (text : String)
    : (session.build text).1.limits = session.limits
      ∧ (session.build text).1.scanner.Resting session.limits := by
  have outcome := h.scan text
  unfold Session.build
  split
  · exact ⟨rfl, h⟩
  · cases scanned : session.scanner.scan session.limits text with
    | error stopped =>
        rw [scanned] at outcome
        exact ⟨rfl, outcome⟩
    | ok scanner =>
        rw [scanned] at outcome
        have resting : scanner.Resting session.limits := outcome
        exact ⟨rfl, resting.withWarnings _⟩

/-- Whatever is asked of a resting session, it stays resting, by cases on the request. -/
theorem carryOut_resting (h : session.scanner.Resting session.limits) (operation : Operation)
    : (session.carryOut operation).1.limits = session.limits
      ∧ (session.carryOut operation).1.scanner.Resting session.limits := by
  cases operation with
  | uncountedLine line => exact proceed_resting (h.scanUncounted line.toList)
  | call call =>
      cases call with
      | scanLine line => exact proceed_resting (h.scanLine line.toList)
      | finish => exact ⟨rfl, h.finish⟩
      | scan text => exact proceed_resting (h.scan text)
      | build text => exact build_resting h text
      | buildFile read =>
          cases read with
          | ok text => exact build_resting h text
          | error cause => exact ⟨rfl, h⟩

/-- Whatever was asked of a session, it is resting, by induction over the operations. -/
theorem afterAll_resting (limits : Limits) (operations : List Operation)
    : (afterAll limits operations).scanner.Resting limits := by
  have kept (session : Session) (limited : session.limits = limits)
      (h : session.scanner.Resting limits)
      : (operations.foldl (fun session operation => (session.carryOut operation).1)
          session).scanner.Resting limits := by
    induction operations generalizing session with
    | nil => exact h
    | cons operation rest ih =>
        subst limited
        obtain ⟨same, resting⟩ := carryOut_resting h operation
        exact ih _ same resting
  exact kept { limits } rfl (Scanner.resting_start limits)

end ShaderReflection.Session
