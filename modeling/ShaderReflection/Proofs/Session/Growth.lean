import ShaderReflection.Proofs.Scanner.Growth
import ShaderReflection.Session

/-! Whatever is asked of a session, what it has collected is only added to. A request that is
refused, because the session has made its build or a file cannot be read, changes nothing at all.
-/

namespace ShaderReflection

/-- What can be asked of a session: its calls, and a line that is not counted. -/
inductive Operation where
  | call (call : Call)
  | uncountedLine (line : String)

namespace Session

/-- Carries out what is asked of a session. -/
def carryOut (session : Session) : Operation → Session × Except CallError (Option Shader)
  | .call call => session.perform call
  | .uncountedLine line =>
      session.proceed (session.scanner.scanUncounted session.limits line.toList)

/-- The session that some operations lead to, whatever their answers. -/
def afterAll (limits : Limits) (operations : List Operation) : Session :=
  operations.foldl (fun session operation => (session.carryOut operation).1) { limits }

/-- The reports of failed builds. -/
def reports (session : Session) : List String :=
  session.error.toList.map BuildError.report

/-- What the first session has collected and reported is the beginning of what the second has. -/
structure Grows (session later : Session) : Prop extends session.scanner.Grows later.scanner where
  reports : session.reports <+: later.reports

/-- Only a session that has made its build reports a failure. -/
def Consistent (session : Session) : Prop :=
  session.used = false → session.error = none

/-- An answer that refuses a request: the session has made its build, or a file cannot be read. -/
def Refuses (answer : Except CallError (Option Shader)) : Prop :=
  answer = .error .alreadyUsed ∨ ∃ cause, answer = .error (.unreadable cause)

/-- The outcome of a request has added to what the session had collected, or is a refusal that
leaves the session as it was.
-/
structure Advances (session : Session) (outcome : Session × Except CallError (Option Shader))
    : Prop where
  grows : session.Grows outcome.1
  consistent : outcome.1.Consistent
  unchanged : Refuses outcome.2 → outcome.1 = session

variable {session : Session}

theorem Grows.refl (session : Session) : session.Grows session :=
  { Scanner.Grows.refl session.scanner with reports := List.prefix_rfl }

theorem not_refuses_ok (shader : Option Shader) : ¬ Refuses (.ok shader) := by
  rintro (used | ⟨_, unreadable⟩)
  · cases used
  · cases unreadable

theorem not_refuses_overflow (cause : Overflow) : ¬ Refuses (.error (.overflow cause)) := by
  rintro (used | ⟨_, unreadable⟩)
  · cases used
  · cases unreadable

theorem consistent_of_used (used : session.used = true) : session.Consistent := by
  intro unused
  cases unused.symm.trans used

/-- A session that is left as it was. -/
theorem Consistent.advances_same (h : session.Consistent)
    (answer : Except CallError (Option Shader))
    : session.Advances (session, answer) where
  grows := .refl session
  consistent := h
  unchanged := fun _ => rfl

/-- A session goes on with a scan that has grown, whether it was stopped or not. -/
theorem Consistent.advances_proceed (h : session.Consistent)
    {scanned : Except Interruption Scanner}
    (grown : Scanner.Ends session.scanner.Grows session.scanner.Grows scanned)
    : session.Advances (session.proceed scanned) := by
  cases scanned with
  | ok scanner =>
      refine ⟨{ grown with reports := List.prefix_rfl }, h, ?_⟩
      exact fun refused => absurd refused (not_refuses_ok none)
  | error stopped =>
      refine ⟨{ grown with reports := List.prefix_rfl }, h, ?_⟩
      exact fun refused => absurd refused (not_refuses_overflow stopped.overflow)

/-- A build adds to what a session has collected. The session had reported nothing before, for it
was unused.
-/
theorem Consistent.advances_build (h : session.Consistent) (text : String)
    : session.Advances (session.build text) := by
  have scanned := session.scanner.scan_grows session.limits text
  rw [Session.build]
  split
  · exact h.advances_same _
  · next unused =>
      have silent : session.reports = [] := by
        rw [Session.reports, h (by simpa using unused)]
        rfl
      cases found : session.scanner.scan session.limits text with
      | error stopped =>
          rw [found] at scanned
          refine ⟨{ scanned with reports := silent ▸ List.nil_prefix }, consistent_of_used rfl, ?_⟩
          exact fun refused => absurd refused (not_refuses_ok _)
      | ok scanner =>
          rw [found] at scanned
          have later : scanner.warnings.toList <+: scanner.result.warnings.toList := by
            rw [scanner.result_warnings, Array.toList_appendList]
            exact List.prefix_append _ _
          have noticed := Scanner.Grows.trans scanned (.ofWarnings later)
          refine ⟨{ noticed with reports := silent ▸ List.nil_prefix }, consistent_of_used rfl, ?_⟩
          exact fun refused => absurd refused (not_refuses_ok _)

/-- Every request adds to what a session has collected or is refused, by cases on the request. -/
theorem Consistent.advances (h : session.Consistent) (operation : Operation)
    : session.Advances (session.carryOut operation) := by
  cases operation with
  | uncountedLine line => exact h.advances_proceed (session.scanner.scanUncounted_grows _ _)
  | call call =>
      cases call with
      | scanLine line => exact h.advances_proceed (session.scanner.scanLine_grows _ _)
      | finish =>
          refine ⟨{ session.scanner.finish_grows with reports := List.prefix_rfl }, h, ?_⟩
          exact fun refused => absurd refused (not_refuses_ok none)
      | scan text => exact h.advances_proceed (session.scanner.scan_grows _ _)
      | build text => exact h.advances_build text
      | buildFile read =>
          cases read with
          | ok text => exact h.advances_build text
          | error cause => exact h.advances_same _

/-- Whatever was asked of a session, it is consistent, by induction over the operations. -/
theorem afterAll_consistent (limits : Limits) (operations : List Operation)
    : (afterAll limits operations).Consistent := by
  have start : ({ limits } : Session).Consistent := fun _ => rfl
  rw [afterAll]
  generalize ({ limits } : Session) = session at start
  induction operations generalizing session with
  | nil => exact start
  | cons operation rest ih => exact ih _ (start.advances operation).consistent

/-- What a session has collected only grows. After any operations, a further one keeps the warnings
and reports, the declarations of each section and the source of each section as beginnings of the
later ones, and the places of the sections, even if a limit stops it; one that is refused keeps the
whole session.
-/
theorem collected_only_grows (limits : Limits) (operations : List Operation)
    (operation : Operation)
    : let session := afterAll limits operations
      session.Grows (session.carryOut operation).1
      ∧ (Refuses (session.carryOut operation).2 → (session.carryOut operation).1 = session) := by
  intro session
  have advances := (afterAll_consistent limits operations).advances operation
  exact ⟨advances.grows, advances.unchanged⟩

/-- Witness: a session that was fed a line, whose build a limit has stopped in a second block of the
same section, and which refuses a further build.
-/
theorem collected_only_grows_refused
    : let session := afterAll { word := some 6 }
        [.uncountedLine "vertex\x7bin vec2 p;\x7d )", .call (.build "vertex\x7bin int n; fragment")]
      session.used
      ∧ session.reports.length = 1
      ∧ session.scanner.warnings
        = #[.atLine 0 .unmatchedParenthesis, .atLine 1 (.repeatedSection .vertex)]
      ∧ session.scanner.sources.get? .vertex = some "in vec2 p;"
      ∧ (session.scanner.declarations.getD .vertex []).length = 2
      ∧ session.Grows (session.carryOut (.uncountedLine "\x7d")).1
      ∧ (session.carryOut (.call (.build ""))).1 = session := by
  intro session
  obtain ⟨used, reports, warnings, sources, declarations, refused⟩
      : session.used
        ∧ session.reports.length = 1
        ∧ session.scanner.warnings
          = #[.atLine 0 .unmatchedParenthesis, .atLine 1 (.repeatedSection .vertex)]
        ∧ session.scanner.sources.get? .vertex = some "in vec2 p;"
        ∧ (session.scanner.declarations.getD .vertex []).length = 2
        ∧ (session.carryOut (.call (.build ""))).2 = .error .alreadyUsed := by
    decide +kernel
  refine ⟨used, reports, warnings, sources, declarations, ?_, ?_⟩
  · exact (collected_only_grows _ _ (.uncountedLine "\x7d")).1
  · exact (collected_only_grows _ _ (.call (.build ""))).2 (Or.inl refused)

end Session

end ShaderReflection
