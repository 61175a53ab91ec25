import ShaderReflection.Proofs.Build.SectionLimit
import ShaderReflection.Proofs.Scanner.LimitedScan

/-! Builds under limits against builds without limits. Limits stop a build or leave it as it is. -/

namespace ShaderReflection

variable {limits higher : Limits}

/-- A build that no limit stops is the build without limits. -/
theorem build_eq_unlimited {text : String} (unstopped : (build limits text).code ≠ 5)
    : build limits text = build {} text := by
  rcases Scanner.scan_limited limits text with through | ⟨stopped, stops, _⟩
  · rw [build_of_scan through, build_of_scan (Scanner.scan_unlimited text)]
  · exact absurd ((code_build_eq_five_iff limits text).mpr ⟨stopped, stops⟩) unstopped

/-- Limits that can be written only ever stop a build. One that they do not stop is the build
without limits, and stays so under higher ones, whether those can be written or not. One that they
stop makes no shader, reports one failure, and has warned of nothing but what a scan without limits
warns of first.
-/
theorem limits_only_stop {limits : Limits} (writable : limits.Writable) (text : String)
    : writtenBuild limits text = .ok (build limits text)
      ∧ writtenBuild {} text = .ok (build {} text)
      ∧ ((build limits text).code ≠ 5 → build limits text = build {} text)
      ∧ ((build limits text).code = 5
          → (build limits text).shader = {}
            ∧ (build limits text).reports.length = 1
            ∧ ∃ s, ({} : Scanner).scan {} text = .ok s
                ∧ (build limits text).warnings.toList <+: s.warnings.toList)
      ∧ ∀ higher, limits.RaisedTo higher
          → (build limits text).code ≠ 5
          → writtenBuild higher text = .ok (build higher text) ∧ (build higher text).code ≠ 5 := by
  refine ⟨writable.writtenBuild_eq text, Limits.writable_none.writtenBuild_eq text,
    build_eq_unlimited, ?_, ?_⟩
  · intro stopped
    obtain ⟨interruption, stops⟩ := (code_build_eq_five_iff limits text).mp stopped
    have built
        : build limits text
          = { error := some (.overflow interruption.overflow)
              warnings := interruption.scanner.warnings } := by
      rw [build, stops]
    rcases Scanner.scan_limited limits text with through | ⟨other, same, warnings⟩
    · cases through.symm.trans stops
    · cases same.symm.trans stops
      rw [built]
      exact ⟨rfl, rfl, _, Scanner.scan_unlimited text, warnings⟩
  · intro higher raised unstopped
    have still : (build higher text).code ≠ 5 := by
      intro stopped
      obtain ⟨interruption, stops⟩ := (code_build_eq_five_iff higher text).mp stopped
      rcases Scanner.scan_limited limits text with through | ⟨other, refused, _⟩
      · cases (Scanner.scan_raised raised through).symm.trans stops
      · exact unstopped ((code_build_eq_five_iff limits text).mpr ⟨other, refused⟩)
    exact ⟨writtenBuild_of_unstopped still, still⟩

/-- Witness: limits on words and sources of which the lower one on words stops the scan behind its
first warning, and the higher one does not stop it, alone or with the limit on sources.
-/
theorem limits_only_stop_narrow
    : let text := "\x7dvertex\x7bin vec3 position;\x7d)fragment\x7bout vec4 c;\x7d"
      let narrow : Limits := { word := some 7, source := some 18 }
      let tight : Limits := { word := some 8, source := some 18 }
      let wide : Limits := { word := some 8 }
      narrow.Writable
      ∧ tight.Writable
      ∧ (build narrow text).code = 5
      ∧ (build narrow text).warnings = #[.atLine 1 .unbalancedBrace]
      ∧ (build narrow text).shader = {}
      ∧ (build tight text).code = 0
      ∧ build tight text = build {} text
      ∧ (build wide text).code ≠ 5 := by
  intro text narrow tight wide
  obtain ⟨stopped, warnings⟩
      : (build narrow text).code = 5
        ∧ (build narrow text).warnings = #[.atLine 1 .unbalancedBrace] := by
    decide +kernel
  have through : (build tight text).code = 0 := by decide +kernel
  have unstopped : (build tight text).code ≠ 5 := by simp [through]
  have raised : tight.RaisedTo wide := ⟨Int.le_refl 8, trivial⟩
  have narrowWritable : narrow.Writable := by constructor <;> rintro _ ⟨⟩ <;> decide +kernel
  have tightWritable : tight.Writable := by constructor <;> rintro _ ⟨⟩ <;> decide +kernel
  obtain ⟨_, _, _, empty, _⟩ := limits_only_stop narrowWritable text
  obtain ⟨_, _, same, _, kept⟩ := limits_only_stop tightWritable text
  exact ⟨narrowWritable, tightWritable, stopped, warnings, (empty stopped).1, through, same unstopped,
    (kept wide raised unstopped).2⟩

/-- A limit with too many digits does not stop a build, but breaks it off: ten to the power of 4300,
below zero, as the limit on words. There is neither an overflow nor the build without limits.
-/
theorem unwritable_limit_breaks_off
    : let limits : Limits := { word := some (-(Nat.pow 10 4300 : Nat)) }
      writtenBuild limits "a" = .error Text.tooLongMessage
      ∧ writtenBuild {} "a" = .ok (build {} "a")
      ∧ ¬((∃ result, writtenBuild limits "a" = .ok result ∧ result.code = 5)
          ∨ writtenBuild limits "a" = writtenBuild {} "a") := by
  intro limits
  have unwritten : writtenBuild limits "a" = .error Text.tooLongMessage :=
    writtenBuild_of_isBrokenOff (by decide +kernel)
  have unlimited := Limits.writable_none.writtenBuild_eq "a"
  refine ⟨unwritten, unlimited, ?_⟩
  rw [unwritten, unlimited]
  simp

end ShaderReflection
