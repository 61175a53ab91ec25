import ShaderReflection.Main
import ShaderReflection.Proofs.Build.CapturedSources
import ShaderReflection.Proofs.Build.DiscardedBlock
import ShaderReflection.Proofs.Build.LineEndings
import ShaderReflection.Proofs.Build.PrintRoundTrip
import ShaderReflection.Proofs.Build.VertexRecord
import ShaderReflection.Proofs.Build.WordLimit
import ShaderReflection.Proofs.CommandLine.FlagEffects
import ShaderReflection.Proofs.Declaration.KeywordAccount
import ShaderReflection.Proofs.Session.ParameterLists
import ShaderReflection.Proofs.Stage.Routing
import ShaderReflection.Proofs.VertexLayout.Derivation
import ShaderReflection.Proofs.Machine.Invariant
