import ShaderWeave.CommandLine.Session
import ShaderWeave.Main
import ShaderWeave.Number.Numeral
import ShaderWeave.Studio
import ShaderWeave.Proofs.TwoPass
import ShaderWeave.Proofs.Registration
import ShaderWeave.Proofs.StageInterface
import ShaderWeave.Proofs.Emission
import ShaderWeave.Proofs.LibraryEmission
import ShaderWeave.Proofs.DeclaredBeforeRead
import ShaderWeave.Proofs.PipelineLayout
import ShaderWeave.Proofs.Resources
import ShaderWeave.Proofs.CodeContents
import ShaderWeave.Proofs.TextureOperands
import ShaderWeave.Proofs.GlobalIdentifiers
import ShaderWeave.Proofs.UnreportedRead
import ShaderWeave.Proofs.SourceReader
import ShaderWeave.Proofs.Std140
import ShaderWeave.Proofs.PrintedDeclarations
import ShaderWeave.Proofs.PushConstantBytes
import ShaderWeave.Proofs.Indentation
import ShaderWeave.Proofs.ManifestFromSource
import ShaderWeave.Proofs.DeclaredIdentifiers
import ShaderWeave.Proofs.ChannelSlots
import ShaderWeave.Proofs.BlockContents
import ShaderWeave.Proofs.GlobalHandles
import ShaderWeave.Proofs.DrawData
import ShaderWeave.Proofs.BindingRequests
import ShaderWeave.Proofs.AtomicRegistration
import ShaderWeave.Proofs.WriteBounds
import ShaderWeave.Proofs.DrawIsolation
import ShaderWeave.Proofs.Templates
import ShaderWeave.Proofs.TargetFormatting
import ShaderWeave.Proofs.Renumbering
import ShaderWeave.Proofs.RecodedModels
import ShaderWeave.Proofs.GraphNumbers
import ShaderWeave.Proofs.LeastOrder
import ShaderWeave.Proofs.ExactLayout
import ShaderWeave.Proofs.OrderedStore
import ShaderWeave.Proofs.MemberExtents
import ShaderWeave.Proofs.GraphAcceptance
import ShaderWeave.Proofs.KernelRange
import ShaderWeave.Proofs.LibraryCompilation
import ShaderWeave.Proofs.InverseProjection
import ShaderWeave.Proofs.CodeLines
import ShaderWeave.Proofs.UnrolledShadows
import ShaderWeave.Proofs.ShadowedLightsModel
import ShaderWeave.Proofs.AssembledSource
import ShaderWeave.Proofs.ExpressionReader
import ShaderWeave.Proofs.ExpressionTyping
import ShaderWeave.Proofs.ReadMeaning
import ShaderWeave.Proofs.ChannelAssignments
import ShaderWeave.Proofs.SplitDeclarations
import ShaderWeave.Proofs.ArgumentGrammar
import ShaderWeave.Proofs.IndentNormalForm
import ShaderWeave.Proofs.NearestNumber
import ShaderWeave.Proofs.ShortestDecimals
import ShaderWeave.Proofs.FloatLiterals
import ShaderWeave.Proofs.SwizzleCheck
