import OperatorRecovery.Main
import OperatorRecovery.Surgery
import OperatorRecovery.TypeReader
import OperatorRecovery.Proofs.Nodes
import OperatorRecovery.Proofs.HandleRules
import OperatorRecovery.Proofs.Rewrites
import OperatorRecovery.Proofs.Settling
import OperatorRecovery.Proofs.Invariants
import OperatorRecovery.Proofs.NormalForm
import OperatorRecovery.Proofs.Lowering
import OperatorRecovery.Proofs.FormatPlans
import OperatorRecovery.Proofs.Identifiers
import OperatorRecovery.Proofs.Expansion
import OperatorRecovery.Proofs.MadeNodes
import OperatorRecovery.Proofs.Markers
import OperatorRecovery.Proofs.LiteralReading
import OperatorRecovery.Proofs.InterpolatedText
import OperatorRecovery.Proofs.Weights
import OperatorRecovery.Proofs.FormCounts
import OperatorRecovery.Proofs.SoughtCalls
import OperatorRecovery.Proofs.OperatorReading
import OperatorRecovery.Proofs.JsonTexts
import OperatorRecovery.Proofs.SerializedTypes
import OperatorRecovery.Proofs.SerializedTrees
import OperatorRecovery.Proofs.PrintedTrees
import OperatorRecovery.Proofs.Provenance
import OperatorRecovery.Proofs.RuleOrder
import OperatorRecovery.Proofs.IntroducedSyntax
import OperatorRecovery.Proofs.TypeTexts
import OperatorRecovery.Proofs.ReadTypes
import OperatorRecovery.Proofs.SerializedForms
import OperatorRecovery.Proofs.PrefixOperators
import OperatorRecovery.Proofs.CastOperands
import OperatorRecovery.Proofs.WideBlanks
import OperatorRecovery.Proofs.DeclinedCalls
import OperatorRecovery.Proofs.UnwrappedHandles
import OperatorRecovery.Proofs.FormatGrammar
import OperatorRecovery.Proofs.PlanFaults
import OperatorRecovery.Proofs.ConcatenatedTexts
import OperatorRecovery.Proofs.NestedTests
import OperatorRecovery.Proofs.SpelledTypes
import OperatorRecovery.Proofs.MatchStates
import OperatorRecovery.Proofs.Places
import OperatorRecovery.Proofs.TypeGrammar
import OperatorRecovery.Proofs.ReferredTypes
import OperatorRecovery.Proofs.WrittenNames
import OperatorRecovery.Proofs.ArityMarks
import OperatorRecovery.Proofs.LineTerminators
import OperatorRecovery.Proofs.RuleChoices
import OperatorRecovery.Proofs.Alignments
import OperatorRecovery.Proofs.EscapedTexts
import OperatorRecovery.Proofs.AnnotationHistories
