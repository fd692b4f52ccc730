import ContextLint.Main
import ContextLint.Proofs.Comment.Directive
import ContextLint.Proofs.Files.Listing
import ContextLint.Proofs.Fluent.Inherited
import ContextLint.Proofs.Report.Cells
import ContextLint.Proofs.Report.Decoded
import ContextLint.Proofs.Report.Grouped
import ContextLint.Proofs.Rule.Alias
import ContextLint.Proofs.Rule.Anew
import ContextLint.Proofs.Rule.DefinitionOrder
import ContextLint.Proofs.Rule.Excerpt
import ContextLint.Proofs.Rule.Failure
import ContextLint.Proofs.Rule.Filtered
import ContextLint.Proofs.Rule.Flags
import ContextLint.Proofs.Rule.LastBinding
import ContextLint.Proofs.Rule.Optional
import ContextLint.Proofs.Rule.Wider
import ContextLint.Proofs.Settings.Loading
import ContextLint.Proofs.Settings.Normal
import ContextLint.Proofs.StyleChecker
import ContextLint.Proofs.Typing.ClassNames
import ContextLint.Proofs.Typing.MethodCalls
import ContextLint.Proofs.Typing.ReceiverAttributes
import ContextLint.Proofs.Typing.Termination
import ContextLint.Proofs.Typing.Unions
import ContextLint.Scope.Event
