import TreeLint.Main
import TreeLint.Program.Schedule
import TreeLint.Proofs.Event.Candidates
import TreeLint.Proofs.Event.Entries
import TreeLint.Proofs.Event.Histories
import TreeLint.Proofs.Event.Marker
import TreeLint.Proofs.Event.Rejection
import TreeLint.Proofs.Event.Union
import TreeLint.Proofs.Event.Variants
import TreeLint.Proofs.Files.Listing
import TreeLint.Proofs.Matching.Comparisons
import TreeLint.Proofs.Matching.FieldChain
import TreeLint.Proofs.Path.Relative
import TreeLint.Proofs.Program.Failure
import TreeLint.Proofs.Program.Schedule
import TreeLint.Proofs.Report.Decoding
import TreeLint.Proofs.Report.Lines
import TreeLint.Proofs.Rule.Blame
import TreeLint.Proofs.Rule.Exclusion
import TreeLint.Proofs.Rule.Independence
import TreeLint.Proofs.Rule.Lines
import TreeLint.Proofs.Rule.Safety
import TreeLint.Proofs.Selector.Bareword
import TreeLint.Proofs.Selector.Canonical
import TreeLint.Proofs.Selector.Contexts
import TreeLint.Proofs.Selector.Pointing
import TreeLint.Proofs.Selector.Recognition
import TreeLint.Proofs.Selector.Refusal
import TreeLint.Proofs.Selector.Spacing
import TreeLint.Proofs.Selector.Tiling
import TreeLint.Proofs.Tree.Nesting
import TreeLint.Proofs.Tree.ReadBack
