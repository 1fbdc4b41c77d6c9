import PropertyBinding.Application
import PropertyBinding.Name.Sort
import PropertyBinding.Report.Analysis
import PropertyBinding.Sample.Analyzers
import PropertyBinding.Sample.Policy
import PropertyBinding.Sample.Rules
import PropertyBinding.Proofs.Store.Views
import PropertyBinding.Proofs.Store.Under
import PropertyBinding.Proofs.Placeholder.Visiting
import PropertyBinding.Proofs.Placeholder.Substitution
import PropertyBinding.Proofs.Bind.Placement
import PropertyBinding.Proofs.Bind.Protocol
import PropertyBinding.Proofs.Bind.Refinement
import PropertyBinding.Proofs.Bind.Locality
import PropertyBinding.Proofs.Bind.Lists
import PropertyBinding.Proofs.Placeholder.Fragments
import PropertyBinding.Proofs.Placeholder.Errors
import PropertyBinding.Proofs.Bind.Blame
import PropertyBinding.Proofs.Bind.Used
import PropertyBinding.Proofs.Bind.Unbound
import PropertyBinding.Proofs.Number.Decimal
import PropertyBinding.Proofs.Source.Flattening
import PropertyBinding.Proofs.Bind.Giving
import PropertyBinding.Proofs.Bind.Documents
import PropertyBinding.Proofs.Bind.Positions
import PropertyBinding.Proofs.Bind.Unvetoed
import PropertyBinding.Proofs.Bind.Turns
import PropertyBinding.Proofs.Bind.Prefixes
import PropertyBinding.Proofs.Bind.Entries
import PropertyBinding.Proofs.Text.Parts
import PropertyBinding.Proofs.Bind.Commas
import PropertyBinding.Proofs.Bind.Fixed
import PropertyBinding.Proofs.Bind.Overriding
import PropertyBinding.Proofs.Placeholder.Concatenation
import PropertyBinding.Proofs.Placeholder.Escaping
import PropertyBinding.Proofs.Text.LowerCase
import PropertyBinding.Proofs.Name.Grammar
import PropertyBinding.Proofs.Name.Printing
import PropertyBinding.Proofs.Name.Spelling
import PropertyBinding.Proofs.Validation.Paths
import PropertyBinding.Proofs.Source.Loading
import PropertyBinding.Proofs.Bind.Chains
import PropertyBinding.Proofs.Bind.Invariants
import PropertyBinding.Proofs.Bind.Ledger
import PropertyBinding.Proofs.Bind.Shallow
import PropertyBinding.Proofs.Tree.Traversal
import PropertyBinding.Proofs.Validation.Nesting
import PropertyBinding.Proofs.Source.Leaves
import PropertyBinding.Proofs.Report.Validation
import PropertyBinding.Proofs.Text.Pieces
import PropertyBinding.Proofs.Source.Variables
import PropertyBinding.Proofs.Placeholder.Colons
import PropertyBinding.Proofs.Store.Ranges
import PropertyBinding.Proofs.Source.Origins
