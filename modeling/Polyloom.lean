import Polyloom.Dialect.Kernel
import Polyloom.Dialect.VisitorText
import Polyloom.Main
import Polyloom.Proofs.Access.Check
import Polyloom.Proofs.Access.Direction
import Polyloom.Proofs.Access.Faithful
import Polyloom.Proofs.Access.Order
import Polyloom.Proofs.Affine.Analysis
import Polyloom.Proofs.Affine.Formula
import Polyloom.Proofs.Affine.Numbering
import Polyloom.Proofs.Affine.Operands
import Polyloom.Proofs.Arith.Formula
import Polyloom.Proofs.Backend.ReturnFunction
import Polyloom.Proofs.Binding.Patch
import Polyloom.Proofs.Builder.Benchmark
import Polyloom.Proofs.Builder.Padding
import Polyloom.Proofs.Builder.Worksharing
import Polyloom.Proofs.Constraint.Synthesis
import Polyloom.Proofs.Constraint.Tableau
import Polyloom.Proofs.Dialect.Stopping
import Polyloom.Proofs.Help.Align
import Polyloom.Proofs.Pass.Generated
import Polyloom.Proofs.Pass.History
import Polyloom.Proofs.Pass.Lowering
import Polyloom.Proofs.Pass.Report
import Polyloom.Proofs.Source.Restoring
import Polyloom.Proofs.Source.Test
import Polyloom.QualifiedName
import Polyloom.Term.Pretty
