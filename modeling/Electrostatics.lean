import Electrostatics.Derivative
import Electrostatics.Formula.TreeText
import Electrostatics.Main
import Electrostatics.Proofs.Formula.Binding
import Electrostatics.Proofs.Formula.Composition
import Electrostatics.Proofs.Formula.Dependence
import Electrostatics.Proofs.Formula.ErrorPlaces
import Electrostatics.Proofs.Formula.SoftEvaluation
import Electrostatics.Proofs.Formula.StarredTexts
import Electrostatics.Proofs.Formula.SyntaxErrors
import Electrostatics.Proofs.GaussLaw.Bounds
import Electrostatics.Proofs.GaussLaw.Consistency
import Electrostatics.Proofs.GaussLaw.EdgeValues
import Electrostatics.Proofs.GaussLaw.ExactSlopes
import Electrostatics.Proofs.GaussLaw.Scaling
import Electrostatics.Proofs.GaussLaw.Shell
import Electrostatics.Proofs.GaussLaw.Slabs
import Electrostatics.Proofs.Grid.Bilinear
import Electrostatics.Proofs.Grid.BlockBounds
import Electrostatics.Proofs.Grid.Reflection
import Electrostatics.Proofs.Grid.Storage
import Electrostatics.Proofs.Grid.UndefinedCells
import Electrostatics.Proofs.Quadrature.AdaptiveExactness
import Electrostatics.Proofs.Quadrature.CompositeExactness
import Electrostatics.Proofs.Quadrature.Containment
import Electrostatics.Proofs.Quadrature.Reversal
import Electrostatics.Proofs.Quadrature.ToleranceBudget
import Electrostatics.Proofs.RootFinding.Failures
import Electrostatics.Proofs.Samples.Overwriting
import Electrostatics.Proofs.Samples.RunningIntegral
import Electrostatics.Proofs.Samples.SampledRules
import Electrostatics.Proofs.Slice.Agreement
import Electrostatics.Proofs.Slice.AxisNames
import Electrostatics.Proofs.Slice.Probing
import Electrostatics.Proofs.Slice.Warnings
import Electrostatics.RootFinding
import Electrostatics.Proofs.Derivative.DifferenceRules
import Electrostatics.Proofs.Formula.StackMachine
