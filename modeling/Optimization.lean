import Optimization.Assembly
import Optimization.Engine.Standard
import Optimization.Formula
import Optimization.Loading
import Optimization.LogLevel
import Optimization.Proofs.Acceptance
import Optimization.Proofs.Balance
import Optimization.Proofs.Bounding
import Optimization.Proofs.Configuring
import Optimization.Proofs.Dropping
import Optimization.Proofs.Fixing
import Optimization.Proofs.Folding
import Optimization.Proofs.Freeing
import Optimization.Proofs.InPlace
import Optimization.Proofs.Independence
import Optimization.Proofs.Indexing
import Optimization.Proofs.Matrices
import Optimization.Proofs.Meaning
import Optimization.Proofs.Naming
import Optimization.Proofs.Nearest
import Optimization.Proofs.Numbering
import Optimization.Proofs.Outcomes
import Optimization.Proofs.Overwriting
import Optimization.Proofs.Reentrancy
import Optimization.Proofs.Refusals
import Optimization.Proofs.Reporting
import Optimization.Proofs.Representation
import Optimization.Proofs.RoundTrip
import Optimization.Proofs.Setters
import Optimization.Release
import Optimization.Solving
import Optimization.Proofs.Products
import Optimization.Proofs.Spots
import Optimization.Proofs.Summing
import Optimization.Proofs.Timing
