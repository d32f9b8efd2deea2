import Optimization.Engine.Exact
import Optimization.MathProg.Reading

/-!
# The standard engine

It solves problems exactly and reads models written in MathProg.
-/

namespace Optimization.Engine

/-- The standard engine. -/
def standard : Engine := ⟨Exact.simplex, Exact.search, MathProg.Reading.read⟩

end Optimization.Engine
