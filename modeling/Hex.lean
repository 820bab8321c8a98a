import Hex.Kernel.LevelSweep
import Hex.Kernel.HashRange
import Hex.Kernel.ExprReload
import Hex.Kernel.StepWrites
import Hex.Kernel.JitRelease
import Hex.Kernel.SessionRepeat
import Hex.Kernel.PlanWalk
import Hex.Kernel.ExplainLevel
import Hex.Kernel.EvalCount
import Hex.Compiler.Routes
import Hex.Compiler.Domain
import Hex.Compiler.Grouping
import Hex.Compiler.Projection
import Hex.Compiler.AggFold
import Hex.Compiler.ScalarArray
import Hex.Compiler.MinMax
import Hex.Analysis.Aggregate
import Hex.Analysis.ExprDictionary
import Hex.Analysis.BestLevel
import Hex.Analysis.TimeScript
import Hex.Analysis.QueryId
import Hex.Analysis.ReportText
