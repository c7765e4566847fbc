import Costing.Json.Reader
import Costing.Json.Writer
import Costing.Service
import Costing.Session
import Costing.Proofs.Formula.Acceptance
import Costing.Proofs.Formula.Analysis
import Costing.Proofs.Formula.Parsing
import Costing.Proofs.Link.ChainResolution
import Costing.Proofs.Link.OutputLink
import Costing.Proofs.Link.Consistency
import Costing.Proofs.Formula.Extremum
import Costing.Proofs.Containment
import Costing.Proofs.CycleSearch
import Costing.Proofs.Link.Edges
import Costing.Proofs.Link.Editing
import Costing.Proofs.Isolation
import Costing.Proofs.Link.Graph
import Costing.Proofs.Link.PlainRecursion
import Costing.Proofs.Link.Cycle
import Costing.Proofs.Link.DepthFirst
import Costing.Proofs.Output.Meaning
import Costing.Proofs.Output.Failure
import Costing.Proofs.Output.ForwardReference
import Costing.Proofs.Cost
import Costing.Proofs.Link.Reading
import Costing.Proofs.Preview
import Costing.Proofs.LineItem
import Costing.Proofs.Formula.ReadSet
import Costing.Proofs.Link.ProposedCycle
import Costing.Proofs.Formula.Mention
import Costing.Proofs.Formula.Nesting
import Costing.Proofs.Formula.Rendering
import Costing.Proofs.Formula.FaultOrigin
import Costing.Proofs.Formula.FunctionDepth
import Costing.Proofs.Formula.OperandOrder
import Costing.Proofs.Formula.FaultLabel
import Costing.Proofs.Output.Causality
import Costing.Proofs.RequiredField
import Costing.Proofs.Formula.TextField
import Costing.Proofs.Formula.Respacing
import Costing.Proofs.GeneratedName
import Costing.Proofs.Formula.Ranking
import Costing.Proofs.Formula.Candidate
