import GroupUnify.Diophantine.Signed
import GroupUnify.Instance
import GroupUnify.Main
import GroupUnify.Proofs.Batch.Interruption
import GroupUnify.Proofs.CommandLine.Reloading
import GroupUnify.Proofs.Diophantine.ClosedForm
import GroupUnify.Proofs.Diophantine.Descent
import GroupUnify.Proofs.Diophantine.RightHandSides
import GroupUnify.Proofs.Register.WellFormed
import GroupUnify.Proofs.Report.Answers
import GroupUnify.Proofs.Term.Composition
import GroupUnify.Proofs.Term.Pairs
import GroupUnify.Proofs.Token.Splitting
import GroupUnify.Proofs.Unification.Freshness
import GroupUnify.Proofs.Unification.Scaling
import GroupUnify.Proofs.Unification.Unknowns
