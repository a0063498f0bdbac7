import Rulebook.Main
import Rulebook.Proofs.Accumulation
import Rulebook.Proofs.Atomicity
import Rulebook.Proofs.DecisionLog.Rollback
import Rulebook.Proofs.DecisionLog.Session
import Rulebook.Proofs.DecisionLog.Writes
import Rulebook.Proofs.Derivations
import Rulebook.Proofs.DerivedFields
import Rulebook.Proofs.Engine.Define
import Rulebook.Proofs.Engine.History
import Rulebook.Proofs.Engine.Refusal
import Rulebook.Proofs.Engine.Restart
import Rulebook.Proofs.Engine.Sessions
import Rulebook.Proofs.Engine.Stream
import Rulebook.Proofs.Evaluation
import Rulebook.Proofs.Expression.Quotation
import Rulebook.Proofs.Expression.Usable
import Rulebook.Proofs.Grades
import Rulebook.Proofs.Grades.Distribution
import Rulebook.Proofs.Kinds
import Rulebook.Proofs.Listing
import Rulebook.Proofs.LiveFields
import Rulebook.Proofs.Notations
import Rulebook.Proofs.OwnText
import Rulebook.Proofs.Registrations
import Rulebook.Proofs.Replay
import Rulebook.Proofs.RequiredFields
import Rulebook.Proofs.RuleSetText
import Rulebook.Proofs.Summary
import Rulebook.Proofs.Trace
import Rulebook.Proofs.Validation
