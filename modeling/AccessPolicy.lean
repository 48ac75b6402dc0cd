import AccessPolicy.Main
import AccessPolicy.Session.Step
import AccessPolicy.Version.Codec
import AccessPolicy.Proofs.Evaluation.PathErrors
import AccessPolicy.Proofs.Grammar.Completeness
import AccessPolicy.Proofs.Construction.Agreement
import AccessPolicy.Proofs.Factory.Routing
import AccessPolicy.Proofs.Grammar.Slots
import AccessPolicy.Proofs.Store.Retrieval
import AccessPolicy.Proofs.Version.Decoding
import AccessPolicy.Proofs.Factory.Rebuilding
import AccessPolicy.Proofs.Resolution.Constraints
import AccessPolicy.Proofs.CommandLine.CheckRefs
import AccessPolicy.Proofs.Version.Language
import AccessPolicy.Proofs.Grammar.Operands
import AccessPolicy.Proofs.CommandLine.Modes
import AccessPolicy.Proofs.Json.Ordered
import AccessPolicy.Proofs.Grammar.Schema
import AccessPolicy.Proofs.Grammar.Spelling
import AccessPolicy.Proofs.Document.Spelling
import AccessPolicy.Proofs.Construction.Spelling
import AccessPolicy.Proofs.Construction.SizeLimit
import AccessPolicy.Proofs.Document.FirstViolation
import AccessPolicy.Proofs.Document.Delivery
import AccessPolicy.Proofs.Config.Layers
import AccessPolicy.Proofs.Config.NormalForm
import AccessPolicy.Proofs.Grammar.Assembly
