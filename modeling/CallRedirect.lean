import CallRedirect.Main
import CallRedirect.Proofs.Assembly
import CallRedirect.Proofs.EditScript
import CallRedirect.Proofs.Legality
import CallRedirect.Proofs.History
import CallRedirect.Proofs.Idempotence
import CallRedirect.Proofs.Independence
import CallRedirect.Proofs.ReplacementDescriptors
import CallRedirect.Proofs.Batching
import CallRedirect.Proofs.ArtifactTable
import CallRedirect.Proofs.ReportDocument
import CallRedirect.Proofs.RunEffects
import CallRedirect.Proofs.ScanOrder
import CallRedirect.Proofs.MissingMethods
import CallRedirect.Proofs.TableStructure
import CallRedirect.Proofs.RuleIds
import CallRedirect.Proofs.Utf8Reading
import CallRedirect.Proofs.StoredArchive
import CallRedirect.Proofs.ScanAgreement
import CallRedirect.Proofs.IdentifierResolution
import CallRedirect.Proofs.ReportCount
import CallRedirect.Proofs.Tiling
import CallRedirect.Proofs.Truncation
import CallRedirect.Proofs.EventLog
import CallRedirect.Proofs.TargetData
import CallRedirect.Proofs.RuleLoading
import CallRedirect.Proofs.RuleFileParts
import CallRedirect.Proofs.TargetSources
import CallRedirect.Proofs.Concatenation
import CallRedirect.Proofs.IdentifierText
import CallRedirect.Proofs.WordArithmetic
import CallRedirect.Proofs.ArtifactLengths
