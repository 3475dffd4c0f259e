import MercuryTools.Catalog.LocalStoreRuns
import MercuryTools.Catalog.QualificationRaces
import MercuryTools.Execution.AuditOrder
import MercuryTools.Execution.PathConfinement
import MercuryTools.Hosted.ConfirmedContents
import MercuryTools.Hosted.PrepareRetry
import MercuryTools.Hosted.PreviewRoundTrip
import MercuryTools.Framework.CallSystem
import MercuryTools.Credentials.Vault
import MercuryTools.Mcp.PublicationRuns
import MercuryTools.Qualification.FixtureCleanupRuns
import MercuryTools.Qualification.FixturePlanning
import MercuryTools.Qualification.ResponseShape
import MercuryTools.Drivers.ResponseRedaction
import MercuryTools.Rag.Chunking
import MercuryTools.Skills.Routing
import MercuryTools.Db.PublishingRuns
import MercuryTools.Qualification.RunRecovery
import MercuryTools.Framework.VersionedLog
import MercuryTools.Hosted.ConfirmationUniqueness
import MercuryTools.Hosted.SchemaAgreement
import MercuryTools.Hosted.StatusExits
import MercuryTools.Hosted.StoredOperations
import MercuryTools.Hosted.TransitionGuards
import MercuryTools.Providers.CredentialCustody
import MercuryTools.Providers.RevocationObligations
import MercuryTools.Providers.PeakSetupRuns
import MercuryTools.Local.CredentialRuns
import MercuryTools.Local.LedgerRows
import MercuryTools.Local.OperationLockRuns
import MercuryTools.Hosted.DocumentArithmetic
import MercuryTools.Reconciliation.ReportMeaning
import MercuryTools.Flows.NestedRuns
import MercuryTools.Mcp.PublicContract
import MercuryTools.Journals.Balance
import MercuryTools.Providers.DispatchCertainty
