import Autolean.Machine.RelyGuarantee
import Autolean.ControlPlane.LeaseRuns
import Autolean.ControlPlane.ClaimTrail
import Autolean.ControlPlane.Verdicts
import Autolean.ControlPlane.Atomicity
import Autolean.ControlPlane.Circuit
import Autolean.Builder.Contract
import Autolean.Prover.Candidate
import Autolean.Prover.Invocation
import Autolean.Benchmarks.Fencing
import Autolean.Benchmarks.Agreement
import Autolean.Benchmarks.FateRoundTrip
import Autolean.Benchmarks.FateMask
import Autolean.Builder.ExperienceEstimate
import Autolean.Builder.ExperienceImage
import Autolean.Builder.TrustedStatement
import Autolean.Builder.PreparationLedger
import Autolean.ControlPlane.ArtifactRuns
import Autolean.Library.CacheSharing
import Autolean.Library.DependencyLinks
import Autolean.Prover.Axioms
import Autolean.Benchmarks.FateSplits
import Autolean.Benchmarks.FateReport
import Autolean.Prover.TrustedVerifier
import Autolean.Prover.ProviderRegistry
import Autolean.Prover.CodexStream
import Autolean.ControlPlane.Leverage
import Autolean.Contracts.Graphs
import Autolean.Benchmarks.ProjectIntegration
import Autolean.Builder.PilotGraph
import Autolean.Builder.ReferenceCapture
import Autolean.Dashboard.HealthMap
import Autolean.Builder.FidelityBinding
import Autolean.Builder.LibraryInputs
import Autolean.Builder.ExperienceRetrieval
import Autolean.ControlPlane.DashboardCounters
import Autolean.ControlPlane.SigningRuns
import Autolean.ControlPlane.RegistrationRuns
import Autolean.ControlPlane.FeedbackReports
import Autolean.Dashboard.ExportedFeedback
import Autolean.Library.LockResume
