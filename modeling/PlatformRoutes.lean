import PlatformRoutes.Json.Same
import PlatformRoutes.Main
import PlatformRoutes.Session.Run
import PlatformRoutes.Proofs.Disappearance
import PlatformRoutes.Proofs.ErrorAnswers
import PlatformRoutes.Proofs.ExactDeletion
import PlatformRoutes.Proofs.FinishedDeletions
import PlatformRoutes.Proofs.LooseListings
import PlatformRoutes.Proofs.OrphanEvidence
import PlatformRoutes.Proofs.Representation
import PlatformRoutes.Proofs.Retuning
import PlatformRoutes.Proofs.RouteRecords
import PlatformRoutes.Proofs.Sweep
import PlatformRoutes.Proofs.WireListings
import PlatformRoutes.Proofs.Isolation
import PlatformRoutes.Proofs.SettingLayers
import PlatformRoutes.Proofs.Assignments
import PlatformRoutes.Proofs.FileFailures
import PlatformRoutes.Proofs.ForeignDomains
import PlatformRoutes.Proofs.Cancellation
import PlatformRoutes.Proofs.Interruptions
import PlatformRoutes.Proofs.RefusedValues
import PlatformRoutes.Proofs.LazyPaging
import PlatformRoutes.Proofs.Associations
import PlatformRoutes.Proofs.TimeLeft
import PlatformRoutes.Proofs.TakenRoutes
import PlatformRoutes.Proofs.FoundAgain
import PlatformRoutes.Proofs.NormalForms
import PlatformRoutes.Proofs.AlignedTable
import PlatformRoutes.Proofs.LosslessReport
import PlatformRoutes.Proofs.SteadyAddress
import PlatformRoutes.Proofs.TerminalJobs
import PlatformRoutes.Proofs.Spellings
import PlatformRoutes.Proofs.CommandLines
import PlatformRoutes.Proofs.PageCuts
