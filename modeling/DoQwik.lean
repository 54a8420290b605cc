import DoQwik.JsValues
import DoQwik.Collections
import DoQwik.Queries
import DoQwik.Interleave
import DoQwik.Documents
import DoQwik.Operations
import DoQwik.JobsController
import DoQwik.JobWrites
import DoQwik.JobLists
import DoQwik.JobLifecycle
import DoQwik.JobParties
import DoQwik.JobPayments
import DoQwik.JobRaces
import DoQwik.Sequences
import DoQwik.Otp
import DoQwik.UserController
import DoQwik.NumberStrings
import DoQwik.Sessions
import DoQwik.ProviderController
import DoQwik.TokenSecrecy
import DoQwik.JobRecords
import DoQwik.JobPricing
import DoQwik.JobHistory
import DoQwik.JobBookings
import DoQwik.CodeSecrecy
import DoQwik.ProviderAccounts
import DoQwik.WorkerRecords
import DoQwik.Interference
import DoQwik.UniquePhones
import DoQwik.CompanyWorkers
import DoQwik.JobFailures
import DoQwik.JobFeedback
import DoQwik.JobSuccess
import DoQwik.JobReads
import DoQwik.Stages
import DoQwik.FreshKeys
import DoQwik.Parallel
import DoQwik.JobRefs
import DoQwik.JobWorkers
import DoQwik.WorkerRemovals
import DoQwik.UserAddresses
import DoQwik.JobLocations
import DoQwik.AddressBooks
import DoQwik.AddressRaces
import DoQwik.ProviderLogins
import DoQwik.TokenStores
import DoQwik.SessionStores
import DoQwik.LoginRaces
import DoQwik.Knowledge
import DoQwik.Catalogue
import DoQwik.CatalogueStages
import DoQwik.CatalogueOwners
import DoQwik.CatalogueKeys
import DoQwik.CatalogueRaces
import DoQwik.CatalogueEffects
import DoQwik.CatalogueUpserts
import DoQwik.JobNotices
import DoQwik.Calendar
import DoQwik.Amounts
import DoQwik.JobReports
import DoQwik.WorkerEarnings
import DoQwik.Revenues
import DoQwik.Groups
import DoQwik.Dashboard
import DoQwik.ActiveAccounts
import DoQwik.Clocks
import DoQwik.OtpCalls
import DoQwik.OtpLimits
import DoQwik.FirstOccurrences
import DoQwik.Admission
import DoQwik.ServiceWorkers
import DoQwik.KeptInputs
import DoQwik.WorkerGrants
import DoQwik.Completions
import DoQwik.ProviderListings
import DoQwik.TextPatterns
import DoQwik.RegistrationMails
import DoQwik.Footprints
import DoQwik.Receipts
import DoQwik.Spawning
import DoQwik.JobPrograms
import DoQwik.JobIndependence
import DoQwik.JobLedger
import DoQwik.Notifications
import DoQwik.Paging
import DoQwik.JobPages
import DoQwik.AccountArchive
import DoQwik.JobChronology
import DoQwik.Indexes
import DoQwik.PriceBooks
import DoQwik.JobTraces
import DoQwik.SessionEnds
import DoQwik.Exclusion
import DoQwik.JobSerializability
import DoQwik.JobRetries
