import CrudAuth.Concurrency.Program
import CrudAuth.Concurrency.Interleaving
import CrudAuth.Models.User
import CrudAuth.Runtime
import CrudAuth.Utils.Hashing
import CrudAuth.Requests
import CrudAuth.World
import CrudAuth.Repository
import CrudAuth.Sessions.Manager
import CrudAuth.Transports.Authenticate
import CrudAuth.Mfa.Service
import CrudAuth.Core
import CrudAuth.Email.Service
import CrudAuth.Account.Router
import CrudAuth.OAuth.Service
import CrudAuth.Sudo
import CrudAuth.Routes
import CrudAuth.World.Steps
import CrudAuth.Discipline.Account
import CrudAuth.Discipline.Email
import CrudAuth.Discipline.Handlers
import CrudAuth.Discipline.Login
import CrudAuth.Discipline.Mfa
import CrudAuth.Discipline.OAuth
import CrudAuth.Discipline.Repository
import CrudAuth.Discipline.Rules
import CrudAuth.Discipline.Sudo
import CrudAuth.Invariants.Fresh
import CrudAuth.Invariants.Rows
import CrudAuth.Scenario
import CrudAuth.Properties.Enrollment
import CrudAuth.Properties.PasswordWrites
import CrudAuth.Properties.PendingSecrets
import CrudAuth.Properties.RecoveryTokens
import CrudAuth.Discipline.Sessions
import CrudAuth.Invariants.Stores
import CrudAuth.Invariants.Epochs
import CrudAuth.Properties.Eviction
import CrudAuth.RateLimit.Backend
import CrudAuth.RateLimit.Policy
import CrudAuth.RateLimit.Counting
import CrudAuth.RateLimit.CounterBackends
import CrudAuth.Properties.AttemptCap
import CrudAuth.Properties.TimeSteps
import CrudAuth.Invariants.Codes
import CrudAuth.Properties.RecoveryCodes
import CrudAuth.Invariants.Challenges
import CrudAuth.Properties.LoginChallenges
import CrudAuth.Resolution.Resolver
import CrudAuth.Properties.CsrfCache
import CrudAuth.Resolution.Moment
import CrudAuth.Properties.CachedPrincipals
import CrudAuth.Storage.Memory
import CrudAuth.Storage.Database
import CrudAuth.Storage.Redis
import CrudAuth.Storage.Discipline
import CrudAuth.Storage.Backends
import CrudAuth.Email.TokenStore
import CrudAuth.Discipline.TokenStore
import CrudAuth.Properties.SingleUse
import CrudAuth.Concurrency.Layers
import CrudAuth.Hashing.Text
import CrudAuth.Hashing.KeySchedule
import CrudAuth.Hashing.Source
import CrudAuth.Hashing.Upgrade
import CrudAuth.Hashing.Cost
import CrudAuth.Hashing.PlainBcrypt
import CrudAuth.Hashing.Scenario
import CrudAuth.Hashing.Refinement
import CrudAuth.Registration.Columns
import CrudAuth.Registration.Gating
import CrudAuth.Registration.Table
import CrudAuth.Registration.OAuthAccounts
import CrudAuth.Registration.Addresses
import CrudAuth.Registration.Identities
import CrudAuth.Registration.SignUps
import CrudAuth.Registration.Linking
import CrudAuth.Registration.AccountHistory
import CrudAuth.Registration.Usernames
import CrudAuth.Registration.NonEnumeration
import CrudAuth.Utils.Http
import CrudAuth.Utils.UrlParser
import CrudAuth.Utils.Redirects
import CrudAuth.Concurrency.Observed
import CrudAuth.Storage.Records
import CrudAuth.Storage.CompareAndSet
import CrudAuth.Storage.Agreement
import CrudAuth.SessionStore.Timeouts
import CrudAuth.SessionStore.Coherence
import CrudAuth.SessionStore.SessionCap
import CrudAuth.Storage.MemoryRefines
import CrudAuth.Storage.DatabaseRefines
import CrudAuth.Storage.Purge
import CrudAuth.Storage.AmortizedPurge
import CrudAuth.RateLimit.FixedWindow
import CrudAuth.Storage.SelectAndDelete
import CrudAuth.RateLimit.Escalation
import CrudAuth.RateLimit.KeyRows
import CrudAuth.RateLimit.RowRuns
import CrudAuth.Properties.RoundCounters
import CrudAuth.Storage.ShortenedKeys
import CrudAuth.Storage.DeletePattern
import CrudAuth.Storage.ListedSessions
import CrudAuth.OAuth.Router
import CrudAuth.Storage.Deposits
import CrudAuth.Discipline.OAuthRouter
import CrudAuth.Properties.OAuthStates
import CrudAuth.RateLimit.Sudo
import CrudAuth.Properties.SudoCap
import CrudAuth.Properties.Lockouts
import CrudAuth.Storage.Modifications
import CrudAuth.SessionStore.Fields
import CrudAuth.Properties.SessionWrites
import CrudAuth.RateLimit.AttemptCounters
import CrudAuth.RateLimit.Pressure
import CrudAuth.Properties.IpPressure
import CrudAuth.SessionStore.Devices
import CrudAuth.Properties.SignedOut
import CrudAuth.Transports.Tokens
import CrudAuth.Transports.Bearer
import CrudAuth.Properties.TokenOrigins
import CrudAuth.OAuth.Discovery
import CrudAuth.Properties.OidcEndpoints
import CrudAuth.Concurrency.Footprint
import CrudAuth.Discipline.Footprints
import CrudAuth.Discipline.FreshProofs
import CrudAuth.Invariants.SessionOrigins
import CrudAuth.Properties.FreshProofs
import CrudAuth.Utils.IpAddress
import CrudAuth.Utils.ClientIp
import CrudAuth.RateLimit.Dependency
import CrudAuth.Properties.Budgets
import CrudAuth.Properties.RateLimitHeaders
