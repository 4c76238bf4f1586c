import Syouyu.Lib.Table
import Syouyu.Lib.Tx
import Syouyu.Lib.Run
import Syouyu.Lib.Lease
import Syouyu.Lib.Prog
import Syouyu.Lib.Pool
import Syouyu.Lib.Exec
import Syouyu.Lib.Locks
import Syouyu.Lib.Machine
import Syouyu.Lib.Encoding
import Syouyu.Base
import Syouyu.Json
import Syouyu.Domain
import Syouyu.Store.Models
import Syouyu.Store.Schema
import Syouyu.Store.Receipts
import Syouyu.Store.Calls
import Syouyu.Store.Spec
import Syouyu.Store.Run
import Syouyu.Store.Changes
import Syouyu.Store.Ledger
import Syouyu.Store.Reference
import Syouyu.Store.Idempotency
import Syouyu.Store.Limits
import Syouyu.Store.Lifecycle
import Syouyu.Store.Reconcile
import Syouyu.Store.Links
import Syouyu.Store.Frame
import Syouyu.Store.Names
import Syouyu.Store.Contexts
import Syouyu.Store.Failures
import Syouyu.Store.Parallel
import Syouyu.Store.Integrity
import Syouyu.Store.Reservations
import Syouyu.Store.Completable
import Syouyu.Store.Refusals
import Syouyu.Store.Fits
import Syouyu.Store.Locks
import Syouyu.Store.Credentials
import Syouyu.Store.Usage
import Syouyu.Store.Stock
import Syouyu.Store.Retry
import Syouyu.Garage.Client
import Syouyu.Garage.Body
import Syouyu.Garage.Server
import Syouyu.Api.Errors
import Syouyu.Api.Adapter
import Syouyu.Api.Rules
import Syouyu.Api.Issue
import Syouyu.Api.Provision
import Syouyu.Api.Handlers
import Syouyu.Api.Binding
import Syouyu.Api.Config
import Syouyu.Api.Auth
import Syouyu.Api.Reads
import Syouyu.Api.Router
import Syouyu.Api.Trust
import Syouyu.System.World
import Syouyu.System.Alone
import Syouyu.System.Discipline
import Syouyu.System.Reads
import Syouyu.System.Conduct
import Syouyu.System.Callers
import Syouyu.System.Audit
import Syouyu.System.Grants
import Syouyu.System.Script
import Syouyu.System.Removal
import Syouyu.System.Isolation
import Syouyu.System.Fence
import Syouyu.System.Survival
import Syouyu.System.Clock
import Syouyu.System.Answers
import Syouyu.System.Listing
import Syouyu.System.Deletion
import Syouyu.System.Quotas
import Syouyu.System.Retry
import Syouyu.Registry.Model
import Syouyu.Registry.Store
import Syouyu.Registry.System
import Syouyu.Registry.Answers
import Syouyu.Registry.Views
import Syouyu.Server.Steps
import Syouyu.Server.Script
import Syouyu.Server.Authority
import Syouyu.Server.Views
