import MailDock.Lib.Table
import MailDock.Domain.Messages
import MailDock.Repository.Tables
import MailDock.Repository.Writes
import MailDock.Repository.Merge
import MailDock.Repository.AddMessage
import MailDock.Repository.Ownership
import MailDock.Lib.Trace
import MailDock.Domain.Time
import MailDock.Manifest.Events
import MailDock.Repository.Queries
import MailDock.App.Rules
import MailDock.DeleteRemote.Program
import MailDock.Repository.Status
import MailDock.DeleteRemote.Guard
import MailDock.DeleteRemote.Commit
import MailDock.DeleteRemote.Candidate
import MailDock.DeleteRemote.Execute
import MailDock.DeleteRemote.Preflight
import MailDock.DeleteRemote.Safety
import MailDock.DeleteRemote.Accounting
import MailDock.Imap.Fetch
import MailDock.Imap.Mailboxes
import MailDock.Imap.Order
import MailDock.Imap.Utf7
import MailDock.Sync.Flags
import MailDock.Sync.Program
import MailDock.App.Footprint
import MailDock.Sync.Steps
import MailDock.Sync.Walk
import MailDock.Sync.Durability
import MailDock.Repository.Frames
import MailDock.Repository.Rows
import MailDock.Sync.Detection
import MailDock.Sync.Coherence
import MailDock.Manifest.Intents
import MailDock.Sync.Retention
import MailDock.Sync.WriteOrder
import MailDock.App.Calm
import MailDock.DeleteRemote.Reconcile
import MailDock.Lib.Forest
import MailDock.Lib.Chain
import MailDock.Lib.Json
import MailDock.Lib.JsonRoundTrip
import MailDock.Lib.Checksum
import MailDock.Lib.LineLog
import MailDock.Manifest.Wire
import MailDock.Manifest.PstWire
import MailDock.Manifest.TornTail
import MailDock.Lib.Search
import MailDock.Lib.Segments
import MailDock.Manifest.Rotation
import MailDock.Manifest.Payload
import MailDock.Manifest.Accepted
import MailDock.Trash.Crash
import MailDock.Trash.Purge
import MailDock.Trash.Recovery
import MailDock.Sync.Repetition
import MailDock.Domain.Stamps
import MailDock.Lib.Keyset
import MailDock.Search.Pages
import MailDock.Search.Listing
import MailDock.Search.Count
import MailDock.Presentation.TableModel
import MailDock.Storage.Lock
import MailDock.Presentation.Paging
import MailDock.Sync.Folders
import MailDock.Storage.Quarantine
import MailDock.Storage.Orphans
import MailDock.Trash.Interrupt
import MailDock.Trash.Standing
import MailDock.Trash.Startup
import MailDock.Trash.Refetch
import MailDock.Reindex.Replay
import MailDock.Reindex.Program
import MailDock.Reindex.Restore
import MailDock.Pst.Isolation
import MailDock.Pst.Recovery
import MailDock.Pst.Trash
import MailDock.Pst.Lifecycle
import MailDock.Pst.Decisions
import MailDock.Pst.Idempotency
import MailDock.Pst.Staging
import MailDock.Pst.Snapshots
import MailDock.Pst.StageA
import MailDock.Pst.StageB
import MailDock.Pst.Worker
import MailDock.Pst.Reattach
import MailDock.Pst.StageRules
import MailDock.Pst.StageKeeps
import MailDock.Pst.Standing
import MailDock.Pst.Resumed
import MailDock.Parsing.Sanitizer
import MailDock.Parsing.Reparse
import MailDock.Sync.ForceFetch
import MailDock.Storage.Dangling
import MailDock.Imap.FetchLine
import MailDock.Imap.FetchReading
import MailDock.Imap.FetchSearch
import MailDock.Domain.Calendar
import MailDock.Trash.Grace
import MailDock.Repository.FlagRows
import MailDock.Sync.FlagHistory
import MailDock.Sync.FlagScan
import MailDock.Sync.FlagReports
import MailDock.Sync.FlagRefresh
import MailDock.Sync.FlagRuns
import MailDock.Sync.FlagLosses
import MailDock.Domain.IdentityKey
import MailDock.Search.Quoting
import MailDock.Domain.Text
import MailDock.Parsing.Parameters
import MailDock.DeleteRemote.Plan
import MailDock.Lib.Utf8
import MailDock.Parsing.Filename
import MailDock.Parsing.Headers
import MailDock.Parsing.Eml
import MailDock.Attachments.Names
import MailDock.Lib.Fuel
import MailDock.Attachments.Folder
import MailDock.Attachments.Save
import MailDock.Attachments.Export
import MailDock.Storage.Monitor
import MailDock.Presentation.Requests
import MailDock.Repository.Migrations
import MailDock.Search.Results
