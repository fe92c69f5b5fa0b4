import NasOs.Library.Pool
import NasOs.System.Users
import NasOs.Users.Requests
import NasOs.Users.Chpasswd
import NasOs.Library.Json
import NasOs.Library.RoseTree
import NasOs.Library.JsonReading
import NasOs.Storage.Guard
import NasOs.Storage.Steps
import NasOs.Library.Path
import NasOs.Storage.Execute
import NasOs.Library.Traverse
import NasOs.Storage.Safety
import NasOs.Library.Acl
import NasOs.System.Acl
import NasOs.Acl.Commands
import NasOs.Library.Protocol
import NasOs.Acl.Interleaving
import NasOs.Acl.RoundTrip
import NasOs.Uploads.Handlers
import NasOs.Uploads.Worker
import NasOs.Uploads.Inherited
import NasOs.Uploads.Interleaving
import NasOs.Storage.Plans
import NasOs.Storage.Submission
import NasOs.Storage.Dropins
import NasOs.Storage.Registration
import NasOs.Uploads.Conflicts
import NasOs.Library.Base64
import NasOs.Library.Triple
import NasOs.Uploads.Requests
import NasOs.Uploads.Parts
import NasOs.Uploads.Resuming
import NasOs.Uploads.Completion
import NasOs.Agent.Idle
import NasOs.Agent.Children
import NasOs.System.ManagedFile
import NasOs.System.Rollback
import NasOs.Library.SmbConf
import NasOs.Shares.Config
import NasOs.System.Shares
import NasOs.Shares.Requests
import NasOs.Shares.World
import NasOs.Agent.Concurrency
import NasOs.Agent.Reports
import NasOs.Storage.Planning
import NasOs.Storage.Preview
import NasOs.Storage.Tools
import NasOs.System.JsonValues
import NasOs.System.Lsblk
import NasOs.System.Lvm
import NasOs.Storage.Inventory
import NasOs.Library.Table
import NasOs.Web.Sessions
import NasOs.Storage.Completion
import NasOs.Rpc.Transport
import NasOs.Users.Backends
import NasOs.Users.Protocol
import NasOs.Users.Synced
import NasOs.System.Failures
import NasOs.Users.Leftovers
import NasOs.Agent.Supervisor
import NasOs.Library.Tracing
import NasOs.Storage.Outcome
import NasOs.System.Firewall
import NasOs.Library.DataFlow
import NasOs.Storage.DataFlow
import NasOs.Web.Endpoint
import NasOs.Web.Hub
import NasOs.Web.Delivery
import NasOs.Web.Topics
import NasOs.Acl.Agreement
import NasOs.Shares.Access
import NasOs.Library.Lines
import NasOs.System.Samba
import NasOs.Files.Content
import NasOs.Library.FileTree
import NasOs.Files.Deleting
import NasOs.Files.Archive
import NasOs.Files.Copying
import NasOs.Library.Glob
import NasOs.System.Backups
import NasOs.Uploads.Length
import NasOs.Uploads.Rows
import NasOs.Uploads.Reachable
import NasOs.Agent.Connection
import NasOs.Agent.Framing
import NasOs.Desktop.Order
import NasOs.Files.Ranges
import NasOs.System.Mdadm
import NasOs.Storage.Arrays
import NasOs.Uploads.Metadata
import NasOs.Uploads.Space
import NasOs.Library.Words
import NasOs.System.Mounts
import NasOs.Storage.Gather
import NasOs.Shares.Paths
import NasOs.Shares.Linked
import NasOs.Shares.Raised
import NasOs.Shares.Stored
import NasOs.Shares.Applied
import NasOs.Agent.Calls
import NasOs.Storage.Health
import NasOs.Files.Moving
import NasOs.Agent.Progress
import NasOs.Web.Authority
import NasOs.Desktop.Shell
import NasOs.Files.Browsing
