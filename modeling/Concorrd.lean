import Concorrd.Lib.Lww
import Concorrd.Porch.Error
import Concorrd.Porch.Rows
import Concorrd.Porch.Database
import Concorrd.Porch.Clock
import Concorrd.Porch.Accounts
import Concorrd.Porch.State
import Concorrd.Porch.Channels
import Concorrd.Porch.Knock
import Concorrd.Porch.Obsidian
import Concorrd.Porch.Theme
import Concorrd.Sync.Merge
import Concorrd.Sync.Protocol
import Concorrd.Sync.Batch
import Concorrd.Sync.MergeLaw
import Concorrd.HeroSync.ConflictQueue
import Concorrd.HeroSync.Protocol
import Concorrd.Porch.LocalOp
import Concorrd.Porch.Migrate
import Concorrd.Lib.Run
import Concorrd.Sync.Exchange
import Concorrd.Sync.Network
import Concorrd.Sync.Replication
import Concorrd.HeroSync.Convergence
import Concorrd.Sync.Wedge
import Concorrd.Sync.Dominance
import Concorrd.Porch.Users
import Concorrd.Sync.AccountDominance
import Concorrd.Sync.Evolution
import Concorrd.Porch.Backup
import Concorrd.Sync.Fleet
import Concorrd.Porch.ConflictAgent
import Concorrd.HeroSync.HandOff
import Concorrd.HeroSync.Detection
import Concorrd.HeroSync.Coverage
import Concorrd.Agent.Runs
import Concorrd.Agent.Verdicts
import Concorrd.Agent.Budget
import Concorrd.Agent.HandOver
import Concorrd.Lib.TwoWay
import Concorrd.Porch.Readers
import Concorrd.Sync.KnockMerge
import Concorrd.Porch.Vault
import Concorrd.Porch.Handler
import Concorrd.Visitor.Exposed
import Concorrd.Visitor.Writes
import Concorrd.Visitor.OwnerOnly
import Concorrd.Visitor.Purge
import Concorrd.Visitor.PurgeRequests
import Concorrd.Visitor.Tombstones
import Concorrd.Lib.Staged
import Concorrd.Lib.Page
import Concorrd.Lib.JsonText
import Concorrd.Lib.Base64
import Concorrd.Porch.Disk
import Concorrd.Porch.Upgrade
import Concorrd.Porch.CrashSafety
import Concorrd.Sync.PrimaryProfile
import Concorrd.History.Protocol
import Concorrd.History.HopChain
import Concorrd.History.Latest
import Concorrd.Porch.Wire
import Concorrd.Visitor.Frames
import Concorrd.Lib.LexicalPath
import Concorrd.Porch.AssetFiles
import Concorrd.Visitor.AssetReads
import Concorrd.Sync.VaultBinding
import Concorrd.Porch.Visibility
import Concorrd.Sync.VisibilityRuns
import Concorrd.Porch.ReceivedBackups
import Concorrd.Visitor.BackupPeer
import Concorrd.HeroSync.Atomicity
import Concorrd.Lib.Bytes
import Concorrd.User.Descriptor
import Concorrd.User.Protocol
import Concorrd.HeroSync.HeroBinding
import Concorrd.HeroSync.Gate
import Concorrd.HeroSync.Authorization
import Concorrd.Lib.Replay
import Concorrd.Lib.Forest
import Concorrd.User.MergeView
import Concorrd.User.TrustStore
import Concorrd.User.LogOrder
import Concorrd.User.Revocation
import Concorrd.User.CrashRecovery
import Concorrd.User.Authority
import Concorrd.User.SigningBytes
import Concorrd.Peer.Store
import Concorrd.Peer.Gates
import Concorrd.Peer.Connections
import Concorrd.Peer.WgTunnel
import Concorrd.Servitude.Transport
import Concorrd.Servitude.Handle
import Concorrd.Servitude.Identity
import Concorrd.Servitude.Rollback
import Concorrd.Servitude.Restarts
import Concorrd.Voice.Call
import Concorrd.Voice.PeerConnection
import Concorrd.Voice.Routing
import Concorrd.Voice.Mesh
import Concorrd.Voice.Glare
import Concorrd.Lib.RowTable
import Concorrd.Api.Models
import Concorrd.Api.Servers
import Concorrd.Api.Channels
import Concorrd.Api.Invites
import Concorrd.Api.Moderation
import Concorrd.Api.Admin
import Concorrd.Api.Remint
import Concorrd.Api.Requests
import Concorrd.Api.Roster
import Concorrd.Api.Moves
import Concorrd.Api.BannedMembers
import Concorrd.Api.InstanceBans
import Concorrd.Api.OwnerProtection
import Concorrd.Api.InviteBudget
import Concorrd.Api.PasswordReset
import Concorrd.Lib.Dict
import Concorrd.Lib.Toml
import Concorrd.Lib.TomlLines
import Concorrd.Lib.Ip
import Concorrd.Api.Document
import Concorrd.Api.FirstBoot
import Concorrd.Api.Extensions
import Concorrd.Api.ExtensionRegistry
import Concorrd.Api.ExtensionPipelines
import Concorrd.Api.ExtProxy
import Concorrd.Api.TuwunelConfig
import Concorrd.Api.FederationAllowlist
import Concorrd.Api.LinkPreview
import Concorrd.Lib.Utf8
import Concorrd.Lib.JsonRead
import Concorrd.Peer.Cards
import Concorrd.Lib.JsText
import Concorrd.Rooms.Messages
import Concorrd.Rooms.RoomView
import Concorrd.Visitor.VisitStore
import Concorrd.Sources.Store
import Concorrd.Sources.Accounts
import Concorrd.Extension.Cloned
import Concorrd.Extension.Verbs
import Concorrd.Lib.Newest
import Concorrd.Extension.Session
import Concorrd.Lib.Url
import Concorrd.Extension.BrowserSurface
import Concorrd.Extension.LaunchUrls
import Concorrd.Extension.Running
import Concorrd.Rooms.OrphanCleanup
import Concorrd.Rooms.Sidebar
import Concorrd.Rooms.Selection
import Concorrd.Api.Reorder
import Concorrd.Rooms.Reorder
import Concorrd.Rooms.Unread
import Concorrd.Porch.Ephemeral
import Concorrd.History.Posting
import Concorrd.Lib.FileMap
import Concorrd.Api.CatalogInstall
import Concorrd.Voice.Participants
import Concorrd.Lib.LengthFrame
import Concorrd.Porch.WireRead
import Concorrd.Porch.Visit
import Concorrd.Agent.Symmetry
import Concorrd.Peer.Invariant
import Concorrd.Lib.Walk
import Concorrd.Voice.NoiseGate
import Concorrd.Porch.KnockLifecycle
import Concorrd.Lib.FrameStream
import Concorrd.Porch.HomeExport
import Concorrd.Lib.Cursor
import Concorrd.History.Paging
import Concorrd.Lib.FileTree
import Concorrd.Lib.PlainPattern
import Concorrd.Porch.VaultNames
import Concorrd.Porch.VaultTree
import Concorrd.Porch.VaultConfined
import Concorrd.Porch.VaultAgreement
import Concorrd.Api.Positions
import Concorrd.Lib.Spans
import Concorrd.Api.VoiceSessions
import Concorrd.Api.RateLimits
import Concorrd.Api.TokenBucket
import Concorrd.Api.AuthCache
import Concorrd.Porch.ExportPackage
import Concorrd.Peer.BrowserStore
import Concorrd.Voice.Watchdog
import Concorrd.Api.Totp
import Concorrd.Visitor.Crowd
import Concorrd.Api.VoteKicks
