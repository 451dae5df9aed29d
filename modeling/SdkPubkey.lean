import SdkPubkey.Lib.Parties
import SdkPubkey.Vault.Rust
import SdkPubkey.Vault.Dart
import SdkPubkey.Vault.Env
import SdkPubkey.Vault.Merge
import SdkPubkey.Vault.Proof.DartExec
import SdkPubkey.Vault.Proof.LocalVault
import SdkPubkey.Vault.Proof.Markers
import SdkPubkey.Vault.Proof.MskPin
import SdkPubkey.Vault.Proof.Lockout
import SdkPubkey.Vault.Proof.Rollback
import SdkPubkey.Vault.Host
import SdkPubkey.Vault.Proof.RustExec
import SdkPubkey.Vault.RustHost
import SdkPubkey.Lib.EncodedGroup
import SdkPubkey.Oprf.Rfc9497
import SdkPubkey.Oprf.Modes
import SdkPubkey.Pairing.Cpace
import SdkPubkey.Pairing.Protocol
import SdkPubkey.Pairing.Flow
import SdkPubkey.Signing.Separation
import SdkPubkey.Discovery.Delivery
import SdkPubkey.Discovery.Agreement
import SdkPubkey.Discovery.PlainFields
import SdkPubkey.Sync.Folder
import SdkPubkey.Sync.FolderRuns
import SdkPubkey.Lib.Joint
import SdkPubkey.Pairing.Agreement
import SdkPubkey.Pairing.Together
import SdkPubkey.Vault.Proof.Heads
import SdkPubkey.Sync.WebDav
import SdkPubkey.Sync.WebDavRuns
import SdkPubkey.Sync.WebDavPush
import SdkPubkey.Oprf.Dleq
import SdkPubkey.Lib.Framing
import SdkPubkey.Oprf.Framing
import SdkPubkey.Pairing.Framing
import SdkPubkey.Vault.Proof.Normalized
import SdkPubkey.Ckvf.Keys
import SdkPubkey.Vault.Keys
import SdkPubkey.Vault.Proof.Commit
import SdkPubkey.Vault.Proof.Revoke
import SdkPubkey.Vault.Proof.Import
import SdkPubkey.Vault.Proof.Recovery
import SdkPubkey.Lib.FileTree
import SdkPubkey.Sync.Store
import SdkPubkey.Sync.StoreRuns
import SdkPubkey.Vault.Export
import SdkPubkey.Vault.Proof.Export
import SdkPubkey.Pairing.Folder
import SdkPubkey.Pairing.FolderRuns
import SdkPubkey.Vault.Proof.Writes
import SdkPubkey.Vault.Proof.Reopen
import SdkPubkey.Discovery.Optimum
import SdkPubkey.Lib.Text
import SdkPubkey.Discovery.Grant
import SdkPubkey.Discovery.Identity
import SdkPubkey.Lib.Outcome
import SdkPubkey.OpenPgp.Packets
import SdkPubkey.OpenPgp.KeyId
import SdkPubkey.Lib.Percent
import SdkPubkey.Pairing.Uri
import SdkPubkey.Lib.Search
import SdkPubkey.OpenPgp.Armor
import SdkPubkey.Discovery.Wire
import SdkPubkey.Discovery.Document
import SdkPubkey.Discovery.Nulls
import SdkPubkey.Lib.Radix
import SdkPubkey.Pairing.Password
import SdkPubkey.Discovery.Mailer
import SdkPubkey.Vault.Proof.KeyMeta
import SdkPubkey.Discovery.Jcs
import SdkPubkey.Discovery.Device
import SdkPubkey.Discovery.Envelope
import SdkPubkey.Vault.Proof.HostSync
import SdkPubkey.Vault.Proof.HostKeys
import SdkPubkey.Vault.Proof.Joining
import SdkPubkey.Lib.Ledger
import SdkPubkey.Vault.SyncStore
import SdkPubkey.Vault.Proof.SyncLedger
import SdkPubkey.Vault.Proof.SyncMethods
import SdkPubkey.Vault.Proof.SyncRuns
import SdkPubkey.Vault.Proof.SyncPush
import SdkPubkey.Vault.Proof.SyncFolder
import SdkPubkey.Vault.FakeHost
import SdkPubkey.Vault.Proof.FakeHost
import SdkPubkey.Lib.Futures
import SdkPubkey.Vault.Locked
import SdkPubkey.Vault.Proof.Locked
import SdkPubkey.Vault.Clients
import SdkPubkey.Vault.Proof.DartKeeps
import SdkPubkey.Vault.Proof.ClientHost
import SdkPubkey.Vault.Proof.ClientMethods
import SdkPubkey.Vault.Proof.ClientRuns
