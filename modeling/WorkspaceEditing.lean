import WorkspaceEditing.Apply.CodeAction
import WorkspaceEditing.Apply.Cursor
import WorkspaceEditing.Apply.Files
import WorkspaceEditing.Apply.Marks
import WorkspaceEditing.Apply.Report
import WorkspaceEditing.Apply.TextEdits
import WorkspaceEditing.Apply.Workspace
import WorkspaceEditing.Config
import WorkspaceEditing.Config.Document
import WorkspaceEditing.Disk.Basic
import WorkspaceEditing.Disk.Error
import WorkspaceEditing.Disk.Operations
import WorkspaceEditing.Disk.Walk
import WorkspaceEditing.Domain.Composition
import WorkspaceEditing.Domain.Direction
import WorkspaceEditing.Domain.Joining
import WorkspaceEditing.Domain.Label
import WorkspaceEditing.Domain.Mapping
import WorkspaceEditing.Domain.Mapping.Disallowed
import WorkspaceEditing.Domain.Mapping.Letter
import WorkspaceEditing.Domain.Mapping.Sequence
import WorkspaceEditing.Domain.Name
import WorkspaceEditing.Domain.NormalForm
import WorkspaceEditing.Domain.Punycode
import WorkspaceEditing.Editor.Basic
import WorkspaceEditing.Editor.Operations
import WorkspaceEditing.Host
import WorkspaceEditing.Host.Watched
import WorkspaceEditing.Json
import WorkspaceEditing.Path
import WorkspaceEditing.Pieces
import WorkspaceEditing.Proofs.Apply.Failing
import WorkspaceEditing.Proofs.Apply.Fate
import WorkspaceEditing.Proofs.Apply.Foreign
import WorkspaceEditing.Proofs.Apply.Keeps
import WorkspaceEditing.Proofs.Apply.Refused
import WorkspaceEditing.Proofs.Apply.Rename
import WorkspaceEditing.Proofs.Apply.Reordered
import WorkspaceEditing.Proofs.Batch.After
import WorkspaceEditing.Proofs.Batch.Behind
import WorkspaceEditing.Proofs.Batch.Calls
import WorkspaceEditing.Proofs.Batch.Checked
import WorkspaceEditing.Proofs.Batch.Covered
import WorkspaceEditing.Proofs.Batch.Cursor
import WorkspaceEditing.Proofs.Batch.Edit
import WorkspaceEditing.Proofs.Batch.Encoded
import WorkspaceEditing.Proofs.Batch.Followed
import WorkspaceEditing.Proofs.Batch.Marks
import WorkspaceEditing.Proofs.Batch.Rearranged
import WorkspaceEditing.Proofs.Batch.Run
import WorkspaceEditing.Proofs.Batch.Single
import WorkspaceEditing.Proofs.Batch.Snapped
import WorkspaceEditing.Proofs.Batch.Spared
import WorkspaceEditing.Proofs.Batch.Splice
import WorkspaceEditing.Proofs.Batch.Subsequence
import WorkspaceEditing.Proofs.Batch.Windows
import WorkspaceEditing.Proofs.Disk.Effect
import WorkspaceEditing.Proofs.Disk.Files
import WorkspaceEditing.Proofs.Disk.OneFile
import WorkspaceEditing.Proofs.Disk.Operations
import WorkspaceEditing.Proofs.Disk.Presence
import WorkspaceEditing.Proofs.Disk.Respelled
import WorkspaceEditing.Proofs.Disk.Revisit
import WorkspaceEditing.Proofs.Disk.Tree
import WorkspaceEditing.Proofs.Disk.Walk
import WorkspaceEditing.Proofs.Editor.Calls
import WorkspaceEditing.Proofs.Editor.Carry
import WorkspaceEditing.Proofs.Editor.Deletion
import WorkspaceEditing.Proofs.Editor.Files
import WorkspaceEditing.Proofs.Editor.Flush
import WorkspaceEditing.Proofs.Editor.Move
import WorkspaceEditing.Proofs.Editor.Paths
import WorkspaceEditing.Proofs.Editor.Replacement
import WorkspaceEditing.Proofs.Editor.Sound
import WorkspaceEditing.Proofs.Editor.Splicing
import WorkspaceEditing.Proofs.Host.Account
import WorkspaceEditing.Proofs.Host.Action
import WorkspaceEditing.Proofs.Host.Watched
import WorkspaceEditing.Proofs.Path.Names
import WorkspaceEditing.Proofs.Protocol.Order
import WorkspaceEditing.Proofs.Session.Confined
import WorkspaceEditing.Proofs.Session.Creation
import WorkspaceEditing.Proofs.Session.Cursor
import WorkspaceEditing.Proofs.Session.Deletion
import WorkspaceEditing.Proofs.Session.Invariant
import WorkspaceEditing.Proofs.Session.Marks
import WorkspaceEditing.Proofs.Session.Rename
import WorkspaceEditing.Proofs.Session.Sound
import WorkspaceEditing.Proofs.Session.Steps
import WorkspaceEditing.Proofs.Session.WholeLines
import WorkspaceEditing.Proofs.Session.WrittenBack
import WorkspaceEditing.Proofs.Text.Column
import WorkspaceEditing.Proofs.Text.Cut
import WorkspaceEditing.Proofs.Text.Exact
import WorkspaceEditing.Proofs.Text.Extent
import WorkspaceEditing.Proofs.Text.LineBreaks
import WorkspaceEditing.Proofs.Text.Mark
import WorkspaceEditing.Proofs.Text.Place
import WorkspaceEditing.Proofs.Text.Reading
import WorkspaceEditing.Proofs.Uri.RoundTrip
import WorkspaceEditing.Proofs.Uri.Scheme
import WorkspaceEditing.Proofs.Uri.Segment
import WorkspaceEditing.Protocol.Change
import WorkspaceEditing.Protocol.Command
import WorkspaceEditing.Protocol.Decode
import WorkspaceEditing.Protocol.Position
import WorkspaceEditing.Protocol.TextEdit
import WorkspaceEditing.Text.Encoding
import WorkspaceEditing.Text.Lines
import WorkspaceEditing.Text.Mark
import WorkspaceEditing.Text.Position
import WorkspaceEditing.Text.Splice
import WorkspaceEditing.Toml.Document
import WorkspaceEditing.Toml.Table
import WorkspaceEditing.Toml.Token
import WorkspaceEditing.Unicode.CharSet
import WorkspaceEditing.Unicode.CombiningClass
import WorkspaceEditing.Unicode.Mark
import WorkspaceEditing.Uri.FilePath
import WorkspaceEditing.Uri.Host
import WorkspaceEditing.Uri.Percent
import WorkspaceEditing.Uri.Reference
