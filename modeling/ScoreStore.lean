import ScoreStore.Main
import ScoreStore.Proofs.Bytes
import ScoreStore.Proofs.Score.Value
import ScoreStore.Proofs.SortedSet.Sound
import ScoreStore.Proofs.SortedSet.ScoreMap
import ScoreStore.Proofs.Keyspace.Sound
import ScoreStore.Proofs.Keyspace.Writes
import ScoreStore.Proofs.Command.Writes
import ScoreStore.Proofs.Journal
import ScoreStore.Proofs.Moves
import ScoreStore.Proofs.Keyspace.Tallied
import ScoreStore.Proofs.Connection.Tallied
import ScoreStore.Proofs.Connection.Witnessed
import ScoreStore.Proofs.Server.Run
import ScoreStore.Proofs.Server.Keyspace
import ScoreStore.Proofs.Connection.Fits
import ScoreStore.Proofs.Server.Fits
import ScoreStore.Proofs.Server.Locking
import ScoreStore.Proofs.Connection.Turn
import ScoreStore.Proofs.Server.Queueing
import ScoreStore.Proofs.Request.Reader
import ScoreStore.Proofs.Request.Cuts
import ScoreStore.Proofs.Request.Stream
import ScoreStore.Proofs.Request.RoundTrip
import ScoreStore.Proofs.Reply.Pieces
import ScoreStore.Proofs.Connection.Records
import ScoreStore.Proofs.Connection.Replies
import ScoreStore.Proofs.Server.Replies
import ScoreStore.Proofs.Server.Transactions
import ScoreStore.Proofs.Request.Grammar
import ScoreStore.Proofs.Request.Positions
import ScoreStore.Proofs.Server.Safety
import ScoreStore.Proofs.Command.Entry
import ScoreStore.Proofs.Keyspace.Kept
import ScoreStore.Proofs.Server.Kept
import ScoreStore.Proofs.Command.Effect
import ScoreStore.Proofs.Connection.Local
import ScoreStore.Proofs.Server.Locality
import ScoreStore.Proofs.Range.Cut
import ScoreStore.Proofs.Server.Listing
import ScoreStore.Proofs.Command.Typed
import ScoreStore.Proofs.Server.Typed
import ScoreStore.Proofs.Command.Keys
import ScoreStore.Proofs.Connection.Selected
import ScoreStore.Proofs.Server.Selected
import ScoreStore.Proofs.Command.Removal
import ScoreStore.Proofs.Range.Window
import ScoreStore.Proofs.Server.Finding
import ScoreStore.Proofs.Server.Positions
import ScoreStore.Proofs.Server.Removal
import ScoreStore.Proofs.SortedSet.Rules
import ScoreStore.Proofs.Command.Additions
import ScoreStore.Proofs.Server.AddWords
import ScoreStore.Proofs.Server.Additions
import ScoreStore.Proofs.Range.Mirror
import ScoreStore.Proofs.Server.Mirror
import ScoreStore.Proofs.SortedSet.Position
import ScoreStore.Proofs.Server.Ranking
import ScoreStore.Proofs.Request.Spelling
import ScoreStore.Proofs.Request.Forms
import ScoreStore.Proofs.Text.Utf8
import ScoreStore.Proofs.Text.Lowercase
import ScoreStore.Proofs.Server.Naming
import ScoreStore.Proofs.Range.Page
import ScoreStore.Proofs.Server.Pages
import ScoreStore.Proofs.Settings
