import CoqConsole.Buffer.Basic
import CoqConsole.Buffer.Emission
import CoqConsole.Clockwork
import CoqConsole.CommandLine
import CoqConsole.Console.Opening
import CoqConsole.Console.Running
import CoqConsole.Console.Schedule
import CoqConsole.Console.State
import CoqConsole.Console.Tool
import CoqConsole.Console.Visiting
import CoqConsole.Console.Wording
import CoqConsole.Digest.Sha256
import CoqConsole.Failure
import CoqConsole.Files
import CoqConsole.Frame
import CoqConsole.Json.Access
import CoqConsole.Json.Display
import CoqConsole.Json.Entries
import CoqConsole.Json.Key
import CoqConsole.Json.Merge
import CoqConsole.Json.Reader
import CoqConsole.Json.Value
import CoqConsole.Json.Writer
import CoqConsole.Keyed
import CoqConsole.Line.Basic
import CoqConsole.Line.Circuit
import CoqConsole.Line.Lifecycle
import CoqConsole.Line.Reading
import CoqConsole.Line.Requests
import CoqConsole.Main
import CoqConsole.Markup.Doc
import CoqConsole.Markup.Layout
import CoqConsole.Markup.Wire
import CoqConsole.Notice
import CoqConsole.Number.Binary64
import CoqConsole.Number.Double
import CoqConsole.Number.Numeral
import CoqConsole.Number.Scalar
import CoqConsole.Number.Shortest
import CoqConsole.Pane.Basic
import CoqConsole.Pane.Watch
import CoqConsole.Path
import CoqConsole.Position
import CoqConsole.Progress
import CoqConsole.ProofView.Answers
import CoqConsole.ProofView.Goals
import CoqConsole.ProofView.View
import CoqConsole.Proofs.Buffer.Emissions
import CoqConsole.Proofs.Buffer.Enacting
import CoqConsole.Proofs.Buffer.Scenes
import CoqConsole.Proofs.Buffer.Soundness
import CoqConsole.Proofs.Buffer.Storing
import CoqConsole.Proofs.Buffer.Subscribing
import CoqConsole.Proofs.CommandLine.Options
import CoqConsole.Proofs.CommandLine.Words
import CoqConsole.Proofs.Console.Abiding
import CoqConsole.Proofs.Console.Answering
import CoqConsole.Proofs.Console.Arguments
import CoqConsole.Proofs.Console.Asking
import CoqConsole.Proofs.Console.Custody
import CoqConsole.Proofs.Console.Dangers
import CoqConsole.Proofs.Console.Fates
import CoqConsole.Proofs.Console.Gathering
import CoqConsole.Proofs.Console.Holding
import CoqConsole.Proofs.Console.Losing
import CoqConsole.Proofs.Console.Numbering
import CoqConsole.Proofs.Console.Outcomes
import CoqConsole.Proofs.Console.Pointing
import CoqConsole.Proofs.Console.Replying
import CoqConsole.Proofs.Console.Rounds
import CoqConsole.Proofs.Console.Sanity
import CoqConsole.Proofs.Console.Shelving
import CoqConsole.Proofs.Console.Showing
import CoqConsole.Proofs.Console.Speaking
import CoqConsole.Proofs.Console.Tending
import CoqConsole.Proofs.Console.Turning
import CoqConsole.Proofs.Console.Viewing
import CoqConsole.Proofs.Cutting
import CoqConsole.Proofs.Frame
import CoqConsole.Proofs.Heading
import CoqConsole.Proofs.Json.Merging
import CoqConsole.Proofs.Json.Tokens
import CoqConsole.Proofs.Json.Values
import CoqConsole.Proofs.Keyed
import CoqConsole.Proofs.Line.Attention
import CoqConsole.Proofs.Line.Books
import CoqConsole.Proofs.Line.Cleaning
import CoqConsole.Proofs.Line.Correlation
import CoqConsole.Proofs.Line.Counting
import CoqConsole.Proofs.Line.Dispatching
import CoqConsole.Proofs.Line.Keeping
import CoqConsole.Proofs.Line.Onward
import CoqConsole.Proofs.Line.Responding
import CoqConsole.Proofs.Line.Runs
import CoqConsole.Proofs.Line.Sparing
import CoqConsole.Proofs.Line.Waiting
import CoqConsole.Proofs.Line.Winding
import CoqConsole.Proofs.Lines
import CoqConsole.Proofs.Markup.Forms
import CoqConsole.Proofs.Markup.Keeping
import CoqConsole.Proofs.Markup.Leaves
import CoqConsole.Proofs.Markup.Reading
import CoqConsole.Proofs.Markup.Texts
import CoqConsole.Proofs.Operation
import CoqConsole.Proofs.Path
import CoqConsole.Proofs.Position
import CoqConsole.Proofs.Progress
import CoqConsole.Proofs.Sections
import CoqConsole.Proofs.Server.Growth
import CoqConsole.Proofs.Session.Affairs
import CoqConsole.Proofs.Session.Aftermath
import CoqConsole.Proofs.Session.Aloof
import CoqConsole.Proofs.Session.Attaching
import CoqConsole.Proofs.Session.Attachments
import CoqConsole.Proofs.Session.Binding
import CoqConsole.Proofs.Session.Board
import CoqConsole.Proofs.Session.Copying
import CoqConsole.Proofs.Session.Failing
import CoqConsole.Proofs.Session.Hazards
import CoqConsole.Proofs.Session.History
import CoqConsole.Proofs.Session.Hits
import CoqConsole.Proofs.Session.Linking
import CoqConsole.Proofs.Session.Mirroring
import CoqConsole.Proofs.Session.Moments
import CoqConsole.Proofs.Session.Noticing
import CoqConsole.Proofs.Session.Overtaking
import CoqConsole.Proofs.Session.Painting
import CoqConsole.Proofs.Session.Searching
import CoqConsole.Proofs.Session.Sources
import CoqConsole.Proofs.Session.Standing
import CoqConsole.Proofs.Session.Stirring
import CoqConsole.Proofs.Session.Tuning
import CoqConsole.Proofs.Session.Upkeep
import CoqConsole.Proofs.Session.Words
import CoqConsole.Proofs.Stream
import CoqConsole.Proofs.Tickets
import CoqConsole.Proofs.Utf8
import CoqConsole.Proofs.Watch
import CoqConsole.Rota
import CoqConsole.Server.Basic
import CoqConsole.Server.Host
import CoqConsole.Session.Attachment
import CoqConsole.Session.Basic
import CoqConsole.Session.Checking
import CoqConsole.Session.Dialogue
import CoqConsole.Session.Exchange
import CoqConsole.Session.Hearing
import CoqConsole.Session.Tuning
import CoqConsole.Settings
import CoqConsole.Text.Blank
import CoqConsole.Text.Digit
import CoqConsole.Text.Lines
import CoqConsole.Text.Printable
import CoqConsole.Text.Quoted
import CoqConsole.Text.Utf8
import CoqConsole.Text.Words
import CoqConsole.Tickets
import CoqConsole.Time
