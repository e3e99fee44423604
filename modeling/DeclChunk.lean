import DeclChunk.Main
import DeclChunk.Proofs.Feeding
import DeclChunk.Proofs.Places
import DeclChunk.Proofs.Java.Layout
import DeclChunk.Proofs.Streaming
import DeclChunk.Proofs.Java.Reading
import DeclChunk.Proofs.Java.Spans
import DeclChunk.Proofs.LineRanges
import DeclChunk.Proofs.Java.Heads
import DeclChunk.Proofs.Java.Giving
import DeclChunk.Proofs.Java.PlainMembers
import DeclChunk.Proofs.Java.PlainTypes
import DeclChunk.Proofs.Java.PlainReading
import DeclChunk.Proofs.Source.Lines
import DeclChunk.Proofs.Source.WholeLines
import DeclChunk.Proofs.Java.Comments
import DeclChunk.Proofs.DocComments
import DeclChunk.Proofs.Json.Records
import DeclChunk.Proofs.Text.Utf8
import DeclChunk.Proofs.Output.JsonLines
import DeclChunk.Proofs.Output.Truncation
import DeclChunk.Proofs.Toml.Records
import DeclChunk.Proofs.Settings
import DeclChunk.Proofs.CommandLine.Answer
import DeclChunk.Proofs.OptionEffects
import DeclChunk.Proofs.Scopes
import DeclChunk.Proofs.Displacement
import DeclChunk.Proofs.Initializers
import DeclChunk.Proofs.TwoWalks
import DeclChunk.Proofs.Java.Initializers
import DeclChunk.Proofs.HeaderLayout
import DeclChunk.Proofs.PrintedLines
import DeclChunk.Proofs.Locality
import DeclChunk.Proofs.Text.Collapse
import DeclChunk.Proofs.Java.Fillers
import DeclChunk.Proofs.Java.Spelling
import DeclChunk.Proofs.Java.ImportReading
import DeclChunk.Proofs.Java.Imports
import DeclChunk.Proofs.Java.SpanText
import DeclChunk.Proofs.UnplacedTypes
import DeclChunk.Proofs.Java.Constructs
import DeclChunk.Proofs.Java.Declared
import DeclChunk.Proofs.FullNames
import DeclChunk.Proofs.Java.CommentPlaces
import DeclChunk.Proofs.SharedDocumentation
import DeclChunk.Proofs.ImportOrder
import DeclChunk.Proofs.Text.FeedLines
import DeclChunk.Proofs.MemberLayout
import DeclChunk.Proofs.Output.MarkedText
import DeclChunk.Proofs.Java.Bodies
import DeclChunk.Proofs.OpeningBraces
import DeclChunk.Proofs.Toml.Tables
import DeclChunk.Proofs.Toml.Documents
import DeclChunk.Proofs.SettingsFile
import DeclChunk.Proofs.Source.NormalForm
