import Galley.CommandLine.Folder
import Galley.Main
import Galley.Proofs.ComposedWords
import Galley.Proofs.PagedLines
import Galley.Proofs.SpreadBlanks
import Galley.Proofs.GreedyFilling
import Galley.Proofs.FormattedLines
import Galley.Proofs.TextConservation
import Galley.Proofs.FirstProblem
import Galley.Proofs.NoteIsolation
import Galley.Proofs.DocumentTiling
import Galley.Proofs.ClosedArguments
import Galley.Proofs.FilledPages
import Galley.Proofs.WrittenBytes
import Galley.Proofs.OpeningCommands
import Galley.Proofs.StretchedLines
import Galley.Proofs.Reformatting
import Galley.Proofs.Delivery
import Galley.Proofs.SoundDocuments
import Galley.Proofs.SpacedDocuments
import Galley.Proofs.SeparateParagraphs
import Galley.Proofs.TurnedPages
import Galley.Proofs.InterruptedReading
import Galley.Proofs.MarkedPages
import Galley.Proofs.CompleteRuns
import Galley.Proofs.FinishedLines
import Galley.Proofs.KeptWords
import Galley.Proofs.OverlongWords
import Galley.Proofs.FewestLines
import Galley.Proofs.LocalTokens
import Galley.Proofs.BalancedArguments
import Galley.Proofs.EscapedText
import Galley.Proofs.KeptInputLines
import Galley.Proofs.UnknownCommands
