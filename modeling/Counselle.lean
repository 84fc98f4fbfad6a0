import Counselle.Turns.Budget
import Counselle.Chat.Receipt
import Counselle.Chat.Replay
import Counselle.Essays.StaleSaves
import Counselle.Turns.SessionRecords
import Counselle.Turns.EditAnchors
import Counselle.Essays.CarriedText
import Counselle.Chat.SseDelivery
import Counselle.Chat.Reattach
import Counselle.Goal.Pauses
import Counselle.Turns.Terminal
import Counselle.Chat.AutoForward
import Counselle.Facts.Interleaved
import Counselle.Facts.Retirement
import Counselle.Sat.Answerable
import Counselle.Sat.RoundTrip
import Counselle.Sat.StudentWork
import Counselle.Facts.DeadlinesAgree
import Counselle.Receipts.Delivered
import Counselle.Workspace.ChangeDelivery
import Counselle.Cds.ReaderAccepts
import Counselle.Sat.ImportTotal
import Counselle.Essays.PlainParagraph
import Counselle.Workspace.ListRuns
import Counselle.Essays.AcceptAllCount
import Counselle.Cds.CorrectionsKept
import Counselle.Cds.ExtractionStatus
import Counselle.Cds.SlotSafe
import Counselle.Essays.Code
import Counselle.Essays.LinkDestination
import Counselle.Essays.SuggestionDiff
import Counselle.Facts.DeadlineCycle
import Counselle.Sat.EntryRule
import Counselle.Sat.Verdicts
import Counselle.Turns.EmittedSteps
import Counselle.Turns.VizStream
import Counselle.Sat.Highlighter
import Counselle.Cds.Batching
import Counselle.Facts.FactsShown
import Counselle.Sat.StatsLaws
import Counselle.Schools.Resolve
import Counselle.Workspace.TaskRecords
import Counselle.Facts.ExplorePages
import Counselle.Overflow.Kept
import Counselle.Essays.SuggestionAnchors
import Counselle.Cds.Citations
import Counselle.Access.RateLimit
import Counselle.Access.Accounts
