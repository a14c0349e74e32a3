import Dicebag.Main
import Dicebag.Session
import Dicebag.Roller.Scripted
import Dicebag.Proofs.Token.Longest
import Dicebag.Proofs.Formula.Grammar
import Dicebag.Proofs.Formula.RoundTrip
import Dicebag.Proofs.Formula.Available
import Dicebag.Proofs.Roll.Dealing
import Dicebag.Proofs.Rule.Kept
import Dicebag.Proofs.Roll.Outcome
import Dicebag.Proofs.Roll.Tally
import Dicebag.Proofs.Roll.Advantage
import Dicebag.Proofs.Roll.Natural
import Dicebag.Proofs.Roll.Spelling
import Dicebag.Proofs.Token.Seam
import Dicebag.Proofs.Formula.Walk
import Dicebag.Proofs.Formula.Violation
import Dicebag.Proofs.Formula.ErrorPlace
import Dicebag.Proofs.Token.Letters
import Dicebag.Proofs.Formula.Respelling
import Dicebag.Proofs.Roll.Joined
import Dicebag.Proofs.Rule.Best
import Dicebag.Proofs.Rule.Ranking
import Dicebag.Proofs.Roll.Better
import Dicebag.Proofs.Roll.Mirror
import Dicebag.Proofs.Roll.Stopping
import Dicebag.Proofs.Roll.Sampling
import Dicebag.Proofs.Roll.Attainable
import Dicebag.Proofs.Roll.Complement
import Dicebag.Proofs.Play.Attack
import Dicebag.Proofs.Play.Typed
import Dicebag.Proofs.Session.Draws
import Dicebag.Proofs.Rendering.Readout
import Dicebag.Proofs.Rendering.Markup
import Dicebag.Proofs.Formula.Position
import Dicebag.Proofs.Formula.Expectation
import Dicebag.Proofs.Formula.Trimming
import Dicebag.Proofs.Console.Lines
import Dicebag.Proofs.Console.Turns
import Dicebag.Proofs.Console.Idle
import Dicebag.Proofs.Console.Reroll
import Dicebag.Proofs.Console.Latest
import Dicebag.Proofs.Console.Marks
import Dicebag.Proofs.Play.Doubled
import Dicebag.Proofs.Formula.ReadingLog
import Dicebag.Proofs.Roll.Record
import Dicebag.Proofs.Roll.Replay
import Dicebag.Proofs.Token.Amounts
import Dicebag.Proofs.Token.Tiling
import Dicebag.Proofs.Roll.Fairness
import Dicebag.Proofs.Console.Room
