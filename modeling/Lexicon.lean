import Lexicon.Main
import Lexicon.Proofs.Grammar
import Lexicon.Proofs.Occurrence
import Lexicon.Proofs.Scanner.Run
import Lexicon.Proofs.Scanner.Invariant
import Lexicon.Proofs.Scanner.Resumption
import Lexicon.Proofs.Scan.Exact
import Lexicon.Proofs.Scan.FailFast
import Lexicon.Proofs.Session.Pass
import Lexicon.Proofs.Session.Atomicity
import Lexicon.Proofs.Session.Mirror
import Lexicon.Proofs.Session.Undefined
import Lexicon.Proofs.Session.UndefinedRun
import Lexicon.Proofs.Session.Filing
import Lexicon.Proofs.Session.Outcome
import Lexicon.Proofs.Mending
import Lexicon.Proofs.Session.Mending
import Lexicon.Proofs.Text.Quoted
import Lexicon.Proofs.Program.Modes
import Lexicon.Proofs.Scan.LineBreak
import Lexicon.Proofs.Scan.FirstError
import Lexicon.Proofs.Scan.Comments
import Lexicon.Proofs.Scan.Rendering
import Lexicon.Proofs.Session.Rebuilding
import Lexicon.Proofs.Vocabulary.Refinement
import Lexicon.Proofs.Vocabulary.Interning
import Lexicon.Proofs.Session.Contribution
import Lexicon.Proofs.Session.Order
import Lexicon.Proofs.Prompt
import Lexicon.Proofs.Session.Classification
import Lexicon.Proofs.Session.Composition
import Lexicon.Proofs.Scanner.Slices
import Lexicon.Proofs.Session.Permanence
import Lexicon.Proofs.Scan.TrailingBlanks
import Lexicon.Proofs.FileSystem.Access
import Lexicon.Proofs.Session.Dump
import Lexicon.Proofs.Report
import Lexicon.Proofs.LexicalError
import Lexicon.Proofs.Program.Errors
import Lexicon.Proofs.Scanner.Termination
import Lexicon.Proofs.Session.Reach
import Lexicon.Proofs.Text.Utf8
import Lexicon.Proofs.CommandLine.Setting
import Lexicon.Proofs.CommandLine.File
import Lexicon.Proofs.CommandLine.Picture
