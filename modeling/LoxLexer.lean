import LoxLexer.Buffer
import LoxLexer.Main
import LoxLexer.Session
import LoxLexer.Proofs.Spelling
import LoxLexer.Proofs.History
import LoxLexer.Proofs.SourceForms
import LoxLexer.Proofs.LineNumbers
import LoxLexer.Proofs.LongestMatch
import LoxLexer.Proofs.Drained
import LoxLexer.Proofs.Printing
import LoxLexer.Proofs.Lookahead
import LoxLexer.Proofs.Rejection
import LoxLexer.Proofs.Relocation
import LoxLexer.Proofs.Joining
import LoxLexer.Reader
import LoxLexer.Proofs.CharacterReading
import LoxLexer.Proofs.ReaderHistory
import LoxLexer.Proofs.Resuming
import LoxLexer.Proofs.Progress
import LoxLexer.Proofs.SourceLines
import LoxLexer.Proofs.Blanking
import LoxLexer.Proofs.LineEndings
import LoxLexer.Proofs.OperatorSwitch
import LoxLexer.Proofs.Utf8
import LoxLexer.Proofs.SourceKinds
import LoxLexer.Proofs.Sharing
import LoxLexer.Proofs.SourceNames
import LoxLexer.Proofs.Collecting
import LoxLexer.Proofs.NormalPath
import LoxLexer.Proofs.Answers
import LoxLexer.Proofs.ArgumentReading
import LoxLexer.Proofs.CommandLine
import LoxLexer.Proofs.BufferHistory
import LoxLexer.Proofs.Verbosity
import LoxLexer.Proofs.LineComments
import LoxLexer.Proofs.IntegerValues
import LoxLexer.Proofs.SharedPrefix
import LoxLexer.Proofs.LineCount
import LoxLexer.Proofs.DiagnosticLayout
import LoxLexer.Proofs.SourceFailures
import LoxLexer.Proofs.LineSearch
import LoxLexer.Proofs.PrintedTokens
import LoxLexer.Proofs.OutputLines
import LoxLexer.Proofs.FloatValues
