import StatementLang.Main
import StatementLang.Session
import StatementLang.Proofs.Parser.Nesting
import StatementLang.Proofs.Parser.Acceptance
import StatementLang.Proofs.Parser.Viability
import StatementLang.Proofs.Parser.Truncation
import StatementLang.Proofs.Session.Accounting
import StatementLang.Proofs.Report.Formats
import StatementLang.Proofs.Report.RoundTrip
import StatementLang.Proofs.Parser.Prelexed
import StatementLang.Proofs.Parser.Faults
import StatementLang.Proofs.Lexical.LineBreaks
import StatementLang.Proofs.Report.SourceText
import StatementLang.Proofs.Program.Verdict
import StatementLang.Proofs.Lexical.OneToALine
import StatementLang.Proofs.Tree.NodeStack
import StatementLang.Proofs.Tree.Dumps
import StatementLang.Proofs.Report.EventDump
import StatementLang.Proofs.Parser.Descent
import StatementLang.Proofs.Parser.Progress
import StatementLang.Proofs.CommandLine.Spellings
import StatementLang.Proofs.Report.TokenListing
import StatementLang.Proofs.Config.Numbers
import StatementLang.Proofs.Report.Levels
import StatementLang.Proofs.Program.Indentation
