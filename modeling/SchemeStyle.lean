import SchemeStyle.Main
import SchemeStyle.Proofs.Alignment.Bottom
import SchemeStyle.Proofs.Alignment.Quotation
import SchemeStyle.Proofs.Alignment.TrailingComment
import SchemeStyle.Proofs.Consistency
import SchemeStyle.Proofs.Imports.Exactness
import SchemeStyle.Proofs.Imports.Ids
import SchemeStyle.Proofs.Imports.Names
import SchemeStyle.Proofs.Imports.Numerals
import SchemeStyle.Proofs.Layout.Misindentation
import SchemeStyle.Proofs.Lockstep
import SchemeStyle.Proofs.Pieces
import SchemeStyle.Proofs.Pool
import SchemeStyle.Proofs.Alignment.Mark
import SchemeStyle.Proofs.Wrapping.Enclosed
import SchemeStyle.Proofs.Wrapping.TopLevel
import SchemeStyle.Proofs.Wrapping.Transparency
import SchemeStyle.Proofs.File
import SchemeStyle.Proofs.Comments.Insertion
import SchemeStyle.Proofs.Lexical.Independence
import SchemeStyle.Proofs.Lexical.Strings
import SchemeStyle.Proofs.Settings.Acceptance
import SchemeStyle.Proofs.Settings.Outcome
import SchemeStyle.Proofs.Alignment.Opening
import SchemeStyle.Proofs.Command.Report
import SchemeStyle.Proofs.Scan.Findings
import SchemeStyle.Proofs.Lexical.Tabs
import SchemeStyle.Proofs.Lexical.Gaps
import SchemeStyle.Proofs.Comments.Markers
import SchemeStyle.Proofs.BlankLines
import SchemeStyle.Proofs.Places
import SchemeStyle.Proofs.Lexical.Literals
import SchemeStyle.Proofs.LineLinter
import SchemeStyle.Proofs.Report.OneLine
import SchemeStyle.Proofs.Files.Expansion
import SchemeStyle.Proofs.Settings.Exactness
import SchemeStyle.Proofs.Ledger
