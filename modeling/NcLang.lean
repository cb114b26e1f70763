import NcLang.Cli.Arguments
import NcLang.Cli.Command
import NcLang.Cli.Session
import NcLang.Compile
import NcLang.Emission
import NcLang.Error
import NcLang.Main
import NcLang.Outline
import NcLang.Output.Device
import NcLang.Output.IoError
import NcLang.Output.Sink
import NcLang.Output.Writer
import NcLang.ScalarType
import NcLang.Source
import NcLang.Text.Alphabetic
import NcLang.Text.Bytes
import NcLang.Text.CharClass
import NcLang.Text.Decimal
import NcLang.Text.DefaultIgnorable
import NcLang.Text.GraphemeExtend
import NcLang.Text.LineBreaks
import NcLang.Text.Numeric
import NcLang.Text.Quoted
import NcLang.Text.Unprintable
import NcLang.Text.WhiteSpace
import NcLang.Token
import NcLang.Token.Lexer
import NcLang.Tree
import NcLang.Tree.Draft
import NcLang.Tree.Field
import NcLang.Tree.Outline
import NcLang.Tree.Parse
import NcLang.Proofs.Grammar
import NcLang.Proofs.Relocation
import NcLang.Proofs.DraftRun
import NcLang.Proofs.Sentences
import NcLang.Proofs.ParseProgram
import NcLang.Proofs.ViablePrefix
import NcLang.Proofs.Words
import NcLang.Proofs.Division
import NcLang.Proofs.Places
import NcLang.Proofs.Pen
import NcLang.Proofs.ProgramText
import NcLang.Proofs.Compilable
import NcLang.Proofs.Delivery
import NcLang.Proofs.Streaming
import NcLang.Proofs.Seam
import NcLang.Proofs.Concatenation
import NcLang.Proofs.FirstFault
import NcLang.Proofs.PenRefinement
import NcLang.Proofs.SameLexemes
import NcLang.Proofs.CommandLine
import NcLang.Proofs.Spelling
import NcLang.Proofs.Regrouping
import NcLang.Proofs.ReadBack
import NcLang.Proofs.TokenRanges
import NcLang.Proofs.NodeSpans
import NcLang.Proofs.Truncation
import NcLang.Proofs.AfterRefusal
import NcLang.Proofs.IndentUnit
import NcLang.Proofs.LeafTexts
import NcLang.Proofs.Legible
import NcLang.Proofs.Readings
import NcLang.Proofs.Renderings
import NcLang.Proofs.Margins
import NcLang.Proofs.Indentation
import NcLang.Proofs.Descent
import NcLang.Proofs.DescentRun
import NcLang.Proofs.Normalization
import NcLang.Proofs.PrintedTree
