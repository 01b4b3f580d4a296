import SicAssembler.Command
import SicAssembler.Command.Arguments
import SicAssembler.Command.Exit
import SicAssembler.Command.Standard
import SicAssembler.Command.Switch
import SicAssembler.Command.Toolkit
import SicAssembler.Command.Usage
import SicAssembler.Diagnostic
import SicAssembler.Disk
import SicAssembler.Disk.Fault
import SicAssembler.Disk.Path
import SicAssembler.Error
import SicAssembler.Event
import SicAssembler.Layout
import SicAssembler.Location
import SicAssembler.Main
import SicAssembler.ObjectProgram
import SicAssembler.OpcodeTable
import SicAssembler.Operation
import SicAssembler.OrderedMap
import SicAssembler.Proofs.Acceptance
import SicAssembler.Proofs.Actions
import SicAssembler.Proofs.Addresses
import SicAssembler.Proofs.Bases
import SicAssembler.Proofs.Carets
import SicAssembler.Proofs.CodedDirectives
import SicAssembler.Proofs.CommandLine
import SicAssembler.Proofs.CommandRuns
import SicAssembler.Proofs.Concatenation
import SicAssembler.Proofs.DefinitionLines
import SicAssembler.Proofs.Endings
import SicAssembler.Proofs.Entries
import SicAssembler.Proofs.ExitStatuses
import SicAssembler.Proofs.Failures
import SicAssembler.Proofs.Fields
import SicAssembler.Proofs.Files
import SicAssembler.Proofs.FirstPass
import SicAssembler.Proofs.Hexadecimal
import SicAssembler.Proofs.History
import SicAssembler.Proofs.IdleLines
import SicAssembler.Proofs.IgnoredText
import SicAssembler.Proofs.Insertion
import SicAssembler.Proofs.KnownMnemonics
import SicAssembler.Proofs.LineAccounts
import SicAssembler.Proofs.LineEnds
import SicAssembler.Proofs.LineSize
import SicAssembler.Proofs.LoadAddresses
import SicAssembler.Proofs.MissingStart
import SicAssembler.Proofs.ObjectText
import SicAssembler.Proofs.Paths
import SicAssembler.Proofs.Positions
import SicAssembler.Proofs.PrintedPrograms
import SicAssembler.Proofs.Reading
import SicAssembler.Proofs.RecordWidths
import SicAssembler.Proofs.Relocation
import SicAssembler.Proofs.Renaming
import SicAssembler.Proofs.Replacement
import SicAssembler.Proofs.ReportText
import SicAssembler.Proofs.Resolution
import SicAssembler.Proofs.Runs
import SicAssembler.Proofs.Separators
import SicAssembler.Proofs.StandardToolkit
import SicAssembler.Proofs.StartAddresses
import SicAssembler.Proofs.StoppingLines
import SicAssembler.Proofs.Symbols
import SicAssembler.Proofs.TableTexts
import SicAssembler.Proofs.Verbosity
import SicAssembler.Proofs.Warnings
import SicAssembler.Session
import SicAssembler.SourceLine
import SicAssembler.SymbolTable
import SicAssembler.Text.CharClass
import SicAssembler.Text.Lines
import SicAssembler.Text.Numeral
import SicAssembler.Text.Plain
import SicAssembler.Text.Printable
import SicAssembler.Text.Quoted
import SicAssembler.Text.Raw
import SicAssembler.Text.Similarity
import SicAssembler.Text.Utf8
