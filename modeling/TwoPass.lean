import TwoPass.Files.Tree
import TwoPass.Main
import TwoPass.Proofs.Scanner
import TwoPass.Proofs.Source
import TwoPass.Proofs.Addresses
import TwoPass.Proofs.Numerals
import TwoPass.Proofs.Codes
import TwoPass.Proofs.Markers
import TwoPass.Proofs.Disassembly
import TwoPass.Proofs.RoundTrip
import TwoPass.Proofs.Places
import TwoPass.Proofs.Walk
import TwoPass.Proofs.Relocation
import TwoPass.Proofs.Renaming
import TwoPass.Proofs.Meaning
import TwoPass.Proofs.Layout
import TwoPass.Proofs.Encoding
import TwoPass.Proofs.Paths
import TwoPass.Proofs.Trees
import TwoPass.Proofs.Running
import TwoPass.Proofs.Effects
import TwoPass.Proofs.Comparison
import TwoPass.Proofs.Units
import TwoPass.Proofs.Passing
import TwoPass.Proofs.Verdict
import TwoPass.Proofs.ExitStatus
import TwoPass.Proofs.Redefinition
import TwoPass.Proofs.SourceGrammar
import TwoPass.Proofs.ListingGrammar
import TwoPass.Proofs.Insertion
import TwoPass.Proofs.Difference
import TwoPass.Proofs.Operands
import TwoPass.Proofs.Annotation
import TwoPass.Proofs.Agreement
import TwoPass.Proofs.Bindings
import TwoPass.Proofs.ListingOrder
import TwoPass.Proofs.Spelling
import TwoPass.Proofs.SymbolReport
import TwoPass.Proofs.Discovery
import TwoPass.Proofs.Runs
