import TypeStub.Check
import TypeStub.Main
import TypeStub.Proofs.Comparison.Differences
import TypeStub.Proofs.Config.Precedence
import TypeStub.Proofs.Docs.Renewal
import TypeStub.Proofs.Filter.Reformatting
import TypeStub.Proofs.Formatter.Expansion
import TypeStub.Proofs.Generation.Confinement
import TypeStub.Proofs.Generation.Formatting
import TypeStub.Proofs.Source.Segments
import TypeStub.Proofs.Stub.Blocks
import TypeStub.Proofs.Stub.Docstrings
import TypeStub.Proofs.Stub.ImportFrame
import TypeStub.Proofs.Stub.Signatures
import TypeStub.Proofs.Stub.Spacing
import TypeStub.Proofs.Stub.UnquotedTypes
