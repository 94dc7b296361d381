import Offside.Files.Directory
import Offside.Main
import Offside.Token.Equality
import Offside.Workspace
import Offside.Proofs.Tree.Rendering
import Offside.Proofs.Document.Outline
import Offside.Proofs.Evaluation.Appending
import Offside.Proofs.Evaluation.CallDepth
import Offside.Proofs.Evaluation.Currying
import Offside.Proofs.Evaluation.Fitting
import Offside.Proofs.Evaluation.StepLimit
import Offside.Proofs.Interpreter.Halting
import Offside.Proofs.Interpreter.Heap
import Offside.Proofs.Interpreter.Limits
import Offside.Proofs.Interpreter.Quoted
import Offside.Proofs.Interpreter.Reset
import Offside.Proofs.Layout.Breaks
import Offside.Proofs.Layout.Columns
import Offside.Proofs.Layout.Line
import Offside.Proofs.Layout.WellFormed
import Offside.Proofs.Session.Completeness
import Offside.Proofs.Session.Quoted
import Offside.Proofs.Source.Consumers
import Offside.Proofs.Tree.Reading
import Offside.Proofs.Tree.ReadingStatements
import Offside.Proofs.Tree.Termination
import Offside.Proofs.Tree.TrailingFunction
import Offside.Proofs.Tree.Precedence
import Offside.Proofs.Tree.RoundTrip
import Offside.Proofs.Layout.Concatenation
import Offside.Proofs.Token.Concatenation
import Offside.Proofs.Tree.Concatenation
import Offside.Proofs.Source.Concatenation
import Offside.Proofs.Source.Padding
import Offside.Proofs.Source.Rejections
import Offside.Proofs.Token.Display
import Offside.Proofs.Token.Interpolation
import Offside.Proofs.Token.Leaves
import Offside.Proofs.Token.LineBreaks
import Offside.Proofs.Tree.Data
import Offside.Proofs.Tree.Leaves
import Offside.Proofs.Value.Display
import Offside.Proofs.Workspace.History
import Offside.Proofs.Token.Writing
import Offside.Proofs.Token.CallMarks
import Offside.Proofs.Value.Equality
import Offside.Proofs.Diagnostic.Similar
