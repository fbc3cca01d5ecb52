import ScriptTree.Main
import ScriptTree.Token.Lossless
import ScriptTree.Tree.Offset
import ScriptTree.Tree.Walk
import ScriptTree.Typed.Reading
import ScriptTree.Proofs.Tokenizing
import ScriptTree.Proofs.Canonical
import ScriptTree.Proofs.RoundTrip
import ScriptTree.Proofs.OperatorWords
import ScriptTree.Proofs.Targets
import ScriptTree.Proofs.Visibility
import ScriptTree.Proofs.Chaining
import ScriptTree.Proofs.Separation
import ScriptTree.Proofs.Respacing
import ScriptTree.Proofs.Consistency
import ScriptTree.Proofs.Brackets
import ScriptTree.Proofs.Malformed
import ScriptTree.Proofs.Semicolons
import ScriptTree.Proofs.Restrictions
import ScriptTree.Proofs.TypedViews
import ScriptTree.Proofs.Composing
import ScriptTree.Proofs.Contract
import ScriptTree.Proofs.Substitutions
import ScriptTree.Proofs.BindingRoundTrip
import ScriptTree.Proofs.Progress
import ScriptTree.Proofs.Gaps
import ScriptTree.Proofs.Literals
import ScriptTree.Proofs.Identifiers
import ScriptTree.Proofs.Division
import ScriptTree.Proofs.Expectations
import ScriptTree.Proofs.Missing
import ScriptTree.Proofs.Enclosing
import ScriptTree.Proofs.Labels
import ScriptTree.Proofs.Touring
import ScriptTree.Proofs.Touching
import ScriptTree.Proofs.Interleaving
import ScriptTree.Proofs.Undoing
import ScriptTree.Proofs.Refusing
import ScriptTree.Proofs.KindSets
