import SmallLisp.Main
import SmallLisp.Proofs.Builtin.Arithmetic
import SmallLisp.Proofs.Builtin.Order
import SmallLisp.Proofs.Evaluation.Closures
import SmallLisp.Proofs.Evaluation.Collections
import SmallLisp.Proofs.Evaluation.Definitions
import SmallLisp.Proofs.Evaluation.Hidden
import SmallLisp.Proofs.Evaluation.Nesting
import SmallLisp.Proofs.Reader.InStep
import SmallLisp.Proofs.Session.Completion
import SmallLisp.Proofs.Session.Data
import SmallLisp.Proofs.Session.Loop
import SmallLisp.Proofs.Session.Renaming
import SmallLisp.Proofs.Store.History
import SmallLisp.Proofs.Token.Shift
import SmallLisp.Settings
import SmallLisp.Value.Inspect
