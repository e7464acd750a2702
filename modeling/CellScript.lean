import CellScript.Main
import CellScript.Row.Sheet
import CellScript.Proofs.Command.Header
import CellScript.Proofs.Command.Streams
import CellScript.Proofs.Row.ReadBack
import CellScript.Proofs.Row.RepeatedColumn
import CellScript.Proofs.Row.Sheet
import CellScript.Proofs.Row.Slice
import CellScript.Proofs.Row.Write
import CellScript.Proofs.Script.Condition
import CellScript.Proofs.Script.Conjunction
import CellScript.Proofs.Script.Extreme
import CellScript.Proofs.Script.Flat
import CellScript.Proofs.Script.Joined
import CellScript.Proofs.Script.Meaning
import CellScript.Proofs.Script.Places
import CellScript.Proofs.Script.Statement
import CellScript.Proofs.Script.Target
import CellScript.Proofs.Settings.EnvFiles
import CellScript.Proofs.Shorthand.Assignment
import CellScript.Proofs.Shorthand.ColumnLabel
import CellScript.Proofs.Shorthand.Filter
import CellScript.Proofs.Shorthand.Gap
import CellScript.Proofs.Shorthand.Group
import CellScript.Proofs.Shorthand.LiteralEnd
import CellScript.Proofs.Shorthand.NameLiteral
import CellScript.Proofs.Shorthand.QuotedKey
import CellScript.Proofs.Shorthand.Sequence
import CellScript.Proofs.Shorthand.Torn
import CellScript.Proofs.Stream.Coercion
import CellScript.Proofs.Stream.FilterPair
import CellScript.Proofs.Stream.HeaderMode
import CellScript.Proofs.Stream.History
import CellScript.Proofs.Stream.NamedAccess
import CellScript.Proofs.Stream.NewColumn
import CellScript.Proofs.Stream.Printed
import CellScript.Proofs.Stream.Selection
import CellScript.Proofs.Stream.Unchanged
import CellScript.Proofs.Value.Comparison
import CellScript.Proofs.Value.Division
