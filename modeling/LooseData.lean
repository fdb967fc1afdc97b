import LooseData.Main
import LooseData.Path.Traversal
import LooseData.Runtime.Regex
import LooseData.Search
import LooseData.Tag.Registries
import LooseData.View
import LooseData.Proofs.CaselessMap.History
import LooseData.Proofs.Config.Layering
import LooseData.Proofs.Merge.Copy
import LooseData.Proofs.Merge.InPlace
import LooseData.Proofs.Merge.Guarded
import LooseData.Proofs.Merge.Safety
import LooseData.Proofs.Merge.Sources
import LooseData.Proofs.Merge.Stopping
import LooseData.Proofs.Path.Spelling
import LooseData.Proofs.Tag.Evaluation
import LooseData.Proofs.Tag.Standard
import LooseData.Proofs.Tag.Unhandled
import LooseData.Proofs.Tag.WorldParser
import LooseData.Proofs.Layer.Unreadable
import LooseData.Proofs.Json.Length
import LooseData.Proofs.Lookup
import LooseData.Proofs.Path.Notation
import LooseData.Proofs.Tag.Depth
import LooseData.Proofs.Tag.StoredDocument
import LooseData.Proofs.Tag.MissingName
import LooseData.Proofs.Path.Composition
import LooseData.Proofs.Json.Ahead
import LooseData.Proofs.Tag.Decoding
import LooseData.Proofs.Path.Plain
import LooseData.Proofs.Path.Strict
import LooseData.Proofs.Path.Malformed
import LooseData.Proofs.Layer.OwnSelection
import LooseData.Proofs.Tag.Isolation
import LooseData.Proofs.Merge.Again
import LooseData.Proofs.Path.Pieces
import LooseData.Proofs.Path.Reuse
import LooseData.Proofs.Layer.Enumeration
import LooseData.Proofs.Layer.Default
import LooseData.Proofs.Store.Default
import LooseData.Proofs.Tag.Copies
import LooseData.Proofs.Store.Writing
import LooseData.Proofs.Number.Rounding
import LooseData.Proofs.Number.Attempts
import LooseData.Proofs.Number.Numeral
import LooseData.Proofs.Command.Printed
import LooseData.Proofs.Path.Canonical
import LooseData.Proofs.Layer.Guard
import LooseData.Proofs.World
import LooseData.Proofs.Tag.Dispatchable
