import CodeOutline.Text.Blank
import CodeOutline.Text.Utf8
import CodeOutline.Text.Integer
import CodeOutline.Text.Quoted
import CodeOutline.Text.FilePath
import CodeOutline.Coverage.Snap
import CodeOutline.Source.Render
import CodeOutline.Tree.Node
import CodeOutline.Rules.Capture
import CodeOutline.Input.Field
import CodeOutline.Languages.Bundle
import CodeOutline.Compress.Batch
import CodeOutline.Document.Render
import CodeOutline.Command.Run
import CodeOutline.Main
import CodeOutline.Proofs.Coverage.Verdict
import CodeOutline.Proofs.Runs
import CodeOutline.Proofs.Coverage.Coalesce
import CodeOutline.Proofs.Coverage.Sweep
import CodeOutline.Proofs.Coverage.LineRule
import CodeOutline.Proofs.Coverage.Partition
import CodeOutline.Proofs.Coverage.Monotone
import CodeOutline.Proofs.Text.Utf8
import CodeOutline.Proofs.Source.Outline
import CodeOutline.Proofs.Source.Ending
import CodeOutline.Proofs.Source.Render
import CodeOutline.Proofs.Source.Hidden
import CodeOutline.Proofs.Compress.Agreement
import CodeOutline.Proofs.Compress.Survival
import CodeOutline.Proofs.Rules.Claims
import CodeOutline.Proofs.Rules.Tiling
import CodeOutline.Proofs.Compress.Totality
import CodeOutline.Proofs.Query.Embeds
import CodeOutline.Proofs.Query.Tally
import CodeOutline.Proofs.Query.Counts
import CodeOutline.Proofs.Rules.Captured
import CodeOutline.Proofs.Languages.Bundle
import CodeOutline.Proofs.Rules.Signatures
import CodeOutline.Proofs.Rules.Arrangement
import CodeOutline.Proofs.Compress.Arrangement
import CodeOutline.Proofs.Query.Texts
import CodeOutline.Proofs.Compress.Batch
import CodeOutline.Proofs.Text.Blank
import CodeOutline.Proofs.Rules.Writing
import CodeOutline.Proofs.Document.ReadBack
import CodeOutline.Proofs.Languages.Lookup
import CodeOutline.Proofs.Document.Fence
import CodeOutline.Proofs.Command.Explain
import CodeOutline.Proofs.Rules.Layout
import CodeOutline.Proofs.Tree.Failure
import CodeOutline.Proofs.Document.Preorder
import CodeOutline.Proofs.Query.Captures
import CodeOutline.Proofs.Rules.Definitions
import CodeOutline.Proofs.Languages.Views
import CodeOutline.Proofs.Languages.Isolation
import CodeOutline.Proofs.Input.Overrides
import CodeOutline.Proofs.Command.AllOrNothing
import CodeOutline.Proofs.Document.Sections
