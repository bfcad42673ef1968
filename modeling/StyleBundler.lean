import StyleBundler.Asset.Store
import StyleBundler.Build
import StyleBundler.CommandLine
import StyleBundler.Config
import StyleBundler.Hook.Pipeline
import StyleBundler.Main
import StyleBundler.Pack.Unit
import StyleBundler.Proofs.Asset.Once
import StyleBundler.Proofs.Build.Confluence
import StyleBundler.Proofs.Build.Independence
import StyleBundler.Proofs.Build.Manifest
import StyleBundler.Proofs.Build.References
import StyleBundler.Proofs.Build.Scripts
import StyleBundler.Proofs.Build.Standalone
import StyleBundler.Proofs.Graph.History
import StyleBundler.Proofs.Hook.Stylesheets
import StyleBundler.Proofs.Hook.Transform
import StyleBundler.Proofs.Import.Printed
import StyleBundler.Proofs.Import.Spans
import StyleBundler.Proofs.Pack.Bound
import StyleBundler.Proofs.Pack.Embedded
import StyleBundler.Proofs.Pack.Isolated
import StyleBundler.Proofs.Pack.Nested
import StyleBundler.Proofs.Pack.Rescan
import StyleBundler.Proofs.Script.Interpolation
import StyleBundler.Proofs.Script.Partition
import StyleBundler.Proofs.Script.Quoting
import StyleBundler.Proofs.Sheet.Memo
import StyleBundler.Proofs.Sheet.Reparse
import StyleBundler.Proofs.SourceMap.Numbers
import StyleBundler.Proofs.SourceMap.Tracing
import StyleBundler.Resolve
import StyleBundler.Sheet.Extraction
import StyleBundler.Proofs.Path.Place
import StyleBundler.Proofs.Path.Climb
import StyleBundler.Proofs.Import.Leading
import StyleBundler.Proofs.Resolve.Extension
