import CilGraph.Attempt
import CilGraph.Attribute
import CilGraph.Bytes.LittleEndian
import CilGraph.CommandLine
import CilGraph.CommandLine.Argument
import CilGraph.CommandLine.Failure
import CilGraph.CommandLine.Folder
import CilGraph.CommandLine.Request
import CilGraph.Compilation
import CilGraph.Compilation.Session
import CilGraph.Cursor
import CilGraph.Definition
import CilGraph.Description
import CilGraph.Dispatch.Catalog
import CilGraph.Dispatch.Layout
import CilGraph.Dispatch.Registry
import CilGraph.Dispatch.Table
import CilGraph.Effect
import CilGraph.Error
import CilGraph.Image.Reader
import CilGraph.Image.Writer
import CilGraph.Inheritance
import CilGraph.Linkage
import CilGraph.Linkage.Settings
import CilGraph.Listing
import CilGraph.Lowering
import CilGraph.Main
import CilGraph.MangledName
import CilGraph.Markup.Element
import CilGraph.Markup.Escape
import CilGraph.Markup.Event
import CilGraph.Markup.Lexer
import CilGraph.Markup.Tag
import CilGraph.Node
import CilGraph.Opcode
import CilGraph.Opcode.Table
import CilGraph.OperandStack
import CilGraph.Operation
import CilGraph.Ordered
import CilGraph.Program
import CilGraph.Program.Code
import CilGraph.Program.Description
import CilGraph.Program.Draft
import CilGraph.Record
import CilGraph.Report.Contents
import CilGraph.Report.Grid
import CilGraph.Report.Json
import CilGraph.Report.Layout
import CilGraph.Report.Summary
import CilGraph.Text.Blank
import CilGraph.Text.CharWidth
import CilGraph.Text.CodeRange
import CilGraph.Text.Emoji
import CilGraph.Text.Numeral
import CilGraph.Text.Width
import CilGraph.Token
import CilGraph.ValueKind
import CilGraph.Proofs.Image.Lengths
import CilGraph.Proofs.Image.Reads
import CilGraph.Proofs.Image.RoundTrip
import CilGraph.Proofs.Lowering.Step
import CilGraph.Proofs.Lowering.Replay
import CilGraph.Proofs.Lowering.Coverage
import CilGraph.Proofs.Compilation.Closure
import CilGraph.Proofs.Compilation.Targets
import CilGraph.Proofs.Compilation.Names
import CilGraph.Proofs.Dispatch.Compatibility
import CilGraph.Proofs.Dispatch.Placement
import CilGraph.Proofs.Dispatch.Conversions
import CilGraph.Proofs.Bytes.LittleEndian
import CilGraph.Proofs.Image.Framing
import CilGraph.Proofs.Cursor.Instructions
import CilGraph.Proofs.Compilation.Settled
import CilGraph.Proofs.Dispatch.Finished
import CilGraph.Proofs.Dispatch.Upcasts
import CilGraph.Proofs.Compilation.TypeClosure
import CilGraph.Proofs.Compilation.Within
import CilGraph.Proofs.Compilation.EntryOrder
import CilGraph.Proofs.Image.Normalising
import CilGraph.Proofs.Program.Connected
import CilGraph.Proofs.Dispatch.Transparency
import CilGraph.Proofs.Program.Walks
import CilGraph.Proofs.Dispatch.Blameless
import CilGraph.Proofs.Dispatch.Cycles
import CilGraph.Proofs.Compilation.Resolved
import CilGraph.Proofs.Compilation.Loops
import CilGraph.Proofs.Compilation.Once
import CilGraph.Proofs.Compilation.Changes
import CilGraph.Proofs.Compilation.Extension
import CilGraph.Proofs.Lowering.Mentions
import CilGraph.Proofs.Compilation.Reachability
import CilGraph.Proofs.Program.Members
import CilGraph.Proofs.Linkage.Stability
import CilGraph.Proofs.Linkage.Effects
import CilGraph.Proofs.Compilation.Symbols
import CilGraph.Proofs.Program.Sound
import CilGraph.Proofs.Dispatch.Implementations
import CilGraph.Proofs.Program.MangledNames
import CilGraph.Proofs.Program.Sealing
import CilGraph.Proofs.Dispatch.Refusals
import CilGraph.Proofs.Dispatch.Sealing
import CilGraph.Proofs.Dispatch.Scaling
import CilGraph.Proofs.Compilation.PointerSize
import CilGraph.Proofs.Lowering.Objects
import CilGraph.Proofs.Compilation.Described
import CilGraph.Proofs.Lowering.Turns
import CilGraph.Proofs.Lowering.Branches
import CilGraph.Proofs.Lowering.Constraints
import CilGraph.Proofs.Lowering.Callables
import CilGraph.Proofs.Lowering.Requests
import CilGraph.Proofs.Compilation.TypeTokens
import CilGraph.Proofs.Lowering.Bindings
import CilGraph.Proofs.Dispatch.Takeover
import CilGraph.Proofs.Dispatch.Classification
import CilGraph.Proofs.Report.Regions
import CilGraph.Proofs.Program.RootDeclarations
import CilGraph.Proofs.Program.VisibleMethods
import CilGraph.Proofs.Program.InterfaceOrder
import CilGraph.Proofs.Program.Attachment
import CilGraph.Proofs.Cursor.Truncation
import CilGraph.Proofs.Linkage.Settings
import CilGraph.Proofs.Markup.Trees
import CilGraph.Proofs.Program.Literals
import CilGraph.Proofs.Program.ArrayNames
import CilGraph.Proofs.Text.Utf8
import CilGraph.Proofs.Program.Hexadecimal
