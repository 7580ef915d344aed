import NetSchema.ByteId
import NetSchema.Class.Ancestry
import NetSchema.Class.Attribute
import NetSchema.Class.Decl
import NetSchema.Class.Document
import NetSchema.Class.Mask
import NetSchema.Class.Members
import NetSchema.Class.Table
import NetSchema.CommandLine
import NetSchema.Compile.Config
import NetSchema.Compile.Diagnostic
import NetSchema.Compile.Document
import NetSchema.Compile.Draft
import NetSchema.Compile.Error
import NetSchema.Compile.Member
import NetSchema.Compile.Memo
import NetSchema.Compile.NetworkClass
import NetSchema.Compile.Numbering
import NetSchema.Compile.Outcome
import NetSchema.Compile.Registry
import NetSchema.Compile.Run
import NetSchema.Compile.SceneData
import NetSchema.Compile.Source
import NetSchema.Compile.State
import NetSchema.Json.Basic
import NetSchema.Json.Number
import NetSchema.Json.Printer
import NetSchema.Json.Reader
import NetSchema.Json.Record
import NetSchema.Log
import NetSchema.Main
import NetSchema.NodePath
import NetSchema.Number.Binary
import NetSchema.Number.Int64
import NetSchema.Number.Shortest
import NetSchema.Number.Text
import NetSchema.OrderedMap
import NetSchema.Project.Config
import NetSchema.Project.Disk
import NetSchema.Project.Load
import NetSchema.Project.LocalPath
import NetSchema.Project.PathText
import NetSchema.Project.Resource
import NetSchema.Project.SceneFiles
import NetSchema.Project.Walk
import NetSchema.Proofs.ByteId
import NetSchema.Proofs.Compile.Cycles
import NetSchema.Proofs.Compile.Drafts
import NetSchema.Proofs.Compile.Expansion
import NetSchema.Proofs.Compile.Filling
import NetSchema.Proofs.Compile.Growth
import NetSchema.Proofs.Compile.History
import NetSchema.Proofs.Compile.Instances
import NetSchema.Proofs.Compile.Members
import NetSchema.Proofs.Compile.Merging
import NetSchema.Proofs.Compile.Numbers
import NetSchema.Proofs.Compile.Records
import NetSchema.Proofs.Compile.Refinement
import NetSchema.Proofs.Compile.Soundness
import NetSchema.Proofs.Compile.Stack
import NetSchema.Proofs.Compile.Success
import NetSchema.Proofs.Compile.Traversal
import NetSchema.Proofs.OrderedMap
import NetSchema.Scene.Block
import NetSchema.Scene.Cursor
import NetSchema.Scene.Descriptor
import NetSchema.Scene.Document
import NetSchema.Scene.Error
import NetSchema.Scene.File
import NetSchema.Scene.Literal
import NetSchema.Scene.Token
import NetSchema.Scene.Value
import NetSchema.Text.Blank
import NetSchema.Text.Classes
import NetSchema.Text.CombiningRanges
import NetSchema.Text.LetterRanges
import NetSchema.Text.Pieces
import NetSchema.Text.Quoted
import NetSchema.Text.Rest
import NetSchema.Text.UnprintableRanges
import NetSchema.Toml.Basic
import NetSchema.Toml.Datetime
import NetSchema.Toml.MarkedDate
import NetSchema.Toml.Number
import NetSchema.Toml.Reader
import NetSchema.Toml.Text
import NetSchema.Toml.Tree
import NetSchema.Unvisited
import NetSchema.Wire.Basic
import NetSchema.Wire.Classify
import NetSchema.Wire.Document
import NetSchema.Proofs.Compile.Retry
import NetSchema.Proofs.Compile.Order
import NetSchema.Proofs.Compile.Findings
import NetSchema.Proofs.Compile.Roots
import NetSchema.Proofs.Compile.Boundary
import NetSchema.Proofs.Compile.Diagnostics
import NetSchema.Proofs.Results
import NetSchema.Proofs.Scene.Lineage
import NetSchema.Proofs.Scene.PathTable
import NetSchema.Proofs.Scene.Tree
import NetSchema.Proofs.Scene.Grammar
import NetSchema.Proofs.Scene.Passing
import NetSchema.Proofs.Scene.Unambiguous
import NetSchema.Proofs.Scene.Reading
import NetSchema.Proofs.Class.Bases
import NetSchema.Proofs.Class.Contents
import NetSchema.Proofs.Class.Answers
import NetSchema.Proofs.Compile.LoadOrder
import NetSchema.Proofs.Class.Spelling
import NetSchema.Proofs.Compile.Spellings
import NetSchema.Proofs.Scene.Gathering
import NetSchema.Proofs.Scene.Uses
import NetSchema.Proofs.Scene.Faults
import NetSchema.Proofs.Scene.Aliases
import NetSchema.Proofs.Scene.Variables
import NetSchema.Proofs.Text
import NetSchema.Proofs.Class.Scripts
import NetSchema.Proofs.Class.Masks
import NetSchema.Proofs.Class.MaskSyntax
import NetSchema.Proofs.Class.MaskReading
import NetSchema.Proofs.Class.MaskPrinting
import NetSchema.Proofs.Class.Flattening
import NetSchema.Proofs.Scene.Quoting
import NetSchema.Proofs.Class.Insertion
import NetSchema.Proofs.Compile.Limits
import NetSchema.Proofs.Scene.VariableTable
import NetSchema.Proofs.Project.Settings
import NetSchema.Proofs.Project.Containment
import NetSchema.Proofs.Toml.Strings
import NetSchema.Proofs.Toml.Lines
import NetSchema.Proofs.Toml.Tables
import NetSchema.Proofs.Project.Scaffold
import NetSchema.Proofs.NodePath
import NetSchema.Proofs.Class.Walks
import NetSchema.Proofs.Compile.Nesting
import NetSchema.Proofs.Scene.Positions
import NetSchema.Proofs.Scene.Turns
import NetSchema.Proofs.Scene.BlockTurns
import NetSchema.Proofs.Scene.Located
import NetSchema.Proofs.Scene.ErrorLines
