import SchemaGraph.OrderedMap
import SchemaGraph.Number.Basic
import SchemaGraph.Text.Words
import SchemaGraph.Text.Quoted
import SchemaGraph.Text.Name
import SchemaGraph.Json.Reader
import SchemaGraph.Json.Printer
import SchemaGraph.Value.Literal
import SchemaGraph.Config
import SchemaGraph.FieldCall
import SchemaGraph.Declared.Declare
import SchemaGraph.Declared.Ancestry
import SchemaGraph.Declared.Reachability
import SchemaGraph.Compiled.TypeRef
import SchemaGraph.Compiled.Dispatch
import SchemaGraph.Input.Materialize
import SchemaGraph.Compile.Requests
import SchemaGraph.Schema.Sdl
import SchemaGraph.Query.Parser
import SchemaGraph.Query.Execute
import SchemaGraph.Describe
import SchemaGraph.Proofs.Schema.Resolution
import SchemaGraph.Proofs.Declared.Consistent
import SchemaGraph.Proofs.Declared.Failure
import SchemaGraph.Proofs.Declared.Reachability
import SchemaGraph.Proofs.Declared.Bundles
import SchemaGraph.Proofs.Declared.Chains
import SchemaGraph.Proofs.Compile.Halting
import SchemaGraph.Proofs.Compile.Flattening
import SchemaGraph.Proofs.Compile.Inheritance
import SchemaGraph.Proofs.Compile.Gathering
import SchemaGraph.Proofs.Compile.Unions
import SchemaGraph.Proofs.Schema.Names
import SchemaGraph.Proofs.Compile.Parents
import SchemaGraph.Proofs.Compile.Nearest
import SchemaGraph.Proofs.Schema.Circles
import SchemaGraph.Proofs.Schema.Inputs
import SchemaGraph.Proofs.Input.Defaults
import SchemaGraph.Proofs.Compile.Orders
import SchemaGraph.Proofs.Compile.Enums
import SchemaGraph.Proofs.Schema.Spelling
import SchemaGraph.Proofs.Compile.Arguments
import SchemaGraph.Proofs.Compile.Failures
import SchemaGraph.Proofs.Compile.Wrapping
import SchemaGraph.Proofs.Input.Frame
import SchemaGraph.Proofs.Compiled.Tags
import SchemaGraph.Proofs.Declared.Paths
import SchemaGraph.Proofs.Compile.Marks
import SchemaGraph.Proofs.Compile.Named
import SchemaGraph.Proofs.Value.RoundTrip
