import SchemaShape.Main
import SchemaShape.Options.Reader
import SchemaShape.Files.Tree
import SchemaShape.Proofs.Soundness
import SchemaShape.Proofs.Narrowing.Meaning
import SchemaShape.Proofs.Isolation
import SchemaShape.Proofs.Narrowing.Compile
import SchemaShape.Proofs.Narrowing.References
import SchemaShape.Proofs.Compiler.Repeats
import SchemaShape.Proofs.Compiler.Inlining
import SchemaShape.Proofs.Compiler.Calls
import SchemaShape.Proofs.Compiler.Drafts
import SchemaShape.Proofs.Compiler.Bounds
import SchemaShape.Proofs.Declared
import SchemaShape.Proofs.Index
import SchemaShape.Proofs.Registration
import SchemaShape.Proofs.Locations
import SchemaShape.Proofs.Compiler.Forms
import SchemaShape.Proofs.Compiler.Naming
import SchemaShape.Proofs.Anchors
import SchemaShape.Proofs.Scopes
import SchemaShape.Proofs.Compiler.Enumeration
import SchemaShape.Proofs.Compiler.Fields
import SchemaShape.Proofs.Narrowing.Levels
import SchemaShape.Proofs.Shape.Text
import SchemaShape.Proofs.Narrowing.Whole
import SchemaShape.Proofs.Fallback
import SchemaShape.Proofs.Reordered
import SchemaShape.Proofs.Variables
import SchemaShape.Proofs.Narrowing.Names
import SchemaShape.Proofs.Json.Tokens
