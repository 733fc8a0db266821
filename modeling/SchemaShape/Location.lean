import SchemaShape.Json.Pointer
import SchemaShape.Url.Basic

/-! # Locations

Where in which document a schema stands, as diagnostics and failures show it.
-/

namespace SchemaShape
set_option autoImplicit false

structure Location where
  document : String
  tokens : Pointer
  deriving DecidableEq, Repr

namespace Location

/-- The place that the text of a pointer names in a document. A text that is no pointer names the root. -/
def inDocument (document : Url) (pointer : String) : Location :=
  { document := document.text
    tokens := match pointer.toList with
      | '/' :: rest => (Text.pieces '/' rest).map fun written => Pointer.unescaped (String.ofList written)
      | _ => [] }

/-- The place a URL names; a fragment that is no pointer is as good as none. -/
def ofUrl (url : Url) : Location :=
  inDocument url.withoutFragment (url.fragment.getD "")

def text (location : Location) : String :=
  location.document ++ "#" ++ Pointer.text location.tokens

def descend (location : Location) (tokens : List String) : Location :=
  { location with tokens := location.tokens ++ tokens }

def ascend (location : Location) (count : Nat) : Location :=
  { location with tokens := location.tokens.take (location.tokens.length - count) }

end Location

end SchemaShape
