import SchemaShape.Text.Quoted

/-! # Failures

Why a schema has no shape, a path leads nowhere or a variable has no value. A failure inside a schema
names the location it arose at.
-/

namespace SchemaShape
set_option autoImplicit false

inductive Failure where
  | unsupportedRootType (types : List String) (location : String)
  | unsupportedSchema (reason location : String)
  | refResolution (reference scope reason : String)
  /-- A reference that is being followed already, or one more than may be followed at once. -/
  | refCycle (reference location : String) (depth : Nat)
  | invalidPath (segment reason : String)
  | malformedSchema (reason location : String)
  | varReference (reference reason : String)
  deriving DecidableEq, Repr

namespace Failure

def kind : Failure → String
  | unsupportedRootType _ _ => "UnsupportedRootType"
  | unsupportedSchema _ _ => "UnsupportedSchema"
  | refResolution _ _ _ => "RefResolution"
  | refCycle _ _ _ => "RefCycle"
  | invalidPath _ _ => "InvalidSubschemaPath"
  | malformedSchema _ _ => "MalformedSchema"
  | varReference _ _ => "VarReference"

def message : Failure → String
  | unsupportedRootType types location =>
    location ++ ": root type " ++ Text.quotedList types ++
      " is not supported, the root must be an `object`"
  | unsupportedSchema reason location => location ++ ": unsupported schema: " ++ reason
  | refResolution reference scope reason =>
    "cannot resolve `$ref` " ++ Text.quoted reference ++ " in scope " ++ scope ++ ": " ++ reason
  | refCycle reference location depth =>
    "`$ref` " ++ Text.quoted reference ++ " at " ++ location ++ " recurses without bound (depth " ++
      toString depth ++ ")"
  | invalidPath segment reason =>
    "invalid sub-schema path at segment " ++ Text.quoted segment ++ ": " ++ reason
  | malformedSchema reason location => location ++ ": malformed schema: " ++ reason
  | varReference reference reason => "variable reference " ++ Text.quoted reference ++ ": " ++ reason

end Failure

end SchemaShape
