import SchemaShape.Proofs.Compiler.Outcome
import SchemaShape.Proofs.Registry

/-! # Sessions and their compiles

A session is what its documents make it, in the order of registration, and a compile is a run of the
compiler at the document's root.
-/

namespace SchemaShape
set_option autoImplicit false

/-- The draft that a schema is compiled under. -/
def Options.draftOf (options : Options) (schema : Json) : Draft :=
  options.draft.getD (Draft.detectIn schema)

/-- A document in a file. -/
def fileAt (path : String) (schema : Json) : Document :=
  ⟨{ scheme := "file", authority := some {}, path, query := none, fragment := none }, schema⟩

namespace Session

/-- The session of some documents, in the order of registration. -/
def ofDocuments (documents : List Document) : Session :=
  documents.foldl add {}

theorem registry_ofDocuments (documents : List Document) :
    (ofDocuments documents).registry = documents.foldl Registry.insert .empty := by
  have h : ∀ session : Session, (documents.foldl add session).registry =
      documents.foldl Registry.insert session.registry := by
    induction documents with
    | nil => exact fun _ => rfl
    | cons first rest ih => exact fun session => ih (session.add first)
  exact h {}

/-- What a compile reports. -/
def report (url : Url) (path : List String) (c : Compiler) (added : List Diagnostic) (root : Shape) :
    Compilation :=
  { url := url.text, path, name := c.outerName, draft := c.draft, root
    diagnostics := c.diagnostics ++ added }

/-- A compile is a run of the compiler at the root of the document, or at what it is narrowed to. -/
theorem compile_of_gives {session : Session} {url : Url} {path : List String} {options : Options}
    {whole schema : Json} {c : Compiler} {result : Except Failure Shape} {added : List Diagnostic}
    (hwhole : session.registry.get? url.withoutFragment.text = some whole)
    (hschema : (if path.isEmpty then .ok whole else narrow whole path) = .ok schema)
    (hc : session.compilerFor url.withoutFragment whole schema (!path.isEmpty) options = c)
    (h : (Compile.upTo c.remaining schema true).Gives c result added) :
    session.compile url path options = result.map (report url path c added) := by
  have hrun : c.compile schema true = (result, { c with diagnostics := c.diagnostics ++ added }) :=
    h.run
  have hreport : session.compile url path options =
      (c.compile schema true).1 >>= fun root => pure
        { url := url.text, path, name := c.outerName, draft := c.draft, root
          diagnostics := (c.compile schema true).2.diagnostics : Compilation } := by
    subst hc
    rw [compile, hwhole]
    show (if path.isEmpty = true then _ else _) = _
    split at hschema
    · next hpath =>
      cases hschema
      rw [if_pos hpath]
      rfl
    · next hpath =>
      rw [if_neg hpath, hschema]
      rfl
  rw [hreport, hrun]
  cases result with
  | ok root => rfl
  | error e => rfl

theorem compile_unregistered {session : Session} {url : Url} {path : List String} {options : Options}
    (hwhole : session.registry.get? url.withoutFragment.text = none) :
    session.compile url path options = .error (.refResolution url.text url.withoutFragment.text
      "no document is registered under this URI") := by
  rw [compile, hwhole]
  rfl

theorem compile_astray {session : Session} {url : Url} {path : List String} {options : Options}
    {whole : Json} {failure : Failure}
    (hwhole : session.registry.get? url.withoutFragment.text = some whole)
    (hschema : (if path.isEmpty then .ok whole else narrow whole path) = .error failure) :
    session.compile url path options = .error failure := by
  rw [compile, hwhole]
  split at hschema
  · cases hschema
  · next hpath =>
    show (if path.isEmpty = true then _ else _) = _
    rw [if_neg hpath, hschema]
    rfl

end Session

end SchemaShape
