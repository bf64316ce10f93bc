import Galley.Layout.Presets
import Galley.Markup.Problem

/-! # Failures

Formatting fails because of the document, because of the presets, or because the output cannot be
written.
-/

namespace Galley

/-- Why a document was not formatted. -/
inductive Failure where
  /-- The document has a problem. -/
  | document (problem : Problem)
  /-- The presets are not valid. -/
  | presets (invalid : InvalidPreset)
  /-- The output was refused. -/
  | output (reason : String)
deriving DecidableEq

namespace Failure

/-- Byte range of the document that the failure is about; empty if it is not about the
document. -/
def span : Failure → Span
  | document problem => problem.span
  | presets _ | output _ => ⟨0, 0⟩

/-- The failure in words. -/
def message : Failure → String
  | document problem => problem.message
  | presets invalid => "Invalid presets: " ++ invalid.message
  | output reason => "Failed to write output: " ++ reason

/-- Remarks on the pieces of the document that show the failure. -/
def labels : Failure → List Label
  | document problem => problem.labels
  | presets _ | output _ => []

/-- Advice on how to mend the failure. -/
def notes : Failure → List String
  | document problem => problem.notes
  | presets _ => ["presets apply before the first line of the document is read"]
  | output _ => []

end Failure
end Galley
