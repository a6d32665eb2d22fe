import GraphCheckpoint.Graph
import GraphCheckpoint.Value

/-!
Contract: what is written down of a graph.

Owns:
- `Datum`, a value as a document holds it, with references by id;
- `Document`, a delta or a checkpoint with its version and time stamp;
- the fold of documents into a graph.

Does not own: the encoding of a document, or the live values behind it.
-/

namespace GraphCheckpoint

/-- A reference by id, with the type that the object is expected to have. -/
structure Reference where
  id : String
  expectedType : Option String
deriving DecidableEq, Repr, Inhabited

/-- A value in a document. -/
abbrev Datum := Value Reference Empty

/-- What a document says about the graph before it. -/
inductive DocumentKind where
  /-- The records are changes to it. -/
  | delta
  /-- The records take its place. -/
  | checkpoint
deriving DecidableEq, Repr, Inhabited

/-- A delta or a whole graph, as it is written down. -/
structure Document where
  formatVersion : Nat
  kind : DocumentKind
  createdAtUnixMs : Int64
  content : Delta Datum
deriving Inhabited

namespace Document

/-- The newest version that is known, and the one that is written. -/
def newestVersion : Nat := 1

/-- A document of the newest version. -/
def make (kind : DocumentKind) (now : Int64) (content : Delta Datum) : Document :=
  ⟨newestVersion, kind, now, content⟩

end Document

namespace Graph

/-- Folds a document: a checkpoint takes the place of the graph, a delta changes it. -/
def applyDocument (document : Document) (graph : Graph Datum) : Graph Datum :=
  match document.kind with
  | .delta => graph.apply document.content
  | .checkpoint => Graph.empty.apply document.content

/-- Folds documents in turn. -/
def applyDocuments (documents : List Document) (graph : Graph Datum) : Graph Datum :=
  documents.foldl (fun current document => current.applyDocument document) graph

end Graph

end GraphCheckpoint
