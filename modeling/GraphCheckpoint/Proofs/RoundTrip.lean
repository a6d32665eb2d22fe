import GraphCheckpoint.Proofs.Codec
import GraphCheckpoint.Proofs.NormalForm

/-!
Contract: deltas and graphs that are encoded and decoded again.

Owns:
- the round trip of a delta and of a graph, as programs;
- that either comes back in normal form, in MessagePack and in JSON.

Does not own: what of a document its bytes give back.

References come back as those that the look-up finds, so results are compared with references known by
id.
-/

namespace GraphCheckpoint.Encoding.Settings

variable {σ : Type} {settings : Settings} {cells : Cells} {now : Int64} {lookup : Lookup σ}
  {kept : σ → Prop} {state : σ}

/-- Encodes a delta and decodes its bytes. -/
def reloadDelta (settings : Settings) (cells : Cells) (now : Int64) (lookup : Lookup σ)
    (delta : Delta LiveValue) : StateT σ Outcome (Delta LiveValue) := do
  settings.decodeDelta lookup (← settings.encodeDelta cells now delta)

/-- Encodes a graph as a checkpoint and decodes its bytes. -/
def reloadGraph (settings : Settings) (cells : Cells) (now : Int64) (lookup : Lookup σ)
    (graph : Graph LiveValue) : StateT σ Outcome (Graph LiveValue) := do
  settings.decodeGraph lookup (← settings.encodeCheckpoint cells now graph)

/-- The look-up finds every reference under its id, and the names of types survive their aliases. -/
structure Restores (settings : Settings) (lookup : Lookup σ) (kept : σ → Prop)
    (names : List String) (references : List (ObjectKind × Handle)) : Prop where
  named : ∀ name ∈ names, settings.aliases.decodeName (settings.aliases.encodeName name) = name
  resolves : ∀ reference ∈ references,
    lookup.Resolves kept reference.1 reference.2.id (settings.expectedType reference.2)

/-- A delta of which a document within the limits is written comes back in normal form. -/
theorem reloadDelta_run {delta : Delta LiveValue} {normal : Delta SettledValue}
    (isNormal : delta.NormalForm cells normal)
    (admitted : settings.Admits (settings.documentOfDelta now normal))
    (restores : settings.Restores lookup kept normal.typeNames
      (normal.valueReferences Value.referencesOfEntries)) (isKept : kept state) :
    ∃ loaded after,
      (settings.reloadDelta cells now lookup delta).run state = .ok (loaded, after) ∧
        kept after ∧ loaded.byIds = normal.lifted.byIds := by
  obtain ⟨loaded, after, ran, afterKept, same⟩ :=
    convertDelta_written restores.named restores.resolves isKept
  refine ⟨loaded, after, ?_, afterKept, same⟩
  rw [reloadDelta, encodeDelta_of_settled (Delta.convert_settling_iff.mpr isNormal)]
  show (settings.decodeDelta lookup _).run state = _
  rw [decodeDelta, decodeDocument_encodeDocument admitted]
  exact ran

/-- So does a graph whose records stand under their own ids. -/
theorem reloadGraph_run {graph : Graph LiveValue} {normal : Graph SettledValue}
    (isNormal : graph.NormalForm cells normal) (keyed : normal.Keyed)
    (admitted : settings.Admits (settings.documentOfGraph now normal))
    (restores : settings.Restores lookup kept normal.typeNames
      (normal.valueReferences Value.referencesOfEntries)) (isKept : kept state) :
    ∃ loaded after,
      (settings.reloadGraph cells now lookup graph).run state = .ok (loaded, after) ∧
        kept after ∧ loaded.byIds = normal.lifted.byIds := by
  obtain ⟨loaded, after, ran, afterKept, same⟩ :=
    resolveGraph_written restores.named restores.resolves isKept
  refine ⟨loaded, after, ?_, afterKept, same⟩
  rw [reloadGraph, encodeCheckpoint_of_settled (Graph.convert_settling_iff.mpr isNormal)]
  show (settings.decodeGraph lookup _).run state = _
  rw [decodeGraph, decodeDocument_encodeDocument admitted]
  show (settings.resolveGraph lookup (Graph.empty.applyDocument _)).run state = _
  rw [apply_documentOfGraph, Graph.apply_ofGraph keyed]
  exact ran

/-! ## Records to send -/

section Sample

private def sampleAliases : Aliases := ⟨[("App", "app")]⟩

/-- A float without a value where floats may stand, the largest integer elsewhere. -/
private def sampleNumber (δ : Type) : Format → Value Handle δ
  | .messagePack => .float .nan
  | .json => .integer 9223372036854775807

/-- A cell that leads to a list, in which one computation is pending and another one has failed. -/
private def sampleCells (format : Format) : Cells :=
  ⟨#[.resolved (.deferred ⟨1⟩), .resolved (.list [.deferred ⟨2⟩, .deferred ⟨3⟩,
    sampleNumber CellId format]), .pending, .failed "off"]⟩

private def sampleTable (δ : Type) (inner : Table (Value Handle δ)) : Table (Value Handle δ) :=
  [("least", .integer (-9223372036854775808)), ("map", .map inner),
    ("owner", .entity ⟨0, "e", some "App"⟩), ("place", .location ⟨1, "p", none⟩),
    ("text", .text "\"\\\n\u0000\u1f980")]

private def sampleLive : Table LiveValue :=
  sampleTable CellId [("dropped", .deferred ⟨2⟩), ("kept", .deferred ⟨0⟩)]

private def sampleNormal (format : Format) : Table SettledValue :=
  sampleTable Empty [("kept", .list [.null, .null, sampleNumber Empty format])]

private def sampleEntity {V : Type} (table : Table V) : EntityMemento V :=
  ⟨⟨"e", "App", some "entity", table, [], ["tag"]⟩, none, ["c", "b"], ["p"], [], [], some "e"⟩

private def samplePolicy {V : Type} (table : Table V) : PolicyMemento V :=
  ⟨⟨"q", "Policy", none, [], table, []⟩, table⟩

private def sampleDelta {V : Type} (table : Table V) : Delta V :=
  ⟨[sampleEntity table, sampleEntity []], [⟨⟨"p", "Zone", none, table, [], []⟩, none, []⟩],
    [samplePolicy table], ["gone", "lost"], [], ["r"]⟩

private def sampleGraph {V : Type} (table : Table V) : Graph V :=
  ⟨[("e", sampleEntity table)], [("p", ⟨⟨"p", "Zone", none, table, [], []⟩, none, []⟩)],
    [("q", samplePolicy table)]⟩

private def sampleLookup : Lookup Unit :=
  StaticLookup.resolver ⟨[("e", ⟨7, "e", some "App"⟩)], [("p", ⟨8, "p", none⟩)]⟩

section Parts

variable (format : Format)

private theorem normalForm_sampleDelta :
    (sampleDelta sampleLive).NormalForm (sampleCells format) (sampleDelta (sampleNormal format)) :=
  Delta.convert_settling_iff.mp (by cases format <;> rfl)

private theorem normalForm_sampleGraph :
    (sampleGraph sampleLive).NormalForm (sampleCells format) (sampleGraph (sampleNormal format)) :=
  Graph.convert_settling_iff.mp (by cases format <;> rfl)

private theorem restores_sampleLookup {names : List String}
    {references : List (ObjectKind × Handle)} (areNames : names ⊆ ["App", "Zone", "Policy"])
    (areReferences : references ⊆ [(.entity, ⟨0, "e", some "App"⟩), (.location, ⟨1, "p", none⟩)]) :
    Restores ⟨format, sampleAliases⟩ sampleLookup (fun _ => True) names references where
  named := by
    have survive : ∀ name ∈ ["App", "Zone", "Policy"],
        sampleAliases.decodeName (sampleAliases.encodeName name) = name := by
      decide +kernel
    exact fun name member => survive name (areNames member)
  resolves := by
    intro reference member state _
    rcases List.mem_pair.mp (areReferences member) with rfl | rfl
    · exact ⟨⟨7, "e", some "App"⟩, (), rfl, rfl, trivial⟩
    · exact ⟨⟨8, "p", none⟩, (), rfl, rfl, trivial⟩

variable {format} {floats : Prop} (allowed : format = .messagePack → floats)

include allowed

private theorem regularTable_sampleNormal : Value.RegularTable floats (sampleNormal format) := by
  have outer : (sampleNormal format).Ordered := by
    unfold Table.Ordered
    cases format <;> decide +kernel
  have number : (sampleNumber Empty format).Regular floats := by
    cases format
    · exact trivial
    · exact allowed rfl
  exact ⟨outer, trivial, ⟨List.pairwise_singleton _ _, ⟨trivial, trivial, number, trivial⟩, trivial⟩,
    trivial, trivial, trivial, trivial⟩

private theorem regular_sampleEntity :
    (sampleEntity (sampleNormal format)).Regular floats :=
  ⟨regularTable_sampleNormal allowed, ⟨.nil, trivial⟩, List.pairwise_singleton _ _⟩

private theorem regular_sampleLocation :
    LocationMemento.Regular floats
      ⟨⟨"p", "Zone", none, sampleNormal format, [], []⟩, none, []⟩ :=
  ⟨regularTable_sampleNormal allowed, ⟨.nil, trivial⟩, .nil⟩

private theorem regular_samplePolicy :
    (samplePolicy (sampleNormal format)).Regular floats :=
  ⟨⟨⟨.nil, trivial⟩, regularTable_sampleNormal allowed, .nil⟩, regularTable_sampleNormal allowed⟩

private theorem regular_sampleDelta : (sampleDelta (sampleNormal format)).Regular floats := by
  have ascending : List.Pairwise (· < ·) ["gone", "lost"] := by decide +kernel
  refine ⟨?_, ?_, ?_, ascending, .nil, List.pairwise_singleton _ _⟩
  · intro memento member
    rcases List.mem_pair.mp member with rfl | rfl
    · exact regular_sampleEntity allowed
    · exact ⟨⟨.nil, trivial⟩, ⟨.nil, trivial⟩, List.pairwise_singleton _ _⟩
  · intro memento member
    rw [List.mem_singleton.mp member]
    exact regular_sampleLocation allowed
  · intro memento member
    rw [List.mem_singleton.mp member]
    exact regular_samplePolicy allowed

private theorem regular_sampleGraph : (sampleGraph (sampleNormal format)).Regular floats := by
  refine ⟨?_, ?_, ?_, List.pairwise_singleton _ _, List.pairwise_singleton _ _,
    List.pairwise_singleton _ _⟩
  · intro entry member
    rw [List.mem_singleton.mp member]
    exact ⟨rfl, regular_sampleEntity allowed⟩
  · intro entry member
    rw [List.mem_singleton.mp member]
    exact ⟨rfl, regular_sampleLocation allowed⟩
  · intro entry member
    rw [List.mem_singleton.mp member]
    exact ⟨rfl, regular_samplePolicy allowed⟩

end Parts

end Sample

/-! ## The two encodings -/

/-- In MessagePack, every delta and every keyed graph comes back in normal form, floats included, if
its document nests no deeper than the reader goes and no length exceeds four bytes. -/
theorem reload_messagePack {aliases : Aliases} (isKept : kept state) :
    (∀ (delta : Delta LiveValue) (normal : Delta SettledValue),
      delta.NormalForm cells normal → normal.Regular True →
      (documentOfDelta ⟨.messagePack, aliases⟩ now normal).toNode.legible 1023 = true →
      (documentOfDelta ⟨.messagePack, aliases⟩ now normal).toNode.Fits →
      Restores ⟨.messagePack, aliases⟩ lookup kept normal.typeNames
        (normal.valueReferences Value.referencesOfEntries) →
      ∃ loaded after,
        (reloadDelta ⟨.messagePack, aliases⟩ cells now lookup delta).run state =
            .ok (loaded, after) ∧
          kept after ∧ loaded.byIds = normal.lifted.byIds) ∧
    (∀ (graph : Graph LiveValue) (normal : Graph SettledValue),
      graph.NormalForm cells normal → normal.Regular True →
      (documentOfGraph ⟨.messagePack, aliases⟩ now normal).toNode.legible 1023 = true →
      (documentOfGraph ⟨.messagePack, aliases⟩ now normal).toNode.Fits →
      Restores ⟨.messagePack, aliases⟩ lookup kept normal.typeNames
        (normal.valueReferences Value.referencesOfEntries) →
      ∃ loaded after,
        (reloadGraph ⟨.messagePack, aliases⟩ cells now lookup graph).run state =
            .ok (loaded, after) ∧
          kept after ∧ loaded.byIds = normal.lifted.byIds) := by
  constructor
  · intro delta normal isNormal regular nested fits restores
    have floats : normal.Regular (Format.messagePack = .messagePack) := by simpa using regular
    exact reloadDelta_run isNormal (admits_documentOfDelta floats nested fun _ => fits) restores isKept
  · intro graph normal isNormal regular nested fits restores
    have floats : normal.Regular (Format.messagePack = .messagePack) := by simpa using regular
    exact reloadGraph_run isNormal floats.keyed
      (admits_documentOfGraph (Delta.regular_ofGraph floats) nested fun _ => fits) restores isKept

/-- A delta and a graph with a float, computed values and references. -/
theorem reload_messagePack_sample :
    (∃ loaded after,
      (reloadDelta ⟨.messagePack, sampleAliases⟩ (sampleCells .messagePack) 5 sampleLookup
          (sampleDelta sampleLive)).run () = .ok (loaded, after) ∧
        loaded.byIds = (sampleDelta (sampleNormal .messagePack)).lifted.byIds) ∧
    ∃ loaded after,
      (reloadGraph ⟨.messagePack, sampleAliases⟩ (sampleCells .messagePack) 5 sampleLookup
          (sampleGraph sampleLive)).run () = .ok (loaded, after) ∧
        loaded.byIds = (sampleGraph (sampleNormal .messagePack)).lifted.byIds := by
  obtain ⟨ofDelta, ofGraph⟩ := @reload_messagePack Unit (sampleCells .messagePack) 5 sampleLookup
    (fun _ => True) () sampleAliases trivial
  have shortDelta : (encodeDocument ⟨.messagePack, sampleAliases⟩ (documentOfDelta
      ⟨.messagePack, sampleAliases⟩ 5 (sampleDelta (sampleNormal .messagePack)))).length <
        Node.lengthBound := by
    decide +kernel
  have shortGraph : (encodeDocument ⟨.messagePack, sampleAliases⟩ (documentOfGraph
      ⟨.messagePack, sampleAliases⟩ 5 (sampleGraph (sampleNormal .messagePack)))).length <
        Node.lengthBound := by
    decide +kernel
  constructor
  · obtain ⟨loaded, after, ran, -, same⟩ := ofDelta (sampleDelta sampleLive)
      (sampleDelta (sampleNormal .messagePack)) (normalForm_sampleDelta _)
      (regular_sampleDelta fun _ => trivial) (by decide +kernel)
      (fits_of_length_encodeDocument shortDelta rfl)
      (restores_sampleLookup _ (by decide +kernel) (by decide +kernel))
    exact ⟨loaded, after, ran, same⟩
  · obtain ⟨loaded, after, ran, -, same⟩ := ofGraph (sampleGraph sampleLive)
      (sampleGraph (sampleNormal .messagePack)) (normalForm_sampleGraph _)
      (regular_sampleGraph fun _ => trivial) (by decide +kernel)
      (fits_of_length_encodeDocument shortGraph rfl)
      (restores_sampleLookup _ (by decide +kernel) (by decide +kernel))
    exact ⟨loaded, after, ran, same⟩

/-- In JSON, every delta and every keyed graph without floats comes back in normal form, if its
document nests no deeper than the reader goes. -/
theorem reload_json {aliases : Aliases} (isKept : kept state) :
    (∀ (delta : Delta LiveValue) (normal : Delta SettledValue),
      delta.NormalForm cells normal → normal.Regular False →
      (documentOfDelta ⟨.json, aliases⟩ now normal).toNode.legible 127 = true →
      Restores ⟨.json, aliases⟩ lookup kept normal.typeNames
        (normal.valueReferences Value.referencesOfEntries) →
      ∃ loaded after,
        (reloadDelta ⟨.json, aliases⟩ cells now lookup delta).run state = .ok (loaded, after) ∧
          kept after ∧ loaded.byIds = normal.lifted.byIds) ∧
    (∀ (graph : Graph LiveValue) (normal : Graph SettledValue),
      graph.NormalForm cells normal → normal.Regular False →
      (documentOfGraph ⟨.json, aliases⟩ now normal).toNode.legible 127 = true →
      Restores ⟨.json, aliases⟩ lookup kept normal.typeNames
        (normal.valueReferences Value.referencesOfEntries) →
      ∃ loaded after,
        (reloadGraph ⟨.json, aliases⟩ cells now lookup graph).run state = .ok (loaded, after) ∧
          kept after ∧ loaded.byIds = normal.lifted.byIds) := by
  constructor
  · intro delta normal isNormal regular nested restores
    have plain : normal.Regular (Format.json = .messagePack) := by simpa using regular
    exact reloadDelta_run isNormal (admits_documentOfDelta plain nested nofun) restores isKept
  · intro graph normal isNormal regular nested restores
    have plain : normal.Regular (Format.json = .messagePack) := by simpa using regular
    exact reloadGraph_run isNormal plain.keyed
      (admits_documentOfGraph (Delta.regular_ofGraph plain) nested nofun) restores isKept

/-- A delta and a graph with escaped text, computed values and references. -/
theorem reload_json_sample :
    (∃ loaded after,
      (reloadDelta ⟨.json, sampleAliases⟩ (sampleCells .json) 5 sampleLookup
          (sampleDelta sampleLive)).run () = .ok (loaded, after) ∧
        loaded.byIds = (sampleDelta (sampleNormal .json)).lifted.byIds) ∧
    ∃ loaded after,
      (reloadGraph ⟨.json, sampleAliases⟩ (sampleCells .json) 5 sampleLookup
          (sampleGraph sampleLive)).run () = .ok (loaded, after) ∧
        loaded.byIds = (sampleGraph (sampleNormal .json)).lifted.byIds := by
  obtain ⟨ofDelta, ofGraph⟩ := @reload_json Unit (sampleCells .json) 5 sampleLookup
    (fun _ => True) () sampleAliases trivial
  constructor
  · obtain ⟨loaded, after, ran, -, same⟩ := ofDelta (sampleDelta sampleLive)
      (sampleDelta (sampleNormal .json)) (normalForm_sampleDelta _) (regular_sampleDelta nofun)
      (by decide +kernel) (restores_sampleLookup _ (by decide +kernel) (by decide +kernel))
    exact ⟨loaded, after, ran, same⟩
  · obtain ⟨loaded, after, ran, -, same⟩ := ofGraph (sampleGraph sampleLive)
      (sampleGraph (sampleNormal .json)) (normalForm_sampleGraph _) (regular_sampleGraph nofun)
      (by decide +kernel) (restores_sampleLookup _ (by decide +kernel) (by decide +kernel))
    exact ⟨loaded, after, ran, same⟩

end GraphCheckpoint.Encoding.Settings
