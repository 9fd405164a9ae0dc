import DocPages.Proofs.Content.Retouching

/-!
# Listings in content

What the sections in a content list, read off its nodes: a section is a heading with a table below,
each row of the table has a name and is for members or for extensions, and holds variants with their
identities and source sets. A change of nodes that only retouches them keeps what is listed under a
title, as long as it keeps the sections with that title.
-/

namespace DocPages

namespace Content

/-- What a section says about a variant that it lists. -/
structure ListedVariant where
  /-- The name of the row. -/
  name : Option String
  /-- The row is for extensions. -/
  isExtension : Bool
  dris : OrderedSet Dri
  sourceSets : SourceSets
deriving DecidableEq

namespace Node

/-- The rows of a table. -/
def tableRows : Node → List Node
  | .table _ _ _ rows => rows
  | _ => []

/-- The variants that a row of a table lists. -/
def listedInRow (row : Node) : List ListedVariant :=
  (row.children.flatMap variants).map fun variant =>
    { name := row.scope.extras.symbolAnchor.map SymbolAnchor.name
      isExtension := row.kind == .extensions
      dris := variant.scope.dris
      sourceSets := variant.sourceSets }

/-- The title that a heading starts with. -/
def headingTitle? (heading : Node) : Option String :=
  if heading.shape = .header then heading.children.head?.map ownText else none

/-- The title of a section, which starts with a heading. -/
def sectionTitle? (content : Node) : Option String :=
  content.children.head?.bind headingTitle?

/-- The variants that a section lists, if it has the title. -/
def listedInSection (title : String) (content : Node) : List ListedVariant :=
  if content.sectionTitle? = some title then
    (content.children.flatMap tableRows).flatMap listedInRow
  else []

/-- The sections for the members of a page, which are in the last part of its tabs. -/
def sections (content : Node) : List Node :=
  ((content.children.getLast?.bind fun tabs => tabs.children.getLast?).map children).getD []

/-- The tabs of a page, which are the nodes of its last part. -/
def tabs (content : Node) : List Node :=
  (content.children.getLast?.map children).getD []

theorem sections_eq_children_of_tabs (content : Node) :
    content.sections = (content.tabs.getLast?.map children).getD [] := by
  rw [sections, tabs]
  cases content.children.getLast? <;> rfl

/-- The variants that the members of a page list under a title. -/
def listedUnder (title : String) (content : Node) : List ListedVariant :=
  content.sections.flatMap (listedInSection title)

/-! ## Retouched listings -/

section

variable {change : Node → Node} (retouches : ∀ node : Node, node.RetouchedHere (change node))

include retouches

theorem tableRows_mapAll (node : Node) :
    (node.mapAll change).tableRows = node.tableRows.map (mapAll change) := by
  by_cases isTable : node.shape = .table
  · rw [mapAll_eq]
    rw [(retouches _).eq_of_shape]
    · cases node with
      | table => rfl
      | _ => cases isTable
    all_goals simp [shape_mapChildren, isTable]
  · have noRows : ∀ other : Node, other.shape ≠ .table → other.tableRows = [] := by
      intro other noTable
      cases other <;> first | rfl | exact absurd rfl noTable
    rw [noRows node isTable, noRows]
    · rfl
    · rwa [shape_mapAll retouches]

private theorem listedInRow_mapAll (row : Node) :
    (row.mapAll change).listedInRow = row.listedInRow := by
  simp only [listedInRow, children_mapAll retouches, List.flatMap_map, List.map_flatMap,
    (keepsVariants_of_retouches retouches).variants_mapAll, List.map_map, Function.comp_def,
    extras_mapAll retouches, kind_mapAll retouches, dris_mapAll retouches,
    sourceSets_mapAll retouches]

variable {retitle : String → String}
  (retitles : ∀ node, (change node).ownText = retitle node.ownText)

include retitles

omit retouches in
private theorem ownText_mapAll (node : Node) :
    (node.mapAll change).ownText = retitle node.ownText := by
  rw [mapAll_eq, retitles]
  cases node <;> rfl

private theorem headingTitle?_mapAll (node : Node) :
    (node.mapAll change).headingTitle? = node.headingTitle?.map retitle := by
  rw [headingTitle?, headingTitle?, shape_mapAll retouches, children_mapAll retouches,
    List.head?_map, Option.map_map]
  split
  · rw [Option.map_map]
    exact Option.map_congr fun first _ => ownText_mapAll retitles first
  · rfl

private theorem sectionTitle?_mapAll (node : Node) :
    (node.mapAll change).sectionTitle? = node.sectionTitle?.map retitle := by
  rw [sectionTitle?, sectionTitle?, children_mapAll retouches, List.head?_map]
  cases node.children.head? with
  | none => rfl
  | some heading => exact headingTitle?_mapAll retouches retitles heading

/-- What is listed under a title stays if sections have that title exactly if they had it before. -/
theorem listedUnder_mapAll {title : String}
    (keepsTitle : ∀ other, retitle other = title ↔ other = title) (content : Node) :
    (content.mapAll change).listedUnder title = content.listedUnder title := by
  have sections_mapAll :
      (content.mapAll change).sections = content.sections.map (mapAll change) := by
    rw [sections, sections, children_mapAll retouches, List.getLast?_map]
    cases content.children.getLast? with
    | none => rfl
    | some tabs =>
        rw [Option.map_some, Option.bind_some, Option.bind_some, children_mapAll retouches,
          List.getLast?_map]
        cases tabs.children.getLast? with
        | none => rfl
        | some scope => exact children_mapAll retouches scope
  rw [listedUnder, listedUnder, sections_mapAll, List.flatMap_map]
  refine List.flatMap_congr fun node _ => ?_
  have sameTitle : (node.mapAll change).sectionTitle? = some title ↔
      node.sectionTitle? = some title := by
    rw [sectionTitle?_mapAll retouches retitles]
    cases node.sectionTitle? <;> simp [keepsTitle]
  simp only [listedInSection, sameTitle, children_mapAll retouches, List.flatMap_map,
    tableRows_mapAll retouches, List.flatMap_assoc, listedInRow_mapAll retouches]

end

end Node

end Content

end DocPages
