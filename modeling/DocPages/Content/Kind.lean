/-!
# Roles and styles of content

The semantic role of a piece of content, the hints for its display, and the tab it belongs to.
Roles let renderers and passes select content by meaning instead of by position.
-/

namespace DocPages

namespace Content

/-- The semantic role of a piece of content. -/
inductive Kind where
  | comment
  | constructors
  | functions
  | parameters
  | properties
  | classlikes
  | packages
  | symbol
  | sample
  | main
  | briefComment
  | empty
  | typeAliases
  | cover
  | inheritors
  | sourceSetDependentHint
  | extensions
  | annotations
  | deprecation
  | allTypes
deriving DecidableEq, Repr, Inhabited

namespace Kind

/-- The name of a role. -/
def name : Kind → String
  | .comment => "Comment"
  | .constructors => "Constructors"
  | .functions => "Functions"
  | .parameters => "Parameters"
  | .properties => "Properties"
  | .classlikes => "Classlikes"
  | .packages => "Packages"
  | .symbol => "Symbol"
  | .sample => "Sample"
  | .main => "Main"
  | .briefComment => "BriefComment"
  | .empty => "Empty"
  | .typeAliases => "TypeAliases"
  | .cover => "Cover"
  | .inheritors => "Inheritors"
  | .sourceSetDependentHint => "SourceSetDependentHint"
  | .extensions => "Extensions"
  | .annotations => "Annotations"
  | .deprecation => "Deprecation"
  | .allTypes => "AllTypes"

/-- Every value, in order of declaration. -/
def all : List Kind :=
  [.comment, .constructors, .functions, .parameters, .properties, .classlikes, .packages, .symbol,
   .sample, .main, .briefComment, .empty, .typeAliases, .cover, .inheritors,
   .sourceSetDependentHint, .extensions, .annotations, .deprecation, .allTypes]

/-- The value with a name. -/
def ofName? (name : String) : Option Kind :=
  all.find? fun value => value.name == name

end Kind

/-- A hint for the display of a piece of content. -/
inductive Style where
  | bold
  | italic
  | strong
  | strikethrough
  | paragraph
  | block
  | span
  | monospace
  | indented
  | cover
  | underCoverText
  | rowTitle
  | tabbedContent
  | caption
  | wrapped
  | inDocumentationAnchor
  | kdocTag
deriving DecidableEq, Repr, Inhabited

namespace Style

/-- The name of a style. -/
def name : Style → String
  | .bold => "Bold"
  | .italic => "Italic"
  | .strong => "Strong"
  | .strikethrough => "Strikethrough"
  | .paragraph => "Paragraph"
  | .block => "Block"
  | .span => "Span"
  | .monospace => "Monospace"
  | .indented => "Indented"
  | .cover => "Cover"
  | .underCoverText => "UnderCoverText"
  | .rowTitle => "RowTitle"
  | .tabbedContent => "TabbedContent"
  | .caption => "Caption"
  | .wrapped => "Wrapped"
  | .inDocumentationAnchor => "InDocumentationAnchor"
  | .kdocTag => "KDocTag"

/-- Every value, in order of declaration. -/
def all : List Style :=
  [.bold, .italic, .strong, .strikethrough, .paragraph, .block, .span, .monospace, .indented,
   .cover, .underCoverText, .rowTitle, .tabbedContent, .caption, .wrapped, .inDocumentationAnchor,
   .kdocTag]

/-- The value with a name. -/
def ofName? (name : String) : Option Style :=
  all.find? fun value => value.name == name

/-- Values are ordered as they are declared. -/
instance : Ord Style where
  compare left right := compareOn Style.ctorIdx left right

instance : Std.TransOrd Style :=
  inferInstanceAs (Std.TransCmp (compareOn Style.ctorIdx))

end Style

/-- The tab that a section of content belongs to. -/
inductive Tab where
  | constructor
  | function
  | property
  | entry
  | type
  | extensionFunction
  | extensionProperty
deriving DecidableEq, Repr, Inhabited

namespace Tab

/-- The name of a tab. -/
def name : Tab → String
  | .constructor => "Constructor"
  | .function => "Function"
  | .property => "Property"
  | .entry => "Entry"
  | .type => "Type"
  | .extensionFunction => "ExtensionFunction"
  | .extensionProperty => "ExtensionProperty"

/-- Every value, in order of declaration. -/
def all : List Tab :=
  [.constructor, .function, .property, .entry, .type, .extensionFunction, .extensionProperty]

/-- The value with a name. -/
def ofName? (name : String) : Option Tab :=
  all.find? fun value => value.name == name

end Tab

end Content

end DocPages
