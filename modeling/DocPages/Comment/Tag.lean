import DocPages.Comment.Markup

/-!
# Comment tags

A documentation comment is a list of tagged sections. The header of a tag is the heading under
which its content is shown.
-/

namespace DocPages

/-- A tagged section of a documentation comment. -/
inductive CommentTag where
  | description (root : Markup)
  | param (name : String) (root : Markup)
  | returns (root : Markup)
  | throws (name : String) (exception : Option Dri) (root : Markup)
  | see (name : String) (address : Option Dri) (root : Markup)
  | sample (name : String) (root : Markup)
  | since (root : Markup)
  | author (root : Markup)
  | deprecated (root : Markup)
  | property (name : String) (root : Markup)
  | custom (name : String) (root : Markup)
deriving DecidableEq, Inhabited

namespace CommentTag

/-- The markup under a tag. -/
def root : CommentTag → Markup
  | .description root | .param _ root | .returns root | .throws _ _ root | .see _ _ root
  | .sample _ root | .since root | .author root | .deprecated root | .property _ root
  | .custom _ root => root

/-- The heading of a tag. -/
def header : CommentTag → String
  | .description _ => "Description"
  | .param .. => "Parameters"
  | .returns _ => "Return"
  | .throws .. => "Throws"
  | .see .. => "See also"
  | .sample .. => "Samples"
  | .since _ => "Since"
  | .author _ => "Author"
  | .deprecated _ => "Deprecated"
  | .property .. => "Property"
  | .custom .. => "Custom"

def isDescription : CommentTag → Bool
  | .description _ => true
  | _ => false

def isProperty : CommentTag → Bool
  | .property .. => true
  | _ => false

end CommentTag

/-- The documentation of one declaration in one source set. -/
structure Comment where
  tags : List CommentTag := []
deriving DecidableEq, Inhabited

namespace Comment

/-- A comment of a one-paragraph description. -/
def describing (text : String) : Comment :=
  ⟨[.description (.root [.paragraph [.text text]])]⟩

/-- The first description tag. -/
def descriptionTag? (comment : Comment) : Option CommentTag :=
  comment.tags.find? CommentTag.isDescription

/-- The first property tag. -/
def propertyTag? (comment : Comment) : Option CommentTag :=
  comment.tags.find? CommentTag.isProperty

end Comment

end DocPages
