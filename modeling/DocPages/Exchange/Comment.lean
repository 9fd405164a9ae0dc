import DocPages.Comment.Tag
import DocPages.Exchange.Identity

/-!
# The exchange form of comments

Markup and comment tags as JSON values with a tag that names the variant.
-/

namespace DocPages

namespace Markup

/-- The names of the variants of markup. -/
def variantNames : List String :=
  ["text", "paragraph", "bold", "italic", "code_inline", "code_block", "documentation_link",
    "external_link", "unordered_list", "list_item", "br", "custom_doc_tag"]

/-- The markup that a value of at most the given depth states. -/
def ofJsonWithin : Nat → Decoder Markup
  | 0, _, _ => none
  | bound + 1, kept, json => do
    let (variant, record) ← Record.tagged? "tag" variantNames kept json
    let children := record.defaulting "children" [] (.list (ofJsonWithin bound))
    match variant with
    | "text" => return .text (← record.required "body" .string)
    | "paragraph" => return .paragraph (← children)
    | "bold" => return .bold (← children)
    | "italic" => return .italic (← children)
    | "code_inline" => return .codeInline (← children)
    | "code_block" => return .codeBlock (← record.optional "language" .string) (← children)
    | "documentation_link" =>
      return .declarationLink (← record.required "dri" Dri.ofJson) (← children)
    | "external_link" => return .externalLink (← record.required "href" .string) (← children)
    | "unordered_list" => return .unorderedList (← children)
    | "list_item" => return .listItem (← children)
    | "br" => return .lineBreak
    | _ => return .root (← children)

/-- The markup that a value states. -/
def ofJson : Decoder Markup :=
  fun kept json => ofJsonWithin json.depth kept json

mutual

/-- The value of a piece of markup. -/
def toJson : Markup → Json
  | .text body => .ofMembers [("tag", .ofString "text"), ("body", .ofString body)]
  | .paragraph children =>
    .ofMembers [("tag", .ofString "paragraph"), ("children", .array (toJsonList children))]
  | .bold children =>
    .ofMembers [("tag", .ofString "bold"), ("children", .array (toJsonList children))]
  | .italic children =>
    .ofMembers [("tag", .ofString "italic"), ("children", .array (toJsonList children))]
  | .codeInline children =>
    .ofMembers [("tag", .ofString "code_inline"), ("children", .array (toJsonList children))]
  | .codeBlock language children =>
    .ofMembers [("tag", .ofString "code_block"), ("language", .ofText? language),
      ("children", .array (toJsonList children))]
  | .declarationLink dri children =>
    .ofMembers [("tag", .ofString "documentation_link"), ("dri", dri.toJson),
      ("children", .array (toJsonList children))]
  | .externalLink href children =>
    .ofMembers [("tag", .ofString "external_link"), ("href", .ofString href),
      ("children", .array (toJsonList children))]
  | .unorderedList children =>
    .ofMembers [("tag", .ofString "unordered_list"), ("children", .array (toJsonList children))]
  | .listItem children =>
    .ofMembers [("tag", .ofString "list_item"), ("children", .array (toJsonList children))]
  | .lineBreak => .ofMembers [("tag", .ofString "br")]
  | .root children =>
    .ofMembers [("tag", .ofString "custom_doc_tag"), ("children", .array (toJsonList children))]

/-- The values of a list of markup. -/
def toJsonList : List Markup → List Json
  | [] => []
  | head :: tail => head.toJson :: toJsonList tail

end

end Markup

namespace CommentTag

/-- The names of the variants of comment tags. -/
def variantNames : List String :=
  ["description", "param", "return", "throws", "see", "sample", "since", "author", "deprecated",
    "property", "custom_tag"]

/-- The comment tag that a value states. -/
def ofJson : Decoder CommentTag := fun kept json => do
  let (variant, record) ← Record.tagged? "wrapper" variantNames kept json
  let root ← record.required "root" Markup.ofJson
  let name := record.required "name" .string
  match variant with
  | "description" => return .description root
  | "param" => return .param (← name) root
  | "return" => return .returns root
  | "throws" => return .throws (← name) (← record.optional "exception" Dri.ofJson) root
  | "see" => return .see (← name) (← record.optional "address" Dri.ofJson) root
  | "sample" => return .sample (← name) root
  | "since" => return .since root
  | "author" => return .author root
  | "deprecated" => return .deprecated root
  | "property" => return .property (← name) root
  | _ => return .custom (← name) root

/-- The value of a comment tag. -/
def toJson : CommentTag → Json
  | .description root =>
    .ofMembers [("wrapper", .ofString "description"), ("root", root.toJson)]
  | .param name root =>
    .ofMembers [("wrapper", .ofString "param"), ("name", .ofString name), ("root", root.toJson)]
  | .returns root => .ofMembers [("wrapper", .ofString "return"), ("root", root.toJson)]
  | .throws name exception root =>
    .ofMembers [("wrapper", .ofString "throws"), ("name", .ofString name),
      ("exception", .ofOption (exception.map Dri.toJson)), ("root", root.toJson)]
  | .see name address root =>
    .ofMembers [("wrapper", .ofString "see"), ("name", .ofString name),
      ("address", .ofOption (address.map Dri.toJson)), ("root", root.toJson)]
  | .sample name root =>
    .ofMembers [("wrapper", .ofString "sample"), ("name", .ofString name), ("root", root.toJson)]
  | .since root => .ofMembers [("wrapper", .ofString "since"), ("root", root.toJson)]
  | .author root => .ofMembers [("wrapper", .ofString "author"), ("root", root.toJson)]
  | .deprecated root => .ofMembers [("wrapper", .ofString "deprecated"), ("root", root.toJson)]
  | .property name root =>
    .ofMembers [("wrapper", .ofString "property"), ("name", .ofString name),
      ("root", root.toJson)]
  | .custom name root =>
    .ofMembers [("wrapper", .ofString "custom_tag"), ("name", .ofString name),
      ("root", root.toJson)]

end CommentTag

namespace Comment

/-- The comment that a value states. -/
def ofJson : Decoder Comment := fun kept json => do
  let record ← Record.ofJson? kept json
  return ⟨← record.defaulting "children" [] (.list CommentTag.ofJson)⟩

/-- The value of a comment. -/
def toJson (comment : Comment) : Json :=
  .ofMembers [("children", .array (comment.tags.map CommentTag.toJson))]

end Comment

end DocPages
