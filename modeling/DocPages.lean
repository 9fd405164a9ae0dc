import DocPages.Exchange.Description
import DocPages.Exchange.Page
import DocPages.Exchange.Report
import DocPages.Json.Writer
import DocPages.Main
import DocPages.Proofs.Comment.FirstSentence
import DocPages.Proofs.Content.Blocks
import DocPages.Proofs.Content.Collapsing
import DocPages.Proofs.Content.Coverage
import DocPages.Proofs.Content.Fragments
import DocPages.Proofs.Content.Outlines
import DocPages.Proofs.Content.Rewriting
import DocPages.Proofs.Content.Rules
import DocPages.Proofs.Content.Texts
import DocPages.Proofs.Content.Variants
import DocPages.Proofs.Declaration.Extras
import DocPages.Proofs.Declaration.Identity
import DocPages.Proofs.Declaration.Nesting
import DocPages.Proofs.Exchange.Names
import DocPages.Proofs.Exchange.RoundTrip
import DocPages.Proofs.Json.Decoding
import DocPages.Proofs.Output.CodeBlocks
import DocPages.Proofs.Output.Outline
import DocPages.Proofs.Output.Signatures
import DocPages.Proofs.Output.VisibleText
import DocPages.Proofs.Page.AliasPages
import DocPages.Proofs.Page.AllTypes
import DocPages.Proofs.Page.BestVariants
import DocPages.Proofs.Page.Building
import DocPages.Proofs.Page.Contents
import DocPages.Proofs.Page.Coverage
import DocPages.Proofs.Page.DescriptionEntries
import DocPages.Proofs.Page.DifferingDris
import DocPages.Proofs.Page.Documented
import DocPages.Proofs.Page.EnumEntries
import DocPages.Proofs.Page.Extensions
import DocPages.Proofs.Page.Failures
import DocPages.Proofs.Page.Hierarchy
import DocPages.Proofs.Page.Identity
import DocPages.Proofs.Page.Listed
import DocPages.Proofs.Page.ListedExtensions
import DocPages.Proofs.Page.Members
import DocPages.Proofs.Page.Merging
import DocPages.Proofs.Page.Navigation
import DocPages.Proofs.Page.Outlines
import DocPages.Proofs.Page.Packages
import DocPages.Proofs.Page.PassLaws
import DocPages.Proofs.Page.Passes
import DocPages.Proofs.Page.Reports
import DocPages.Proofs.Page.Requests
import DocPages.Proofs.Page.RootPaths
import DocPages.Proofs.Page.Sections
import DocPages.Proofs.Page.SeparateListings
import DocPages.Proofs.Page.Sources
import DocPages.Proofs.Page.Walk
import DocPages.Proofs.Siblings.ClashedNames
import DocPages.Proofs.Siblings.ConsistentOrders
import DocPages.Proofs.Siblings.PageGroups
import DocPages.Proofs.Siblings.Renaming
import DocPages.Proofs.Siblings.RowContents
import DocPages.Proofs.Siblings.RowOrder
import DocPages.Proofs.Signature.Links
import DocPages.Proofs.Signature.Placeholders
import DocPages.Proofs.Signature.Requests
import DocPages.Proofs.Signature.Rules
import DocPages.Proofs.Signature.TypeTexts
import DocPages.Proofs.Text.NormalForm
import DocPages.Proofs.Text.Splitting
