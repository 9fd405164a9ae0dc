import DocPages.Problem

/-!
# Pieces of signatures

A signature is a sequence of pieces: texts, links to declarations, and placeholders where a type
cannot be shown. A placeholder carries the problem that explains it, so the problems of a signature
are those of its pieces.
-/

namespace DocPages

namespace Signature

open Content

/-- A piece of a signature. -/
inductive Piece where
  | text (kind : Kind) (body : String)
  | link (kind : Kind) (body : String) (dri : Dri)
  /-- A mark in the place of something that cannot be shown. -/
  | placeholder (problem : Problem)
deriving DecidableEq, Inhabited

namespace Piece

/-- A text of the role of symbols. -/
def symbol (body : String) : Piece := .text .symbol body

/-- The text that stands in the place of something that cannot be shown. -/
def placeholderText : String := "???"

/-- The text of a piece. -/
def display : Piece → String
  | .text _ body | .link _ body _ => body
  | .placeholder _ => placeholderText

/-- The problem that a piece carries. -/
def problem? : Piece → Option Problem
  | .placeholder problem => some problem
  | _ => none

/-- The node of a piece in a scope. -/
def toNode (scope : Scope) : Piece → Node
  | .text kind body => .text { scope with kind } body
  | .link kind body dri =>
    .link { scope with kind } (.declaration dri) [.text { scope with kind } body]
  | .placeholder _ => .text { scope with kind := .symbol } placeholderText

end Piece

/-- The problems of a sequence of pieces. -/
def problems (pieces : List Piece) : List Problem :=
  pieces.filterMap Piece.problem?

/-- Sequences of pieces with commas in between. -/
def commaSeparated (sequences : List (List Piece)) : List Piece :=
  (sequences.intersperse [.symbol ", "]).flatten

end Signature

end DocPages
