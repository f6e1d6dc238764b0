import DataAgent.Number.Decimal
import DataAgent.Text.Quoted

/-!
# Sql — Piece

The text of a statement, piece by piece. Names and texts enter it quoted, and values only as
parameters, which are numbered in the order in which they stand (`Statement.ofPieces`).
-/

namespace DataAgent.Sql

/-- A value bound to a parameter. -/
inductive Param
  | string (value : String)
  | int (value : Int)
  | double (value : Double)
  deriving DecidableEq, Repr

/-- A piece of a statement's text. -/
inductive Piece
  /-- Keywords and punctuation. -/
  | raw (text : String)
  | comment (text : String)
  | identifier (name : String)
  | literal (text : String)
  | param (value : Param)
  deriving DecidableEq, Repr

/-- A statement: its text, and the values of its parameters. -/
structure Statement where
  text : String
  params : List Param
  deriving DecidableEq, Repr

namespace Piece

/-- A name in double quotes. -/
def quoteIdentifier (name : String) : String := String.ofList (Quoted.write '"' name.toList)

/-- A text in single quotes. -/
def quoteLiteral (text : String) : String := String.ofList (Quoted.write '\'' text.toList)

/-- The text of some pieces, `bound` parameters having been numbered before. -/
def chars (bound : Nat) : List Piece → List Char
  | [] => []
  | .raw text :: rest => text.toList ++ chars bound rest
  | .comment text :: rest => '/' :: '*' :: text.toList ++ '*' :: '/' :: chars bound rest
  | .identifier name :: rest => Quoted.write '"' name.toList ++ chars bound rest
  | .literal text :: rest => Quoted.write '\'' text.toList ++ chars bound rest
  | .param _ :: rest => '?' :: Nat.toDigits 10 (bound + 1) ++ chars (bound + 1) rest

/-- The values among some pieces, in order. -/
def params (pieces : List Piece) : List Param :=
  pieces.filterMap fun | .param value => some value | _ => none

/-- Pieces with commas between them. -/
def commas : List (List Piece) → List Piece
  | [] => []
  | [pieces] => pieces
  | pieces :: rest => pieces ++ .raw ", " :: commas rest

end Piece

/-- The statement of some pieces. -/
def Statement.ofPieces (pieces : List Piece) : Statement where
  text := String.ofList (Piece.chars 0 pieces)
  params := Piece.params pieces

end DataAgent.Sql
