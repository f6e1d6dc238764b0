import DataAgent.Sql.Cell

/-!
# Sql — Aggregate

Functions of all values of a column. Nulls are skipped. A sum of integers is an integer, and an
error when it leaves sixty-four bits; from the first other number on it is a double, kept with
the error of each addition and corrected at the end.
-/

namespace DataAgent.Sql

/-- A running sum of doubles, and what its roundings have lost so far. -/
structure RealSum where
  sum : Double
  lost : Double

namespace RealSum

/-- An integer of at least this magnitude is added in two parts. -/
def wide : Int := Int.pow 2 52

/-- An integer as a multiple of `2 ^ 14` and the rest, towards zero. -/
def split (n : Int) : Int × Int := (n - n.tmod 16384, n.tmod 16384)

/-- The sum that is an integer. -/
def ofInt (n : Int) : RealSum :=
  if n ≤ -wide ∨ wide ≤ n then { sum := .ofInt (split n).1, lost := .ofInt (split n).2 }
  else { sum := .ofInt n, lost := .zero }

/-- One more double. -/
def add (s : RealSum) (x : Double) : RealSum :=
  let t := s.sum.add x
  let error :=
    if x.abs.units < s.sum.abs.units then (s.sum.sub t).add x else (x.sub t).add s.sum
  { sum := t, lost := s.lost.add error }

/-- One more integer. -/
def addInt (s : RealSum) (n : Int) : RealSum :=
  if n ≤ -wide ∨ wide ≤ n then (s.add (.ofInt (split n).1)).add (.ofInt (split n).2)
  else s.add (.ofInt n)

/-- The corrected sum. -/
def result (s : RealSum) : Double := if s.lost.isFinite then s.sum.add s.lost else s.sum

end RealSum

/-- A running sum. -/
inductive Sum
  | whole (value : Int)
  /-- Integers alone have left sixty-four bits, or there was another number. -/
  | real (value : RealSum) (overflow : Bool)

namespace Sum

/-- One more cell that is not null. A text counts as the number it is or starts with. -/
def add (s : Sum) (c : Cell) : Sum :=
  match s, c.toNumber with
  | .whole m, .int n =>
    if fitsWord (m + n) then .whole (m + n) else .real ((RealSum.ofInt m).addInt n) true
  | .whole m, .real x => .real ((RealSum.ofInt m).add x) false
  | .whole m, .text t => .real ((RealSum.ofInt m).add (Cell.leadingDouble t)) false
  | .real r overflow, .int n => .real (r.addInt n) overflow
  | .real r _, .real x => .real (r.add x) false
  | .real r _, .text t => .real (r.add (Cell.leadingDouble t)) false
  | s, .null => s

end Sum

/-- Why a statement cannot be run. -/
inductive EngineError
  | unknownTable (name : String)
  | unknownColumn (name : String)
  | integerOverflow
  | malformedJson
  | wrongArguments
  /-- The time for the statement was over. -/
  | interrupted
  /-- What is read is not a database. -/
  | notADatabase
  /-- The database cannot be opened. -/
  | unavailable
  /-- Anything else, in the engine's own words. -/
  | reported (text : String)
  deriving DecidableEq, Repr

namespace Aggregate

/-- The cells that are not null. -/
def present (cells : List Cell) : List Cell := cells.filter (· ≠ .null)

/-- The running sum of cells. -/
def total (cells : List Cell) : Sum := cells.foldl Sum.add (.whole 0)

/-- The sum. -/
def sum (cells : List Cell) : Except EngineError Cell :=
  match present cells with
  | [] => .ok .null
  | cells =>
    match total cells with
    | .whole n     => .ok (.int n)
    | .real _ true => .error .integerOverflow
    | .real r _    => .ok (.ofDouble r.result)

/-- The mean, a double. -/
def avg (cells : List Cell) : Cell :=
  match present cells with
  | [] => .null
  | cells =>
    let sum : Double := match total cells with
      | .whole n  => .ofInt n
      | .real r _ => r.result
    .ofDouble (sum.div (.ofInt cells.length))

/-- The first of the cells that every later one fails to beat. -/
def best (beats : Ordering) (cells : List Cell) : Cell :=
  match present cells with
  | [] => .null
  | c :: cells => cells.foldl (fun b c => if c.compare b = beats then c else b) c

/-- The least. -/
def min (cells : List Cell) : Cell := best .lt cells

/-- The greatest. -/
def max (cells : List Cell) : Cell := best .gt cells

/-- How many are not null. -/
def count (cells : List Cell) : Cell := .int (present cells).length

/-- How many different ones are not null. -/
def countDistinct (cells : List Cell) : Cell :=
  let distinct := (present cells).foldl
    (fun seen c => if seen.any fun s => s.compare c = .eq then seen else c :: seen) []
  .int distinct.length

end Aggregate

end DataAgent.Sql
