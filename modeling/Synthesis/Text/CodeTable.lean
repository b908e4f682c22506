import Synthesis.Decimal.Literal
import Synthesis.Text.Cut

/-!
Tables over code points. A table divides the code points into runs, each with a value, and is
written as text: entries between blanks, in increasing order of their first code points.
-/
namespace Synthesis.Text

/-- Runs by their first code point; a run ends where the next one starts. -/
structure CodeTable (α : Type) where
  runs : Array (Nat × α)

namespace CodeTable

variable {α : Type}

def ofText (readRun? : List Char → Option (Nat × α)) (lines : List String) : CodeTable α :=
  ⟨(lines.flatMap fun line => (splitAt ' ' line.toList).filterMap readRun?).toArray⟩

/-- The index, from `lo` up to and not including `hi`, of the last run that does not start behind
the code point. Every step halves the distance. -/
def search (t : CodeTable α) (n : Nat) : Nat → Nat → Nat → Nat
  | 0, lo, _ => lo
  | steps + 1, lo, hi =>
    if hi ≤ lo + 1 then lo
    else
      let middle := (lo + hi) / 2
      if t.runs[middle]?.any (·.1 ≤ n) then search t n steps middle hi
      else search t n steps lo middle

def find? (t : CodeTable α) (n : Nat) : Option α :=
  let size := t.runs.size
  t.runs[t.search n size.log2.succ 0 size]?.bind fun (start, a) =>
    if start ≤ n then some a else none

end CodeTable

end Synthesis.Text
