import QuantumKernel.Text.Blank
import QuantumKernel.Text.Lines
/-! # Line — comments, clean lines and tokens

A comment starts at the first `#` or `//` of a line and runs to its end.  A clean line is what stands before the comment,
without blanks at its ends.  Its tokens are the runs of characters that are neither blank nor a comma.
-/
namespace QuantumKernel
namespace Kernel

/-- Whether a comment marker stands at the start of a text. -/
def startsComment : Text → Bool
  | '#' :: _ => true
  | '/' :: '/' :: _ => true
  | _ => false

/-- The part of a line before its first comment marker. -/
def stripComment : Text → Text
  | [] => []
  | c :: rest => if startsComment (c :: rest) then [] else c :: stripComment rest

/-- A line without its comment and without blanks at either end. -/
def cleanLine (line : Text) : Text := Text.trim (stripComment line)

/-- A source with every line clean, each still in its place. -/
def clean (source : Text) : Text := Text.unlines ((Text.lines source).map cleanLine)

/-- What stands between tokens. -/
def isSeparator (c : Char) : Bool := Text.isBlank c || c == ','

/-- The tokens of a line: its longest runs without a separator. -/
def tokens (line : Text) : List Text := (Text.splitWhere isSeparator line).filter (· ≠ [])

theorem stripComment_of_startsComment {t : Text} (h : startsComment t = true) : stripComment t = [] := by
  cases t with
  | nil => rfl
  | cons c rest => simp [stripComment, h]

end Kernel
end QuantumKernel
