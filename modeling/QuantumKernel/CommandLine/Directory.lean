import QuantumKernel.Text.Lines
/-! # Directory — files that are read by a path

A path is followed from the working directory, piece by piece.  `.` and empty pieces stay where they are, and `..` leaves
the directory; nothing is known of what lies outside it but its directories above.
-/
namespace QuantumKernel
namespace CommandLine

/-- Why a source cannot be read. -/
inductive ReadError
  | missing
  | isDirectory
  | notDirectory
  | notUtf8
  deriving DecidableEq

def ReadError.message : ReadError → Text
  | missing => "Os \x7b code: 2, kind: NotFound, message: \"No such file or directory\" \x7d".toList
  | isDirectory => "Os \x7b code: 21, kind: IsADirectory, message: \"Is a directory\" \x7d".toList
  | notDirectory => "Os \x7b code: 20, kind: NotADirectory, message: \"Not a directory\" \x7d".toList
  | notUtf8 => "Error \x7b kind: InvalidData, message: \"stream did not contain valid UTF-8\" \x7d".toList

/-- A working directory: the files in it, by name. -/
structure Directory where
  files : List (Text × ByteArray) := []

namespace Directory

/-- What the rest of a path leads to, from the working directory or from outside it. -/
def follow (d : Directory) (inside : Bool) : List Text → Except ReadError ByteArray
  | [] => .error .isDirectory
  | piece :: rest =>
    if piece = [] ∨ piece = ['.'] then d.follow inside rest
    else if piece = ['.', '.'] then d.follow false rest
    else match if inside then d.files.lookup piece else none with
      | none => .error .missing
      | some content => if rest = [] then .ok content else .error .notDirectory

def read (d : Directory) (path : Text) : Except ReadError ByteArray :=
  if path = [] then .error .missing
  else d.follow (path.head? != some '/') (Text.splitWhere (· == '/') path)

/-- What an input holds: the file that its path leads to, or what stands on standard input. -/
def input (d : Directory) (standardInput : ByteArray) : Option Text → Except ReadError ByteArray
  | none => .ok standardInput
  | some path => d.read path

end Directory
end CommandLine
end QuantumKernel
