import QuantumKernel.CommandLine.Report
/-! # Main — the program

Takes the arguments, reads the input that they name, and prints the report.  All decisions are made in `CommandLine`.
-/
namespace QuantumKernel
namespace CommandLine

/-- What is left on a stream. -/
partial def readAll (stream : IO.FS.Stream) (before : ByteArray) : IO ByteArray := do
  let next ← stream.read 65536
  if next.isEmpty then return before else readAll stream (before ++ next)

/-- The reading errors that a report can show, among those of the system. -/
def readErrorOf? : IO.Error → Option ReadError
  | .noFileOrDirectory .. => some .missing
  | .inappropriateType _ code _ => some (if code = 21 then .isDirectory else .notDirectory)
  | _ => none

/-- What an input holds: a file, or standard input. -/
def readInput : Option Text → IO (Except ReadError ByteArray)
  | none => do return .ok (← readAll (← IO.getStdin) ByteArray.empty)
  | some path => do
    try return .ok (← IO.FS.readBinFile (String.ofList path))
    catch e =>
      match readErrorOf? e with
      | some known => return .error known
      | none => throw e

/-- What a request needs to have read: the input of a compilation, and nothing else. -/
def contentOf : Request → IO (Except ReadError ByteArray)
  | .run options => if options.list then return .ok ByteArray.empty else readInput options.input
  | _ => return .ok ByteArray.empty

/-- Prints the report of a request. -/
def runRequest (request : Request) : IO UInt32 := do
  let content ← contentOf request
  let setting := (← IO.getEnv "RUST_LOG").map fun value => LogFilter.ofVariable value.toList
  let report := request.report (fun _ => content) setting
  (← IO.getStdout).putStr (String.ofList report.stdout)
  (← IO.getStderr).putStr (String.ofList report.stderr)
  return UInt32.ofNat report.exit

end CommandLine
end QuantumKernel

/-- The program; it exits with 2 when it cannot make sense of its arguments. -/
def main (arguments : List String) : IO UInt32 := do
  match QuantumKernel.CommandLine.Request.ofArguments (arguments.map String.toList) with
  | .ok request => QuantumKernel.CommandLine.runRequest request
  | .error e => do
    (← IO.getStderr).putStrLn ("error: " ++ String.ofList e.message)
    return 2
