import AesTrials.Program
import AesTrials.Session.World

/-!
# Command line

The outermost layer: it reads the environment and the input, measures how long runs take, and
writes what the library says. Records and diagnostics go to the error channel, one a line.
-/

namespace AesTrials.Main

/-- The variable that an entry of the environment defines. -/
def definition? (entry : Bytes) : Option (String × String) := do
  let name ← Bytes.toText? (entry.takeWhile fun byte => byte != 61)
  let value ← Bytes.toText? (entry.dropWhile fun byte => byte != 61).tail
  some (name, value)

/-- The variables of a process's environment block, whose entries end in a zero byte. -/
def definitions (block : Bytes) : Environment :=
  (block.splitBy fun byte _ => byte != 0).filterMap fun entry =>
    definition? (entry.takeWhile fun byte => byte != 0)

/-- The environment of the process. -/
def environment : IO Environment := do
  return definitions (← IO.FS.readBinFile "/proc/self/environ").data.toList

/-- Entropy from the operating system. -/
def entropy : IO Entropy := do
  let key ← IO.getRandomBytes 32
  return (WordStream.ofBytes key.data.toList).entropy

/-- Write the records that the filter lets through. -/
def log (setup : Setup) (events : List Log.Event) : IO Unit := do
  for event in events do
    if setup.filter.allows event then
      IO.eprintln (String.ofList event.toJson.compact)

/-- Write a transcript. -/
def deliver (setup : Setup) (transcript : Transcript) : IO Unit := do
  log setup transcript.events
  let output ← IO.getStdout
  output.putStr transcript.output
  output.flush

/-- Run a job and measure how long it takes. -/
def measure (job : Job) (entropy : Entropy) : IO (Outcome × Elapsed × Entropy) := do
  let before ← IO.monoNanosNow
  let (outcome, entropy) ← IO.lazyPure fun _ => job.run entropy
  let after ← IO.monoNanosNow
  return (outcome, .ofNanoseconds (after - before), entropy)

/-- The terminal and the clock of the system. -/
def world (setup : Setup) : World IO where
  deliver := deliver setup
  measure _ := measure

/-- Read up to the next line feed or the end of the input. -/
partial def readLine (input : IO.FS.Stream) (line : ByteArray) : IO ByteArray := do
  let byte ← input.read 1
  if byte.isEmpty then return line
  else if byte.data.toList == [10] then return line ++ byte
  else readLine input (line ++ byte)

/-- Carry the dialogue on, line by line, until the session ends. -/
partial def converse (setup : Setup) (dialogue : Dialogue) (supplies : Supplies) :
    IO Session.End := do
  let line ← readLine (← IO.getStdin) .empty
  if line.isEmpty then return .closed
  match ← (world setup).hear setup.settings dialogue supplies line.data.toList with
  | .inl final => return final
  | .inr (dialogue, supplies) => converse setup dialogue supplies

/-- Run a session. -/
def runSession (setup : Setup) : IO Session.End := do
  (world setup).run setup.settings (converse setup) (← entropy)

/-- Write the last lines and return the exit code. -/
def finish (ending : Ending) : IO UInt32 := do
  ending.lines.forM IO.eprintln
  return ending.code.toUInt32

/-- Run the program and return its exit code. -/
def run : IO UInt32 := do
  let environment ← environment
  match Program.setUp environment environment.entries with
  | .error ending => finish ending
  | .ok setup =>
    setup.ignored.forM IO.eprintln
    log setup [.starting setup.settings.mode setup.settings.seed.isSome]
    finish (.ofSession (← runSession setup))

end AesTrials.Main

/-- The command line. -/
def main : IO UInt32 := AesTrials.Main.run
