import Std.Time.DateTime.Timestamp
import Coordination.Console.Run

/-! # The command line tool

Reads the environment, runs the command and writes the screen out. No transport is built in, so every connection
counts as refused.
-/
namespace Coordination.Console

/-- The variables of a block of zero-terminated assignments. -/
def environmentOf (block : ByteArray) : List (String × String) :=
  ((String.fromUTF8? block).getD "").splitOn "\x00" |>.filterMap fun assignment =>
    match attached assignment.toList with
    | (name, some value) => some (name, value)
    | (_, none) => none

/-- The environment of this process. -/
def readEnvironment : IO (List (String × String)) := do
  try
    return environmentOf (← IO.FS.readBinFile "/proc/self/environ")
  catch _ => return []

/-- A random token: sixteen bytes with the marks of a random identifier. -/
def randomToken : IO String := do
  let bytes := (← IO.getRandomBytes 16).toList
  let marked := bytes.mapIdx fun i b =>
    if i = 6 then (b &&& 0x0f) ||| 0x40 else if i = 8 then (b &&& 0x3f) ||| 0x80 else b
  let digits (start count : Nat) : String :=
    String.ofList ((marked.drop start).take count |>.flatMap Digest.Sha256.hexOfByte)
  return s!"{digits 0 4}-{digits 4 2}-{digits 6 2}-{digits 8 2}-{digits 10 6}"

def outside : Outside IO where
  signal _ := pure .dropped
  token := randomToken
  clock := do return (← Std.Time.Timestamp.now).toMillisecondsSinceUnixEpoch.val

end Coordination.Console

open Coordination.Console in
def main (arguments : List String) : IO UInt32 := do
  let ending ← outside.run (← readEnvironment) arguments
  (← IO.getStdout).putStr ending.screen.out
  (← IO.getStderr).putStr ending.screen.err
  return ending.exitCode.toUInt32
