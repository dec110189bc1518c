import ScriptedMaze.Terminal.Tool

/-!
# The program

The first argument names the tool, the others are for the tool. All that happens
here is reading: the environment, the files that the tool may read, and the
standard input if a script is to come from there. The rest is printing what the
transcript says, and pausing where it says so.
-/

namespace ScriptedMaze.Terminal

/-- The names of the settings. -/
def settingNames : List String :=
  ["MAX_LOOP_BOUND", "MAX_EXPANSIONS", "MOVE_LIMIT", "RUN_STEP_DELAY", "LIVE_STEP_DELAY",
    "DEFAULT_DIFFICULTY", "FLAG"]

/-- The settings in the environment. -/
def readEnvironment : IO Settings.Environment := do
  let values ← settingNames.mapM fun name => return (name, ← IO.getEnv ("ROBOT_MAZE_" ++ name))
  return fun name => (values.find? (·.1 = name)).bind (·.2)

/-- The code by which the system says that a path leads to a directory. -/
def directoryCode : UInt32 := 21

/-- The bytes of a file, or why there are none. -/
def readFile (path : String) : IO (Except FileFault ByteArray) := do
  if path.toList.contains '\x00' then return .error .holdsNul
  try
    return .ok (← IO.FS.readBinFile path)
  catch
    | .noFileOrDirectory .. => return .error .notFound
    | .inappropriateType _ code _ =>
      return .error (if code = directoryCode then .isDirectory else .notDirectory)
    | .invalidArgument .. => return .error .tooLong
    | e => throw e

/-- A disk with the files of the given paths. -/
def readDisk (paths : List String) : IO Disk := do
  let files ← paths.mapM fun path => return (path, ← readFile path)
  return fun path => ((files.find? (·.1 = path)).map (·.2)).getD (.error .notFound)

/-- The whole standard input. -/
def readInput : IO String := do
  let bytes ← (← IO.getStdin).readBinToEnd
  return (String.fromUTF8? bytes).getD ""

/-- Prints, or pauses. -/
def emit : Output → IO Unit
  | .out text => IO.print text
  | .err text => IO.eprint text
  | .pause seconds => IO.sleep (seconds * 1000.0).toUInt32

/-- What is printed where a tool breaks off. -/
def Crash.message : Crash → String
  | .file f => f.message
  | .maze f => f.message
  | .game f => f.message
  | .wait => "nobody can wait for so long"
  | .depth => "the script goes too deep to be read"

/-- The system that the program runs on. A wait is counted in nanoseconds, for which
there are 63 bits. -/
def system : Host where
  waits seconds := seconds * 1e9 < 9223372036854775808.0

/-- The exit code, after a last message where one is due. -/
def conclude : Ending → IO UInt32
  | .exit code => return code.toUInt32
  | .stopped .help => return 0
  | .stopped .usage => do
    IO.eprintln "The arguments make no sense."
    return 2
  | .crashed c => do
    IO.eprintln c.message
    return 1

end ScriptedMaze.Terminal

open ScriptedMaze Terminal in
/-- Runs the tool that the first argument names. -/
def main (args : List String) : IO UInt32 := do
  match args with
  | [] =>
    IO.eprintln "Name a tool: robot-maze, robot-maze-solve or text-export."
    return 2
  | name :: words =>
    match Tool.ofName? name, Settings.ofEnvironment (← readEnvironment) with
    | none, _ =>
      IO.eprintln "There is no such tool."
      return 2
    | _, .error f =>
      IO.eprintln f.message
      return 1
    | some tool, .ok settings =>
      let paths := tool.paths words system
      let input ← if paths.contains "-" then readInput else pure ""
      let transcript := tool.perform settings (← readDisk paths) input words system
      transcript.outputs.forM emit
      conclude transcript.ending
