import BlockPlan.Cli.Program

/-!
# The executable

Runs the command line on the process's arguments in the current directory. The files the run
may read (each argument, each value after `=`, the rest of a short option word, the project
settings file, and the directories above them) are read first; the files the run writes are
written after it, and its exit code is the process's.
-/

open BlockPlan

/-- The paths an argument may name. -/
def candidatePaths (arg : String) : List String :=
  let afterEq := match arg.splitOn "=" with
    | _ :: rest@(_ :: _) => ["=".intercalate rest]
    | _ => []
  let shortRest := if arg.length > 2 && arg.startsWith "-" && !arg.startsWith "--" then
      [String.ofList (arg.toList.drop 2)] else []
  (arg :: afterEq ++ shortRest).filter (!·.isEmpty)

def withParents (p : String) : List String :=
  let parts := p.splitOn "/"
  (List.range parts.length).map fun i => "/".intercalate (parts.take (i + 1))

/-- What stands at a path of the file system. -/
def probe (p : String) : IO (Option Entry) := do
  try
    let bytes ← IO.FS.readBinFile p
    pure (some (.file bytes.toList))
  catch e =>
    match e with
    | .noFileOrDirectory .. => pure none
    | _ => pure (some .directory)

/-- Writes a file, making the directories above it. -/
def store (p : String) (bytes : List UInt8) : IO Unit := do
  let parts := p.splitOn "/"
  if parts.length > 1 then IO.FS.createDirAll ("/".intercalate parts.dropLast)
  IO.FS.writeBinFile p (ByteArray.mk bytes.toArray)

def main (args : List String) : IO UInt32 := do
  let root := (← IO.currentDir).toString
  let paths := ((args.map candidatePaths).flatten ++ [".hclplan/config.yaml"]).map withParents
    |>.flatten |>.eraseDups
  let entries ← paths.filterMapM fun p => do
    pure ((← probe p).map fun e => (Path.normalize (Text.ofString p), e))
  let before : Folder := ⟨Text.ofString root, entries⟩
  let o := Cli.runCommandLine "hclplan" before (args.map Text.ofString) Cli.programDepth
  (← IO.getStdout).putStr o.stdout.toStr
  (← IO.getStderr).putStr o.stderr.toStr
  for (p, e) in o.folder.entries do
    match e, before.entries.lookup p with
    | .file bs, some (.file old) => if bs != old then store p.toStr bs
    | .file bs, _ => store p.toStr bs
    | _, _ => pure ()
  pure o.exitCode.toUInt32
