import SetupCatalog.CommandLine.Run

/-!
# The command line

Learns what the disk of the machine holds where the arguments point to, runs the program on that,
stores the report if it goes to a file, and prints. All decisions are those of
`CommandLine.runArguments`.
-/

namespace SetupCatalog.CommandLine

/-- The entry at a location. If `deep` is set, a folder comes with everything below it, and of the
files below it only the scripts with their contents. A folder that cannot be listed counts as empty,
and a link that leads nowhere as nothing. -/
partial def entryAt (deep : Bool) (l : Location) : IO (Option Node) := do
  let path := System.mkFilePath [String.ofList (locationText l)]
  let some metadata ← (some <$> path.symlinkMetadata) <|> pure none | return none
  match metadata.type with
  | .symlink =>
    let target ← (some <$> IO.FS.realPath path) <|> pure none
    return target.map fun there => .link (toString there).toList
  | .dir =>
    if !deep then return some (.folder .empty)
    let entries ← path.readDir <|> pure #[]
    let names := (entries.map fun entry => entry.fileName.toList).toList
    let inside ← names.foldrM (fun name rest => do
      match ← entryAt (deep && !Discovery.isIgnored name) (l ++ [name]) with
      | some node => return Folder.cons name node rest
      | none => return rest) Folder.empty
    return some (.folder inside)
  | .file =>
    if deep && !Discovery.isScriptName (l.getLast?.getD []) then return some (.file [])
    return some (.file (← IO.FS.readBinFile path).toList)
  | .other => return some (.file [])

/-- The disk with what is on the way from a location along the parts of a path. -/
partial def learnWay (disk : Disk) (here : Location) : List Text → IO Disk
  | [] => return disk
  | part :: parts => do
    if part = "..".toList then return ← learnWay disk here.dropLast parts
    let l := here ++ [part]
    match ← entryAt false l with
    | none => return disk
    | some (.link target) =>
      let p := WrittenPath.ofText target
      learnWay (disk.store l (.link target)) (if p.absolute then [] else here) (p.parts ++ parts)
    | some node =>
      let isKnown := node matches .folder _ && (disk.top.at? l).isSome
      learnWay (if isKnown then disk else disk.store l node) l parts

/-- The part of the disk that a run with the given settings may look at. -/
def learnDisk (start : Location) (s : Settings) : IO Disk := do
  let disk ← learnWay ⟨.empty, start⟩ [] start
  let p := WrittenPath.ofText s.path
  let disk ← learnWay disk (disk.origin p) p.parts
  let root := disk.resolve p
  let disk ← match ← entryAt true root with
    | some (.folder inside) => pure { disk with top := disk.top.change (fun _ => inside) root }
    | _ => pure disk
  match outputPath s with
  | none => return disk
  | some p => learnWay disk (disk.origin p) p.parts

/-- Stores the files that a run has written. -/
def storeWritten (before : Disk) (r : RunResult) : IO Unit :=
  (r.written before).forM fun (l, content) => do
    IO.FS.createDirAll (System.mkFilePath [String.ofList (locationText l.dropLast)])
    IO.FS.writeBinFile (System.mkFilePath [String.ofList (locationText l)]) ⟨content.toArray⟩

end SetupCatalog.CommandLine

open SetupCatalog CommandLine in
/-- Runs the program in the folder that it is started in. -/
def main (arguments : List String) : IO UInt32 := do
  let texts := arguments.map String.toList
  let start := WrittenPath.partsOf (toString (← IO.currentDir)).toList
  let disk ← match settingsOf texts with
    | .ok s => learnDisk start s
    | .error _ => pure ⟨.empty, start⟩
  let r := finished disk (runArguments disk texts)
  storeWritten disk r
  IO.print (String.ofList r.out)
  IO.eprint (String.ofList r.err)
  return UInt32.ofNat r.exitCode
