import SmtCount.Simulation.Tool.Names

/-!
# Tools for files

Tools that make, copy and remove files and directories.

## Main definitions

* `rm`, `rmdir`, `mkdir`, `touch`, `mktemp`, `cp`, `mv` — the tools.
* `dd` — copies blocks of a size.
-/

namespace SmtCount.Simulation.Tool

open Kernel (Act Access Fault)

/-- Says that something cannot be done with a file. -/
def complainOf (what : String) (path : Bytes) (e : Fault) : Tool Unit := do
  complain (what.toList ++ " '".toList ++ path ++ "': ".toList ++ e.message.toList)
  setStatus 1

/-- Does something with each of some paths. -/
def forPaths (act : Bytes → Tool Unit) : List Bytes → Tool Unit
  | [] => pure ()
  | path :: paths => do
    act path
    forPaths act paths

/-- Is there a directory at a path? -/
def isDirectory (path : Bytes) : Tool Bool := do
  match ← Act.inspect path with
  | .ok .directory => pure true
  | _ => pure false

/-! ### Making and removing -/

/-- Removes files, and directories if that is asked for. -/
def rm (args : List Bytes) : Tool Unit := do
  let o ← parseOptions (grammar "fivrRd" ""
    [("force", 'f'), ("recursive", 'r'), ("verbose", 'v'), ("dir", 'd')]) 1 args
  if o.operands.isEmpty && !o.has 'f' then die 1 "missing operand".toList
  forPaths (fun path => do
    let whole := o.has 'r' || o.has 'R' || o.has 'd'
    match ← Act.remove path (whole && (← isDirectory path)) with
    | .ok () => pure ()
    | .error e =>
      if !(o.has 'f' && e = .missing) then complainOf "cannot remove" path e) o.operands

/-- Removes empty directories. -/
def rmdir (args : List Bytes) : Tool Unit := do
  let o ← parseOptions (grammar "pv" "" [("parents", 'p'), ("verbose", 'v')]) 1 args
  forPaths (fun path => do
    match ← Act.remove path true with
    | .ok () => pure ()
    | .error e => complainOf "failed to remove" path e) o.operands

/-- The paths of the directories on the way to a path, and the path. -/
def pathsTo (path : Bytes) : List Bytes :=
  let names := path.splitOn '/'
  ((List.range names.length).map fun n => List.intercalate ['/'] (names.take (n + 1))).filter (· ≠ [])

/-- Makes directories. -/
def mkdir (args : List Bytes) : Tool Unit := do
  let o ← parseOptions (grammar "pv" "m" [("parents", 'p'), ("mode", 'm')]) 1 args
  if o.operands.isEmpty then die 1 "missing operand".toList
  forPaths (fun path => do
    if o.has 'p' then
      forPaths (fun part => do
        if !(← isDirectory part) then
          match ← Act.makeDirectory part with
          | .ok () => pure ()
          | .error e => complainOf "cannot create directory" part e) (pathsTo path)
    else
      match ← Act.makeDirectory path with
      | .ok () => pure ()
      | .error e => complainOf "cannot create directory" path e) o.operands

/-- Makes files that are not there. -/
def touch (args : List Bytes) : Tool Unit := do
  let o ← parseOptions (grammar "acmh" "drt" [("no-create", 'c'), ("date", 'd'), ("reference", 'r')]) 1 args
  forPaths (fun path => do
    match ← Act.inspect path with
    | .ok _ => pure ()
    | .error _ =>
      if !o.has 'c' then
        match ← Act.openFile path .append with
        | .ok fd =>
          let _ ← Act.close fd
        | .error e => complainOf "cannot touch" path e) o.operands

/-- Makes a file, or a directory, with a name that no other has; tries at most so many names. -/
def makeFresh (directory : Bool) (before : Bytes) (width : Nat) : Nat → Nat → Tool (Option Bytes)
  | 0, _ => pure none
  | tries + 1, n => do
    let digits := decimal n
    let path := before ++ List.replicate (width - digits.length) 'a' ++ digits
    let made ← if directory then Act.makeDirectory path
      else do
        match ← Act.openFile path .create with
        | .ok fd => Act.close fd
        | .error e => pure (.error e)
    match made with
    | .ok () => pure (some path)
    | .error .exists => makeFresh directory before width tries (n + 1)
    | .error _ => pure none

/-- Makes a file that only the caller knows. -/
def mktemp (args : List Bytes) : Tool Unit := do
  let o ← parseOptions (grammar "dqtu" "p" [("directory", 'd'), ("tmpdir", 'p'), ("quiet", 'q')]) 1 args
  let template := o.operands.headD "tmp.XXXXXXXXXX".toList
  let before := (template.reverse.dropWhile (· = 'X')).reverse
  let place := (o.get? 'p').getD "/tmp".toList
  let inside := o.operands.isEmpty || o.has 't' || o.has 'p'
  if template.length < before.length + 3 then
    die 1 ("too few X's in template '".toList ++ template ++ ['\''])
  let before := if inside then place ++ '/' :: before else before
  let process ← Act.identity
  match ← makeFresh (o.has 'd') before (o.operands.headD "tmp.XXXXXXXXXX".toList
      |>.reverse.takeWhile (· = 'X')).length 1000 process with
  | some path => emitLine path
  | none => die 1 ("failed to create file via template '".toList ++ template ++ ['\''])

/-! ### Copying -/

/-- Copies what can be read from one descriptor to another. -/
def copyDescriptor (source target : Nat) : Tool Unit :=
  Act.forever do
    match ← Act.read source 131072 with
    | .ok (c :: cs) =>
      let _ ← Act.write target (c :: cs)
      pure true
    | _ => pure false

/-- Copies a file; says whether that was possible. -/
def copyFile (source target : Bytes) : Tool Bool := do
  match ← Act.openFile source .read with
  | .error e =>
    complainOf "cannot stat" source e
    pure false
  | .ok input =>
    let target := if ← isDirectory target then target ++ '/' :: lastName source else target
    match ← Act.openFile target .write with
    | .error e =>
      let _ ← Act.close input
      complainOf "cannot create regular file" target e
      pure false
    | .ok output =>
      copyDescriptor input output
      let _ ← Act.close input
      let _ ← Act.close output
      pure true

/-- Copies files, and removes them if they are moved. -/
def copyFiles (moves : Bool) (args : List Bytes) : Tool Unit := do
  let o ← parseOptions (grammar "afinprRuv" "t" [("force", 'f'), ("target-directory", 't')]) 1 args
  let (sources, target) := match o.get? 't' with
    | some target => (o.operands, target)
    | none => (o.operands.dropLast, o.operands.getLast?.getD [])
  if sources.isEmpty then die 1 "missing file operand".toList
  forPaths (fun source => do
    if ← isDirectory source then
      complain ("-r not specified; omitting directory '".toList ++ source ++ ['\''])
      setStatus 1
    else if ← copyFile source target then
      if moves then
        let _ ← Act.remove source false) sources

/-- Copies files. -/
def cp (args : List Bytes) : Tool Unit := copyFiles false args

/-- Gives files other names. -/
def mv (args : List Bytes) : Tool Unit := copyFiles true args

/-! ### Blocks -/

/-- Copies at most so many blocks; gives how many were whole, and how many were not. -/
def copyBlocks (input output size : Nat) : Nat → Nat × Nat → Nat → Tool (Nat × Nat × Nat)
  | 0, (whole, part), bytes => pure (whole, part, bytes)
  | blocks + 1, (whole, part), bytes => do
    match ← Act.read input size with
    | .ok (c :: cs) =>
      let length := (c :: cs).length
      match ← Act.write output (c :: cs) with
      | .ok () => pure ()
      | .error e =>
        complain ("error writing 'standard output': ".toList ++ e.message.toList)
        Act.exit 1
      copyBlocks input output size blocks
        (if length = size then (whole + 1, part) else (whole, part + 1)) (bytes + length)
    | _ => pure (whole, part, bytes)

/-- Passes over at most so many blocks. -/
def skipBlocks (input size : Nat) : Nat → Tool Unit
  | 0 => pure ()
  | blocks + 1 => do
    match ← Act.read input size with
    | .ok (_ :: _) => skipBlocks input size blocks
    | _ => pure ()

/-- The descriptor of a file that an operand names, or the one that the tool was started with. -/
def descriptorOf (file : Option Bytes) (access : Access) (given : Nat) : Tool Nat := do
  match file with
  | none => pure given
  | some path =>
    match ← Act.openFile path access with
    | .ok fd => pure fd
    | .error e => die 1 ("failed to open '".toList ++ path ++ "': ".toList ++ e.message.toList)

/-- Copies blocks of a size. -/
def dd (args : List Bytes) : Tool Unit := do
  let operand? (name : String) : Option Bytes :=
    let start := name.toList ++ ['=']
    ((args.filter start.isPrefixOf).getLast?).map (·.drop start.length)
  match args.find? fun a => !a.contains '=' && a ≠ ['-', '-'] with
  | some word => die 1 ("unrecognized operand '".toList ++ word ++ ['\''])
  | none =>
    let amountOf (name : String) (default : Nat) : Nat := ((operand? name).bind amount?).getD default
    let size := amountOf "ibs" (amountOf "bs" 512)
    let input ← descriptorOf (operand? "if") .read 0
    let output ← descriptorOf (operand? "of") .write 1
    skipBlocks input size (amountOf "skip" 0)
    let (whole, part, bytes) ←
      copyBlocks input output size (amountOf "count" Act.manyTurns) (0, 0) 0
    if operand? "status" ≠ some "none".toList then
      let records := decimal whole ++ '+' :: decimal part
      let _ ← Act.write 2 (records ++ " records in\n".toList ++ records ++ " records out\n".toList ++
        decimal bytes ++ " bytes copied\n".toList)

end SmtCount.Simulation.Tool
