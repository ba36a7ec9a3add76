import SmtCount.Simulation.Text.Numeral
import SmtCount.Simulation.Tool.Counting
import SmtCount.Simulation.Tool.Names

/-!
# Tools that run programs

Tools that run another program: with other variables, for some time only, or for words that they read.

## Main definitions

* `Images` — the programs there are.
* `execute` — does another program instead of a tool.
* `env`, `printenv`, `which`, `timeout`, `xargs`, `nohup`, `nice`, `stdbuf`, `setsid` — the tools.
-/

namespace SmtCount.Simulation.Tool

open Kernel (Act Fault)

/-- The programs there are, by their names. -/
abbrev Images := Bytes → Option Image

/-- The variables that a tool is given. -/
abbrev Variables := Table Bytes Bytes

/-- The first of some paths at which there is an executable. -/
def firstProgram : List Bytes → Tool (Option Bytes)
  | [] => pure none
  | path :: rest => do
    match ← Act.inspect path with
    | .ok (.file _ true) => pure (some path)
    | _ => firstProgram rest

/-- Does another program instead of a tool, if that is possible. -/
def execute {α : Type} (images : Images) (environment : Variables) (words : List Bytes) : Tool α := do
  let name := words.headD []
  let path := (environment.get? "PATH".toList).getD "/bin:/usr/bin".toList
  let found ← if name.contains '/' then pure (some name)
    else firstProgram ((path.splitOn ':').map fun d => d ++ '/' :: name)
  let stop (status : Nat) (why : Fault) : Tool α := do
    complain ('\'' :: name ++ "': ".toList ++ why.message.toList)
    Act.exit status
  match found with
  | none => stop 127 .missing
  | some path =>
    match ← Act.inspect path, images (lastName path) with
    | .ok (.file _ true), some image => Act.replace fun _ => image words environment
    | .error .missing, _ => stop 127 .missing
    | .error e, _ => stop 126 e
    | .ok _, _ => stop 126 .denied

/-- A tool that is given variables, as a program. -/
def programWith (chunk : Nat) (run : Variables → List Bytes → Tool Unit) : Image :=
  fun args environment => program chunk (run environment) args environment

/-! ### Variables -/

/-- Is this an assignment? -/
def isAssignment (word : Bytes) : Bool := word.contains '=' && word.head? ≠ some '='

/-- The variables with an assignment. -/
def assignVariable (environment : Variables) (word : Bytes) : Variables :=
  let name := word.takeWhile (· ≠ '=')
  environment.insert name (word.drop (name.length + 1))

/-- Runs a program with other variables, or prints them. -/
def env (images : Images) (environment : Variables) (args : List Bytes) : Tool Unit := do
  let o ← parseOptions { grammar "i0v" "uCS"
    [("ignore-environment", 'i'), ("unset", 'u'), ("chdir", 'C'), ("null", '0'),
      ("split-string", 'S')] with ordered := true } 125 args
  let words := match o.operands with
    | ['-'] :: rest => rest
    | words => words
  let start := if o.has 'i' || o.operands.head? = some ['-'] then {} else environment
  let start := (o.all 'u').foldl (fun t name => t.erase name) start
  let words := ((o.all 'S').flatMap fun text => (text.splitOn ' ').filter (· ≠ [])) ++ words
  let environment := (words.takeWhile isAssignment).foldl assignVariable start
  match o.get? 'C' with
  | some directory =>
    match ← Act.enter directory with
    | .ok () => pure ()
    | .error e =>
      die 125 ("cannot change directory to '".toList ++ directory ++ "': ".toList ++ e.message.toList)
  | none => pure ()
  match words.dropWhile isAssignment with
  | [] =>
    if o.has '0' then Act.modify fun s => { s with ending := byteOf 0 }
    emitLines (environment.rows.map fun (name, value) => name ++ '=' :: value)
  | command => execute images environment command

/-- Prints the values of variables. -/
def printenv (environment : Variables) (args : List Bytes) : Tool Unit := do
  if args.isEmpty then emitLines (environment.rows.map fun (name, value) => name ++ '=' :: value)
  else
    emitLines (args.filterMap environment.get?)
    if args.any fun name => !environment.contains name then setStatus 1

/-- Prints where programs are. -/
def which (environment : Variables) (args : List Bytes) : Tool Unit := do
  let directories := ((environment.get? "PATH".toList).getD []).splitOn ':'
  go directories (args.filter (· ≠ ['-', 'a']))
where
  go (directories : List Bytes) : List Bytes → Tool Unit
    | [] => pure ()
    | name :: names => do
      let paths := if name.contains '/' then [name] else directories.map fun d => d ++ '/' :: name
      match ← firstProgram paths with
      | some path => emitLine path
      | none => setStatus 1
      go directories names

/-! ### Programs that are done instead -/

/-- Runs a program that does not end when a connection does. -/
def nohup (images : Images) (environment : Variables) (args : List Bytes) : Tool Unit := do
  let words := args.filter (· ≠ ['-', '-'])
  if words.isEmpty then die 125 "missing operand".toList
  let _ ← Act.react 1 .ignore
  execute images environment words

/-- Runs a program with less priority. -/
def nice (images : Images) (environment : Variables) (args : List Bytes) : Tool Unit := do
  let args := match args with
    | ('-' :: c :: cs) :: rest => if c.isDigit then ('-' :: 'n' :: c :: cs) :: rest else args
    | args => args
  let o ← parseOptions { grammar "" "n" [("adjustment", 'n')] with ordered := true } 125 args
  match o.operands with
  | [] => emitLine ['0']
  | command => execute images environment command

/-- Runs a program that prints at once, or as it would by itself. -/
def stdbuf (images : Images) (environment : Variables) (args : List Bytes) : Tool Unit := do
  let o ← parseOptions { grammar "" "ioe" [("input", 'i'), ("output", 'o'), ("error", 'e')] with
    ordered := true } 125 args
  if o.operands.isEmpty then die 125 "missing operand".toList
  let environment := match o.get? 'o' with
    | some mode =>
      if mode = ['0'] || mode = ['L'] then environment.insert eagerVariable mode else environment
    | none => environment
  execute images environment o.operands

/-- Runs a program in a group of its own. -/
def setsid (images : Images) (environment : Variables) (args : List Bytes) : Tool Unit := do
  let o ← parseOptions { grammar "cfw" "" [("wait", 'w'), ("fork", 'f'), ("ctty", 'c')] with
    ordered := true } 1 args
  if o.operands.isEmpty then die 1 "no command specified".toList
  Act.lead
  execute images environment o.operands

/-! ### Programs that are waited for -/

/-- The numbers of signals by their names. -/
def signalNames : List (String × Nat) :=
  [("HUP", 1), ("INT", 2), ("QUIT", 3), ("KILL", 9), ("USR1", 10), ("USR2", 12), ("PIPE", 13),
    ("ALRM", 14), ("TERM", 15), ("CONT", 18), ("STOP", 19)]

/-- The number of a signal, by its name or as digits. -/
def signalNumber? (text : Bytes) : Option Nat :=
  if !text.isEmpty && text.all Char.isDigit then some (Nat.ofDigitChars 10 text 0)
  else
    let name := text.map Char.toUpper
    let name := if "SIG".toList.isPrefixOf name then name.drop 3 else name
    (signalNames.find? fun s => s.1.toList = name).map Prod.snd

/-- The signal that says that time is over. -/
def alarmSignal : Nat := 14

/-- Starts a process that sends a signal to this one after some time. -/
def startAlarm (process nanos : Nat) : Tool Nat :=
  Act.fork do
    Act.pause nanos
    let _ ← Act.signal process alarmSignal
    pure 0

/-- Waits for a child, in at most so many turns; `nanos` is the time after which the child gets a signal,
and those after which it gets more.  Says if a time has been over. -/
def awaitFor (child : Nat) (group : Bool) :
    Nat → Bool → List (Nat × Nat) → Option Nat → Tool (Bool × Nat)
  | 0, late, _, _ => pure (late, 0)
  | turns + 1, late, times, alarm => do
    let process ← Act.identity
    let alarm ← match times, alarm with
      | (nanos, _) :: _, none => some <$> startAlarm process nanos
      | _, alarm => pure alarm
    match ← Act.await (some child), times with
    | .ended _ status, _ =>
      match alarm with
      | some clock =>
        let _ ← Act.signal clock 9
      | none => pure ()
      pure (late, status)
    | .none, _ => pure (late, 0)
    | .interrupted, [] =>
      let _ ← Act.arrived
      awaitFor child group turns late times none
    | .interrupted, (_, number) :: later =>
      let _ ← Act.arrived
      let _ ← Act.signal child number
      if group then
        if number ≠ 9 then
          let _ ← Act.react number .ignore
        Act.signalGroup number
      awaitFor child group turns true later none

/-- Runs a program for some time only. -/
def timeout (images : Images) (environment : Variables) (args : List Bytes) : Tool Unit := do
  let o ← parseOptions { grammar "vf~" "sk"
    [("signal", 's'), ("kill-after", 'k'), ("verbose", 'v'), ("foreground", 'f'),
      ("preserve-status", '~')] with ordered := true } 125 args
  match o.operands with
  | [] | [_] => die 125 "missing operand".toList
  | duration :: command =>
    let number ← match signalNumber? ((o.get? 's').getD "TERM".toList) with
      | some number => pure number
      | none => die 125 ((o.get? 's').getD [] ++ ": invalid signal".toList)
    match duration? duration, ((o.get? 'k').map duration?).getD (some 0) with
    | some nanos, some more =>
      if !o.has 'f' then Act.lead
      let _ ← Act.react alarmSignal .note
      let child ← Act.fork do
        let _ ← Act.react alarmSignal .default
        execute images environment command
      let times := if nanos = 0 then [] else
        (nanos, number) :: if more = 0 then [] else [(more, 9)]
      let (late, status) ← awaitFor child (!o.has 'f') 8 false times none
      Act.exit (if late && !o.has '~' && status ≠ 137 then 124 else status)
    | none, _ => die 125 ("invalid time interval '".toList ++ duration ++ ['\''])
    | _, none => die 125 ("invalid time interval '".toList ++ (o.get? 'k').getD [] ++ ['\''])

/-! ### Words that are read -/

/-- The words of a text, which may be quoted; `word` is what is known of the current one, last byte
first. -/
def quotedWords : Option Char → Option Bytes → Bytes → List Bytes
  | _, word, [] => (word.map List.reverse).toList
  | some q, word, c :: cs =>
    if c = q then quotedWords none (some (word.getD [])) cs
    else quotedWords (some q) (some (c :: word.getD [])) cs
  | none, word, '\\' :: c :: cs => quotedWords none (some (c :: word.getD [])) cs
  | none, word, c :: cs =>
    if c = '\'' ∨ c = '"' then quotedWords (some c) (some (word.getD [])) cs
    else if Text.isGap c then (word.map List.reverse).toList ++ quotedWords none none cs
    else quotedWords none (some (c :: word.getD [])) cs

/-- Puts words into groups of a size. -/
def groupsOf (size : Nat) : Nat → List Bytes → List (List Bytes)
  | 0, _ => []
  | steps + 1, words =>
    if words.isEmpty then [] else words.take size :: groupsOf size steps (words.drop size)

/-- A word with a text put in wherever another one stands. -/
def putIn (mark text : Bytes) : Nat → Bytes → Bytes
  | 0, word => word
  | _ + 1, [] => []
  | steps + 1, c :: cs =>
    if !mark.isEmpty && mark.isPrefixOf (c :: cs) then
      text ++ putIn mark text steps ((c :: cs).drop mark.length)
    else c :: putIn mark text steps cs

/-- Runs programs one after another; gives the status of them all. -/
def runAll (images : Images) (environment : Variables) (shows : Bool) :
    List (List Bytes) → Nat → Tool Nat
  | [], status => pure status
  | words :: rest, status => do
    if shows then
      let _ ← Act.write 2 (List.intercalate [' '] words ++ ['\n'])
    let child ← Act.fork do
      match ← Act.openFile "/dev/null".toList .read with
      | .ok fd =>
        let _ ← Act.copy fd 0
        let _ ← Act.close fd
      | .error _ => pure ()
      execute images environment words
    match ← Act.await (some child) with
    | .ended _ n =>
      if n = 0 then runAll images environment shows rest status
      else if n = 126 || n = 127 then pure n
      else if n = 255 then
        complain (words.headD [] ++ ": exited with status 255; aborting".toList)
        pure 124
      else if 128 < n then
        complain (words.headD [] ++ ": terminated by signal ".toList ++ decimal (n - 128))
        pure 125
      else runAll images environment shows rest 123
    | _ => runAll images environment shows rest status

/-- A line as a single word, in which blanks do not end anything. -/
def lineItem (line : Bytes) : Bytes :=
  let kept := (line.dropWhile Text.isGap).flatMap fun c =>
    if c = ' ' ∨ c = '\t' then ['\\', c] else [c]
  (quotedWords none none kept).headD []

/-- Runs a program for the words of the input. -/
def xargs (images : Images) (environment : Variables) (args : List Bytes) : Tool Unit := do
  let o ← parseOptions { grammar "0rtxp" "IndLPsEa"
    [("null", '0'), ("no-run-if-empty", 'r'), ("verbose", 't'), ("replace", 'I'), ("max-args", 'n'),
      ("delimiter", 'd'), ("max-lines", 'L'), ("max-procs", 'P'), ("arg-file", 'a')] with
    ordered := true } 1 args
  if let some file := o.get? 'a' then
    if !(← openInput file) then Act.exit 1
  let bs ← readAll
  let command := if o.operands.isEmpty then ["echo".toList] else o.operands
  let delimiter? : Option Char :=
    if o.has '0' then some (byteOf 0)
    else (o.get? 'd').map fun d => ((Text.unescape d).1.head?).getD (byteOf 0)
  let lines := (linesOf bs).filter fun line => !line.all Text.isGap
  let commands := match o.last? ['I', 'n', 'L'] with
    | some 'I' =>
      let items := match delimiter? with
        | some d => linesOf bs d
        | none => lines.map lineItem
      let mark := (o.get? 'I').getD []
      items.map fun item => command.map fun (w : Bytes) => putIn mark item (w.length + 1) w
    | some 'L' =>
      let size := ((o.get? 'L').bind amount?).getD 1
      (groupsOf size (lines.length + 1) lines).map fun group =>
        command ++ group.flatMap (quotedWords none none)
    | limit =>
      let words := match delimiter? with
        | some d => linesOf bs d
        | none => quotedWords none none bs
      let size := if limit = some 'n' then ((o.get? 'n').bind amount?).getD 1 else 5000
      (groupsOf (max 1 size) (words.length + 1) words).map (command ++ ·)
  let commands :=
    if commands.isEmpty && !o.has 'r' && !o.has 'I' then [command] else commands
  Act.exit (← runAll images environment (o.has 't') commands 0)

end SmtCount.Simulation.Tool
