import SmtCount.Simulation.Shell.Builtin
import SmtCount.Simulation.Shell.Redirection

/-!
# Running commands

What each kind of command does.  Commands inside of others are run by the interpreter, so that what is
said here is one step.

## Main definitions

* `Interpreter.runSimple` — runs a program, a function, or what the shell does itself.
* `Interpreter.runPipeline`, `Interpreter.runSubshell` — runs commands in processes of their own.
* `Interpreter.runCommand` — runs any command.
-/

namespace SmtCount.Simulation.Shell

open Kernel (Act)

/-- How long the shell takes for a simple command. -/
def commandNanos : Nat := 1000

/-- How many functions can be run inside of one another. -/
def deepestCall : Nat := 1000

/-- What the first word of a command stands for. -/
inductive Callee
  /-- There are no words. -/
  | nothing
  | builtin (b : Builtin)
  | function (body : Command)
  | program (path : Bytes)
  | unknown

/-- Is it a special command of the shell? -/
def Callee.isSpecial : Callee → Bool
  | .builtin b => b.special
  | _ => false

/-- Are operands assignments, for the words of a command so far? -/
def takesAssignments (s : Shell) : List Bytes → Bool
  | [] => false
  | name :: rest =>
    if name = "command".toList then takesAssignments s rest
    else if name = ['-', 'p'] ∨ name = ['-', '-'] then takesAssignments s rest
    else !s.functions.contains name && (builtin? name).any Builtin.assigns

/-- Does a word look like an assignment? -/
def isAssignment : Word → Bool
  | .text bytes false :: _ => (assignment? bytes).isSome
  | _ => false

/-- The words of a command without what only says how the first one is looked for; and whether there
was something. -/
def dropCommand : Nat → List Bytes → List Bytes × Bool
  | 0, words => (words, false)
  | steps + 1, words =>
    match words with
    | name :: rest =>
      if name ≠ "command".toList then (words, false)
      else
        let rest := match rest with
          | ['-', 'p'] :: rest => rest
          | rest => rest
        match dropMark rest with
        | [] => (words, false)
        | next :: more =>
          if "-v".toList.isPrefixOf next || "-V".toList.isPrefixOf next then (words, false)
          else ((dropCommand steps (next :: more)).1, true)
    | [] => ([], false)

/-- What comes after a turn of a loop. -/
inductive AfterTurn
  | goesOn
  /-- The next turn begins at once. -/
  | again
  /-- The loop is left. -/
  | leaves
  deriving DecidableEq

/-- Finds out what comes after a turn of a loop. -/
def afterTurn : Script AfterTurn := do
  let s ← Act.get
  match s.jump with
  | none => pure .goesOn
  | some .leaveFunction => pure .leaves
  | some (.leaveLoops n) =>
    Act.set { s with jump := if n ≤ 1 then none else some (.leaveLoops (n - 1)) }
    pure .leaves
  | some (.nextTurn n) =>
    if n ≤ 1 then
      Act.set { s with jump := none }
      pure .again
    else
      Act.set { s with jump := some (.nextTurn (n - 1)) }
      pure .leaves

/-- Is there something that a script wants to do about signals? -/
def hasTraps (s : Shell) : Bool := s.traps.rows.any fun r => !r.2.isEmpty

/-- The input of a process for which no one waits is empty, and two signals do not end it. -/
def becomeUnattended (first : Bool) : Script Unit := do
  let _ ← Act.react 2 .ignore
  let _ ← Act.react 3 .ignore
  if first then
    let _ ← Act.close 0
    let _ ← Act.openFile "/dev/null".toList .read

/-- What the first word of a command stands for. -/
def calleeOf (plain : Bool) (words : List Bytes) : Script Callee := do
  match words with
  | [] => pure .nothing
  | name :: _ =>
    let s ← Act.get
    let function? := if plain then s.functions.get? name else none
    match builtin? name, function? with
    | some b, some body => pure (if b.special then .builtin b else .function body)
    | some b, none => pure (.builtin b)
    | none, some body => pure (.function body)
    | none, none =>
      match ← findProgram name with
      | some path => pure (.program path)
      | none => pure .unknown

namespace Interpreter

variable (I : Interpreter)

/-! ### Simple commands -/

/-- The words of a command after some of them. -/
def commandFields (before : List Bytes) : List Word → Script (List Bytes)
  | [] => pure before
  | word :: words => do
    let s ← Act.get
    let more ← if takesAssignments s before && isAssignment word then do
        pure [← I.textOf word]
      else I.fieldsOf word
    commandFields (before ++ more) words

/-- Gives variables their values.  If `ownFrame`, they get their old values back after the command,
and programs are given the new ones. -/
def assignAll (ownFrame exported : Bool) : List (Bytes × Word) → Script Unit
  | [] => pure ()
  | (name, word) :: rest => do
    let value ← I.textOf word
    if ownFrame then Act.modify fun s => s.shadowed name
    I.assign name value
    if exported then
      Act.modify fun s =>
        let p := (s.parameters.get? name).getD {}
        { s with parameters := s.parameters.insert name { p with exported := true } }
    assignAll ownFrame exported rest

/-- Runs what the shell does itself. -/
def runBuiltin (mode : Mode) (b : Builtin) (endsScript : Bool) (words : List Bytes) :
    Script Unit := do
  match ← b.run I mode words.tail with
  | .ok status => setStatus status
  | .error message =>
    complain (words.head?.getD [] ++ ": ".toList ++ message)
    setStatus 2
    if endsScript then I.leave 2

/-- Runs a function. -/
def runFunction (mode : Mode) (body : Command) (words : List Bytes) : Script Unit := do
  let before ← Act.get
  if deepestCall ≤ before.calls then
    I.fail ("Maximum function recursion depth (".toList ++ decimal deepestCall ++ ") reached".toList)
  Act.set { before with args := words.tail, loops := 0, calls := before.calls + 1 }
  I.run { tested := mode.tested } body
  Act.modify fun s =>
    { s with
      args := before.args
      loops := before.loops
      calls := before.calls
      jump := if s.jump = some .leaveFunction then none else s.jump }

/-- Runs a program; without a process of its own, if the shell ends anyway. -/
def runProgram (mode : Mode) (path : Bytes) (words : List Bytes) : Script Unit := do
  if mode.last && !hasTraps (← Act.get) then I.execute "" path words
  else
    let child ← I.fork (I.execute "" path words)
    setStatus (← waitFor child)

/-- Runs what the first word stands for. -/
def runCallee (mode : Mode) (callee : Callee) (endsScript : Bool) (words : List Bytes) :
    Script Unit := do
  match callee with
  | .nothing => Act.modify fun s => { s with status := s.substituted }
  | .builtin b =>
    if words.head? = some "exec".toList then
      match dropMark words.tail with
      | [] => setStatus 0
      | args =>
        match ← findProgram (args.head?.getD []) with
        | some path => I.execute "exec: " path args
        | none => I.execute "exec: " (args.head?.getD []) args
    else I.runBuiltin mode b endsScript words
  | .function body => I.runFunction mode body words
  | .program path => I.runProgram mode path words
  | .unknown =>
    complain (words.head?.getD [] ++ ": not found".toList)
    setStatus 127

/-- Runs a program, a function, or what the shell does itself. -/
def runSimple (mode : Mode) (line : Nat) (assignments : List (Bytes × Word)) (words : List Word)
    (redirects : List Redirect) : Script Unit := do
  Act.pause commandNanos
  Act.modify fun s => { s with line, substituted := 0 }
  let all ← I.commandFields [] words
  let (words, reduced) := dropCommand all.length all
  let callee ← calleeOf (!reduced) words
  let special := callee.isSpecial && !reduced
  let ownFrame := !words.isEmpty && !special
  if ownFrame then Act.modify fun s => { s with outer := [] :: s.outer }
  let replaces := words.head? = some "exec".toList && special
  let redirections ← I.expandRedirects redirects
  if ← enterRedirects redirections then
    I.assignAll ownFrame (ownFrame || replaces && words.length ≠ 1) assignments
    I.runCallee mode callee special words
  else if special then I.leave 2
  restore replaces
  if ownFrame then Act.modify Shell.unshadowed

/-! ### Processes -/

/-- Starts the processes of commands, each with its output as the input of the next; gives their
numbers. -/
def startPipeline (mode : Mode) (background : Bool) (input : Option Nat) (first : Bool) :
    List Command → Script (List Nat)
  | [] => pure []
  | c :: rest => do
    let ends ← match rest with
      | [] => pure none
      | _ => do pure (some (← Act.newPipe))
    let child ← I.fork do
      if background then becomeUnattended first
      if let some (source, _) := ends then
        let _ ← Act.close source
      if let some source := input then
        if source ≠ 0 then
          let _ ← Act.copy source 0
          let _ ← Act.close source
      if let some (_, sink) := ends then
        if sink ≠ 1 then
          let _ ← Act.copy sink 1
          let _ ← Act.close sink
      I.run { mode with last := true } c
    if let some source := input then
      let _ ← Act.close source
    if let some (_, sink) := ends then
      let _ ← Act.close sink
    let more ← startPipeline mode background (ends.map Prod.fst) false rest
    pure (child :: more)

/-- Waits for all of some children; gives the status of the last one. -/
def awaitAll : Nat → List Nat → Script Nat
  | status, [] => pure status
  | _, child :: rest => do
    let status ← waitFor child
    awaitAll status rest

/-- Runs commands, each with its output as the input of the next. -/
def runPipeline (mode : Mode) (commands : List Command) (background : Bool) : Script Unit := do
  let children ← I.startPipeline mode background none true commands
  if background then
    Act.modify fun s =>
      { s with jobs := s.jobs ++ children, lastJob := children.getLast?, status := 0 }
  else setStatus (← awaitAll 0 children)

/-- Runs a command with redirections for good. -/
def runInside (mode : Mode) (redirections : List Redirection) (body : Command) : Script Unit := do
  match ← redirectAll false redirections with
  | some message => I.fail message
  | none => I.run mode body

/-- Runs a command that changes nothing for those after it. -/
def runSubshell (mode : Mode) (line : Nat) (body : Command) (redirects : List Redirect) :
    Script Unit := do
  Act.modify fun s => { s with line }
  let redirections ← I.expandRedirects redirects
  let inner := { mode with last := true }
  if mode.last && !hasTraps (← Act.get) then I.runInside inner redirections body
  else
    let child ← I.fork (I.runInside inner redirections body)
    setStatus (← waitFor child)

/-- Runs a command for which no one waits. -/
def runBackground (line : Nat) (body : Command) (redirects : List Redirect) : Script Unit := do
  if line ≠ 0 then Act.modify fun s => { s with line }
  let redirections ← I.expandRedirects redirects
  let child ← I.fork do
    becomeUnattended true
    I.runInside { last := true } redirections body
  Act.modify fun s => { s with jobs := s.jobs ++ [child], lastJob := some child, status := 0 }

/-! ### Loops and choices -/

/-- Runs the body of a loop for each of some fields; gives the status of the last turn. -/
def turnsFor (mode : Mode) (name : Bytes) (body : Command) : Nat → List Bytes → Script Nat
  | status, [] => pure status
  | _, field :: rest => do
    Act.pause commandNanos
    I.assign name field
    I.run { tested := mode.tested } body
    let status := (← Act.get).status
    match ← afterTurn with
    | .leaves => pure status
    | _ => turnsFor mode name body status rest

/-- Runs the body of a loop as long as its condition allows; gives the status of the last turn. -/
def turnsWhile (mode : Mode) (whileFails : Bool) (condition body : Command) :
    Nat → Nat → Script Nat
  | 0, status => pure status
  | turns + 1, status => do
    Act.pause commandNanos
    I.run { tested := true } condition
    let answer := (← Act.get).status
    match ← afterTurn with
    | .leaves => pure (if (← Act.get).jump = some .leaveFunction then answer else status)
    | .again => turnsWhile mode whileFails condition body turns status
    | .goesOn =>
      if (answer = 0) = whileFails then pure status
      else
        I.run { tested := mode.tested } body
        let status := (← Act.get).status
        match ← afterTurn with
        | .leaves => pure status
        | _ => turnsWhile mode whileFails condition body turns status

/-- Runs a loop. -/
def runLoop (turns : Script Nat) : Script Unit := do
  Act.modify fun s => { s with loops := s.loops + 1 }
  let status ← turns
  Act.modify fun s => { s with loops := s.loops - 1, status }

/-- Does a text match one of some patterns? -/
def matchesAny (text : Bytes) : List Word → Script Bool
  | [] => pure false
  | word :: rest => do
    let pattern ← I.patternIn word
    if matchesPattern pattern text then pure true else matchesAny text rest

/-- Runs the command with the first pattern that a text matches. -/
def runArms (mode : Mode) (text : Bytes) : List (List Word × Command) → Script Unit
  | [] => setStatus 0
  | (patterns, body) :: rest => do
    if ← I.matchesAny text patterns then
      match body with
      | .skip => setStatus 0
      | body => I.run mode body
    else runArms mode text rest

/-- Runs a command with redirections. -/
def runRedirected (mode : Mode) (line : Nat) (body : Command) (redirects : List Redirect) :
    Script Unit := do
  Act.modify fun s => { s with line }
  let redirections ← I.expandRedirects redirects
  if ← enterRedirects redirections then I.run { tested := mode.tested } body
  restore false

/-! ### All commands -/

/-- Does what a command says; says whether the script ends if the command fails. -/
def perform (mode : Mode) (strict : Bool) : Command → Script Bool
  | .skip => pure false
  | .simple line assignments words redirects => do
    I.runSimple mode line assignments words redirects
    pure strict
  | .pipeline commands background => do
    I.runPipeline mode commands background
    pure strict
  | .subshell line body redirects => do
    I.runSubshell mode line body redirects
    pure strict
  | .background line body redirects => do
    I.runBackground line body redirects
    pure strict
  | .redirected line body redirects => do
    I.runRedirected mode line body redirects
    pure false
  | .negated a => do
    I.run { tested := true } a
    Act.modify fun s => { s with status := if s.status = 0 then 1 else 0 }
    pure false
  | .seq a b => do
    I.run { tested := mode.tested } a
    if (← Act.get).jump.isNone then I.run mode b
    pure false
  | .andIf a b => do
    I.run { tested := true } a
    let s ← Act.get
    if s.jump.isNone && s.status == 0 then I.run mode b
    pure false
  | .orIf a b => do
    I.run { tested := true } a
    let s ← Act.get
    if s.jump.isNone && s.status ≠ 0 then I.run mode b
    pure false
  | .ifThen condition yes no => do
    I.run { tested := true } condition
    let s ← Act.get
    if s.jump.isNone then
      if s.status = 0 then I.run mode yes
      else
        match no with
        | some no => I.run mode no
        | none => setStatus 0
    pure false
  | .loop whileFails condition body => do
    runLoop (I.turnsWhile mode whileFails condition body Act.manyTurns 0)
    pure false
  | .each line name words body => do
    Act.modify fun s => { s with line }
    let fields ← I.allFieldsOf words
    runLoop (I.turnsFor mode name body 0 fields)
    pure false
  | .select line word arms => do
    Act.modify fun s => { s with line }
    let text ← I.textOf word
    I.runArms mode text arms
    pure false
  | .define _ name body => do
    Act.modify fun s => { s with functions := s.functions.insert name body, status := 0 }
    pure false

/-- Runs any command. -/
def runCommand (mode : Mode) (c : Command) : Script Unit := do
  runTraps (I.evaluate {})
  let strict := (← Act.get).isSet 'e' && !mode.tested
  let checked ← if (← Act.get).isSet 'n' then pure false else I.perform mode strict c
  runTraps (I.evaluate {})
  let status := (← Act.get).status
  if checked && status ≠ 0 then I.leave status
  if mode.last then I.leave status

end Interpreter

end SmtCount.Simulation.Shell
