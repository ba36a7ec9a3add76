import SmtCount.Simulation.Shell.Reader

/-!
# Reading scripts

A script is read line by line: a line is read as far as its commands go, which may be over several
lines, and it can be run before the next one is read.

The readers for words, commands and lists of commands need each other, so each has a number of steps
that it may take; a script has fewer constructs than bytes, and a few steps for each byte are enough.

## Main definitions

* `Reader.word`, `Reader.redirect`, `Reader.command`, `Reader.commandList` — the readers for the
  parts of a line.
* `Reader.nextLine` — reads the commands of a line.
-/

namespace SmtCount.Simulation.Shell

/-- What ends a sequence of pieces. -/
inductive Bound
  /-- A byte that ends words. -/
  | word
  /-- A double quote. -/
  | quote
  /-- A brace that closes a parameter, perhaps between double quotes. -/
  | brace (quoted : Bool)
  /-- Two parentheses that close an arithmetic expression, after some that close others. -/
  | arith (depth : Nat)
  /-- The end of the bytes. -/
  | document
  deriving DecidableEq

/-- Is what lies within the bound quoted? -/
def Bound.quoted : Bound → Bool
  | .word | .brace false => false
  | _ => true

/-- The bytes that lose a backslash before them. -/
def Bound.escapable : Bound → Bytes
  | .quote => ['$', '\x60', '"', '\\']
  | .brace _ => ['$', '\x60', '"', '\\', '\x7d']
  | _ => ['$', '\x60', '\\']

/-- Does a byte stand for itself whatever the bound? -/
def isOrdinary (c : Char) : Bool :=
  !isMeta c && !(['$', '\x60', '"', '\\', '\'', '\x7d', '~'].contains c)

/-- A command for which no one waits. -/
def Command.unattended : Command → Command
  | .pipeline commands _ => .pipeline commands true
  | .redirected line body redirects => .background line body redirects
  | c => .background 0 c []

/-- One command after another. -/
def Command.andThen : Option Command → Command → Command
  | none, c => c
  | some b, c => .seq b c

/-- The bytes of a word, and whether some are quoted. -/
def endingOf (word : Word) : Bytes × Bool :=
  word.foldl
    (fun (bytes, quoted) piece =>
      match piece with
      | .text more q => (bytes ++ more, quoted || q)
      | _ => (bytes, quoted))
    ([], false)

/-- The arguments that a loop goes through if it says nothing else. -/
def allArguments : Word := [.param ['@'] .plain [] true]

/-- Is this the name of a command that a script cannot give to another? -/
def isReservedName (name : Bytes) : Bool :=
  [".", ":", "break", "continue", "eval", "exec", "exit", "export", "local", "readonly", "return",
    "set", "shift", "times", "trap", "unset"].contains (String.ofList name)

/-- A line of a script. -/
inductive Line
  /-- There are no more lines. -/
  | none
  /-- The commands of a line, and whether it is the last one. -/
  | commands (c : Command) (last : Bool)

namespace Reader

/-- The text up to a closing backquote, without the backslashes that belong to the quotation. -/
def backquoted (quoted : Bool) : Nat → Reader Bytes
  | 0 => wrong "Syntax error: EOF in backquote substitution"
  | steps + 1 => do
    match ← rawByte with
    | none => wrong "Syntax error: EOF in backquote substitution"
    | some '\x60' => return []
    | some '\\' =>
      match ← rawByte with
      | none => wrong "Syntax error: EOF in backquote substitution"
      | some '\n' => backquoted quoted steps
      | some c =>
        let rest ← backquoted quoted steps
        if c = '\\' || c = '\x60' || c = '$' || quoted && c = '"' then return c :: rest
        else return '\\' :: c :: rest
    | some c => return c :: (← backquoted quoted steps)

/-- The name of a parameter after a dollar sign, if there is one. -/
def plainName? : Reader (Option Bytes) := do
  match ← peek with
  | none => return none
  | some c =>
    if isNameStart c then return some (← nameBytes)
    else if c.isDigit || "#?$!@*-".toList.contains c then
      skip
      return some [c]
    else return none

/-- The modifier after the name of a parameter between braces, and whether a word follows. -/
def modifier : Reader (Modifier × Bool) := do
  let empty ← skipIf ':'
  match ← peek with
  | some '\x7d' =>
    if empty then return (.unknown, true)
    skip
    return (.plain, false)
  | some '-' =>
    skip
    return (.default empty, true)
  | some '=' =>
    skip
    return (.assign empty, true)
  | some '+' =>
    skip
    return (.alternative empty, true)
  | some '?' =>
    skip
    return (.demand empty, true)
  | some '#' =>
    if empty then return (.unknown, true)
    skip
    return (.dropStart (← skipIf '#'), true)
  | some '%' =>
    if empty then return (.unknown, true)
    skip
    return (.dropEnd (← skipIf '%'), true)
  | _ => return (.unknown, true)

/-- The name of a parameter between braces, and whether its length is asked for. -/
def bracedName : Reader (Bytes × Bool) := do
  let cs ← ahead 3
  match cs with
  | '#' :: '\x7d' :: _ =>
    skip
    return (['#'], false)
  | '#' :: c :: rest =>
    if isNameChar c then
      skip
      let name ← if c.isDigit then takeWhile Char.isDigit else nameBytes
      return (name, true)
    else if "#?$!@*-".toList.contains c && rest.head? = some '\x7d' then
      skip
      skip
      return ([c], true)
    else
      skip
      return (['#'], false)
  | c :: _ =>
    if c.isDigit then return (← takeWhile Char.isDigit, false)
    else return ((← plainName?).getD [], false)
  | [] => return ([], false)

/-- Are the next two bytes these? -/
def aheadAre (c d : Char) : Reader Bool := do
  if (← peek) ≠ some c then return false
  else return (← ahead 2)[1]? = some d

/-- Reads something from other bytes. -/
def within {α : Type} (bytes : Bytes) (reader : Reader α) : Reader α := do
  let outer ← get
  set { outer with rest := bytes, final := true, announced := [] }
  let result ← reader
  modify fun s =>
    { outer with documents := s.documents, nextDocument := s.nextDocument }
  return result

/-! ### Texts on the lines after a command -/

/-- The lines before one that ends a text. -/
def documentLines (d : Announced) : Nat → Reader Bytes
  | 0 => return []
  | steps + 1 => do
    let s ← get
    if s.rest.isEmpty && s.final then return []
    let line := s.rest.takeWhile (· ≠ '\n')
    let rest := s.rest.drop line.length
    if rest.isEmpty && !s.final then throw .unfinished
    let text := if d.dropTabs then line.dropWhile (· == '\t') else line
    set { s with rest := rest.tail, line := s.line + 1 }
    if text = d.ending then return []
    else return text ++ rest.take 1 ++ (← documentLines d steps)

/-- Is this the end of a list of commands? -/
def atEnd : Reader Bool := do
  match ← ahead 1 with
  | [] | ')' :: _ => return true
  | ';' :: _ => aheadAre ';' ';'
  | _ =>
    match ← keyword? with
    | some word => return ["do", "done", "elif", "else", "esac", "fi", "then", "\x7d"].contains word
    | none => return false

/-- The number of the descriptor in front of a redirection, if one comes next. -/
def redirectAhead : Reader (Option (Option Nat)) := do
  match ← peek with
  | some '<' | some '>' => return some none
  | some c =>
    if !c.isDigit then return none
    else
      let next := (← ahead 2)[1]?
      return if next = some '<' || next = some '>' then some (some (c.toNat - '0'.toNat)) else none
  | none => return none

mutual

/-- Reads the pieces up to a bound. -/
def pieces : Nat → Bound → Reader Word
  | 0, _ => wrong "Syntax error"
  | steps + 1, bound => do
    match ← peek with
    | none =>
      match bound with
      | .word | .document => return []
      | .quote | .brace true => wrong "Syntax error: Unterminated quoted string"
      | .brace false => wrong "Syntax error: Missing '\x7d'"
      | .arith _ => wrong "Syntax error: Missing '))'"
    | some c =>
      let more (piece : Piece) : Reader Word := return piece :: (← pieces steps bound)
      let self : Reader Word := do
        skip
        return consText [c] bound.quoted (← pieces steps bound)
      if isOrdinary c then
        let text ← takeWhile isOrdinary
        return consText text bound.quoted (← pieces steps bound)
      else if bound = .word && isMeta c then return []
      else
        match c with
        | '\'' =>
          if bound.quoted then self
          else
            skip
            let text ← takeWhile (· ≠ '\'')
            if (← peek).isNone then wrong "Syntax error: Unterminated quoted string"
            skip
            return consText text true (← pieces steps bound)
        | '"' =>
          match bound with
          | .quote =>
            skip
            return []
          | .document | .arith _ => self
          | _ =>
            skip
            let inner ← pieces steps .quote
            let rest ← pieces steps bound
            -- all arguments by themselves may be no field at all
            match inner with
            | [.param ['@'] .plain [] true] => return inner ++ rest
            | _ => return .text [] true :: inner ++ rest
        | '\x7d' =>
          match bound with
          | .brace _ =>
            skip
            return []
          | _ => self
        | '\\' =>
          skip
          match ← rawByte with
          | none => return [.text ['\\'] true]
          | some d =>
            let rest ← pieces steps bound
            if bound.quoted && !bound.escapable.contains d then return consText ['\\', d] true rest
            else return consText [d] true rest
        | '$' =>
          skip
          match ← expansion steps bound with
          | some piece => more piece
          | none => return consText ['$'] bound.quoted (← pieces steps bound)
        | '\x60' =>
          skip
          let script ← backquoted bound.quoted (← get).rest.length
          let command ← within script (commandList steps none)
          more (.output command bound.quoted)
        | '(' =>
          match bound with
          | .arith depth =>
            skip
            return consText ['('] true (← pieces steps (.arith (depth + 1)))
          | _ => self
        | ')' =>
          match bound with
          | .arith 0 =>
            if ← aheadAre ')' ')' then
              skip
              skip
              return []
            else self
          | .arith (depth + 1) =>
            skip
            return consText [')'] true (← pieces steps (.arith depth))
          | _ => self
        | _ => self

/-- Reads what follows a dollar sign. -/
def expansion : Nat → Bound → Reader (Option Piece)
  | 0, _ => wrong "Syntax error"
  | steps + 1, bound => do
    match ← peek with
    | some '(' =>
      if ← aheadAre '(' '(' then
        skip
        skip
        return some (.arith (← pieces steps (.arith 0)) bound.quoted)
      else
        skip
        let command ← commandList steps none
        if !(← skipIf ')') then expected ")"
        return some (.output command bound.quoted)
    | some '\x7b' =>
      skip
      let (name, length) ← bracedName
      if length then
        if ← skipIf '\x7d' then return some (.param name .length [] bound.quoted)
        else
          let word ← pieces steps (.brace bound.quoted)
          return some (.param name .unknown word bound.quoted)
      else
        let (modifier, hasWord) ← modifier
        if !hasWord then
          return some (.param name (if name.isEmpty then .unknown else modifier) [] bound.quoted)
        else
          let inner := match modifier with
            | .dropStart _ | .dropEnd _ => .brace false
            | _ => .brace bound.quoted
          let word ← pieces steps inner
          let word := if bound.quoted then word else homeFirst word
          return some (.param name (if name.isEmpty then .unknown else modifier) word bound.quoted)
    | _ => return (← plainName?).map fun name => .param name .plain [] bound.quoted

/-- Reads a word, in which a tilde at the start stands for the home directory. -/
def word : Nat → Reader Word
  | 0 => wrong "Syntax error"
  | steps + 1 => do
    let cs ← ahead 2
    let atHome := match cs with
      | '~' :: c :: _ => c == '/' || isMeta c
      | ['~'] => true
      | _ => false
    if atHome then
      skip
      return .home :: (← pieces steps .word)
    else pieces steps .word

/-- Reads the word after an operator. -/
def target : Nat → Reader Word
  | 0 => wrong "Syntax error"
  | steps + 1 => do
    skipBlanks steps
    match ← peek with
    | none => unexpected
    | some c => if isMeta c then unexpected else word steps

/-- Reads a redirection. -/
def redirect : Nat → Option Nat → Reader Redirect
  | 0, _ => wrong "Syntax error"
  | steps + 1, fd => do
    if fd.isSome then skip
    if ← skipIf '>' then
      let fd := fd.getD 1
      if ← skipIf '>' then return .file fd .append (← target steps)
      else if ← skipIf '|' then return .file fd .force (← target steps)
      else if ← skipIf '&' then return .copy fd (← target steps)
      else return .file fd .output (← target steps)
    else
      skip
      let fd := fd.getD 0
      if ← skipIf '>' then return .file fd .both (← target steps)
      else if ← skipIf '&' then return .copy fd (← target steps)
      else if ← skipIf '<' then
        let dropTabs ← skipIf '-'
        let (ending, quoted) := endingOf (← target steps)
        let number := (← get).nextDocument
        modify fun s =>
          { s with
            announced := s.announced ++ [⟨number, ending, dropTabs, !quoted⟩]
            nextDocument := number + 1 }
        return .document fd number
      else return .file fd .input (← target steps)

/-- Reads the redirections that come next. -/
def redirects : Nat → Reader (List Redirect)
  | 0 => wrong "Syntax error"
  | steps + 1 => do
    skipBlanks steps
    match ← redirectAhead with
    | none => return []
    | some fd =>
      let r ← redirect steps fd
      return r :: (← redirects steps)

/-- Goes past the end of a line, and reads the texts that the line has announced. -/
def lineEnd : Nat → Reader Unit
  | 0 => wrong "Syntax error"
  | steps + 1 => do
    skip
    announcedTexts steps

/-- Reads the texts that a line has announced. -/
def announcedTexts : Nat → Reader Unit
  | 0 => wrong "Syntax error"
  | steps + 1 => do
    match (← get).announced with
    | [] => pure ()
    | d :: rest =>
      modify fun s => { s with announced := rest }
      let text ← documentLines d steps
      let word ← if d.expands then within text (pieces steps .document)
        else pure [.text text true]
      modify fun s => { s with documents := s.documents.insert d.number word }
      announcedTexts steps

/-- Goes past blanks, comments and the ends of lines. -/
def skipLines : Nat → Reader Unit
  | 0 => wrong "Syntax error"
  | steps + 1 => do
    skipBlanks steps
    if (← peek) = some '\n' then
      lineEnd steps
      skipLines steps

/-- Reads the rest of a simple command, which begins with `assignments`, `words` and `found`, all of
them in the opposite order. -/
def simple : Nat → Nat → List (Bytes × Word) → List Word → List Redirect → Reader Command
  | 0, _, _, _, _ => wrong "Syntax error"
  | steps + 1, line, assignments, words, found => do
    skipBlanks steps
    let done : Reader Command :=
      return .simple line assignments.reverse words.reverse found.reverse
    match ← redirectAhead with
    | some fd =>
      let r ← redirect steps fd
      simple steps line assignments words (r :: found)
    | none =>
      match ← peek with
      | none => done
      | some '(' =>
        match words, assignments, found with
        | [name], [], [] =>
          skip
          skipBlanks steps
          if !(← skipIf ')') then expected ")"
          match literal? name with
          | some name =>
            if !isName name || isReservedName name then wrong "Syntax error: Bad function name"
            let start := (← get).line
            skipLines steps
            return .define start name (← command steps)
          | none => wrong "Syntax error: Bad function name"
        | _, _, _ => done
      | some c =>
        if isMeta c then done
        else
          let w ← word steps
          let assigned := match words, w with
            | [], .text bytes false :: rest =>
              (assignment? bytes).map fun (name, value) =>
                (name, assignedWord true (if value.isEmpty then rest else .text value false :: rest))
            | _, _ => none
          match assigned with
          | some a => simple steps line (a :: assignments) words found
          | none => simple steps line assignments (w :: words) found

/-- Reads words up to the end of a line or a semicolon. -/
def loopWords : Nat → Reader (List Word)
  | 0 => wrong "Syntax error"
  | steps + 1 => do
    skipBlanks steps
    match ← peek with
    | none => unexpected
    | some c =>
      if c = '\n' then return []
      else if c = ';' then
        if ← aheadAre ';' ';' then unexpected
        skip
        return []
      else if isMeta c then unexpected
      else
        let w ← word steps
        return w :: (← loopWords steps)

/-- Reads the patterns of an arm of a choice, up to the parenthesis behind them. -/
def patterns : Nat → Reader (List Word)
  | 0 => wrong "Syntax error"
  | steps + 1 => do
    skipBlanks steps
    if (← peek).isNone then expected ")"
    let w ← target steps
    skipBlanks steps
    if ← skipIf '|' then return w :: (← patterns steps)
    else if ← skipIf ')' then return [w]
    else expected ")"

/-- Reads the arms of a choice. -/
def arms : Nat → Reader (List (List Word × Command))
  | 0 => wrong "Syntax error"
  | steps + 1 => do
    skipLines steps
    if ← skipKeyword "esac" then return []
    else
      let _ ← skipIf '('
      let ps ← patterns steps
      let body ← commandList steps none
      if ← aheadAre ';' ';' then
        skip
        skip
        return (ps, body) :: (← arms steps)
      else
        if !(← skipKeyword "esac") then expected ";;"
        return [(ps, body)]

/-- Reads what follows the condition of a choice between two commands. -/
def branches : Nat → Command → Reader Command
  | 0, _ => wrong "Syntax error"
  | steps + 1, condition => do
    requireKeyword "then"
    let yes ← commandList steps (some "fi")
    if ← skipKeyword "elif" then
      let other ← commandList steps (some "then")
      return .ifThen condition yes (some (← branches steps other))
    else if ← skipKeyword "else" then
      let no ← commandList steps (some "fi")
      requireKeyword "fi"
      return .ifThen condition yes (some no)
    else
      requireKeyword "fi"
      return .ifThen condition yes none

/-- Reads the body of a loop, between its two reserved words. -/
def body : Nat → Reader Command
  | 0 => wrong "Syntax error"
  | steps + 1 => do
    skipLines steps
    requireKeyword "do"
    let c ← commandList steps (some "done")
    requireKeyword "done"
    return c

/-- Reads a loop over words, after its reserved word. -/
def eachLoop : Nat → Reader Command
  | 0 => wrong "Syntax error"
  | steps + 1 => do
    skipBlanks steps
    let line := (← get).line
    let name ← wordAhead
    if !isName name then wrong "Syntax error: Bad for loop variable"
    let _ ← takeWhile isNameChar
    skipLines steps
    let words ← if ← skipKeyword "in" then loopWords steps
      else
        if (← peek) = some ';' && !(← aheadAre ';' ';') then skip
        pure [allArguments]
    return .each line name words (← body steps)

/-- Reads a choice by patterns, after its reserved word. -/
def choice : Nat → Reader Command
  | 0 => wrong "Syntax error"
  | steps + 1 => do
    skipBlanks steps
    let line := (← get).line
    if (← peek).isNone then surprised " (expecting word)"
    let w ← target steps
    skipLines steps
    requireKeyword "in"
    return .select line w (← arms steps)

/-- Reads a command that begins with a reserved word. -/
def compound : Nat → String → Reader Command
  | 0, _ => wrong "Syntax error"
  | steps + 1, keyword => do
    match keyword with
    | "if" =>
      let condition ← commandList steps (some "then")
      branches steps condition
    | "while" =>
      let condition ← commandList steps (some "do")
      return .loop false condition (← body steps)
    | "until" =>
      let condition ← commandList steps (some "do")
      return .loop true condition (← body steps)
    | "for" => eachLoop steps
    | "case" => choice steps
    | _ =>
      let inner ← commandList steps (some "\x7d")
      requireKeyword "\x7d"
      return inner

/-- Reads one command. -/
def command : Nat → Reader Command
  | 0 => wrong "Syntax error"
  | steps + 1 => do
    skipBlanks steps
    let line := (← get).line
    if ← skipIf '(' then
      let inner ← commandList steps (some ")")
      if !(← skipIf ')') then expected ")"
      return .subshell line inner (← redirects steps)
    else
      match ← keyword? with
      | some keyword =>
        if ["if", "while", "until", "for", "case", "\x7b"].contains keyword then
          let _ ← skipKeyword keyword
          let c ← compound steps keyword
          match ← redirects steps with
          | [] => return c
          | found => return .redirected line c found
        else unexpected
      | none =>
        match ← peek with
        | none => unexpected
        | some c =>
          if isMeta c && (← redirectAhead).isNone then unexpected
          else simple steps line [] [] []

/-- Reads the commands that follow one with bars between them. -/
def piped : Nat → Reader (List Command)
  | 0 => wrong "Syntax error"
  | steps + 1 => do
    skipBlanks steps
    if (← peek) = some '|' && !(← aheadAre '|' '|') then
      skip
      skipLines steps
      let c ← command steps
      return c :: (← piped steps)
    else return []

/-- Reads commands between bars, perhaps negated as a whole. -/
def pipeline : Nat → Reader Command
  | 0 => wrong "Syntax error"
  | steps + 1 => do
    skipBlanks steps
    let negated ← skipKeyword "!"
    let first ← command steps
    let c := match ← piped steps with
      | [] => first
      | rest => .pipeline (first :: rest) false
    return if negated then .negated c else c

/-- Reads what follows a command on which further commands depend. -/
def conditional : Nat → Command → Reader Command
  | 0, _ => wrong "Syntax error"
  | steps + 1, c => do
    skipBlanks steps
    if ← aheadAre '&' '&' then
      skip
      skip
      skipLines steps
      let d ← pipeline steps
      conditional steps (.andIf c d)
    else if ← aheadAre '|' '|' then
      skip
      skip
      skipLines steps
      let d ← pipeline steps
      conditional steps (.orIf c d)
    else return c

/-- Reads a command of a list, and says whether the list may go on after it. -/
def item : Nat → Reader (Command × Bool)
  | 0 => wrong "Syntax error"
  | steps + 1 => do
    let first ← pipeline steps
    let c ← conditional steps first
    match ← peek with
    | some ';' =>
      if ← aheadAre ';' ';' then return (c, false)
      else
        skip
        return (c, true)
    | some '&' =>
      skip
      return (c.unattended, true)
    | some '\n' => return (c, true)
    | _ => return (c, false)

/-- Reads the rest of a list of commands up to its end. -/
def items : Nat → Option Command → Reader Command
  | 0, _ => wrong "Syntax error"
  | steps + 1, before => do
    let (c, more) ← item steps
    let c := Command.andThen before c
    if more then
      skipLines steps
      if ← atEnd then return c else items steps (some c)
    else return c

/-- Reads a list of commands up to its end.  If something is to close the list, it may not be empty. -/
def commandList : Nat → Option String → Reader Command
  | 0, _ => wrong "Syntax error"
  | steps + 1, closing => do
    skipLines steps
    if ← atEnd then
      match closing with
      | none => return .skip
      | some word => if (← ahead 1).isEmpty then expected word else unexpected
    else items steps none

end

/-- Reads the commands of a line after some of them. -/
def lineItems : Nat → Option Command → Reader Command
  | 0, _ => wrong "Syntax error"
  | steps + 1, before => do
    let (c, more) ← item steps
    let c := Command.andThen before c
    skipBlanks steps
    match ← peek with
    | none =>
      announcedTexts steps
      return c
    | some '\n' =>
      lineEnd steps
      return c
    | some _ => if more then lineItems steps (some c) else unexpected

/-- Reads the commands of a line. -/
def nextLine : Reader Line := do
  let steps := 8 * (← get).rest.length + 100
  skipBlanks steps
  match ← peek with
  | none => return .none
  | some '\n' =>
    lineEnd steps
    return .commands .skip false
  | some _ =>
    let before ← get
    let c ← lineItems steps none
    let after ← get
    -- a line that ends with the script has no end of its own
    let read := before.rest.take (before.rest.length - after.rest.length)
    return .commands c (after.rest.isEmpty && after.final && read.getLast? ≠ some '\n')

end Reader

end SmtCount.Simulation.Shell
