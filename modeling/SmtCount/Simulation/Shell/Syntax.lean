import SmtCount.Table
import SmtCount.Simulation.Text.Bytes

/-!
# Scripts

Scripts in the shell command language.  This module holds what a script is made of.

## Main definitions

* `Piece`, `Word` — the words of a command, before they are expanded.
* `Redirect` — what a descriptor stands for while a command runs.
* `Command` — commands.
-/

namespace SmtCount.Simulation.Shell

/-- What is done to the value of a parameter. -/
inductive Modifier
  /-- The value itself. -/
  | plain
  /-- The number of bytes of the value. -/
  | length
  /-- A default, for a parameter that has no value, or an empty one if `empty`. -/
  | default (empty : Bool)
  /-- A default that the parameter gets as its value. -/
  | assign (empty : Bool)
  /-- Something else, for a parameter that has a value. -/
  | alternative (empty : Bool)
  /-- A message with which the script ends, for a parameter that has no value. -/
  | demand (empty : Bool)
  /-- The value without what a pattern matches at its start. -/
  | dropStart (longest : Bool)
  /-- The value without what a pattern matches at its end. -/
  | dropEnd (longest : Bool)
  /-- Something that no shell knows. -/
  | unknown
  deriving DecidableEq, Repr

/-- What a redirection opens a file for. -/
inductive Target
  | input
  | output
  /-- Like `output`, even where files are protected. -/
  | force
  | append
  | both
  deriving DecidableEq, Repr

mutual

/-- A piece of a word.  What comes out of a quoted piece is not split into fields, and does not act as
a pattern. -/
inductive Piece
  /-- The bytes themselves. -/
  | text (bytes : Bytes) (quoted : Bool)
  /-- The value of a parameter; a modifier may need another word. -/
  | param (name : Bytes) (modifier : Modifier) (word : List Piece) (quoted : Bool)
  /-- The value of an arithmetic expression. -/
  | arith (expression : List Piece) (quoted : Bool)
  /-- The output of a command. -/
  | output (command : Command) (quoted : Bool)
  /-- The home directory. -/
  | home

/-- What a descriptor stands for while a command runs. -/
inductive Redirect
  /-- A file. -/
  | file (fd : Nat) (target : Target) (name : List Piece)
  /-- What another descriptor stands for; a minus sign instead of its number for nothing. -/
  | copy (fd : Nat) (number : List Piece)
  /-- A text in the script, by its number. -/
  | document (fd : Nat) (number : Nat)

/-- A command. -/
inductive Command
  /-- Does nothing. -/
  | skip
  /-- Assignments, and the words of a program with its arguments. -/
  | simple (line : Nat) (assignments : List (Bytes × List Piece)) (words : List (List Piece))
      (redirects : List Redirect)
  /-- Two commands or more, each with its output as the input of the next. -/
  | pipeline (commands : List Command) (background : Bool)
  /-- One command after another. -/
  | seq (a b : Command)
  /-- The second command if the first succeeds. -/
  | andIf (a b : Command)
  /-- The second command if the first fails. -/
  | orIf (a b : Command)
  /-- Succeeds if the command fails. -/
  | negated (a : Command)
  /-- A command with redirections. -/
  | redirected (line : Nat) (body : Command) (redirects : List Redirect)
  /-- A command that changes nothing for those after it. -/
  | subshell (line : Nat) (body : Command) (redirects : List Redirect)
  /-- A command for which no one waits. -/
  | background (line : Nat) (body : Command) (redirects : List Redirect)
  /-- A choice by whether a command succeeds. -/
  | ifThen (condition yes : Command) (no : Option Command)
  /-- Repeats the body as long as the condition succeeds, or as long as it fails. -/
  | loop (whileFails : Bool) (condition body : Command)
  /-- Runs the body for each field of some words. -/
  | each (line : Nat) (name : Bytes) (words : List (List Piece)) (body : Command)
  /-- Runs the command with the first pattern that the word matches. -/
  | select (line : Nat) (word : List Piece) (arms : List (List (List Piece) × Command))
  /-- Gives a command a name. -/
  | define (line : Nat) (name : Bytes) (body : Command)

end

/-- A word of a command, before it is expanded. -/
abbrev Word := List Piece

/-- The bytes of a word that has nothing quoted or expanded in it. -/
def literal? : Word → Option Bytes
  | [.text bytes false] => some bytes
  | _ => none

/-- Puts bytes in front of a word. -/
def consText (bytes : Bytes) (quoted : Bool) : Word → Word
  | .text more quoted' :: rest =>
    if quoted = quoted' then .text (bytes ++ more) quoted :: rest
    else .text bytes quoted :: .text more quoted' :: rest
  | rest => .text bytes quoted :: rest

def isNameStart (c : Char) : Bool := c.isAlpha || c == '_'

def isNameChar (c : Char) : Bool := c.isAlphanum || c == '_'

/-- Is this the name of a variable? -/
def isName : Bytes → Bool
  | [] => false
  | c :: cs => isNameStart c && cs.all isNameChar

/-- The name and the rest of a text that begins like an assignment. -/
def assignment? (bs : Bytes) : Option (Bytes × Bytes) :=
  let name := bs.takeWhile isNameChar
  match bs.drop name.length with
  | '=' :: rest => if isName name then some (name, rest) else none
  | _ => none

/-- The pieces of a part of a value, where a tilde at the start of the value, or after a colon, stands
for the home directory if a slash, a colon or the end of the value follows it. -/
def homesIn (last : Bool) : Bool → Bytes → Word
  | _, [] => []
  | true, '~' :: rest =>
    let alone := match rest with
      | [] => last
      | c :: _ => c = '/' || c = ':'
    if alone then .home :: homesIn last false rest else consText ['~'] false (homesIn last false rest)
  | _, c :: rest => consText [c] false (homesIn last (c = ':') rest)

/-- A value that is assigned, with the home directory in it. -/
def assignedWord (start : Bool) : Word → Word
  | [] => []
  | .text bytes false :: rest =>
    homesIn rest.isEmpty start bytes ++ assignedWord (bytes.getLast? = some ':') rest
  | piece :: rest => piece :: assignedWord false rest

/-- A word after a modifier, where a tilde at the start stands for the home directory if a slash or the
end of the word follows it. -/
def homeFirst : Word → Word
  | .text ('~' :: bytes) false :: rest =>
    if bytes.head? = some '/' then .home :: .text bytes false :: rest
    else if bytes.isEmpty && rest.isEmpty then [.home]
    else .text ('~' :: bytes) false :: rest
  | word => word

end SmtCount.Simulation.Shell
