import SmtCount.Simulation.Tool.Columns
import SmtCount.Simulation.Tool.Edit.Run
import SmtCount.Simulation.Tool.Expression
import SmtCount.Simulation.Tool.Files
import SmtCount.Simulation.Tool.Launch
import SmtCount.Simulation.Tool.Order
import SmtCount.Simulation.Tool.Search
import SmtCount.Simulation.Tool.Translate

/-!
# All tools

The tools that scripts find, by their names.

## Main definitions

* `tools` — the tools; those that run others get to know which programs there are.
* `tool?` — the tool with a name.
-/

namespace SmtCount.Simulation.Tool

/-- A tool that only depends on its arguments. -/
def plain (name : String) (chunk : Nat) (run : List Bytes → Tool Unit) : String × (Images → Image) :=
  (name, fun _ => program chunk run)

/-- A tool that runs other programs. -/
def running (name : String) (run : Images → Variables → List Bytes → Tool Unit) :
    String × (Images → Image) :=
  (name, fun images => programWith 4096 (run images))

/-- All tools. -/
def tools : List (String × (Images → Image)) :=
  [plain "[" 4096 (test true), plain "basename" 4096 basename, plain "cat" 131072 cat,
    plain "comm" 4096 comm, plain "cp" 4096 cp, plain "cut" 4096 cut, plain "dd" 4096 dd,
    plain "dirname" 4096 dirname, plain "echo" 4096 echo, plain "egrep" 98304 (grep 'E'),
    running "env" env, plain "expand" 4096 expand, plain "expr" 4096 expr,
    plain "false" 4096 (constant 1), plain "fgrep" 98304 (grep 'F'), plain "fold" 4096 fold,
    plain "grep" 98304 (grep 'G'), plain "head" 8192 head, plain "mkdir" 4096 mkdir,
    plain "mktemp" 4096 mktemp, plain "mv" 4096 mv, running "nice" nice, plain "nl" 4096 nl,
    running "nohup" nohup, plain "paste" 4096 paste, running "printenv" fun _ => printenv,
    plain "printf" 4096 printf, plain "pwd" 4096 pwd, plain "rev" 4096 rev, plain "rm" 4096 rm,
    plain "rmdir" 4096 rmdir, plain "sed" 4096 sed, plain "seq" 4096 seq, running "setsid" setsid,
    plain "sleep" 4096 sleep, plain "sort" 65536 sort, running "stdbuf" stdbuf,
    plain "tac" 8192 tac, plain "tail" 8192 tail, plain "tee" 8192 tee,
    plain "test" 4096 (test false), running "timeout" timeout, plain "touch" 4096 touch,
    plain "tr" 8192 tr, plain "true" 4096 (constant 0), plain "uname" 4096 uname,
    plain "uniq" 4096 uniq, plain "wc" 16384 wc, running "which" fun _ => which,
    running "xargs" xargs, plain "yes" 4096 yes]

/-- The tool with a name. -/
def tool? (images : Images) (name : Bytes) : Option Image :=
  (tools.find? fun t => t.1.toList = name).map fun t => t.2 images

end SmtCount.Simulation.Tool
