import OperatorCalculus.CommandLine.Run

namespace OperatorCalculus

namespace Outer

def fault (error : IO.Error) : FileFault :=
  match error with
  | .noFileOrDirectory .. => .missing
  | .inappropriateType .. => .isDirectory
  | other => .other other.toString.toList

def readFile (path : Text) : IO (Except FileFault Text) := do
  if path.elem '\x00' then return .error .nullCharacter
  try
    let content ← IO.FS.readFile (String.ofList path)
    return .ok content.toList
  catch error => return .error (fault error)

def listDirectory (path : Text) : IO (List Text) := do
  try
    let directory ← IO.FS.realPath (String.ofList path)
    let entries ← directory.readDir
    return entries.toList.map fun entry => entry.fileName.toList
  catch _ => return []

def writeFile (path content : Text) : IO (Option FileFault) := do
  if path.elem '\x00' then return some .nullCharacter
  try
    IO.FS.writeFile (String.ofList path) (String.ofList content)
    return none
  catch error => return some (fault error)

def carryOut {α : Type} : Job α → IO α
  | .done a => return a
  | .say lines next => do
    IO.print (String.ofList (Text.unlines lines))
    carryOut next
  | .read path next => do
    let answer ← readFile path
    carryOut (next answer)
  | .list directory next => do
    let answer ← listDirectory directory
    carryOut (next answer)
  | .write path content next => do
    let answer ← writeFile path content
    carryOut (next answer)

def complain (message : String) : IO Unit := IO.eprintln message

def finish : CommandLine.Ending → IO UInt32
  | .exit code none => return code.toUInt32
  | .exit code (some message) => do
    complain (String.ofList message)
    return code.toUInt32
  | .stopped .help => do
    complain "usage: [--rules FILE] [--theorems FILE] [--quiet] normalize | prove | rules | extract"
    return 0
  | .stopped .misuse => do
    complain "error: the arguments can not be read; try --help"
    return 2
  | .brokenOff _ => do
    complain "error: a rule file holds values that can not be used as rules"
    return 1
  | .untold => do
    complain "error: a rule holds half of a surrogate pair alone"
    return 2

-- How many lists and objects of a rule file may stand inside one another here.
def nestingLimit : Nat := 988

end Outer
end OperatorCalculus

def main (args : List String) : IO UInt32 := do
  let ending ← OperatorCalculus.Outer.carryOut
    (OperatorCalculus.CommandLine.run OperatorCalculus.Outer.nestingLimit (args.map String.toList))
  OperatorCalculus.Outer.finish ending
