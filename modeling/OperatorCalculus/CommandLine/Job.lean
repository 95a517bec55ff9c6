import OperatorCalculus.Text.Quoted

-- A job is what a command wants of the world outside: lines to show and files to read,
-- list and write, each with what follows for every answer. The job itself does nothing.
namespace OperatorCalculus

inductive FileFault where
  | missing
  | isDirectory
  | notDirectory
  | nullCharacter
  | other (description : Text)
deriving DecidableEq, Repr

namespace FileFault

def numbered (number : Nat) (description : String) (path : Text) : Text :=
  "[Errno ".toList ++ Text.ofNat number ++ "] ".toList ++ description.toList ++ ": ".toList ++
    Text.quoted path

def message (path : Text) : FileFault → Text
  | .missing => numbered 2 "No such file or directory" path
  | .isDirectory => numbered 21 "Is a directory" path
  | .notDirectory => numbered 20 "Not a directory" path
  | .nullCharacter => "embedded null byte".toList
  | .other description => description

end FileFault

inductive Job (α : Type) : Type where
  | done (value : α)
  | say (lines : List Text) (next : Job α)
  | read (path : Text) (next : Except FileFault Text → Job α)
  | list (directory : Text) (next : List Text → Job α)
  | write (path content : Text) (next : Option FileFault → Job α)

namespace Job

def bind {α β : Type} (j : Job α) (f : α → Job β) : Job β :=
  match j with
  | .done a => f a
  | .say lines next => .say lines (next.bind f)
  | .read path next => .read path fun r => (next r).bind f
  | .list directory next => .list directory fun r => (next r).bind f
  | .write path content next => .write path content fun r => (next r).bind f

instance : Monad Job where
  pure := .done
  bind := .bind

end Job
end OperatorCalculus
