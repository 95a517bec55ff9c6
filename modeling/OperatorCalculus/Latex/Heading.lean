import OperatorCalculus.Text.Basic

namespace OperatorCalculus

namespace Heading

def chapterCommand : Text := "\\chapter\x7b".toList
def sectionCommand : Text := "\\section\x7b".toList
def subsectionCommand : Text := "\\subsection\x7b".toList

def titleHere? (command t : Text) : Option Text :=
  if command.isPrefixOf t then
    let body := t.drop command.length
    let title := body.takeWhile (· != '\x7d')
    if !title.isEmpty && title.length < body.length then some title else none
  else none

def title? (command : Text) : Text → Option Text
  | [] => none
  | c :: rest =>
    match titleHere? command (c :: rest) with
    | some title => some title
    | none => title? command rest

end Heading
end OperatorCalculus
