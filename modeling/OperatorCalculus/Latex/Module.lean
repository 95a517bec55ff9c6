import OperatorCalculus.Latex.Naming

namespace OperatorCalculus

namespace DataModule

def header : Text := Text.join ['\n'] [
  "// Auto-generated from LaTeX theorem files".toList,
  "// Run: npm run extract-theorems".toList,
  "".toList,
  "export type RuleType = 'axiom' | 'definition' | 'theorem';".toList,
  "export type RuleCategory = ".toList,
  "  | 'operators' ".toList,
  "  | 'relationships'".toList,
  "  | 'propositions'".toList,
  "  | 'induction'".toList,
  "  | 'arithmetic'".toList,
  "  | 'logic';".toList,
  "".toList,
  "export interface Rule \x7b".toList,
  "  id: string;".toList,
  "  name: string;".toList,
  "  type: RuleType;".toList,
  "  category: RuleCategory;".toList,
  "  description: string;".toList,
  "  leftSide: string;".toList,
  "  rightSide: string;".toList,
  "  section?: string;".toList,
  "  subsection?: string;".toList,
  "\x7d".toList,
  "".toList,
  "export const theorems: Rule[] = [".toList,
  "".toList]

def footer : Text := "\n];\n".toList

def escapeQuotes (t : Text) : Text := Text.replaceChar '\x27' ['\\', '\x27'] t

def field (name : String) (value : Text) : Text :=
  "    ".toList ++ name.toList ++ ": '".toList ++ value ++ "',".toList

def titleField (name : String) (title : Option Text) : List Text :=
  match title with
  | none => []
  | some [] => []
  | some t => [field name (escapeQuotes t)]

def entry (r : Rule) : Text := Text.join ['\n'] (
  ["  \x7b".toList,
    field "id" r.id,
    field "name" (escapeQuotes r.name),
    field "type" r.type,
    field "category" r.category,
    field "description" (escapeQuotes r.description),
    field "leftSide" (Naming.escapeBackslashes r.left),
    field "rightSide" (Naming.escapeBackslashes r.right)] ++
  titleField "section" r.sectionTitle ++ titleField "subsection" r.subsectionTitle ++
  ["  \x7d,".toList])

def render (rules : List Rule) : Text := header ++ Text.join ['\n'] (rules.map entry) ++ footer

end DataModule
end OperatorCalculus
