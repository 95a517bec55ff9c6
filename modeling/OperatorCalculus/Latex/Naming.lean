import OperatorCalculus.Latex.RuleLine
import OperatorCalculus.Rule.Basic
import OperatorCalculus.Text.Lowercase

-- How an extracted rule is filed: its category and type come from the headings, its
-- identifier from the file name, its place in the file and its sides.
namespace OperatorCalculus

namespace Naming

def mentions (t : Text) (words : List String) : Bool :=
  words.any fun w => Text.contains w.toList t

-- The first group of words that the headings mention decides.
def category (chapterTitle sectionTitle : Text) : Text :=
  let c := Text.lower chapterTitle
  let s := Text.lower sectionTitle
  if mentions c ["operator"] || mentions s ["operator"] then "operators".toList
  else if mentions c ["relationship"] ||
      mentions s ["relationship", "comparison", "connectivity", "subnode", "node"] then
    "relationships".toList
  else if mentions s ["proposition", "branch"] then "propositions".toList
  else if mentions s ["induction"] then "induction".toList
  else if mentions s ["arithmetic", "number", "addition", "multiplication"] then
    "arithmetic".toList
  else if mentions s ["logic", "paradox", "empty", "branch function"] then "logic".toList
  else "operators".toList

def ruleType (chapterTitle sectionTitle subsectionTitle file : Text) : Text :=
  let titles := [chapterTitle, sectionTitle, subsectionTitle].map Text.lower
  if titles.any (mentions · ["axiom"]) || mentions (Text.lower file) ["axiom"] then
    Rule.axiomType
  else if titles.any (mentions · ["definition"]) then Rule.definitionType
  else Rule.theoremType

def baseName (path : Text) : Text :=
  match ((Text.splitOn '/' path).filter fun part => !part.isEmpty && part != ['.']).getLast? with
  | some part => part
  | none => []

-- The name without its extension. A dot at either end begins no extension.
def stem (path : Text) : Text :=
  let name := baseName path
  match Text.findLast? ['.'] name with
  | some i => if 0 < i && i + 1 < name.length then name.take i else name
  | none => name

def isSlugChar (c : Char) : Bool := Text.isLower c || Text.isDigit c

def hyphenate : Text → Text
  | [] => []
  | c :: rest =>
    if isSlugChar c then c :: hyphenate rest
    else match hyphenate rest with
      | '-' :: more => '-' :: more
      | more => '-' :: more

def isHyphen (c : Char) : Bool := c == '-'

def trimHyphens (t : Text) : Text :=
  ((t.dropWhile isHyphen).reverse.dropWhile isHyphen).reverse

def slug (path : Text) : Text := trimHyphens (hyphenate (Text.lower (stem path)))

def escapeBackslashes (t : Text) : Text := Text.replaceChar '\\' ['\\', '\\'] t

-- Taken over the sides with their backslashes doubled, as the generated module holds
-- them. It is a sketch of the contents and tells few rules apart.
def digest (left right : Text) : Text :=
  (((escapeBackslashes (left ++ right)).take 20).filter isSlugChar).take 8

def id (path : Text) (index : Int) (left right : Text) : Text :=
  slug path ++ '-' :: Text.ofInt index ++ '-' :: digest left right

-- The heading up to a colon names the rule; without a heading its sides do.
def name (left right sectionTitle subsectionTitle : Text) : Text :=
  let title := if subsectionTitle.isEmpty then sectionTitle else subsectionTitle
  let base := if title.elem ':' then Text.trim (title.takeWhile (· != ':')) else title
  if !base.isEmpty then base
  else
    let core := Text.trim left
    if core.isEmpty || core == [','] then
      "Create: ".toList ++ (RuleLine.stripEdges right).take 30
    else
      (RuleLine.stripEdges left).take 40 ++ " ⟺ ".toList ++ (RuleLine.stripEdges right).take 40

end Naming
end OperatorCalculus
