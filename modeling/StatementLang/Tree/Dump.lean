import StatementLang.Tree
import StatementLang.Text.Quoted
/-!
# Tree dumps

A tree is printed with one element per line, two spaces further in for each node around it: the
label of a node, or the label and the quoted text of a token.
-/
namespace StatementLang.SyntaxTree

/-- A line on a level. -/
def dumpLine (level : Nat) (text : String) : String :=
  String.ofList (List.replicate (2 * level) ' ') ++ text ++ "\n"

mutual
/-- The lines of a tree that stands on `level` (`write_node`). -/
def dumpLines (level : Nat) : SyntaxTree → List String
  | token k s => [dumpLine level (k.label ++ " " ++ Text.quoted s)]
  | node k cs => dumpLine level k.label :: dumpLinesAll (level + 1) cs

/-- The lines of a row of trees that stand on `level`. -/
def dumpLinesAll (level : Nat) : List SyntaxTree → List String
  | [] => []
  | c :: cs => dumpLines level c ++ dumpLinesAll level cs
end

/-- The printed form of a tree (`debug_tree`). -/
def dump (t : SyntaxTree) : String := String.join (dumpLines 0 t)

end StatementLang.SyntaxTree
