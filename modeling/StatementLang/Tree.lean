import StatementLang.Tree.Kind
import StatementLang.Token
/-!
# Syntax trees

A syntax tree has tokens with their texts at its leaves and rules at its nodes, all below one root.
Lines are not kept.
-/
namespace StatementLang

inductive SyntaxTree where
  | token (kind : TokenKind) (text : String)
  | node (kind : NodeKind) (children : List SyntaxTree)
  deriving Repr

namespace SyntaxTree

/-- The leaf of a token. -/
def ofToken (t : Token) : SyntaxTree := token t.kind t.text

mutual
/-- The texts of all tokens, joined. -/
def text : SyntaxTree → String
  | token _ s => s
  | node _ cs => textAll cs

/-- The texts of all tokens of a row of trees, joined. -/
def textAll : List SyntaxTree → String
  | [] => ""
  | c :: cs => c.text ++ textAll cs
end

end SyntaxTree
end StatementLang
