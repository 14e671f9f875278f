import StatementLang.TokenKind
import StatementLang.Rule
/-!
# Kinds of tree elements

An element of a syntax tree is a token or a node; a node is the root or stands for a rule. All kinds
have a code: the tokens first, then the root, then the rules (`SyntaxKind`).
-/
namespace StatementLang

inductive NodeKind where
  | root
  | rule (rule : Rule)
  deriving DecidableEq, Repr

inductive ElementKind where
  | token (kind : TokenKind)
  | node (kind : NodeKind)
  deriving DecidableEq, Repr

/-- The label of a node in tree dumps. -/
def NodeKind.label : NodeKind → String
  | root => "Root"
  | rule r => r.label

namespace ElementKind

/-- Every kind, in the order of the codes. -/
def all : List ElementKind :=
  TokenKind.all.map token ++ node .root :: Rule.all.map (node ∘ .rule)

/-- The code of a kind (`kind_to_raw`). -/
def code (k : ElementKind) : Nat := all.idxOf k

/-- The kind with a code. A code that no kind has stands for an error token (`kind_from_raw`). -/
def ofCode (n : Nat) : ElementKind := all.getD n (token .error)

def label : ElementKind → String
  | token k => k.label
  | node k => k.label

def isToken : ElementKind → Bool
  | token _ => true
  | node _ => false

def isNode (k : ElementKind) : Bool := !k.isToken

def isTrivia : ElementKind → Bool
  | token k => k.isTrivia
  | node _ => false

theorem mem_all (k : ElementKind) : k ∈ all := by
  match k with
  | token k => exact List.mem_append_left _ (List.mem_map_of_mem k.mem_all)
  | node .root => exact List.mem_append_right _ List.mem_cons_self
  | node (.rule r) =>
    exact List.mem_append_right _ (List.mem_cons_of_mem _
      (List.mem_map_of_mem (f := node ∘ NodeKind.rule) r.mem_all))

theorem ofCode_code (k : ElementKind) : ofCode k.code = k := by
  have key : ∀ k ∈ all, ofCode k.code = k := by decide
  exact key k (mem_all k)

/-- The codes of tokens are the codes of their kinds. -/
theorem code_token (k : TokenKind) : code (token k) = k.code := by cases k <;> decide

end ElementKind
end StatementLang
