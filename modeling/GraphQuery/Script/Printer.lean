import GraphQuery.Script.Expr
import GraphQuery.Text.Quoted

/-!
# Printing expressions

The text of an expression: operators in parentheses, strings in quotes, a semicolon after every
statement. Annotations leave no trace in it.

## Main statements

* `Expr.display_block`: the text of a block.
-/

namespace GraphQuery.Expr

variable {L S : Type}

mutual

/-- The text of an expression. -/
def display : Expr L S → String
  | .null => "null"
  | .bool b => if b then "true" else "false"
  | .number t => t
  | .string s => quoted s
  | .variable x _ => x
  | .target x _ => x
  | .assign t v _ => t.display ++ " = " ++ v.display
  | .select b s _ => b.display ++ "." ++ s
  | .index b i _ => b.display ++ "[" ++ i.display ++ "]"
  | .and l r => "(" ++ l.display ++ " && " ++ r.display ++ ")"
  | .or l r => "(" ++ l.display ++ " || " ++ r.display ++ ")"
  | .not e => "!" ++ e.display
  | .equality l r n => "(" ++ l.display ++ (if n then " != " else " == ") ++ r.display ++ ")"
  | .call f as _ => f.display ++ "(" ++ commaSeparated (displayAll as) ++ ")"
  | .closure _ (some p) b => p ++ " -> " ++ b.display
  | .closure _ none b => b.display
  | .statements es => displayStatements es
  | .block es => "\x7b " ++ displayStatements es ++ "\x7d"

/-- The texts of several expressions. -/
def displayAll : List (Expr L S) → List String
  | [] => []
  | e :: es => e.display :: displayAll es

/-- Statements, each with a semicolon and a blank after it. -/
def displayStatements : List (Expr L S) → String
  | [] => ""
  | e :: es => e.display ++ "; " ++ displayStatements es

end

/-- A block prints its statements in braces. -/
theorem display_block (es : List (Expr L S)) :
    (block es).display = "\x7b " ++ (statements es).display ++ "\x7d" := by
  rw [display, display]

end GraphQuery.Expr
