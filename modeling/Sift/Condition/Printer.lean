import Sift.Condition.Basic
import Sift.Token

/-!
# Writing filters

A condition tree as a filter text. Every group starts with its gate, and every group but the
outermost stands in parentheses. Values stand in double quotes, several of them separated by
slashes; only `true` and `false` are written as they are.

* `Condition.filterTokens`: the tokens of the filter.
* `Condition.filterText`: the filter itself.
-/

namespace Sift

/-- Tokens as a text, with a space between any two. -/
def Token.print (ts : List Token) : String := " ".intercalate (ts.map Token.shown)

/-- The token of the value or the values of a condition. -/
def Operand.token : Operand → Token
  | .single (.bool b) => .word (Scalar.bool b).shown
  | operand => .quoted ("/".intercalate (operand.values.map Scalar.shown))

/-- The tokens of a comparison. -/
def Leaf.tokens (l : Leaf) : List Token := [.word l.field, .operator l.operator, l.operand.token]

namespace Condition

mutual

/-- The tokens of a condition, a group in parentheses. -/
def tokens : Condition → List Token
  | .leaf l => l.tokens
  | .group gate children => .openGroup :: .gate gate :: (tokensAll children ++ [.closeGroup])

/-- The tokens of several conditions one after the other. -/
def tokensAll : List Condition → List Token
  | [] => []
  | c :: rest => tokens c ++ tokensAll rest

end

/-- The tokens of a filter, the outermost group without parentheses. -/
def filterTokens : Condition → List Token
  | .leaf l => l.tokens
  | .group gate children => .gate gate :: tokensAll children

/-- **The filter text of a condition tree.** -/
def filterText (c : Condition) : String := Token.print c.filterTokens

end Condition

end Sift
