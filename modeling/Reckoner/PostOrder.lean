/-
# Post-order

Rearranges the atoms of a formula so that every operator and function comes after its operands.
A stack holds the operators, functions, commas and opening brackets whose operands are not yet
complete.  An operator first releases what stands on the stack and binds at least as strongly, so
that all operators, powers included, group to the left; a closing bracket releases everything down
to its partner.  Nothing is rejected here: whatever is left on the stack comes out at the end.
-/
import Reckoner.Atom

namespace Reckoner

namespace Atom

/-- Whether the atom waits on the stack for its operands. -/
def waits (a : Atom) : Bool :=
  match a.kind with
  | .operator | .function | .comma => true
  | _ => false

/-- Whether the waiting atom `top` comes out before `a` goes onto the stack.  Equal strength counts,
and this is what makes operators of one strength group to the left. -/
def yieldsTo (top a : Atom) : Bool := top.waits && a.precedence ≤ top.precedence

end Atom

namespace PostOrder

/-- What one atom releases, and the stack after it.  An operand goes straight through, an opening
bracket waits, a closing one releases what stands above its partner and takes the partner away. -/
def advance (stack : List Atom) (a : Atom) : List Atom × List Atom :=
  match a.kind with
  | .bracket =>
    if a.isOpenBracket then ([], a :: stack)
    else (stack.takeWhile (!·.isOpenBracket), (stack.dropWhile (!·.isOpenBracket)).drop 1)
  | .operator | .function | .comma =>
    (stack.takeWhile (·.yieldsTo a), a :: stack.dropWhile (·.yieldsTo a))
  | _ => ([a], stack)

/-- The atoms that come out when the given ones meet a stack. -/
def arrange : List Atom → List Atom → List Atom
  | stack, [] => stack
  | stack, a :: rest => (advance stack a).1 ++ arrange (advance stack a).2 rest

end PostOrder

/-- The atoms of a formula in post-order. -/
def postOrder (atoms : List Atom) : List Atom := PostOrder.arrange [] atoms

section Example

/-- `1+2*(3^4)` -/
example : (postOrder [.number "1" 1, .operator '+', .number "2" 2, .operator '*', .bracket '(',
      .number "3" 3, .operator '^', .number "4" 4, .bracket ')']).map Atom.name =
    ["1", "2", "3", "4", "^", "*", "+"] := by decide +kernel

end Example

end Reckoner
