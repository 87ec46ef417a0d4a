/-
# Well-formed formulas

The grammar of formulas, as derivation trees.  A formula of strength `n` holds together at least as
tightly as `n` says:

| `n` | what                                        |
|-----|---------------------------------------------|
| 1   | products, added and subtracted              |
| 2   | powers, multiplied and divided              |
| 3   | primaries, raised; also from left to right  |
| 4   | a literal, a name, a group or a call        |

A derivation has a text, the atoms of that text, and an expression, which forgets the brackets.  The
two ways of reading a text meet here: the text is read as the atoms (`Formula.reads`), and the atoms
are grouped as the expression is (`Formula.grouped`).
-/
import Reckoner.Proofs.Expression
import Reckoner.Proofs.Grouping
import Reckoner.Proofs.Reading

namespace Reckoner

/-! ## 1. Operators -/

/-- The operators that have a meaning. -/
inductive Op where
  | plus
  | minus
  | times
  | divide
  | modulo
  | power
  deriving DecidableEq

namespace Op

def char : Op → Char
  | plus => '+'
  | minus => '-'
  | times => '*'
  | divide => '/'
  | modulo => '%'
  | power => '^'

def level : Op → Nat
  | plus | minus => 1
  | times | divide | modulo => 2
  | power => 3

def atom (op : Op) : AtomOf .operator := ⟨.operator op.char, rfl⟩

theorem level_le (op : Op) : 1 ≤ op.level ∧ op.level ≤ 3 := by
  cases op <;> decide

/-- An operator of a known name binds as strongly as its level says. -/
theorem precedence_eq {op : Op} {c : Atom} (hc : c.kind = .operator)
    (hname : c.name = op.char.toString) : c.precedence = op.level := by
  simp only [Atom.precedence, hc, hname]
  cases op <;> decide

/-- An operator that binds at all is a known one. -/
theorem exists_of_precedence {c : Atom} (hc : c.kind = .operator) {n : Nat}
    (hn : c.precedence = n) : ∃ op : Op, c.name = op.char.toString ∧ op.level = n := by
  simp only [Atom.precedence, hc] at hn
  split at hn
  · rename_i hname
    exact ⟨power, hname, by simp [level]; omega⟩
  · split at hn
    · rename_i hname
      rcases hname with hname | hname | hname
      · exact ⟨times, hname, by simp [level]; omega⟩
      · exact ⟨divide, hname, by simp [level]; omega⟩
      · exact ⟨modulo, hname, by simp [level]; omega⟩
    · split at hn
      · rename_i hname
        rcases hname with hname | hname
        · exact ⟨plus, hname, by simp [level]; omega⟩
        · exact ⟨minus, hname, by simp [level]; omega⟩
      · omega

end Op

/-! ## 2. Derivations -/

mutual

/-- A formula of the given strength.  Sums have strength 1 and primaries strength 4, and the left
operand of an operator may be as loose as the result, which is how operators group to the left. -/
inductive Formula : Nat → Type where
  | literal (l : Literal) : Formula 4
  /-- A constant or a variable. -/
  | name (w : Word) : Formula 4
  | group (e : Formula 1) : Formula 4
  | call (f : Word) (arguments : FormulaArguments) : Formula 4
  | binary (op : Op) (left : Formula op.level) (right : Formula (op.level + 1)) : Formula op.level
  | raise {n : Nat} (e : Formula (n + 1)) : Formula n

inductive FormulaArguments : Type where
  | one (e : Formula 1)
  | more (earlier : FormulaArguments) (last : Formula 1)

end

mutual

/-- The characters of a formula, without spaces and in upper case. -/
def Formula.text (separator : Char) {n : Nat} : Formula n → List Char
  | .literal l => l.text separator
  | .name w => w.text
  | .group e => '(' :: (e.text separator ++ [')'])
  | .call f arguments => f.text ++ '(' :: (arguments.text separator ++ [')'])
  | .binary op left right => left.text separator ++ op.char :: right.text separator
  | .raise e => e.text separator

def FormulaArguments.text (separator : Char) : FormulaArguments → List Char
  | .one e => e.text separator
  | .more earlier last => earlier.text separator ++ ';' :: last.text separator

end

section Meaning

variable (lexicon : Lexicon)

mutual

/-- The atoms of a formula, in the order of its text. -/
def Formula.atoms {n : Nat} : Formula n → List Atom
  | .literal l => [.number (l.name lexicon.separator) l.value]
  | .name w => [lexicon.operand w.name]
  | .group e => .bracket '(' :: (e.atoms ++ [.bracket ')'])
  | .call f arguments => .function f.name :: .bracket '(' :: (arguments.atoms ++ [.bracket ')'])
  | .binary op left right => left.atoms ++ op.atom.val :: right.atoms
  | .raise e => e.atoms

def FormulaArguments.atoms : FormulaArguments → List Atom
  | .one e => e.atoms
  | .more earlier last => earlier.atoms ++ .comma :: last.atoms

end

theorem Lexicon.isOperand_operand (name : String) : (lexicon.operand name).isOperand = true := by
  obtain ⟨x, hx | hx⟩ := lexicon.operand_cases name <;> rw [hx] <;> rfl

mutual

/-- The expression of a formula: a literal is its number, and a name the constant if there is one,
else the variable, else zero. -/
def Formula.tree {n : Nat} : Formula n → Expr
  | .literal l => .operand ⟨.number (l.name lexicon.separator) l.value, rfl⟩
  | .name w => .operand ⟨lexicon.operand w.name, lexicon.isOperand_operand w.name⟩
  | .group e => e.tree
  | .call f arguments => .call ⟨.function f.name, rfl⟩ arguments.tree
  | .binary op left right => .binary op.atom left.tree right.tree
  | .raise e => e.tree

def FormulaArguments.tree : FormulaArguments → Arguments
  | .one e => .one e.tree
  | .more earlier last => .more earlier.tree ⟨.comma, rfl⟩ last.tree

end

end Meaning

/-! ## 3. The text is read as the atoms -/

/-- What can stand right after a formula. -/
def EndsFormula (following : Option Char) : Prop :=
  ∀ c ∈ following, c ∈ ['+', '-', '*', '/', '%', '^', ';', ')']

theorem endsFormula_op (op : Op) (rest : List Char) : EndsFormula (op.char :: rest).head? := by
  intro c hc
  cases hc
  cases op <;> decide

section Reads

variable {lexicon : Lexicon} (hsep : Separates lexicon.separator)
include hsep

theorem EndsFormula.literal {following : Option Char} (h : EndsFormula following) (l : Literal) :
    (Token.literal l).EndsBefore lexicon.separator following := by
  intro c hc
  have hmem := h c hc
  have hclass : ∀ d ∈ ['+', '-', '*', '/', '%', '^', ';', ')'],
      d.isDigit = false ∧ Lexeme.isWordStart d = false ∧ d ∈ Config.marks :=
    List.all_iff_forall_prop.mp rfl
  obtain ⟨hdigit, hstart, hmark⟩ := hclass c hmem
  have hne : c ≠ lexicon.separator := by
    rintro rfl
    exact hsep.not_mem_marks hmark
  exact ⟨by simp [Lexeme.isNumberPart, hdigit, hne], hstart⟩

omit hsep in
theorem EndsFormula.name {following : Option Char} (h : EndsFormula following) (separator : Char)
    (w : Word) : (Token.name w).EndsBefore separator following := by
  intro c hc
  have hclass : ∀ d ∈ ['+', '-', '*', '/', '%', '^', ';', ')'],
      Lexeme.isWordPart d = false ∧ d ≠ '(' := List.all_iff_forall_prop.mp rfl
  exact hclass c (h c hc)

theorem Lexicon.Reads.open {operandDue : Bool} {rest : List Char} {more : List Atom}
    (h : lexicon.Reads true rest more) :
    lexicon.Reads operandDue ('(' :: rest) (.bracket '(' :: more) :=
  .token (t := .opening) hsep trivial trivial h

theorem Lexicon.Reads.close {operandDue : Bool} {rest : List Char} {more : List Atom}
    (h : lexicon.Reads false rest more) :
    lexicon.Reads operandDue (')' :: rest) (.bracket ')' :: more) :=
  .token (t := .closing) hsep trivial trivial h

theorem Lexicon.Reads.comma {operandDue : Bool} {rest : List Char} {more : List Atom}
    (h : lexicon.Reads true rest more) :
    lexicon.Reads operandDue (';' :: rest) (.comma :: more) :=
  .token (t := .comma) hsep trivial trivial h

theorem Lexicon.Reads.op (op : Op) {rest : List Char} {more : List Atom}
    (h : lexicon.Reads true rest more) :
    lexicon.Reads false (op.char :: rest) (op.atom.val :: more) := by
  have hoperator : Token.isOperator lexicon.separator op.char = true := by
    cases op <;> simp [Token.isOperator, Op.char]
  have hallowed : (Token.operator op.char).Allowed lexicon.separator false :=
    ⟨hoperator, fun _ => rfl⟩
  exact .token (t := .operator op.char) hsep hallowed trivial h

mutual

/-- **The text of a formula is read as its atoms**, whatever is read after it.  By recursion on the
formula; what follows it is kept general, since its parts have different things behind them. -/
theorem Formula.reads : ∀ {n : Nat} (e : Formula n) {rest : List Char} {more : List Atom},
    EndsFormula rest.head? → lexicon.Reads false rest more →
      lexicon.Reads true (e.text lexicon.separator ++ rest) (e.atoms lexicon ++ more)
  | _, .literal l, rest, more, hends, h =>
    .token (t := .literal l) hsep (fun _ => rfl) (hends.literal hsep l) h
  | _, .name w, rest, more, hends, h => by
    refine .token (t := .name w) hsep trivial (hends.name lexicon.separator w) ?_
    have hoperand : (Token.atom lexicon (.name w)).expectsOperand = false :=
      Atom.not_expectsOperand (lexicon.isOperand_operand w.name)
    rwa [hoperand]
  | _, .group e, rest, more, hends, h => by
    have hclose : lexicon.Reads false (')' :: rest) (.bracket ')' :: more) := h.close hsep
    have hinner := e.reads (by simp [EndsFormula]) hclose
    simpa [Formula.text, Formula.atoms] using hinner.open hsep
  | _, .call f arguments, rest, more, hends, h => by
    have hclose : lexicon.Reads false (')' :: rest) (.bracket ')' :: more) := h.close hsep
    have hinner := arguments.reads (by simp [EndsFormula]) hclose
    have hcall : lexicon.Reads true
        (f.text ++ '(' :: (arguments.text lexicon.separator ++ ')' :: rest))
        (.function f.name :: .bracket '(' :: (arguments.atoms lexicon ++ .bracket ')' :: more)) :=
      .token (t := .function f) hsep trivial rfl (hinner.open hsep)
    simpa [Formula.text, Formula.atoms] using hcall
  | _, .binary op left right, rest, more, hends, h => by
    have hright : lexicon.Reads false (op.char :: (right.text lexicon.separator ++ rest))
      (op.atom.val :: (right.atoms lexicon ++ more)) := (right.reads hends h).op hsep op
    have hleft := left.reads (endsFormula_op op _) hright
    simpa [Formula.text, Formula.atoms] using hleft
  | _, .raise e, rest, more, hends, h => by
    simpa only [Formula.text, Formula.atoms] using e.reads hends h

theorem FormulaArguments.reads : ∀ (arguments : FormulaArguments) {rest : List Char}
    {more : List Atom}, EndsFormula rest.head? → lexicon.Reads false rest more →
      lexicon.Reads true (arguments.text lexicon.separator ++ rest)
        (arguments.atoms lexicon ++ more)
  | .one e, rest, more, hends, h => by
    simpa only [FormulaArguments.text, FormulaArguments.atoms] using e.reads hends h
  | .more earlier last, rest, more, hends, h => by
    have hlast : lexicon.Reads false (';' :: (last.text lexicon.separator ++ rest))
      (.comma :: (last.atoms lexicon ++ more)) := (last.reads hends h).comma hsep
    have hearlier := earlier.reads (by simp [EndsFormula]) hlast
    simpa [FormulaArguments.text, FormulaArguments.atoms] using hearlier

end

end Reads

/-! ## 4. The text is over the alphabet -/

section Alphabet

variable (separator : Char)

theorem Literal.inAlphabet_text (l : Literal) : ∀ c ∈ l.text separator, inAlphabet separator c := by
  obtain ⟨c, tail, htext, hc, htail⟩ := l.text_eq_cons separator
  intro d hd
  rw [htext] at hd
  rcases List.mem_cons.mp hd with rfl | hd
  · rcases hc with hc | ⟨rfl, -⟩
    · simp [inAlphabet, hc]
    · simp [inAlphabet, Config.marks]
  · have hpart := htail d hd
    simp only [Lexeme.isNumberPart, Bool.or_eq_true, beq_iff_eq] at hpart
    rcases hpart with h | h <;> simp [inAlphabet, h]

theorem Word.inAlphabet_text (w : Word) : ∀ c ∈ w.text, inAlphabet separator c := by
  intro c hc
  rcases List.mem_cons.mp hc with rfl | hc
  · have h := w.first_valid
    simp only [Bool.or_eq_true, beq_iff_eq] at h
    rcases h with h | h <;> simp [inAlphabet, Config.marks, h]
  · have h := List.all_eq_true.mp w.rest_valid c hc
    simp only [Bool.or_eq_true, beq_iff_eq] at h
    rcases h with (h | h) | h <;> simp [inAlphabet, Config.marks, h]

theorem Op.inAlphabet_char (op : Op) : inAlphabet separator op.char := by
  cases op <;> simp [inAlphabet, Config.marks, Op.char]

mutual

/-- **Formulas are texts over the alphabet.** -/
theorem Formula.inAlphabet_text : ∀ {n : Nat} (e : Formula n),
    ∀ c ∈ e.text separator, inAlphabet separator c
  | _, .literal l => l.inAlphabet_text separator
  | _, .name w => w.inAlphabet_text separator
  | _, .group e => by
    intro c hc
    simp only [Formula.text, List.mem_cons, List.mem_append, List.not_mem_nil, or_false] at hc
    rcases hc with rfl | hc | rfl
    · simp [inAlphabet, Config.marks]
    · exact e.inAlphabet_text c hc
    · simp [inAlphabet, Config.marks]
  | _, .call f arguments => by
    intro c hc
    simp only [Formula.text, List.mem_cons, List.mem_append, List.not_mem_nil, or_false] at hc
    rcases hc with hc | rfl | hc | rfl
    · exact f.inAlphabet_text separator c hc
    · simp [inAlphabet, Config.marks]
    · exact arguments.inAlphabet_text c hc
    · simp [inAlphabet, Config.marks]
  | _, .binary op left right => by
    intro c hc
    simp only [Formula.text, List.mem_cons, List.mem_append] at hc
    rcases hc with hc | rfl | hc
    · exact left.inAlphabet_text c hc
    · exact op.inAlphabet_char separator
    · exact right.inAlphabet_text c hc
  | _, .raise e => e.inAlphabet_text

theorem FormulaArguments.inAlphabet_text : ∀ arguments : FormulaArguments,
    ∀ c ∈ arguments.text separator, inAlphabet separator c
  | .one e => e.inAlphabet_text
  | .more earlier last => by
    intro c hc
    simp only [FormulaArguments.text, List.mem_cons, List.mem_append] at hc
    rcases hc with hc | rfl | hc
    · exact earlier.inAlphabet_text c hc
    · simp [inAlphabet, Config.marks]
    · exact last.inAlphabet_text c hc

end

end Alphabet

/-! ## 5. The atoms are grouped as the expression is -/

section Grouping

variable (lexicon : Lexicon)

mutual

/-- **The grouping of a formula's atoms is its expression.**  By recursion on the derivation, whose
constructors are those of `Grouped` with tokens in the places of rows. -/
theorem Formula.grouped : ∀ {n : Nat} (e : Formula n),
    Grouped n (e.atoms lexicon) (e.tree lexicon).postOrder
  | _, .literal _ => .operand rfl
  | _, .name w => .operand (lexicon.isOperand_operand w.name)
  | _, .group e => .group e.grouped.loosen
  | _, .call _ arguments => .call rfl arguments.grouped
  | _, .binary op left right =>
    .join rfl (Op.precedence_eq op.atom.property rfl) left.grouped right.grouped
  | _, .raise e => e.grouped.loosen

theorem FormulaArguments.grouped : ∀ arguments : FormulaArguments,
    Grouped 0 (arguments.atoms lexicon) (arguments.tree lexicon).postOrder
  | .one e => e.grouped.loosen
  | .more earlier last => .join rfl (by decide) earlier.grouped last.grouped

end

mutual

/-- A formula has no calls without arguments. -/
theorem Formula.placed (first : Bool) : ∀ {n : Nat} (e : Formula n), (e.tree lexicon).Placed first
  | _, .literal _ => trivial
  | _, .name _ => trivial
  | _, .group e => e.placed first
  | _, .call _ arguments => arguments.placed first
  | _, .binary _ left right => ⟨left.placed first, right.placed false⟩
  | _, .raise e => e.placed first

theorem FormulaArguments.placed (first : Bool) : ∀ arguments : FormulaArguments,
    (arguments.tree lexicon).Placed first
  | .one e => e.placed first
  | .more earlier last => ⟨earlier.placed first, last.placed false⟩

end

/-- **The operator stack finds the expression of a formula.**  The grammar has the strengths built
in that the operator stack compares, and this is where the two meet. -/
theorem Formula.postOrder_atoms {n : Nat} (e : Formula n) :
    Reckoner.postOrder (e.atoms lexicon) = (e.tree lexicon).postOrder :=
  (e.grouped lexicon).postOrder_eq

end Grouping

end Reckoner
