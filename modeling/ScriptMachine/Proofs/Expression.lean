import Mathlib.Algebra.Group.Int.Defs
import ScriptMachine.Assembler.Body
import ScriptMachine.Machine.Operator

/-!
# Expressions

Trees over numbers, variables and the operators of the machine, with the integers they stand for.
An operator has the exact result, wrapped to 32 bits where it does not fit; only a division by zero
has none. The code of a tree evaluates the right operand before the left one, so that the left one
lies on top of the stack when the operator comes.

* `UnaryOperator.apply`, `BinaryOperator.apply` – the results of operators.
* `Expr.eval` – the value of an expression, `Expr.code` – its code.
* `Expr.DividesByZero` – whether a division in it has the divisor zero.
* `BinaryOperator.effect_opcode` – the machine computes the results.
-/

namespace ScriptMachine

/-! ## Operators -/

theorem toInt_eq_zero {a : Int32} : a.toInt = 0 ↔ a = 0 := Int32.toInt_inj (y := 0)

/-- A condition as a number. -/
def indicator (p : Prop) [Decidable p] : Int32 := if p then 1 else 0

/-- The operators with one operand. -/
inductive UnaryOperator where
  | plus
  | negate
  | not
  | complement
  deriving DecidableEq

/-- The operators with two operands. -/
inductive BinaryOperator where
  | add
  | sub
  | mul
  | div
  | mod
  | bitOr
  | bitAnd
  | or
  | and
  | shiftLeft
  | shiftRight
  | lt
  | gt
  | le
  | ge
  | eq
  | ne
  deriving DecidableEq

namespace UnaryOperator

/-- The opcode of an operator. -/
def opcode : UnaryOperator → Opcode
  | plus => .plus
  | negate => .negate
  | not => .not
  | complement => .cmpl

/-- The result of an operator. -/
def apply : UnaryOperator → Int32 → Int32
  | plus, a => a
  | negate, a => .ofInt (-a.toInt)
  | not, a => indicator (a.toInt = 0)
  | complement, a => .ofInt (-a.toInt - 1)

end UnaryOperator

namespace BinaryOperator

/-- The opcode of an operator. -/
def opcode : BinaryOperator → Opcode
  | add => .add
  | sub => .sub
  | mul => .mul
  | div => .div
  | mod => .mod
  | bitOr => .or
  | bitAnd => .andb
  | or => .orr
  | and => .and
  | shiftLeft => .lsl
  | shiftRight => .lsr
  | lt => .lt
  | gt => .gt
  | le => .lte
  | ge => .gte
  | eq => .eq
  | ne => .neq

/-- Whether an operator has no result where the right operand is zero. -/
def divides : BinaryOperator → Bool
  | div | mod => true
  | _ => false

/-- The bits by which a number shifts another one. -/
def shift (b : Int32) : Nat := (b.toInt % 32).toNat

/-- The result of an operator. -/
def apply (op : BinaryOperator) (a b : Int32) : Option Int32 :=
  match op with
  | add => some (.ofInt (a.toInt + b.toInt))
  | sub => some (.ofInt (a.toInt - b.toInt))
  | mul => some (.ofInt (a.toInt * b.toInt))
  | div => if b.toInt = 0 then none else some (.ofInt (a.toInt.tdiv b.toInt))
  | mod => if b.toInt = 0 then none else some (.ofInt (a.toInt.tmod b.toInt))
  | bitOr => some (a ||| b)
  | bitAnd => some (a &&& b)
  | or => some (indicator (a.toInt ≠ 0 ∨ b.toInt ≠ 0))
  | and => some (indicator (a.toInt ≠ 0 ∧ b.toInt ≠ 0))
  | shiftLeft => some (.ofInt (a.toInt * 2 ^ shift b))
  | shiftRight => some (.ofInt (a.toInt / 2 ^ shift b))
  | lt => some (indicator (a.toInt < b.toInt))
  | gt => some (indicator (a.toInt > b.toInt))
  | le => some (indicator (a.toInt ≤ b.toInt))
  | ge => some (indicator (a.toInt ≥ b.toInt))
  | eq => some (indicator (a.toInt = b.toInt))
  | ne => some (indicator (a.toInt ≠ b.toInt))

/-- Only a division by zero has no result. -/
theorem apply_eq_none {op : BinaryOperator} {a b : Int32} :
    op.apply a b = none ↔ op.divides = true ∧ b = 0 := by
  cases op <;> simp [apply, divides, toInt_eq_zero]

end BinaryOperator

/-! ## The operators of the machine -/

theorem truth_eq_indicator {b : Bool} {p : Prop} [Decidable p] (h : b = true ↔ p) :
    truth b = indicator p := by
  rw [truth, indicator]
  simp only [h]

/-- A shift goes by the remainder of its count, which is never negative. -/
theorem BinaryOperator.toNat_smod (b : Int32) : (b.toBitVec.smod 32).toNat = shift b := by
  have h : (b.toBitVec.smod 32).toInt = b.toInt % 32 := by
    rw [BitVec.toInt_smod]
    exact Int.fmod_eq_emod_of_nonneg _ (by decide)
  have hcond := BitVec.toInt_eq_toNat_cond (b.toBitVec.smod 32)
  have hnonneg := Int.emod_nonneg b.toInt (by decide : (32 : Int) ≠ 0)
  have hlt := (b.toBitVec.smod 32).isLt
  rw [h] at hcond
  rw [shift]
  split at hcond <;> omega

theorem BinaryOperator.shiftLeft_eq (a b : Int32) : a <<< b = .ofInt (a.toInt * 2 ^ shift b) := by
  refine Int32.toBitVec_inj.1 (BitVec.eq_of_toInt_eq ?_)
  have hprod : (Int32.ofInt (a.toInt * 2 ^ shift b)).toBitVec.toInt =
      (a.toInt * 2 ^ shift b).bmod (2 ^ 32) := Int32.toInt_ofInt
  -- the bits stand for a number that differs from `a` by a multiple of the modulus
  have ha : a.toInt = (a.toBitVec.toNat : Int).bmod (2 ^ 32) := BitVec.toInt_eq_toNat_bmod _
  rw [Int32.toBitVec_shiftLeft, BitVec.shiftLeft_eq', toNat_smod, BitVec.toInt_shiftLeft, hprod,
    Nat.shiftLeft_eq, ha, Int.bmod_mul_bmod]
  push_cast
  rfl

theorem BinaryOperator.shiftRight_eq (a b : Int32) :
    a >>> b = .ofInt (a.toInt / 2 ^ shift b) := by
  have h : (a >>> b).toInt = a.toInt / 2 ^ shift b := by
    rw [Int32.toInt, Int32.toBitVec_shiftRight, BitVec.sshiftRight', BitVec.toInt_sshiftRight,
      toNat_smod, Int.shiftRight_eq_div_pow]
    rfl
  rw [← h, Int32.ofInt_toInt]

theorem quotient?_eq (a b : Int32) : quotient? a b = BinaryOperator.div.apply a b := by
  have h : a / b = .ofInt (a.toInt.tdiv b.toInt) := by
    rw [← Int32.toInt_inj, Int32.toInt_div, Int32.toInt_ofInt]
  rw [quotient?, BinaryOperator.apply, h]
  simp only [toInt_eq_zero]

theorem remainder?_eq (a b : Int32) : remainder? a b = BinaryOperator.mod.apply a b := by
  have h : a % b = .ofInt (a.toInt.tmod b.toInt) := by rw [← Int32.toInt_mod, Int32.ofInt_toInt]
  rw [remainder?, BinaryOperator.apply, h]
  simp only [toInt_eq_zero]

/-- The machine computes the results of the operators with one operand. -/
theorem UnaryOperator.effect_opcode (op : UnaryOperator) :
    op.opcode.effect = .unary op.apply := by
  cases op with
  | plus => rfl
  | negate =>
    refine congrArg Effect.unary (funext fun a => ?_)
    rw [apply, Int32.ofInt_neg, Int32.ofInt_toInt]
  | not =>
    refine congrArg Effect.unary (funext fun a => truth_eq_indicator ?_)
    rw [beq_iff_eq, toInt_eq_zero]
  | complement =>
    refine congrArg Effect.unary (funext fun a => ?_)
    rw [apply, Int32.ofInt_sub, Int32.ofInt_neg, Int32.ofInt_toInt]
    exact Int32.not_eq_neg_sub a

/-- The machine computes the results of the operators with two operands. -/
theorem BinaryOperator.effect_opcode (op : BinaryOperator) :
    op.opcode.effect = .binary op.apply := by
  have hf {f g : Int32 → Int32 → Int32} (h : ∀ a b, f a b = g a b) :
      Effect.binary (fun a b => some (f a b)) = .binary fun a b => some (g a b) :=
    congrArg Effect.binary (funext fun a => funext fun b => congrArg some (h a b))
  cases op with
  | add => exact hf fun a b => by rw [Int32.ofInt_add, Int32.ofInt_toInt, Int32.ofInt_toInt]
  | sub => exact hf fun a b => by rw [Int32.ofInt_sub, Int32.ofInt_toInt, Int32.ofInt_toInt]
  | mul => exact hf fun a b => by rw [Int32.ofInt_mul, Int32.ofInt_toInt, Int32.ofInt_toInt]
  | div => exact congrArg Effect.binary (funext fun a => funext fun b => quotient?_eq a b)
  | mod => exact congrArg Effect.binary (funext fun a => funext fun b => remainder?_eq a b)
  | bitOr | bitAnd => rfl
  | or => exact hf fun a b => truth_eq_indicator (by simp [toInt_eq_zero])
  | and => exact hf fun a b => truth_eq_indicator (by simp [toInt_eq_zero])
  | shiftLeft => exact hf shiftLeft_eq
  | shiftRight => exact hf shiftRight_eq
  | lt => exact hf fun a b => truth_eq_indicator (by simp [Int32.lt_iff_toInt_lt])
  | gt => exact hf fun a b => truth_eq_indicator (by simp [Int32.lt_iff_toInt_lt])
  | le => exact hf fun a b => truth_eq_indicator (by simp [Int32.le_iff_toInt_le])
  | ge => exact hf fun a b => truth_eq_indicator (by simp [Int32.le_iff_toInt_le])
  | eq => exact hf fun a b => truth_eq_indicator (by simp [Int32.toInt_inj])
  | ne => exact hf fun a b => truth_eq_indicator (by simp [Int32.toInt_inj])

/-! ## Trees -/

/-- An expression over numbers and variables. -/
inductive Expr where
  | lit (n : Int32)
  | var (symbol : UInt32)
  | unary (op : UnaryOperator) (operand : Expr)
  | binary (op : BinaryOperator) (left right : Expr)

namespace Expr

/-- The variables of an expression. -/
def vars : Expr → List UInt32
  | lit _ => []
  | var i => [i]
  | unary _ e => e.vars
  | binary _ l r => l.vars ++ r.vars

/-- The value of an expression for given values of its variables. -/
def eval (env : UInt32 → Int32) : Expr → Option Int32
  | lit n => some n
  | var i => some (env i)
  | unary op e => (e.eval env).map op.apply
  | binary op l r => (l.eval env).bind fun a => (r.eval env).bind fun b => op.apply a b

/-- Whether the right operand of a division somewhere in an expression is zero. -/
def DividesByZero (env : UInt32 → Int32) : Expr → Prop
  | lit _ | var _ => False
  | unary _ e => e.DividesByZero env
  | binary op l r =>
    l.DividesByZero env ∨ r.DividesByZero env ∨ op.divides = true ∧ r.eval env = some 0

/-- Only an expression that divides by zero has no value. -/
theorem eval_eq_none {env : UInt32 → Int32} {e : Expr} :
    e.eval env = none ↔ e.DividesByZero env := by
  induction e with
  | lit | var => exact iff_of_false nofun not_false
  | unary op e ih => rw [eval, Option.map_eq_none_iff, ih, DividesByZero]
  | binary op l r ihl ihr =>
    rw [eval, DividesByZero, ← ihl, ← ihr]
    cases l.eval env with
    | none => simp
    | some a =>
      cases r.eval env with
      | none => simp
      | some b => simp [BinaryOperator.apply_eq_none]

/-- The number of instructions an expression is evaluated by. -/
def length : Expr → Nat
  | lit _ | var _ => 1
  | unary _ e => e.length + 1
  | binary _ l r => r.length + l.length + 1

/-- What an expression is assembled from: the right operand, the left operand, the operator. -/
def items : Expr → List Assembler.BodyItem
  | lit n => [.pushInt n]
  | var i => [.pushVar i]
  | unary op e => e.items ++ [.op op.opcode]
  | binary op l r => r.items ++ l.items ++ [.op op.opcode]

/-- The code of an expression. -/
def code : Expr → List UInt8
  | lit n => Opcode.pushi.toByte :: (Operand.immediate n).encode
  | var i => Opcode.pushv.toByte :: (Operand.symbol i).encode
  | unary op e => e.code ++ [op.opcode.toByte]
  | binary op l r => r.code ++ l.code ++ [op.opcode.toByte]

/-- The assembler emits the code of an expression. -/
theorem code_of_items (e : Expr) (o : Assembler.OpenBody) :
    (e.items.foldl Assembler.OpenBody.step o).draft.code = o.draft.code ++ e.code.toArray := by
  induction e generalizing o with
  | lit n => rfl
  | var i => rfl
  | unary op e ih =>
    rw [items, List.foldl_append, code, ← List.append_toArray, ← Array.append_assoc, ← ih]
    rfl
  | binary op l r ihl ihr =>
    rw [items, List.foldl_append, List.foldl_append, code, ← List.append_toArray,
      ← List.append_toArray, ← Array.append_assoc, ← Array.append_assoc, ← ihr, ← ihl]
    rfl

end Expr

end ScriptMachine
