import DataExpr.Proofs.Evaluation.Names
import DataExpr.Proofs.Syntax.Unplaced
import Mathlib.Data.List.Basic

/-!
# Trees without places

The spans of a tree say where its nodes stand, and nothing else.  Without them it has the same
names (`Expr.spells_unplaced_iff`) and is evaluated alike (`Evaluator.eval_unplaced`).
-/

namespace DataExpr

/-! ## Names -/

namespace Expr

theorem ownName?_unplaced (tree : Expr) : tree.unplaced.ownName? = tree.ownName? := by
  cases tree <;> rfl

theorem parts_unplaced (tree : Expr) : tree.unplaced.parts = tree.parts.map unplaced := by
  cases tree with
  | call callee arguments => exact unplacedAll_eq_map arguments
  | _ => rfl

theorem spells_unplaced_iff (tree : Expr) (name : String) :
    tree.unplaced.Spells name ↔ tree.Spells name := by
  induction tree using induction_parts with
  | step tree ih =>
    rw [spells_iff, spells_iff tree, ownName?_unplaced, parts_unplaced]
    simp only [List.mem_map, exists_exists_and_eq_and]
    exact or_congr_right (exists_congr fun part => and_congr_right fun hpart => ih part hpart)

end Expr

/-! ## Evaluation -/

/-- Trees that differ in their spans only are evaluated alike. -/
theorem Evaluator.eval_unplaced (ev : Evaluator) (left : Nat) (scope : Scope) (tree : Expr) :
    ev.eval left scope tree.unplaced = ev.eval left scope tree := by
  induction left generalizing scope tree with
  | zero => rfl
  | succ left ih =>
    cases tree with
    | literal | undefined | this | name => rfl
    | member object => rw [Expr.unplaced, eval, eval, ih]
    | index object key => rw [Expr.unplaced, eval, eval, ih, ih]
    | call name arguments =>
      have harguments : (Expr.unplacedAll arguments).mapM (fun argument => do
            return (← ev.eval left scope argument).getD .null : Expr → Eval Value) =
          arguments.mapM fun argument => do
            return (← ev.eval left scope argument).getD .null := by
        rw [Expr.unplacedAll_eq_map, List.mapM_map]
        exact Eval.mapM_congr fun argument _ => by rw [Function.comp_apply, ih]
      rw [Expr.unplaced, eval, eval, harguments]
    | unary op operand => rw [Expr.unplaced, eval, eval, ih]
    | binary op first second => rw [Expr.unplaced, eval, eval, ih, ih]
    | logical op first second => rw [Expr.unplaced, eval, eval, ih, ih]

end DataExpr
