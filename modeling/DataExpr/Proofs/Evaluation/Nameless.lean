import DataExpr.Proofs.Evaluation.Failure
import DataExpr.Proofs.Evaluation.Names
import DataExpr.Proofs.Syntax.FreeNames

/-!
# Trees without names

A tree without names looks nothing up and calls nothing.  All that it sees of an evaluator is
the depth limit, and all that it sees of a context is the context itself
(`Evaluator.eval_eq_of_nameless`).  It can fail in two ways only: by reading a property of
nothing, or by going deeper than the limit (`Evaluator.eval_errorsAre_of_nameless`).

So turning away the texts with names is just what makes the names that are bound and the
helpers that are known irrelevant to the others (`Expr.firstFreeName?_spec`).
-/

namespace DataExpr

/-- The errors of trees without names, under a depth limit. -/
inductive NamelessError (limit : Nat) : Error → Prop
  /-- A property of nothing was read. -/
  | missingTarget (property : String) (target : Missing) :
      NamelessError limit { cause := .missingTarget property target.name }
  /-- Evaluation went deeper than the limit. -/
  | tooDeep : NamelessError limit { cause := .tooDeep limit }

namespace Evaluator

open Eval

variable {first second : Evaluator}

/-- Only the limit and the context itself matter to a tree without names. -/
theorem eval_eq_of_nameless (hlimit : first.config.maxDepth = second.config.maxDepth)
    {scope other : Scope} (hthis : scope.this = other.this) (left : Nat) {tree : Expr}
    (hnone : tree.firstFreeName? = none) :
    first.eval left scope tree = second.eval left other tree := by
  -- A part of a nameless tree is nameless, and has one level less.
  induction left generalizing tree with
  | zero => rw [eval, eval, hlimit]
  | succ left ih =>
    have hpart : ∀ part ∈ tree.parts, first.eval left scope part = second.eval left other part :=
      fun part hmem => ih (Expr.firstFreeName?_of_mem_parts hmem hnone)
    exact eval_succ_congr (Expr.ownName?_eq_none hnone) (fun _ _ => hthis) hpart

/-- A tree without names fails at a property of nothing or at the limit. -/
theorem eval_errorsAre_of_nameless (ev : Evaluator) (scope : Scope) (left : Nat) {tree : Expr}
    (hnone : tree.firstFreeName? = none) :
    ErrorsAre (NamelessError ev.config.maxDepth) (ev.eval left scope tree) := by
  induction left generalizing tree with
  | zero => exact errorsAre_throw .tooDeep
  | succ left ih =>
    have hpart : ∀ part ∈ tree.parts,
        ErrorsAre (NamelessError ev.config.maxDepth) (ev.eval left scope part) :=
      fun part hmem => ih (Expr.firstFreeName?_of_mem_parts hmem hnone)
    exact ev.eval_succ_errorsAre (Expr.ownName?_eq_none hnone) .missingTarget hpart

end Evaluator

/-- Turning away names is exact and enough.  No free name is found exactly if no name stands
anywhere in the tree; otherwise it is the leftmost name outside the arguments of calls.  And a
tree without one evaluates alike for all evaluators with the same limit, whatever their
helpers and the names they bind, and fails only at a property of nothing or at the limit. -/
theorem Expr.firstFreeName?_spec (tree : Expr) :
    (tree.firstFreeName? = none ↔ ∀ name, ¬tree.Spells name) ∧
      (∀ name span,
        tree.firstFreeName? = some (name, span) ↔ tree.LeftmostName name span) ∧
      (tree.firstFreeName? = none → ∀ (first second : Evaluator) (context : Value),
        first.config.maxDepth = second.config.maxDepth →
          first.evaluateTree tree context = second.evaluateTree tree context ∧
          ∀ error, (first.evaluateTree tree context).result = .error error →
            NamelessError first.config.maxDepth error) := by
  refine ⟨tree.firstFreeName?_eq_none_iff, tree.firstFreeName?_eq_some_iff, ?_⟩
  intro hnone first second context hlimit
  have hthis : (first.scope context).this = (second.scope context).this := rfl
  constructor
  · rw [Evaluator.evaluateTree, Evaluator.evaluateTree, hlimit]
    exact Evaluator.eval_eq_of_nameless hlimit hthis _ hnone
  · exact first.eval_errorsAre_of_nameless _ _ hnone

end DataExpr
