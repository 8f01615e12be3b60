import DataExpr.Proofs.Evaluation.Failure
import DataExpr.Proofs.Syntax.Height

/-!
# Calls, and texts without calls

A call evaluates its arguments, hands their values to the helper and says on the way out
which helper an error came from (`eval_call`).  An outermost call whose arguments have values
comes to what the helper makes of these (`result_evaluateTree_call`).

A tree without calls has the same value for every evaluator and any number of levels, as
long as it is not higher than these (`toOption_eval_of_callFree`).  Its error may be another
one, because a name that is bound to nothing may be the name of a helper or not.  Where the
error gives way to a fallback this makes no difference
(`result_evaluateBy_of_callFree`), and so a text without calls comes to the same in a helper
as outside.  Events are noted by helpers only (`eval_isSilent_of_callFree`).
-/

namespace DataExpr

/-! ## Texts without calls -/

/-- Whether no call stands in the tree. -/
def Expr.isCallFree : Expr → Bool
  | .literal .. | .undefined _ | .name .. | .this _ => true
  | .call .. => false
  | .member object _ _ => object.isCallFree
  | .index object key _ => object.isCallFree && key.isCallFree
  | .unary _ operand _ => operand.isCallFree
  | .binary _ left right _ | .logical _ left right _ => left.isCallFree && right.isCallFree

theorem Expr.isCallFree_of_mem_parts {tree part : Expr} (h : tree.isCallFree)
    (hpart : part ∈ tree.parts) : part.isCallFree := by
  cases tree with
  | literal | undefined | this | name => cases hpart
  | call => cases h
  | member | unary =>
    obtain rfl := List.mem_singleton.1 hpart
    exact h
  | index | binary | logical =>
    simp only [parts, List.mem_cons, List.not_mem_nil, or_false] at hpart
    rw [isCallFree, Bool.and_eq_true] at h
    rcases hpart with rfl | rfl
    · exact h.1
    · exact h.2

/-- If the text is an expression then its tree has no calls and at most 256 levels. -/
def CallFreeText (source : String) : Prop :=
  ∀ tree, Expr.parse source = .ok tree → tree.isCallFree ∧ tree.height ≤ 256

instance (source : String) : Decidable (CallFreeText source) :=
  match h : Expr.parse source with
  | .ok tree =>
      decidable_of_iff (tree.isCallFree ∧ tree.height ≤ 256) (by simp [CallFreeText, h])
  | .error _ => isTrue (by simp [CallFreeText, h])

/-- The computation notes nothing. -/
def Eval.IsSilent {α : Type} (x : Eval α) : Prop :=
  x.events = []

theorem Eval.IsSilent.bind {α β : Type} {x : Eval α} {f : α → Eval β} (hx : IsSilent x)
    (hf : ∀ a, IsSilent (f a)) : IsSilent (x >>= f) := by
  show x.run.events ++ (ExceptT.bindCont f x.run.value).events = []
  rw [show x.run.events = [] from hx, List.nil_append]
  cases x.run.value with
  | ok a => exact hf a
  | error => rfl

namespace Evaluator

open Eval

variable (ev other : Evaluator)

theorem toOption_bind {α β : Type} (x : Eval α) (f : α → Eval β) :
    (x >>= f).result.toOption = x.result.toOption.bind fun a => (f a).result.toOption := by
  rw [result_bind]
  cases x.result <;> rfl

theorem toOption_lookup (scope : Scope) (name : String) :
    (ev.lookup scope name).toOption = (scope.get? name).map some := by
  unfold lookup
  split
  · rename_i hget
    rw [hget]
    rfl
  · rename_i hget
    rw [hget]
    split <;> rfl

/-- The helpers do not matter for a tree without calls, nor do levels that it does not
use. -/
theorem toOption_eval_of_callFree {tree : Expr} (hfree : tree.isCallFree) (scope : Scope)
    {left more : Nat} (hleft : tree.height ≤ left) (hmore : tree.height ≤ more) :
    (ev.eval left scope tree).result.toOption = (other.eval more scope tree).result.toOption := by
  induction left generalizing more tree with
  | zero => exact absurd tree.height_pos (by omega)
  | succ left ih =>
    have hpositive := tree.height_pos
    obtain ⟨more, rfl⟩ := Nat.exists_eq_add_of_le' (Nat.lt_of_lt_of_le hpositive hmore)
    have hpart : ∀ part ∈ tree.parts, (ev.eval left scope part).result.toOption =
        (other.eval more scope part).result.toOption := by
      intro part hmem
      have hlt := Expr.height_lt_of_mem_parts hmem
      exact ih (Expr.isCallFree_of_mem_parts hfree hmem) (by omega) (by omega)
    cases tree with
    | literal | undefined | this => rfl
    | name text =>
      show (ev.lookup scope text).toOption = (other.lookup scope text).toOption
      rw [toOption_lookup, toOption_lookup]
    | member object key =>
      simp only [eval, toOption_bind, hpart object (by simp [Expr.parts])]
    | index object key =>
      simp only [eval, toOption_bind, hpart object (by simp [Expr.parts]),
        hpart key (by simp [Expr.parts])]
    | call => cases hfree
    | unary op operand =>
      simp only [eval, toOption_bind, hpart operand (by simp [Expr.parts])]
    | binary op first second =>
      simp only [eval, toOption_bind, hpart first (by simp [Expr.parts]),
        hpart second (by simp [Expr.parts])]
    | logical op first second =>
      simp only [eval, toOption_bind, hpart first (by simp [Expr.parts])]
      congr 1
      funext value
      split
      · rfl
      · exact hpart second (by simp [Expr.parts])

/-- A tree without calls notes nothing. -/
theorem eval_isSilent_of_callFree {tree : Expr} (hfree : tree.isCallFree) (scope : Scope)
    (left : Nat) : IsSilent (ev.eval left scope tree) := by
  induction left generalizing tree with
  | zero => rfl
  | succ left ih =>
    have hpart : ∀ part ∈ tree.parts, IsSilent (ev.eval left scope part) :=
      fun part hmem => ih (Expr.isCallFree_of_mem_parts hfree hmem)
    cases tree with
    | name => rfl
    | call => cases hfree
    | _ =>
      exact ev.eval_succ_induction rfl (fun _ => rfl) (fun _ _ => rfl) (fun _ _ => IsSilent.bind)
        hpart

/-- Two evaluators that bind the same names give a text without calls the same result, if
both have levels enough. -/
theorem result_evaluateBy_of_callFree {source : String} (hsource : CallFreeText source)
    (hbind : ev.config.bindContextKeys = other.config.bindContextKeys) {left more : Nat}
    (hleft : 256 ≤ left) (hmore : 256 ≤ more) (context : Value) (fallback? : Option Value) :
    (ev.evaluateBy (ev.eval left) source context fallback?).result =
      (other.evaluateBy (other.eval more) source context fallback?).result := by
  have hscope : ev.scope context = other.scope context := by
    rw [scope, scope, hbind]
  rw [result_evaluateBy, result_evaluateBy, hscope]
  cases hprepare : prepare source context with
  | error error => rfl
  | ok tree =>
    obtain ⟨hfree, hheight⟩ := hsource tree ((prepare_eq_ok_iff _ _ _).1 hprepare).1
    have hvalue := toOption_eval_of_callFree ev other hfree (other.scope context)
      (Nat.le_trans hheight hleft) (Nat.le_trans hheight hmore)
    simp only [Except.map]
    cases hfirst : (ev.eval left (other.scope context) tree).result <;>
      cases hsecond : (other.eval more (other.scope context) tree).result <;>
      simp_all [Except.toOption]

/-! ## Calls -/

/-- What a helper is told about a call with `left` levels left for its arguments. -/
def callAt (left : Nat) (name : String) : Call :=
  { name
    depth := ev.config.maxDepth - left
    maxDepth := ev.config.maxDepth
    helperNames := ev.helpers.names
    evaluate := ev.evaluateBy (ev.eval left) }

/-- The value that an argument has for a helper, to which nothing is null. -/
def argumentValue (left : Nat) (scope : Scope) (argument : Expr) : Eval Value := do
  return (← ev.eval left scope argument).getD .null

theorem eval_call (left : Nat) (scope : Scope) (name : String) (arguments : List Expr)
    (span : Span) :
    ev.eval (left + 1) scope (.call name arguments span) = (do
      let helper ← Eval.ofExcept (ev.callee scope name)
      let values ← arguments.mapM (ev.argumentValue left scope)
      (helper values (ev.callAt left name)).mapError (·.inHelper name)) :=
  rfl

/-- The arguments of an outermost call have these values. -/
def Gives (context : Value) (arguments : List Expr) (values : List Value) : Prop :=
  List.Forall₂
    (fun argument value =>
      (ev.argumentValue ev.config.maxDepth (ev.scope context) argument).result = .ok value)
    arguments values

theorem Gives.result_mapM {context : Value} {arguments : List Expr} {values : List Value}
    (h : ev.Gives context arguments values) :
    (arguments.mapM (ev.argumentValue ev.config.maxDepth (ev.scope context))).result =
      .ok values :=
  result_mapM_eq_ok_iff.2 h

/-- An outermost call comes to what the helper makes of the values of the arguments. -/
theorem result_evaluateTree_call {context : Value} {name : String} {helper : Helper}
    {arguments : List Expr} {values : List Value} (span : Span)
    (hbound : (ev.scope context).get? name = none) (hget : ev.helpers.get? name = some helper)
    (hvalues : ev.Gives context arguments values) :
    (ev.evaluateTree (.call name arguments span) context).result =
      (helper values (ev.callAt ev.config.maxDepth name)).result.mapError (·.inHelper name) := by
  have hcallee : ev.callee (ev.scope context) name = .ok helper := by
    rw [callee, hbound, hget]
    rfl
  simp only [evaluateTree, eval_call, hcallee, result_bind, result_ofExcept,
    hvalues.result_mapM]
  rfl

end Evaluator

end DataExpr
