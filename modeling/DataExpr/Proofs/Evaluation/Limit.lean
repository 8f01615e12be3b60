import DataExpr.Proofs.Evaluation.Failure
import DataExpr.Proofs.Syntax.Height

/-!
# The depth limit

The limit cuts an evaluation short or leaves it alone.  What a tree comes to under one
limit, be it a value or an error, it comes to under every higher limit, unless the error is
that of the limit itself; and a tree that is no higher than the levels there are never
meets the limit (`evaluateTree_withLimit`).

That is so for helpers that take no notice of the evaluation around them.  A helper that
reads its `Call` can tell the limits apart.
-/

namespace DataExpr

/-- The error does not come from the depth limit. -/
def Error.SparesLimit (error : Error) : Prop :=
  ∀ limit, error.cause ≠ .tooDeep limit

theorem Error.SparesLimit.inHelper {error : Error} (h : error.SparesLimit) (helper : String) :
    (error.inHelper helper).SparesLimit := by
  intro limit
  simp only [Error.inHelper]
  split
  · exact Cause.noConfusion
  · exact h limit

namespace Eval

variable {α β : Type}

theorem ErrorsAre.mapError {p q : Error → Prop} {x : Eval α} (hx : ErrorsAre p x)
    {f : Error → Error} (hf : ∀ error, p error → q (f error)) : ErrorsAre q (x.mapError f) := by
  intro error herror
  rw [result_mapError] at herror
  cases hresult : x.result with
  | ok a =>
    rw [hresult] at herror
    cases herror
  | error inner =>
    rw [hresult] at herror
    cases herror
    exact hf inner (hx inner hresult)

/-- What follows a computation matters only for what the computation gives. -/
theorem bind_congr_result {x : Eval α} {f g : α → Eval β}
    (h : ∀ a, x.result = .ok a → f a = g a) : x >>= f = x >>= g := by
  have hcont : ExceptT.bindCont f x.run.value = ExceptT.bindCont g x.run.value := by
    cases hx : x.run.value with
    | ok a => exact h a hx
    | error error => rfl
  show ExceptT.mk (Logged.bind x.run (ExceptT.bindCont f)) = ExceptT.mk (Logged.bind x.run _)
  rw [Logged.bind, Logged.bind, hcont]

/-- The second computation is the first one, if that does not meet the depth limit. -/
def Extends (x y : Eval α) : Prop :=
  ErrorsAre Error.SparesLimit x → y = x

theorem Extends.refl (x : Eval α) : Extends x x :=
  fun _ => rfl

theorem Extends.bind {x y : Eval α} {f g : α → Eval β} (hx : Extends x y)
    (hf : ∀ a, x.result = .ok a → Extends (f a) (g a)) : Extends (x >>= f) (y >>= g) := by
  intro hspares
  have hfirst : ErrorsAre Error.SparesLimit x := by
    intro error herror
    apply hspares error
    rw [result_bind, herror]
    rfl
  rw [hx hfirst]
  apply bind_congr_result
  intro a ha
  apply hf a ha
  intro error herror
  apply hspares error
  rw [result_bind, ha]
  exact herror

theorem Extends.mapM {f g : α → Eval β} {items : List α}
    (h : ∀ item ∈ items, Extends (f item) (g item)) : Extends (items.mapM f) (items.mapM g) := by
  induction items with
  | nil => exact .refl _
  | cons item items ih =>
    rw [List.forall_mem_cons] at h
    rw [List.mapM_cons, List.mapM_cons]
    exact h.1.bind fun _ _ => (ih h.2).bind fun _ _ => .refl _

end Eval

/-- The helpers are functions of their arguments alone, and the depth limit is none of
their errors. -/
structure Registry.IgnoresDepth (registry : Registry) : Prop where
  ignoresCall : ∀ {name : String} {helper : Helper}, registry.get? name = some helper →
    ∀ arguments call other, helper arguments call = helper arguments other
  sparesLimit : ∀ {name : String} {helper : Helper}, registry.get? name = some helper →
    ∀ arguments call error, (helper arguments call).result = .error error → error.SparesLimit

namespace Evaluator

open Eval

/-- The same evaluator with another depth limit. -/
def withLimit (ev : Evaluator) (limit : Nat) : Evaluator :=
  { ev with config := { ev.config with maxDepth := limit } }

variable (ev : Evaluator)

theorem sparesLimit_of_lookup {scope : Scope} {name : String} {error : Error}
    (h : ev.lookup scope name = .error error) : error.SparesLimit := by
  obtain ⟨-, rfl⟩ := ev.lookup_eq_error_iff.1 h
  intro limit
  dsimp only
  split <;> exact Cause.noConfusion

theorem sparesLimit_of_callee {scope : Scope} {name : String} {error : Error}
    (h : ev.callee scope name = .error error) : error.SparesLimit := by
  rcases ev.callee_eq_error_iff.1 h with ⟨-, rfl⟩ | ⟨-, -, rfl⟩ <;>
    exact fun _ => Cause.noConfusion

/-- With more levels left, a tree evaluates to the same, if it does not run out of
levels. -/
theorem eval_extends (hhelpers : ev.helpers.IgnoresDepth) (limit higher : Nat) (scope : Scope)
    {left more : Nat} (hle : left ≤ more) (tree : Expr) :
    Extends ((ev.withLimit limit).eval left scope tree)
      ((ev.withLimit higher).eval more scope tree) := by
  -- A node hands the same number of levels to each of its parts, so these carry the
  -- induction, whatever the tree.
  induction left generalizing more tree with
  | zero =>
    intro hspares
    exact absurd rfl (hspares _ rfl limit)
  | succ left ih =>
    obtain ⟨more, rfl⟩ := Nat.exists_eq_add_of_le' (Nat.lt_of_lt_of_le left.succ_pos hle)
    have hpart : ∀ part, Extends ((ev.withLimit limit).eval left scope part)
        ((ev.withLimit higher).eval more scope part) :=
      fun part => ih (Nat.le_of_succ_le_succ hle) part
    cases tree with
    | literal | undefined | this | name => exact .refl _
    | member object key => exact (hpart object).bind fun _ _ => .refl _
    | index object key =>
      exact (hpart object).bind fun _ _ => (hpart key).bind fun _ _ => .refl _
    | call name arguments =>
      refine (Extends.refl (Eval.ofExcept (ev.callee scope name))).bind fun helper hhelper => ?_
      refine (Extends.mapM fun argument _ => ?_).bind fun values _ => ?_
      · exact (hpart argument).bind fun _ _ => .refl _
      · intro _
        have hget : ev.helpers.get? name = some helper := (ev.callee_eq_ok_iff.1 hhelper).2
        exact congrArg (mapError (·.inHelper name)) (hhelpers.ignoresCall hget _ _ _)
    | unary op operand => exact (hpart operand).bind fun _ _ => .refl _
    | binary op first second =>
      exact (hpart first).bind fun _ _ => (hpart second).bind fun _ _ => .refl _
    | logical op first second =>
      refine (hpart first).bind fun value _ => ?_
      split
      · exact .refl _
      · exact hpart second

/-- A tree does not run out of levels if there are as many as it is high. -/
theorem eval_sparesLimit (hhelpers : ev.helpers.IgnoresDepth) (scope : Scope) {left : Nat}
    {tree : Expr} (hheight : tree.height ≤ left) :
    ErrorsAre Error.SparesLimit (ev.eval left scope tree) := by
  induction left generalizing tree with
  | zero => exact absurd tree.height_pos (by omega)
  | succ left ih =>
    have hpart : ∀ part ∈ tree.parts, ErrorsAre Error.SparesLimit (ev.eval left scope part) := by
      intro part hmem
      have hlt := Expr.height_lt_of_mem_parts hmem
      exact ih (by omega)
    cases tree with
    | name text => exact errorsAre_ofExcept fun _ => ev.sparesLimit_of_lookup
    | call name arguments =>
      refine (errorsAre_ofExcept fun _ => ev.sparesLimit_of_callee).bind_ok fun helper hhelper => ?_
      refine (errorsAre_mapM fun argument hmem => ?_).bind fun values => ?_
      · exact (hpart argument hmem).bind fun _ => errorsAre_pure _
      · have hget := (ev.callee_eq_ok_iff.1 hhelper).2
        refine ErrorsAre.mapError ?_ fun _ hspares => Error.SparesLimit.inHelper hspares name
        exact hhelpers.sparesLimit hget values _
    | _ => exact ev.eval_succ_errorsAre rfl (fun _ _ _ => Cause.noConfusion) hpart

/-- The limit decides only whether an evaluation ends with the error of the limit.  If it
does not end so under one limit then it is the same under each higher one, and it does not
end so if the tree has at most one level more than the limit. -/
theorem evaluateTree_withLimit (hhelpers : ev.helpers.IgnoresDepth) (tree : Expr)
    (context : Value) {limit higher : Nat} (hle : limit ≤ higher) :
    ((∀ error, ((ev.withLimit limit).evaluateTree tree context).result = .error error →
        ∀ depth, error.cause ≠ .tooDeep depth) →
      (ev.withLimit higher).evaluateTree tree context =
        (ev.withLimit limit).evaluateTree tree context) ∧
    (tree.height ≤ limit + 1 →
      ∀ error, ((ev.withLimit limit).evaluateTree tree context).result = .error error →
        ∀ depth, error.cause ≠ .tooDeep depth) := by
  constructor
  · exact ev.eval_extends hhelpers limit higher (ev.scope context) (Nat.succ_le_succ hle) tree
  · exact (ev.withLimit limit).eval_sparesLimit hhelpers (ev.scope context)

/-- A registry with the one helper `first`, which gives back its first argument. -/
def firstOnly : Registry :=
  Registry.empty.register "first" fun arguments _ => return arguments.head?

/-- The call `first(!true)`. -/
def callOnNegation : Expr :=
  .call "first" [.unary .not (.literal (.bool true) {}) {}] {}

theorem ignoresDepth_firstOnly : firstOnly.IgnoresDepth := by
  have hhelper : ∀ {name : String} {helper : Helper}, firstOnly.get? name = some helper →
      helper = fun arguments _ => return arguments.head? := by
    intro name helper hget
    by_cases hname : "first" = name
    · simpa [firstOnly, Registry.register, Registry.get?, Registry.empty, Entries.insert,
        Entries.alter, hname] using hget.symm
    · simp [firstOnly, Registry.register, Registry.get?, Registry.empty, Entries.insert,
        Entries.alter, hname] at hget
  constructor
  · intro name helper hget arguments call other
    rw [hhelper hget]
  · intro name helper hget arguments call error herror
    rw [hhelper hget] at herror
    cases herror

/-- Three levels are enough for the call, and two are not. -/
theorem evaluateTree_withLimit_callOnNegation :
    (firstOnly.IgnoresDepth ∧ 2 ≤ 256 ∧
      (∀ error, ((withLimit { helpers := firstOnly } 2).evaluateTree callOnNegation .null).result =
        .error error → ∀ depth, error.cause ≠ .tooDeep depth) ∧ callOnNegation.height ≤ 2 + 1) ∧
      (withLimit { helpers := firstOnly } 256).evaluateTree callOnNegation .null =
        (withLimit { helpers := firstOnly } 2).evaluateTree callOnNegation .null ∧
      ((withLimit { helpers := firstOnly } 1).evaluateTree callOnNegation .null).result =
        .error { cause := .tooDeep 1 } := by
  obtain ⟨hsame, hlow⟩ := evaluateTree_withLimit { helpers := firstOnly } ignoresDepth_firstOnly
    callOnNegation .null (show 2 ≤ 256 by decide)
  have hheight : callOnNegation.height ≤ 2 + 1 := by decide
  exact ⟨⟨ignoresDepth_firstOnly, by decide, hlow hheight, hheight⟩, hsame (hlow hheight), rfl⟩

end Evaluator

end DataExpr
