import DataExpr.Evaluator.Basic
import DataExpr.Proofs.Syntax.Nodes

/-!
# What an expression reads of its context

An expression that does not use the context itself sees no more of it than what it has
under the names that the expression spells.  Two contexts that have the same under these
names cannot be told apart by it (`evaluateTree_eq_of_agree`): not by its result, nor by
its error, nor by what is noted on the way.

A node without a name of its own depends on its parts and on the context itself only
(`eval_succ_congr`), so names and callees are all there is to look at.

Helpers are arbitrary functions of their arguments and their `Call`.  A `Call` is made of
the evaluator and the levels that are left, and so it carries nothing of the context.
-/

namespace DataExpr

/-- The scopes have the same under every name of the tree. -/
def Expr.AgreeOn (tree : Expr) (first second : Scope) : Prop :=
  ∀ name, tree.Spells name → first.get? name = second.get? name

theorem Expr.AgreeOn.inside {tree part : Expr} {first second : Scope}
    (h : tree.AgreeOn first second) (hpart : part ∈ tree.parts) : part.AgreeOn first second :=
  fun name hname => h name (hname.inside hpart)

theorem Eval.mapM_congr {α β : Type} {f g : α → Eval β} {items : List α}
    (h : ∀ item ∈ items, f item = g item) : items.mapM f = items.mapM g := by
  induction items with
  | nil => rfl
  | cons item items ih =>
    rw [List.forall_mem_cons] at h
    rw [List.mapM_cons, List.mapM_cons, h.1, ih h.2]

namespace Evaluator

variable (ev : Evaluator) {first second : Scope}

theorem lookup_congr {name : String} (h : first.get? name = second.get? name) :
    ev.lookup first name = ev.lookup second name := by
  rw [lookup, lookup, h]

theorem callee_congr {name : String} (h : first.get? name = second.get? name) :
    ev.callee first name = ev.callee second name := by
  rw [callee, callee, h]

/-- A node without a name of its own sees nothing of an evaluation but what its parts come
to, and the context itself. -/
theorem eval_succ_congr {ev other : Evaluator} {left : Nat} {tree : Expr}
    (hown : tree.ownName? = none) (hthis : ∀ span, tree = .this span → first.this = second.this)
    (hparts : ∀ part ∈ tree.parts, ev.eval left first part = other.eval left second part) :
    ev.eval (left + 1) first tree = other.eval (left + 1) second tree := by
  cases tree with
  | name | call => cases hown
  | literal | undefined => rfl
  | this span => rw [eval, eval, hthis span rfl]
  | member object => rw [eval, eval, hparts object (by simp [Expr.parts])]
  | index object key =>
    rw [eval, eval, hparts object (by simp [Expr.parts]), hparts key (by simp [Expr.parts])]
  | unary op operand => rw [eval, eval, hparts operand (by simp [Expr.parts])]
  | binary op left right | logical op left right =>
    rw [eval, eval, hparts left (by simp [Expr.parts]), hparts right (by simp [Expr.parts])]

/-- Scopes that agree on a tree give it the same evaluation. -/
theorem eval_congr (left : Nat) {tree : Expr} (hthis : ¬tree.MentionsThis)
    (hagree : tree.AgreeOn first second) : ev.eval left first tree = ev.eval left second tree := by
  -- What a node spells its parts may look up, one level further down.
  induction left generalizing tree with
  | zero => rfl
  | succ left ih =>
    have hpart : ∀ part ∈ tree.parts, ev.eval left first part = ev.eval left second part :=
      fun part hmem => ih (fun h => hthis (h.inside hmem)) (hagree.inside hmem)
    have hown : ∀ name, tree.ownName? = some name → first.get? name = second.get? name :=
      fun name h => hagree name (.root h)
    cases tree with
    | this span => exact absurd ⟨span, .root _⟩ hthis
    | name text => rw [eval, eval, ev.lookup_congr (hown text rfl)]
    | call name arguments =>
      have harguments : ∀ argument ∈ arguments,
          (do return (← ev.eval left first argument).getD .null : Eval Value) =
            do return (← ev.eval left second argument).getD .null :=
        fun argument hmem => by rw [hpart argument hmem]
      rw [eval, eval, ev.callee_congr (hown name rfl), Eval.mapM_congr harguments]
    | _ => exact eval_succ_congr rfl (fun _ h => by cases h) hpart

/-- A tree that does not use the context itself evaluates to the same against all
contexts that have the same under its names, callees included. -/
theorem evaluateTree_eq_of_agree {tree : Expr} {first second : Value}
    (hthis : ¬tree.MentionsThis)
    (hnames : ∀ name, tree.Spells name →
      (ev.scope first).get? name = (ev.scope second).get? name) :
    ev.evaluateTree tree first = ev.evaluateTree tree second :=
  ev.eval_congr _ hthis hnames

/-- The call `getObjectValue('b', a)`. -/
def callOnName : Expr :=
  .call "getObjectValue" [.literal (.text "b") {}, .name "a" {}] {}

/-- What else the contexts hold does not matter, nor in which order. -/
theorem evaluateTree_callOnName :
    (¬callOnName.MentionsThis ∧
      ∀ name, callOnName.Spells name →
        (scope {} (.mapping [("a", .mapping [("b", .null)]), ("c", .bool true)])).get? name =
          (scope {} (.mapping [("b", .text "x"), ("a", .mapping [("b", .null)])])).get? name) ∧
      evaluateTree {} callOnName (.mapping [("a", .mapping [("b", .null)]), ("c", .bool true)]) =
        evaluateTree {} callOnName
          (.mapping [("b", .text "x"), ("a", .mapping [("b", .null)])]) := by
  have hthis : ¬callOnName.MentionsThis := by
    simp [callOnName, Expr.mentionsThis_iff (.call _ _ _), Expr.mentionsThis_iff (.literal _ _),
      Expr.mentionsThis_iff (.name _ _), Expr.parts]
  have hnames : ∀ name, callOnName.Spells name →
      (scope {} (.mapping [("a", .mapping [("b", .null)]), ("c", .bool true)])).get? name =
        (scope {} (.mapping [("b", .text "x"), ("a", .mapping [("b", .null)])])).get? name := by
    intro name hname
    have hcases : "getObjectValue" = name ∨ "a" = name := by
      simpa [callOnName, Expr.spells_iff (.call _ _ _), Expr.spells_iff (.literal _ _),
        Expr.spells_iff (.name _ _), Expr.parts, Expr.ownName?] using hname
    rcases hcases with rfl | rfl <;> rfl
  exact ⟨⟨hthis, hnames⟩, evaluateTree_eq_of_agree {} hthis hnames⟩

end Evaluator

end DataExpr
