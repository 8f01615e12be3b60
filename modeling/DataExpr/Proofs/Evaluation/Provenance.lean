import DataExpr.Proofs.Evaluation.Nesting

/-!
# Where errors come from

Every error of a tree is raised at one node, and arrives as it was raised
(`result_eval_eq_error_iff`).  `Reaches` says which nodes the evaluation of a tree comes to: those
before which everything has a value.  A node that raises an error is the last one, and the nodes
around it add nothing.

There are two ways to raise an error.  `Faults` are those of a node itself: a name that has no
value, a property of nothing, or no level left.  They know of no helper and no text.
`HelperFails` is about a call whose helper fails.  Such an error changes once, on the way out of
the helper (`Error.inHelper_eq`).  Helpers that were called in the texts of that helper have
changed it before, and are in it already.
-/

namespace DataExpr

/-- What comes out of a helper is what went wrong in it, with one more helper behind those that it
has passed through.  Only a malformed text is told as the helper's own failure. -/
theorem Error.inHelper_eq (error : Error) (helper : String) :
    error.inHelper helper =
      { cause := if error.isMalformed then .helperFailed helper error.message else error.cause
        origin? := some
          { source? := error.origin?.bind (·.source?)
            line? := error.origin?.bind (·.line?)
            column? := error.origin?.bind (·.column?)
            frames := (error.origin?.elim [] (·.frames)) ++ [helper] } } := by
  obtain ⟨cause, origin?⟩ := error
  cases cause <;> cases origin? <;> rfl

namespace Evaluator

open Eval

section

variable (ev : Evaluator)

/-! ## Nodes and their errors -/

/-- The evaluation of a tree comes to this node of it, with `below` levels left for the node. -/
inductive Reaches (scope : Scope) : (left : Nat) → Expr → (below : Nat) → Expr → Prop
  | root (left : Nat) (tree : Expr) : Reaches scope left tree left tree
  | inside {left below : Nat} {tree part node : Expr} (hpart : ev.Evaluates left scope tree part)
      (h : Reaches scope left part below node) : Reaches scope (left + 1) tree below node

/-- What goes wrong at a node that is evaluated with `left` levels left, and not at a part of it
or in a helper. -/
inductive Faults (scope : Scope) : (left : Nat) → Expr → Cause → Prop
  | tooDeep (node : Expr) : Faults scope 0 node (.tooDeep ev.config.maxDepth)
  | undefinedName {left : Nat} {name : String} (span : Span) (hunbound : scope.get? name = none)
      (hunknown : ev.helpers.has name = false) :
      Faults scope (left + 1) (.name name span) (.undefinedName name)
  | helperAsValue {left : Nat} {name : String} (span : Span) (hunbound : scope.get? name = none)
      (hhelper : ev.helpers.has name = true) :
      Faults scope (left + 1) (.name name span) (.helperFailed name "helpers can only be called")
  | undefinedCallee {left : Nat} {name : String} (arguments : List Expr) (span : Span)
      (hunbound : scope.get? name = none) (hunknown : ev.helpers.has name = false) :
      Faults scope (left + 1) (.call name arguments span) (.undefinedName name)
  | boundCallee {left : Nat} {name : String} (arguments : List Expr) (span : Span)
      (hbound : (scope.get? name).isSome = true) :
      Faults scope (left + 1) (.call name arguments span) (.notCallable name)
  | memberOfMissing {left : Nat} {object : Expr} (key : String) (span : Span) {missing : Missing}
      (hobject : (ev.eval left scope object).result = .ok missing.operand) :
      Faults scope (left + 1) (.member object key span) (.missingTarget key missing.name)
  | indexOfMissing {left : Nat} {object key : Expr} (span : Span) {missing : Missing}
      {selector : Operand} (hobject : (ev.eval left scope object).result = .ok missing.operand)
      (hkey : (ev.eval left scope key).result = .ok selector) :
      Faults scope (left + 1) (.index object key span) (.missingTarget selector.toText missing.name)

/-- A call with these arguments comes to a helper, which fails.  The arguments have values, and
nothing is null to the helper. -/
def HelperFails (scope : Scope) (left : Nat) (name : String) (arguments : List Expr)
    (inner : Error) : Prop :=
  ∃ helper values, scope.get? name = none ∧ ev.helpers.get? name = some helper ∧
    List.Forall₂
      (fun argument value => ∃ operand, (ev.eval left scope argument).result = .ok operand ∧
        value = operand.getD .null)
      arguments values ∧
    (helper values (ev.callAt left name)).result = .error inner

/-- What can be wrong with a tree itself, where these names are bound: a name in it stands for
nothing or is called and has a value, a name of a helper stands in it without a call, a property is
missing its target, or the limit is reached. -/
def IsOwnCause (scope : Scope) (tree : Expr) (cause : Cause) : Prop :=
  (∃ name, tree.Spells name ∧ (cause = .undefinedName name ∨ cause = .notCallable name)) ∨
    (∃ name span, tree.Contains (.name name span) ∧ ev.helpers.has name = true ∧
      scope.get? name = none ∧ cause = .helperFailed name "helpers can only be called") ∨
    (∃ key, ∃ missing : Missing, cause = .missingTarget key missing.name) ∨
    cause = .tooDeep ev.config.maxDepth

/-- A node raises an error itself, or as a call of a helper. -/
inductive Raises (scope : Scope) : (left : Nat) → Expr → Error → Prop
  | itself {left : Nat} {node : Expr} {cause : Cause} (h : ev.Faults scope left node cause) :
      Raises scope left node { cause }
  | helper {left : Nat} {name : String} {arguments : List Expr} (span : Span) {inner : Error}
      (h : ev.HelperFails scope left name arguments inner) :
      Raises scope (left + 1) (.call name arguments span) (inner.inHelper name)

end

variable {ev : Evaluator} {left below : Nat} {scope : Scope} {tree part node : Expr}
  {error : Error}

theorem Evaluates.mem_parts (h : ev.Evaluates left scope tree part) : part ∈ tree.parts := by
  cases h <;> simp [Expr.parts]

theorem Reaches.contains (h : ev.Reaches scope left tree below node) : tree.Contains node := by
  induction h with
  | root => exact .root _
  | inside hpart _ ih => exact .inside hpart.mem_parts ih

/-- The names in a fault are names of the tree. -/
theorem Faults.isOwnCause {cause : Cause} (h : ev.Faults scope below node cause)
    (hnode : tree.Contains node) : ev.IsOwnCause scope tree cause := by
  cases h with
  | tooDeep => exact .inr (.inr (.inr rfl))
  | undefinedName | undefinedCallee => exact .inl ⟨_, ⟨_, hnode, rfl⟩, .inl rfl⟩
  | boundCallee => exact .inl ⟨_, ⟨_, hnode, rfl⟩, .inr rfl⟩
  | helperAsValue span hunbound hhelper =>
    exact .inr (.inl ⟨_, span, hnode, hhelper, hunbound, rfl⟩)
  | memberOfMissing | indexOfMissing => exact .inr (.inr (.inl ⟨_, _, rfl⟩))

/-! ## Arguments -/

theorem result_argumentValue_eq_ok_iff {argument : Expr} {value : Value} :
    (ev.argumentValue left scope argument).result = .ok value ↔
      ∃ operand, (ev.eval left scope argument).result = .ok operand ∧
        value = operand.getD .null := by
  simp only [argumentValue, result_bind_eq_ok_iff, result_pure, Except.ok.injEq,
    @eq_comm _ value]

theorem result_argumentValue_eq_error_iff {argument : Expr} :
    (ev.argumentValue left scope argument).result = .error error ↔
      (ev.eval left scope argument).result = .error error := by
  unfold argumentValue
  rw [result_bind_eq_error_iff]
  simp

/-- The helper of a call fails exactly if the call is one of a helper, the arguments have values,
and the helper fails on them. -/
theorem helperFails_iff {name : String} {arguments : List Expr} {inner : Error} :
    ev.HelperFails scope left name arguments inner ↔
      ∃ helper values, ev.callee scope name = .ok helper ∧
        (arguments.mapM (ev.argumentValue left scope)).result = .ok values ∧
        (helper values (ev.callAt left name)).result = .error inner := by
  simp only [HelperFails, callee_eq_ok_iff, result_mapM_eq_ok_iff, result_argumentValue_eq_ok_iff,
    and_assoc]

/-! ## Errors on their way out -/

/-- The error of a part that is evaluated is the error of the node. -/
theorem Evaluates.result_eq_error (h : ev.Evaluates left scope tree part)
    (herror : (ev.eval left scope part).result = .error error) :
    (ev.eval (left + 1) scope tree).result = .error error := by
  cases h with
  | memberObject | indexObject | operand | binaryFirst | logicalFirst =>
    exact result_bind_eq_error_iff.2 (.inl herror)
  | indexKey _ _ _ hobject =>
    refine result_bind_eq_error_iff.2 (.inr ⟨_, hobject, ?_⟩)
    exact result_bind_eq_error_iff.2 (.inl herror)
  | argument name before _ after span hcallee hbefore =>
    rw [eval_call, hcallee, ofExcept_ok_bind]
    refine result_bind_eq_error_iff.2 (.inl ?_)
    rw [List.mapM_append]
    refine result_bind_eq_error_iff.2 (.inr ⟨_, hbefore, ?_⟩)
    refine result_bind_eq_error_iff.2 (.inl ?_)
    rw [List.mapM_cons]
    exact result_bind_eq_error_iff.2 (.inl (result_argumentValue_eq_error_iff.2 herror))
  | binarySecond _ _ _ _ hfirst =>
    refine result_bind_eq_error_iff.2 (.inr ⟨_, hfirst, ?_⟩)
    exact result_bind_eq_error_iff.2 (.inl herror)
  | logicalSecond op _ _ _ hfirst hopen =>
    refine result_bind_eq_error_iff.2 (.inr ⟨_, hfirst, ?_⟩)
    rw [hopen]
    exact herror

/-- A node that raises an error fails with it. -/
theorem Raises.result_eq_error (h : ev.Raises scope left node error) :
    (ev.eval left scope node).result = .error error := by
  cases h with
  | itself h =>
    cases h with
    | tooDeep => rfl
    | undefinedName span hunbound hunknown =>
      exact ev.lookup_eq_error_iff.2 ⟨hunbound, by rw [hunknown]; rfl⟩
    | helperAsValue span hunbound hhelper =>
      exact ev.lookup_eq_error_iff.2 ⟨hunbound, by rw [hhelper]; rfl⟩
    | undefinedCallee arguments span hunbound hunknown =>
      refine result_bind_eq_error_iff.2 (.inl ?_)
      exact ev.callee_eq_error_iff.2 (.inr ⟨hunbound, hunknown, rfl⟩)
    | boundCallee arguments span hbound =>
      refine result_bind_eq_error_iff.2 (.inl ?_)
      exact ev.callee_eq_error_iff.2 (.inl ⟨hbound, rfl⟩)
    | memberOfMissing key span hobject =>
      refine result_bind_eq_error_iff.2 (.inr ⟨_, hobject, ?_⟩)
      exact property_eq_error_iff.2 ⟨_, rfl, rfl⟩
    | indexOfMissing span hobject hkey =>
      refine result_bind_eq_error_iff.2 (.inr ⟨_, hobject, ?_⟩)
      refine result_bind_eq_error_iff.2 (.inr ⟨_, hkey, ?_⟩)
      exact property_eq_error_iff.2 ⟨_, rfl, rfl⟩
  | helper span h =>
    obtain ⟨helper, values, hcallee, hvalues, hfails⟩ := helperFails_iff.1 h
    rw [eval_call, hcallee, ofExcept_ok_bind]
    refine result_bind_eq_error_iff.2 (.inr ⟨values, hvalues, ?_⟩)
    rw [result_mapError, hfails]
    rfl

/-- A node that fails does so at a part that it evaluates, or raises the error. -/
theorem evaluates_or_raises (h : (ev.eval (left + 1) scope tree).result = .error error) :
    (∃ part, ev.Evaluates left scope tree part ∧
        (ev.eval left scope part).result = .error error) ∨
      ev.Raises scope (left + 1) tree error := by
  cases tree with
  | literal | undefined | this => cases h
  | name text span =>
    obtain ⟨hunbound, rfl⟩ := ev.lookup_eq_error_iff.1 h
    cases hhas : ev.helpers.has text with
    | true => exact .inr (.itself (.helperAsValue span hunbound hhas))
    | false => exact .inr (.itself (.undefinedName span hunbound hhas))
  | member object key span =>
    rcases result_bind_eq_error_iff.1 h with hobject | ⟨target, hobject, hread⟩
    · exact .inl ⟨object, .memberObject object key span, hobject⟩
    · obtain ⟨missing, rfl, rfl⟩ := property_eq_error_iff.1 hread
      exact .inr (.itself (.memberOfMissing key span hobject))
  | index object key span =>
    rcases result_bind_eq_error_iff.1 h with hobject | ⟨target, hobject, hrest⟩
    · exact .inl ⟨object, .indexObject object key span, hobject⟩
    rcases result_bind_eq_error_iff.1 hrest with hkey | ⟨selector, hkey, hread⟩
    · exact .inl ⟨key, .indexKey object key span hobject, hkey⟩
    · obtain ⟨missing, rfl, rfl⟩ := property_eq_error_iff.1 hread
      exact .inr (.itself (.indexOfMissing span hobject hkey))
  | call name arguments span =>
    rw [eval_call] at h
    rcases result_bind_eq_error_iff.1 h with hcallee | ⟨helper, hcallee, hrest⟩
    · rcases ev.callee_eq_error_iff.1 hcallee with ⟨hbound, rfl⟩ | ⟨hunbound, hunknown, rfl⟩
      · exact .inr (.itself (.boundCallee arguments span hbound))
      · exact .inr (.itself (.undefinedCallee arguments span hunbound hunknown))
    rcases result_bind_eq_error_iff.1 hrest with harguments | ⟨values, hvalues, hcall⟩
    · obtain ⟨before, argument, after, values, rfl, hbefore, hargument⟩ :=
        exists_of_result_mapM_eq_error harguments
      exact .inl ⟨argument, .argument name before argument after span hcallee hbefore,
        result_argumentValue_eq_error_iff.1 hargument⟩
    · rw [result_mapError] at hcall
      cases hresult : (helper values (ev.callAt left name)).result with
      | ok operand =>
        rw [hresult] at hcall
        cases hcall
      | error inner =>
        rw [hresult] at hcall
        cases hcall
        exact .inr (.helper span (helperFails_iff.2 ⟨helper, values, hcallee, hvalues, hresult⟩))
  | unary op operand span =>
    rcases result_bind_eq_error_iff.1 h with hoperand | ⟨_, _, hpure⟩
    · exact .inl ⟨operand, .operand op operand span, hoperand⟩
    · cases hpure
  | binary op first second span =>
    rcases result_bind_eq_error_iff.1 h with hfirst | ⟨value, hfirst, hrest⟩
    · exact .inl ⟨first, .binaryFirst op first second span, hfirst⟩
    rcases result_bind_eq_error_iff.1 hrest with hsecond | ⟨_, _, hpure⟩
    · exact .inl ⟨second, .binarySecond op first second span hfirst, hsecond⟩
    · cases hpure
  | logical op first second span =>
    rcases result_bind_eq_error_iff.1 h with hfirst | ⟨value, hfirst, hrest⟩
    · exact .inl ⟨first, .logicalFirst op first second span, hfirst⟩
    cases hdecided : op.isDecidedBy value with
    | true =>
      rw [hdecided] at hrest
      cases hrest
    | false =>
      rw [hdecided] at hrest
      exact .inl ⟨second, .logicalSecond op first second span hfirst hdecided, hrest⟩

/-- The errors of a tree are those that are raised at the nodes that its evaluation comes to. -/
theorem result_eval_eq_error_iff :
    (ev.eval left scope tree).result = .error error ↔
      ∃ below node, ev.Reaches scope left tree below node ∧ ev.Raises scope below node error := by
  constructor
  · intro h
    -- A node that does not raise the error hands it on from a part, which has one level less.
    induction left generalizing tree with
    | zero =>
      cases h
      exact ⟨0, tree, .root 0 tree, .itself (.tooDeep tree)⟩
    | succ left ih =>
      rcases evaluates_or_raises h with ⟨part, hpart, hfails⟩ | hraises
      · obtain ⟨below, node, hreaches, hraises⟩ := ih hfails
        exact ⟨below, node, .inside hpart hreaches, hraises⟩
      · exact ⟨left + 1, tree, .root _ tree, hraises⟩
  · rintro ⟨below, node, hreaches, hraises⟩
    induction hreaches with
    | root => exact hraises.result_eq_error
    | inside hpart _ ih => exact hpart.result_eq_error (ih hraises)

/-- A tree fails with an error exactly if its evaluation comes to a node that raises it; nothing
around the node adds to the error or changes it.  Either the node is at fault itself, and then the
error has no origin and is about the tree.  Or the node is a call of a helper that is not hidden by
a bound name, its arguments have values, and the helper fails on them.  Then the error is the
helper's with the source, line and column it has there, and the helper comes last in its frames;
a malformed text is told as a failure of the helper. -/
theorem evaluateTree_error_iff_raised (ev : Evaluator) (tree : Expr) (context : Value) :
    (∀ error, (ev.evaluateTree tree context).result = .error error ↔
      (∃ left node cause,
        ev.Reaches (ev.scope context) (ev.config.maxDepth + 1) tree left node ∧
        ev.Faults (ev.scope context) left node cause ∧ error = { cause, origin? := none }) ∨
      ∃ left name arguments span inner,
        ev.Reaches (ev.scope context) (ev.config.maxDepth + 1) tree (left + 1)
          (.call name arguments span) ∧
        ev.HelperFails (ev.scope context) left name arguments inner ∧
        error =
          { cause := if inner.isMalformed then .helperFailed name inner.message else inner.cause
            origin? := some
              { source? := inner.origin?.bind (·.source?)
                line? := inner.origin?.bind (·.line?)
                column? := inner.origin?.bind (·.column?)
                frames := (inner.origin?.elim [] (·.frames)) ++ [name] } }) ∧
    ∀ left node cause, ev.Reaches (ev.scope context) (ev.config.maxDepth + 1) tree left node →
      ev.Faults (ev.scope context) left node cause →
        ev.IsOwnCause (ev.scope context) tree cause := by
  refine ⟨fun error => ?_, fun left node cause hreaches hfaults => ?_⟩
  · rw [evaluateTree, result_eval_eq_error_iff]
    constructor
    · rintro ⟨left, node, hreaches, hraises⟩
      cases hraises with
      | itself hfaults => exact .inl ⟨left, node, _, hreaches, hfaults, rfl⟩
      | helper span hfails =>
        exact .inr ⟨_, _, _, span, _, hreaches, hfails, Error.inHelper_eq _ _⟩
    · rintro (⟨left, node, cause, hreaches, hfaults, rfl⟩ |
        ⟨left, name, arguments, span, inner, hreaches, hfails, rfl⟩)
      · exact ⟨left, node, hreaches, .itself hfaults⟩
      · rw [← Error.inHelper_eq]
        exact ⟨left + 1, _, hreaches, .helper span hfails⟩
  · exact hfaults.isOwnCause hreaches.contains

/-- An error about a text that a helper came upon. -/
def textFault : Error :=
  ⟨.malformed "unexpected ')'" 1 3 "a )", some ⟨some "a )", some 1, some 3, ["inner"]⟩⟩

/-- An evaluator whose one helper fails with that error. -/
def misled : Evaluator :=
  { helpers := Registry.empty.register "read" fun _ _ => throw textFault
    config := { maxDepth := 3 } }

/-- The call `read(undefined)`. -/
def readCall : Expr :=
  .call "read" [.undefined {}] {}

/-- The sum `(false && gone) + !read(undefined)`. -/
def sumWithRead : Expr :=
  .binary .add (.logical .and (.literal (.bool false) {}) (.name "gone" {}) {})
    (.unary .not readCall {}) {}

/-- The name that is not looked up does no harm, and the text's error comes out of two operators as
it came out of the helper.  Without a call the helper's name has no value. -/
theorem evaluateTree_error_iff_raised_sumWithRead :
    (misled.Reaches (misled.scope .null) 4 sumWithRead 2 readCall ∧
      misled.HelperFails (misled.scope .null) 1 "read" [.undefined {}] textFault ∧
      (misled.evaluateTree sumWithRead .null).result =
        .error ⟨.helperFailed "read" "compile error at 1:3: unexpected ')'",
          some ⟨some "a )", some 1, some 3, ["inner", "read"]⟩⟩) ∧
    misled.Reaches (misled.scope .null) 4 (.name "read" {}) 4 (.name "read" {}) ∧
    misled.Faults (misled.scope .null) 4 (.name "read" {})
      (.helperFailed "read" "helpers can only be called") ∧
    misled.IsOwnCause (misled.scope .null) (.name "read" {})
      (.helperFailed "read" "helpers can only be called") := by
  have hreaches : misled.Reaches (misled.scope .null) 4 sumWithRead 2 readCall := by
    have hfirst : (misled.eval 3 (misled.scope .null)
        (.logical .and (.literal (.bool false) {}) (.name "gone" {}) {})).result =
          .ok (some (.bool false)) := rfl
    exact .inside (.binarySecond _ _ _ _ hfirst) (.inside (.operand _ _ _) (.root _ _))
  have hfails : misled.HelperFails (misled.scope .null) 1 "read" [.undefined {}] textFault :=
    ⟨fun _ _ => throw textFault, [.null], rfl, rfl, .cons ⟨none, rfl, rfl⟩ .nil, rfl⟩
  have hfaults : misled.Faults (misled.scope .null) 4 (.name "read" {})
      (.helperFailed "read" "helpers can only be called") := .helperAsValue {} rfl rfl
  obtain ⟨hraised, -⟩ := evaluateTree_error_iff_raised misled sumWithRead .null
  obtain ⟨-, hown⟩ := evaluateTree_error_iff_raised misled (.name "read" {}) .null
  refine ⟨⟨hreaches, hfails, ?_⟩, .root _ _, hfaults, hown 4 _ _ (.root _ _) hfaults⟩
  exact (hraised _).2 (.inr ⟨1, "read", _, {}, textFault, hreaches, hfails, by decide⟩)

end Evaluator

end DataExpr
