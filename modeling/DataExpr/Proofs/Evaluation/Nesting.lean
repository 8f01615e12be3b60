import DataExpr.Proofs.Evaluation.Calls
import DataExpr.Proofs.Evaluation.Limit
import DataExpr.Proofs.Value.Lookup

/-!
# Calls within calls

A helper can evaluate expressions, and these can call helpers again, the same one included.
The depth limit spans all of it (`calls_within_limit`).

`Invokes` are the invocations of a tree's own calls.  It follows the evaluation node by node
(`Evaluates`): a part is evaluated only if everything before it has a value.  `Chain` goes on
into the helpers.  All that a helper gets to evaluate expressions with is its `Call`, so
behind an invocation may stand any invocation of any text, against any context, with the
levels that the call has left.

A tree uses at least one level up to a call, so the levels fall along a chain
(`Chain.pairwise_left`) and the depths rise.  Nothing is missing in the chains: an evaluation
is the same for all helpers that do the same at the invocations in them
(`eval_eq_of_agreesAt`).
-/

namespace DataExpr

/-- A helper called with values, and the levels left for the expressions it evaluates. -/
structure Invocation where
  /-- The name of the helper. -/
  name : String
  /-- The values of the arguments. -/
  values : List Value
  /-- The levels left. -/
  left : Nat

namespace Eval

variable {α β : Type}

/-- Items matter only if all items before them have values. -/
theorem mapM_congr_result {f g : α → Eval β} {items : List α}
    (h : ∀ before item after values, items = before ++ item :: after →
      (before.mapM f).result = .ok values → f item = g item) :
    items.mapM f = items.mapM g := by
  induction items with
  | nil => rfl
  | cons item items ih =>
    have hfirst : f item = g item := h [] item items [] rfl rfl
    rw [List.mapM_cons, List.mapM_cons, ← hfirst]
    refine bind_congr_result fun a ha => ?_
    have hrest : items.mapM f = items.mapM g := by
      refine ih fun before other after values hitems hvalues => ?_
      refine h (item :: before) other after (a :: values) (by rw [hitems, List.cons_append]) ?_
      exact result_mapM_eq_ok_iff.2 (.cons ha (result_mapM_eq_ok_iff.1 hvalues))
    rw [hrest]

end Eval

namespace Evaluator

/-! ## Invocations -/

section

variable (ev : Evaluator)

/-- What the helper is told about the invocation. -/
def callOf (i : Invocation) : Call :=
  ev.callAt i.left i.name

/-- The evaluation of a node evaluates this part of it with `left` levels left. -/
inductive Evaluates (left : Nat) (scope : Scope) : Expr → Expr → Prop
  | memberObject (object : Expr) (property : String) (span : Span) :
      Evaluates left scope (.member object property span) object
  | indexObject (object key : Expr) (span : Span) :
      Evaluates left scope (.index object key span) object
  | indexKey (object key : Expr) (span : Span) {target : Operand}
      (hobject : (ev.eval left scope object).result = .ok target) :
      Evaluates left scope (.index object key span) key
  | argument (name : String) (before : List Expr) (argument : Expr) (after : List Expr)
      (span : Span) {helper : Helper} {values : List Value}
      (hcallee : ev.callee scope name = .ok helper)
      (hbefore : (before.mapM (ev.argumentValue left scope)).result = .ok values) :
      Evaluates left scope (.call name (before ++ argument :: after) span) argument
  | operand (op : UnaryOp) (operand : Expr) (span : Span) :
      Evaluates left scope (.unary op operand span) operand
  | binaryFirst (op : BinaryOp) (first second : Expr) (span : Span) :
      Evaluates left scope (.binary op first second span) first
  | binarySecond (op : BinaryOp) (first second : Expr) (span : Span) {value : Operand}
      (hfirst : (ev.eval left scope first).result = .ok value) :
      Evaluates left scope (.binary op first second span) second
  | logicalFirst (op : LogicalOp) (first second : Expr) (span : Span) :
      Evaluates left scope (.logical op first second span) first
  | logicalSecond (op : LogicalOp) (first second : Expr) (span : Span) {value : Operand}
      (hfirst : (ev.eval left scope first).result = .ok value)
      (hopen : op.isDecidedBy value = false) :
      Evaluates left scope (.logical op first second span) second

/-- The evaluation of a tree comes to this invocation by the tree's own calls. -/
inductive Invokes (scope : Scope) : (left : Nat) → Expr → Invocation → Prop
  | call {left : Nat} {name : String} {arguments : List Expr} {span : Span} {helper : Helper}
      {values : List Value} (hcallee : ev.callee scope name = .ok helper)
      (hvalues : (arguments.mapM (ev.argumentValue left scope)).result = .ok values) :
      Invokes scope (left + 1) (.call name arguments span) ⟨name, values, left⟩
  | inside {left : Nat} {tree part : Expr} {i : Invocation}
      (hpart : ev.Evaluates left scope tree part) (h : Invokes scope left part i) :
      Invokes scope (left + 1) tree i

/-- Invocations each of which, but for the first, comes about while the helper of the one
before it evaluates a text. -/
inductive Chain : (left : Nat) → Scope → Expr → List Invocation → Prop
  | last {left : Nat} {scope : Scope} {tree : Expr} {i : Invocation}
      (h : ev.Invokes scope left tree i) : Chain left scope tree [i]
  | next {left : Nat} {scope : Scope} {tree inner : Expr} {i : Invocation}
      {chain : List Invocation} {source : String} {context : Value}
      (h : ev.Invokes scope left tree i) (hinner : prepare source context = .ok inner)
      (rest : Chain i.left (ev.scope context) inner chain) : Chain left scope tree (i :: chain)

end

variable {ev other : Evaluator} {left : Nat} {scope : Scope} {tree : Expr}

/-! ## How deep chains go -/

theorem Invokes.left_lt {i : Invocation} (h : ev.Invokes scope left tree i) : i.left < left := by
  induction h with
  | call => exact Nat.lt_succ_self _
  | inside _ _ ih => exact Nat.lt_succ_of_lt ih

theorem Chain.left_lt {chain : List Invocation} (h : ev.Chain left scope tree chain) :
    ∀ i ∈ chain, i.left < left := by
  induction h with
  | last hinvokes =>
    intro i hi
    rw [List.mem_singleton.1 hi]
    exact hinvokes.left_lt
  | next hinvokes _ _ ih =>
    rw [List.forall_mem_cons]
    constructor
    · exact hinvokes.left_lt
    · intro inner hinner
      exact Nat.lt_trans (ih inner hinner) hinvokes.left_lt

theorem Chain.inside {part : Expr} {chain : List Invocation}
    (hpart : ev.Evaluates left scope tree part) (h : ev.Chain left scope part chain) :
    ev.Chain (left + 1) scope tree chain := by
  cases h with
  | last hinvokes => exact .last (.inside hpart hinvokes)
  | next hinvokes hinner rest => exact .next (.inside hpart hinvokes) hinner rest

theorem Chain.pairwise_left {chain : List Invocation} (h : ev.Chain left scope tree chain) :
    chain.Pairwise fun outer inner => inner.left < outer.left := by
  induction h with
  | last => exact List.pairwise_singleton _ _
  | next _ _ rest ih => exact List.pairwise_cons.2 ⟨rest.left_lt, ih⟩

theorem Chain.length_le {chain : List Invocation} (h : ev.Chain left scope tree chain) :
    chain.length ≤ left := by
  induction h with
  | last hinvokes => exact Nat.lt_of_le_of_lt (Nat.zero_le _) hinvokes.left_lt
  | next hinvokes _ _ ih => exact Nat.lt_of_le_of_lt ih hinvokes.left_lt

/-- The depth that a helper is told and the levels left for it make up the limit. -/
theorem depth_add_left {i : Invocation} (h : i.left < ev.config.maxDepth + 1) :
    (ev.callOf i).depth + i.left = ev.config.maxDepth :=
  Nat.sub_add_cancel (Nat.le_of_lt_succ h)

/-! ## Other helpers under the same names -/

/-- The evaluators have the same settings, and helpers under the same names. -/
structure SameNames (ev other : Evaluator) : Prop where
  config : other.config = ev.config
  keys : Entries.keys other.helpers.helpers = Entries.keys ev.helpers.helpers

/-- The two helpers of the name do the same at an invocation. -/
def AgreesAt (ev other : Evaluator) (i : Invocation) : Prop :=
  ∀ helper helper', ev.helpers.get? i.name = some helper →
    other.helpers.get? i.name = some helper' →
      helper' i.values (ev.callOf i) = helper i.values (ev.callOf i)

/-- The helper that does what another does up to a depth, and above it what `beyond` does. -/
def splitAt (depth : Nat) (beyond helper : Helper) : Helper :=
  fun values call => if call.depth ≤ depth then helper values call else beyond values call

/-- The evaluator with all its helpers changed above a depth.  What stands in their place is
told by its `Call` for which of them. -/
def changedAbove (ev : Evaluator) (depth : Nat) (beyond : Helper) : Evaluator :=
  { ev with helpers := ⟨Entries.mapValues (splitAt depth beyond) ev.helpers.helpers⟩ }

namespace SameNames

theorem isSome_get? (h : ev.SameNames other) (name : String) :
    (other.helpers.get? name).isSome = (ev.helpers.get? name).isSome := by
  rw [Bool.eq_iff_iff]
  exact (Entries.get?_isSome_iff.trans (by rw [h.keys])).trans Entries.get?_isSome_iff.symm

theorem helperNames_eq (h : ev.SameNames other) : other.helpers.names = ev.helpers.names := by
  rw [Registry.names, Registry.names, h.keys]

theorem scope_eq (h : ev.SameNames other) (context : Value) :
    other.scope context = ev.scope context := by
  rw [scope, scope, h.config]

theorem lookup_eq (h : ev.SameNames other) (scope : Scope) (name : String) :
    other.lookup scope name = ev.lookup scope name := by
  unfold lookup Registry.has
  rw [h.isSome_get? name]

/-- Where one evaluator finds a helper the other finds one too, and else both fail alike. -/
theorem callee_cases (h : ev.SameNames other) (scope : Scope) (name : String) :
    (∃ error, ev.callee scope name = .error error ∧ other.callee scope name = .error error) ∨
      ∃ helper helper', ev.callee scope name = .ok helper ∧
        other.callee scope name = .ok helper' := by
  have hsome := h.isSome_get? name
  unfold callee
  cases (scope.get? name).isSome with
  | true => exact .inl ⟨_, rfl, rfl⟩
  | false =>
    cases hfirst : ev.helpers.get? name <;> cases hsecond : other.helpers.get? name <;>
      rw [hfirst, hsecond] at hsome
    · exact .inl ⟨_, rfl, rfl⟩
    · cases hsome
    · cases hsome
    · exact .inr ⟨_, _, rfl, rfl⟩

/-- A text that is prepared alike is evaluated alike, if its tree is. -/
theorem evaluateBy_eq (h : ev.SameNames other) {evalTree evalTree' : Scope → Expr → Eval Operand}
    (source : String) (context : Value) (fallback? : Option Value)
    (htree : ∀ tree, prepare source context = .ok tree →
      evalTree' (ev.scope context) tree = evalTree (ev.scope context) tree) :
    other.evaluateBy evalTree' source context fallback? =
      ev.evaluateBy evalTree source context fallback? := by
  unfold evaluateBy
  rw [h.scope_eq]
  refine Eval.bind_congr_result fun tree hprepare => ?_
  dsimp only
  rw [htree tree hprepare]

/-- Helpers are told the same if they evaluate texts alike. -/
theorem callAt_eq (h : ev.SameNames other) (name : String)
    (hinner : ∀ source context tree, prepare source context = .ok tree →
      other.eval left (ev.scope context) tree = ev.eval left (ev.scope context) tree) :
    other.callAt left name = ev.callAt left name := by
  have hevaluate : other.evaluateBy (other.eval left) = ev.evaluateBy (ev.eval left) := by
    funext source context fallback?
    exact h.evaluateBy_eq source context fallback? (hinner source context)
  rw [callAt, callAt, h.config, h.helperNames_eq, hevaluate]

end SameNames

/-- A node is evaluated alike if its parts are, and if it is a call also the helpers do the
same. -/
theorem eval_eq_of_parts (hsame : ev.SameNames other)
    (hparts : ∀ part, ev.Evaluates left scope tree part →
      other.eval left scope part = ev.eval left scope part)
    (hcall : ∀ name arguments span helper helper' values, tree = .call name arguments span →
      ev.callee scope name = .ok helper → other.callee scope name = .ok helper' →
      (arguments.mapM (ev.argumentValue left scope)).result = .ok values →
      helper' values (other.callAt left name) = helper values (ev.callAt left name)) :
    other.eval (left + 1) scope tree = ev.eval (left + 1) scope tree := by
  cases tree with
  | literal | undefined | this => rfl
  | name text => rw [eval, eval, hsame.lookup_eq]
  | member object property span => rw [eval, eval, hparts _ (.memberObject object property span)]
  | index object key span =>
    rw [eval, eval, hparts _ (.indexObject object key span)]
    refine Eval.bind_congr_result fun target htarget => ?_
    rw [hparts _ (.indexKey object key span htarget)]
  | call name arguments span =>
    rw [eval_call, eval_call]
    rcases hsame.callee_cases scope name with ⟨error, hfirst, hsecond⟩ | ⟨_, _, hfirst, hsecond⟩
    · rw [hfirst, hsecond]
      rfl
    · have harguments : arguments.mapM (other.argumentValue left scope) =
          arguments.mapM (ev.argumentValue left scope) := by
        refine (Eval.mapM_congr_result fun before argument after values heq hvalues => ?_).symm
        subst heq
        rw [argumentValue, argumentValue,
          hparts argument (.argument name before argument after span hfirst hvalues)]
      rw [hfirst, hsecond, harguments, Eval.ofExcept_ok_bind, Eval.ofExcept_ok_bind]
      refine Eval.bind_congr_result fun values hvalues => ?_
      rw [hcall name arguments span _ _ values rfl hfirst hsecond hvalues]
  | unary op operand span => rw [eval, eval, hparts _ (.operand op operand span)]
  | binary op first second span =>
    rw [eval, eval, hparts _ (.binaryFirst op first second span)]
    refine Eval.bind_congr_result fun value hvalue => ?_
    rw [hparts _ (.binarySecond op first second span hvalue)]
  | logical op first second span =>
    rw [eval, eval, hparts _ (.logicalFirst op first second span)]
    refine Eval.bind_congr_result fun value hvalue => ?_
    cases hdecided : op.isDecidedBy value with
    | true => rfl
    | false => rw [hparts _ (.logicalSecond op first second span hvalue hdecided)]

/-- Evaluations are the same for helpers that do the same at all invocations in their
chains. -/
theorem eval_eq_of_agreesAt (hsame : ev.SameNames other)
    (hagree : ∀ chain i, ev.Chain left scope tree (chain ++ [i]) → ev.AgreesAt other i) :
    other.eval left scope tree = ev.eval left scope tree := by
  -- Parts and inner texts have fewer levels left, and their chains belong to chains of the
  -- tree: the same ones for a part, and those with the call in front for an inner text.
  induction left generalizing scope tree with
  | zero => rw [eval, eval, hsame.config]
  | succ left ih =>
    refine eval_eq_of_parts hsame (fun part hpart => ?_) ?_
    · exact ih fun chain i hchain => hagree chain i (hchain.inside hpart)
    · rintro name arguments span helper helper' values rfl hfirst hsecond hvalues
      have hinvokes : ev.Invokes scope (left + 1) (.call name arguments span)
          ⟨name, values, left⟩ := .call hfirst hvalues
      have htold : other.callAt left name = ev.callAt left name := by
        refine hsame.callAt_eq name fun source context inner hinner => ?_
        exact ih fun chain i hchain => hagree (_ :: chain) i (.next hinvokes hinner hchain)
      rw [htold]
      exact hagree [] _ (.last hinvokes) helper helper' (ev.callee_eq_ok_iff.1 hfirst).2
        (other.callee_eq_ok_iff.1 hsecond).2

theorem sameNames_changedAbove (ev : Evaluator) (depth : Nat) (beyond : Helper) :
    ev.SameNames (ev.changedAbove depth beyond) :=
  ⟨rfl, Entries.keys_mapValues (splitAt depth beyond) ev.helpers.helpers⟩

/-- No helper is told a depth above the limit, so changes above it are not seen. -/
theorem agreesAt_changedAbove (ev : Evaluator) (beyond : Helper) (i : Invocation) :
    ev.AgreesAt (ev.changedAbove ev.config.maxDepth beyond) i := by
  intro helper helper' hfirst hsecond
  have hdepth : (ev.callOf i).depth ≤ ev.config.maxDepth := Nat.sub_le _ _
  have hchanged : (ev.changedAbove ev.config.maxDepth beyond).helpers.get? i.name =
      (ev.helpers.get? i.name).map (splitAt ev.config.maxDepth beyond) :=
    Entries.get?_mapValues _ _ _
  rw [hchanged, hfirst] at hsecond
  obtain rfl : splitAt ev.config.maxDepth beyond helper = helper' := Option.some.inj hsecond
  exact if_pos hdepth

/-- The depth limit spans helpers that evaluate expressions.  Along a chain of invocations,
in which each helper evaluates a text that comes to the next, the depths that the helpers are
told rise up to the limit, and so there are at most as many as the limit and one.  Only
invocations in chains matter to an evaluation, and what helpers do above the limit does not
matter at all. -/
theorem calls_within_limit (ev : Evaluator) (context : Value) :
    (∀ tree chain, ev.Chain (ev.config.maxDepth + 1) (ev.scope context) tree chain →
      (∀ i ∈ chain, (ev.callOf i).depth + i.left = ev.config.maxDepth) ∧
      chain.Pairwise (fun outer inner => (ev.callOf outer).depth < (ev.callOf inner).depth) ∧
      chain.length ≤ ev.config.maxDepth + 1) ∧
    (∀ other tree, ev.SameNames other →
      (∀ chain i, ev.Chain (ev.config.maxDepth + 1) (ev.scope context) tree (chain ++ [i]) →
        ev.AgreesAt other i) →
      other.evaluateTree tree context = ev.evaluateTree tree context) ∧
    ∀ beyond : Helper,
      (∀ tree, (ev.changedAbove ev.config.maxDepth beyond).evaluateTree tree context =
        ev.evaluateTree tree context) ∧
      ∀ source fallback?,
        (ev.changedAbove ev.config.maxDepth beyond).evaluate source context fallback? =
          ev.evaluate source context fallback? := by
  have hdetermined : ∀ other tree, ev.SameNames other →
      (∀ chain i, ev.Chain (ev.config.maxDepth + 1) (ev.scope context) tree (chain ++ [i]) →
        ev.AgreesAt other i) →
      other.evaluateTree tree context = ev.evaluateTree tree context := by
    intro other tree hsame hagree
    rw [evaluateTree, evaluateTree, hsame.config, hsame.scope_eq]
    exact eval_eq_of_agreesAt hsame hagree
  refine ⟨fun tree chain hchain => ?_, hdetermined, fun beyond => ?_⟩
  · have hdepth : ∀ i ∈ chain, (ev.callOf i).depth + i.left = ev.config.maxDepth :=
      fun i hi => depth_add_left (hchain.left_lt i hi)
    refine ⟨hdepth, ?_, hchain.length_le⟩
    refine hchain.pairwise_left.imp_of_mem fun houter hinner hleft => ?_
    have hfirst := hdepth _ houter
    have hsecond := hdepth _ hinner
    omega
  · have hsame := ev.sameNames_changedAbove ev.config.maxDepth beyond
    have htree : ∀ tree, (ev.changedAbove ev.config.maxDepth beyond).evaluateTree tree context =
        ev.evaluateTree tree context :=
      fun tree => hdetermined _ tree hsame fun _ i _ => ev.agreesAt_changedAbove beyond i
    refine ⟨htree, fun source fallback? => ?_⟩
    exact hsame.evaluateBy_eq source context fallback? fun tree _ => htree tree

/-- The standard evaluator with a limit of two. -/
def atMostTwo : Evaluator :=
  withLimit {} 2

/-- The same with helpers that fail above the limit. -/
def failingBeyondTwo : Evaluator :=
  atMostTwo.changedAbove 2 fun _ call => throw { cause := .helperFailed call.name "too deep" }

/-- A context with a text that evaluates itself. -/
def selfCalling : Value :=
  .mapping [("x", .text "getObjectValue(x, this)")]

/-- The tree of the text `getObjectValue(x, this)`. -/
def selfCall : Expr :=
  .call "getObjectValue" [.name "x" ⟨15, 16, 1, 16⟩, .this ⟨18, 22, 1, 19⟩] ⟨0, 23, 1, 1⟩

/-- The invocation by `selfCall` with so many levels left. -/
def selfInvocation (left : Nat) : Invocation :=
  ⟨"getObjectValue", [.text "getObjectValue(x, this)", selfCalling], left⟩

set_option maxRecDepth 4000 in
theorem prepare_selfCall : prepare "getObjectValue(x, this)" selfCalling = .ok selfCall := by
  rfl

/-- The text comes to itself once.  After that no level is left for its arguments. -/
theorem chain_selfCall :
    atMostTwo.Chain 3 (atMostTwo.scope selfCalling) selfCall
      [selfInvocation 2, selfInvocation 1] := by
  have hcallee : atMostTwo.callee (atMostTwo.scope selfCalling) "getObjectValue" =
      .ok Registry.getObjectValue := rfl
  exact .next (.call hcallee rfl) prepare_selfCall (.last (.call hcallee rfl))

/-- Two invocations of a helper within itself, the second deeper than the first, and an
evaluation that does not see what helpers do above the limit. -/
theorem calls_within_limit_selfCall :
    (atMostTwo.Chain 3 (atMostTwo.scope selfCalling) selfCall
        [selfInvocation 2, selfInvocation 1] ∧
      atMostTwo.SameNames failingBeyondTwo ∧
      ∀ chain i, atMostTwo.Chain 3 (atMostTwo.scope selfCalling) selfCall (chain ++ [i]) →
        atMostTwo.AgreesAt failingBeyondTwo i) ∧
    [selfInvocation 2, selfInvocation 1].Pairwise (fun outer inner =>
      (atMostTwo.callOf outer).depth < (atMostTwo.callOf inner).depth) ∧
    failingBeyondTwo.evaluateTree selfCall selfCalling =
      atMostTwo.evaluateTree selfCall selfCalling := by
  have hsame : atMostTwo.SameNames failingBeyondTwo := sameNames_changedAbove _ _ _
  have hagree : ∀ chain i,
      atMostTwo.Chain 3 (atMostTwo.scope selfCalling) selfCall (chain ++ [i]) →
        atMostTwo.AgreesAt failingBeyondTwo i :=
    fun _ i _ => agreesAt_changedAbove atMostTwo _ i
  obtain ⟨hchain, hdetermined, -⟩ := calls_within_limit atMostTwo selfCalling
  exact ⟨⟨chain_selfCall, hsame, hagree⟩, (hchain _ _ chain_selfCall).2.1,
    hdetermined failingBeyondTwo selfCall hsame hagree⟩

end Evaluator

end DataExpr
