import DataExpr.Proofs.Decimal.Positions
import DataExpr.Proofs.Evaluation.Failure
import DataExpr.Proofs.Evaluation.Placeless
import DataExpr.Proofs.Path.Tokens
import DataExpr.Proofs.Syntax.Compile

/-!
# Paths as expressions

A text that is both a path and an expression means the same as either
(`evaluate_write`): evaluated against a mapping, it gives what walking along the segments
of the path gives.

The tokens of the text are a phrase (`exists_phrase`), so the parser reads a tree of
nested steps.  Evaluating it fails where the walk leads nowhere, and takes the same step
elsewhere (`settle_property`).  Spans play no part in evaluation (`eval_unplaced`).
-/

namespace DataExpr

/-! ## Phrases of steps -/

/-- A keyword names the property that it spells. -/
theorem namesProperty_wordKind (text : String) : NamesProperty (wordKind text.toList) text := by
  rw [wordKind, String.ofList_toList]
  split
  · rename_i word hword
    have htext : word.text = text := by
      unfold Keyword.ofText? at hword
      split at hword <;> cases hword <;> rfl
    rw [← htext]
    exact .keyword word
  · exact .name text

namespace Path

/-- The node that a step makes of the tree before it. -/
def Step.node (tree : Expr) : Step → Expr
  | .name text _ => .member tree text {}
  | .position i _ => .index tree (.literal (Value.ofNat i) {}) {}
  | .quoted _ key _ _ _ => .index tree (.literal (.text key) {}) {}

/-- The tree of a path. -/
def tree (head : String) (steps : List Step) : Expr :=
  steps.foldl Step.node (.name head {})

theorem tree_concat (head : String) (steps : List Step) (step : Step) :
    tree head (steps ++ [step]) = step.node (tree head steps) := by
  rw [tree, List.foldl_append]
  rfl

/-- A phrase goes on with a step. -/
theorem Step.exists_phrase {tree : Expr} (step : Step) (object : Phrase .stepped tree) :
    ∃ phrase : Phrase .stepped (step.node tree),
      phrase.tokens = object.tokens ++ step.tokens ∧ phrase.steps = object.steps + 1 ∧
        phrase.nesting ≤ max object.nesting (object.steps + 2) := by
  cases step with
  | name text => exact object.exists_member (namesProperty_wordKind text)
  | position i => exact object.exists_index (.number (Decimal.ofNat i))
  | quoted quote text => exact object.exists_index (.string text)

theorem exists_phrase (head : String) (steps : List Step) :
    ∃ phrase : Phrase .stepped (tree head steps),
      phrase.tokens = .name head :: steps.flatMap Step.tokens ∧
        phrase.steps = steps.length ∧ phrase.nesting ≤ steps.length + 1 := by
  induction steps using List.reverseRecOn with
  | nil => exact ⟨.start (.atom _ (.name head)), rfl, rfl, Nat.zero_le _⟩
  | append_singleton steps step ih =>
    obtain ⟨phrase, htokens, hsteps, hnesting⟩ := ih
    obtain ⟨longer, htokens', hsteps', hnesting'⟩ := step.exists_phrase phrase
    rw [tree_concat, List.length_append, List.length_singleton]
    refine ⟨longer, ?_, ?_, ?_⟩
    · rw [htokens', htokens, List.flatMap_append, List.flatMap_singleton, List.cons_append]
    · rw [hsteps', hsteps]
    · omega

/-- The text of a path with few enough steps is read as its tree. -/
theorem exists_parse {head : String} (hhead : isIdentifier head = true) {steps : List Step}
    (hcount : steps.length ≤ 250) :
    ∃ placed, Expr.parse (write head steps) = .ok placed ∧ placed.unplaced = tree head steps := by
  obtain ⟨phrase, htokens, -, hnesting⟩ := exists_phrase head steps
  apply parse_of_phrase phrase.withoutOperators
  · rw [Phrase.tokens_withoutOperators, htokens, kinds_write hhead, List.cons_append]
  · rw [Phrase.nesting_withoutOperators]
    unfold maxNesting
    omega

/-! ## Walks -/

theorem resolve_append (value : Value) (front back : List String) :
    resolve value (front ++ back) = (resolve value front).bind (resolve · back) := by
  induction front generalizing value with
  | nil => rfl
  | cons segment front ih =>
    rw [List.cons_append, resolve, resolve, Option.bind_assoc]
    exact congrArg _ (funext fun next => ih next)

/-- No segment is looked up in a text or a pattern. -/
def avoidsTexts (value : Value) : List String → Bool
  | [] => true
  | segment :: segments =>
      value.kind ≠ .string && value.kind ≠ .regex &&
        match step value segment with
        | some next => avoidsTexts next segments
        | none => true

theorem avoidsTexts_concat {value : Value} {front : List String} {segment : String}
    (h : avoidsTexts value (front ++ [segment]) = true) :
    avoidsTexts value front = true ∧
      ∀ target, resolve value front = some target →
        target.kind ≠ .string ∧ target.kind ≠ .regex := by
  induction front generalizing value with
  | nil =>
    refine ⟨rfl, ?_⟩
    rintro _ ⟨⟩
    simp [avoidsTexts] at h
    exact h.1
  | cons first front ih =>
    rw [List.cons_append, avoidsTexts, Bool.and_eq_true] at h
    rw [avoidsTexts, resolve, h.1, Bool.true_and]
    cases hstep : step value first with
    | none => exact ⟨rfl, fun _ htarget => by cases htarget⟩
    | some next =>
      have hrest := h.2
      rw [hstep] at hrest
      exact ih hrest

theorem readPosition?_of_isNameShaped {text : String} (h : IsNameShaped text) :
    Decimal.readPosition? text = none := by
  obtain ⟨c, cs, hchars, hstart, -⟩ := h.exists_chars
  have hplus : c ≠ '+' := by
    rintro rfl
    rw [isNameStart_of_ascii (by decide)] at hstart
    exact absurd hstart (by decide)
  rw [Decimal.readPosition?_of_ne_plus hchars hplus, List.all_cons,
    not_isDigit_of_isNameStart hstart, Bool.false_and]
  exact if_neg fun h => Bool.false_ne_true h.1

theorem Step.readIndex?_key (step : Step) :
    Decimal.readIndex? step.key = Decimal.readPosition? step.key := by
  apply Decimal.readIndex?_eq
  cases step with
  | name text shaped => exact .inr (readPosition?_of_isNameShaped shaped)
  | position i => exact .inl ⟨i, rfl⟩
  | quoted _ _ _ _ canonical => exact canonical

/-! ## Steps of an evaluation -/

/-- What a result comes to where a failure gives nothing. -/
def settle : Except Error Operand → Operand
  | .ok operand => operand
  | .error _ => none

/-- Reading a property is the step of a walk. -/
theorem settle_property {value : Value} (htext : value.kind ≠ .string)
    (hpattern : value.kind ≠ .regex) (step : Step) (hlength : step.key ≠ "length") :
    settle (property (some value) step.key) = Path.step value step.key := by
  cases value with
  | text => exact absurd rfl htext
  | pattern => exact absurd rfl hpattern
  | sequence items =>
    show sequenceProperty items step.key = _
    rw [sequenceProperty, if_neg hlength, step.readIndex?_key]
    rfl
  | null | bool | number | date | mapping => rfl

theorem result_eval_node (ev : Evaluator) {left : Nat} (hleft : 0 < left) (scope : Scope)
    (object : Expr) (step : Step) :
    (ev.eval (left + 1) scope (step.node object)).result =
      (ev.eval left scope object).result >>= fun target => property target step.key := by
  obtain ⟨left, rfl⟩ := Nat.exists_eq_add_one.2 hleft
  cases step with
  | name text =>
    rw [Step.node, Evaluator.eval, Eval.result_bind]
    rfl
  | position i exact =>
    have htext : Operand.toText (some (Value.ofNat i)) = Nat.repr i := formatNumber_ofNat exact
    rw [Step.node, Evaluator.eval, Eval.result_bind]
    simp only [Evaluator.eval, pure_bind, Eval.result_ofExcept, htext]
    rfl
  | quoted quote text =>
    rw [Step.node, Evaluator.eval, Eval.result_bind]
    simp only [Evaluator.eval, pure_bind, Eval.result_ofExcept]
    rfl

theorem settle_eval_tree (ev : Evaluator) (hbind : ev.config.bindContextKeys = true)
    (entries : Entries Value) (head : String) {steps : List Step} {left : Nat}
    (hleft : steps.length < left) (hlength : ∀ step ∈ steps, step.key ≠ "length")
    (havoids : avoidsTexts (.mapping entries) (head :: steps.map Step.key) = true) :
    settle (ev.eval left (ev.scope (.mapping entries)) (tree head steps)).result =
      resolve (.mapping entries) (head :: steps.map Step.key) := by
  induction steps using List.reverseRecOn generalizing left with
  | nil =>
    obtain ⟨left, rfl⟩ := Nat.exists_eq_add_one.2 hleft
    have hget : (ev.scope (.mapping entries)).get? head = Entries.get? entries head := by
      rw [Scope.get?, Evaluator.scope, hbind]
      rfl
    show settle (ev.lookup (ev.scope (.mapping entries)) head) = _
    rw [Evaluator.lookup, hget]
    cases hfound : Entries.get? entries head with
    | some value => simp [settle, resolve, Path.step, hfound]
    | none =>
      dsimp only
      split <;> simp [settle, resolve, Path.step, hfound]
  | append_singleton steps step ih =>
    rw [List.length_append, List.length_singleton] at hleft
    rw [List.map_append, ← List.cons_append] at havoids ⊢
    obtain ⟨left, rfl⟩ := Nat.exists_eq_add_one.2 (Nat.zero_lt_of_lt hleft)
    obtain ⟨hfront, htarget⟩ := avoidsTexts_concat havoids
    rw [List.forall_mem_append, List.forall_mem_singleton] at hlength
    have hwalk := @ih left (by omega) hlength.1 hfront
    rw [tree_concat, result_eval_node ev (by omega), resolve_append, ← hwalk]
    rw [← hwalk] at htarget
    cases hresult : (ev.eval left (ev.scope (.mapping entries)) (tree head steps)).result with
    | error error => rfl
    | ok target =>
      cases target with
      | none => rfl
      | some value =>
        obtain ⟨htext, hpattern⟩ := htarget value (by rw [hresult]; rfl)
        show settle (property (some value) step.key) = resolve value [step.key]
        rw [settle_property htext hpattern step hlength.2]
        cases hstep : Path.step value step.key <;> simp [resolve, hstep]

/-- Both readings of a path agree.  A path of a name and at most 250 steps is an
expression, too.  Evaluated against a mapping, it gives what walking along the segments
of the path gives, if no step is named `length` and none is taken in a text or a
pattern. -/
theorem evaluate_write (entries : Entries Value) {head : String}
    (hhead : isIdentifier head = true) {steps : List Step} (hcount : steps.length ≤ 250)
    (hlength : ∀ step ∈ steps, step.key ≠ "length")
    (havoids : avoidsTexts (.mapping entries) (segments (write head steps)) = true) :
    (evaluate (write head steps) (.mapping entries) none).result =
      .ok (resolve (.mapping entries) (segments (write head steps))) := by
  have hsegments := segments_write (isIdentifier_iff.1 hhead).1 steps
  obtain ⟨placed, hparse, hplaced⟩ := exists_parse hhead hcount
  have hprepare : Evaluator.prepare (write head steps) (.mapping entries) = .ok placed :=
    (Evaluator.prepare_eq_ok_iff _ _ _).2 ⟨hparse, fun h => by cases h.1⟩
  have hlevels : steps.length < ({} : Evaluator).config.maxDepth + 1 := by
    show steps.length < 257
    omega
  rw [hsegments] at havoids ⊢
  have hwalk := settle_eval_tree {} rfl entries head hlevels hlength havoids
  rw [← hplaced, Evaluator.eval_unplaced] at hwalk
  rw [evaluate, Evaluator.result_evaluate, hprepare, Except.map, ← hwalk, Evaluator.evaluateTree]
  cases (Evaluator.eval {} (({} : Evaluator).config.maxDepth + 1)
    (Evaluator.scope {} (.mapping entries)) placed).result <;> rfl

/-- The steps of the path `order.true[1]["unit price"]`. -/
def priceSteps : List Step :=
  [.name "true" ⟨'t', ['r', 'u', 'e'], rfl, by decide +kernel,
      List.all_eq_true.1 (by decide +kernel)⟩,
    .position 1 (by decide),
    .quoted '"' "unit price" rfl
      ⟨by decide, by decide, by decide, by decide, by decide⟩
      (.inr (by decide +kernel))]

/-- Entries in which the path leads to `true`. -/
def orderEntries : Entries Value :=
  [("order", .mapping [("true",
    .sequence [.null, .mapping [("unit price", .bool true)]])])]

/-- A reserved word, a position and a key in quotes. -/
theorem evaluate_write_priceSteps :
    (isIdentifier "order" = true ∧ priceSteps.length ≤ 250 ∧
      (∀ step ∈ priceSteps, step.key ≠ "length") ∧
      avoidsTexts (.mapping orderEntries) (segments (write "order" priceSteps)) = true) ∧
    (evaluate (write "order" priceSteps) (.mapping orderEntries) none).result =
      .ok (resolve (.mapping orderEntries) (segments (write "order" priceSteps))) := by
  have hhead : isIdentifier "order" = true := by decide +kernel
  have hcount : priceSteps.length ≤ 250 := by decide
  have hlength : ∀ step ∈ priceSteps, step.key ≠ "length" := by decide
  have havoids : avoidsTexts (.mapping orderEntries) (segments (write "order" priceSteps)) =
      true := by
    rw [segments_write (isIdentifier_iff.1 hhead).1]
    decide +kernel
  exact ⟨⟨hhead, hcount, hlength, havoids⟩, evaluate_write _ hhead hcount hlength havoids⟩

end Path

end DataExpr
