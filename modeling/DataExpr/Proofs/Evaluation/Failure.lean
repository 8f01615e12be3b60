import DataExpr.Evaluator.Basic
import DataExpr.Proofs.Syntax.Nodes
import Mathlib.Data.List.Forall2

/-!
# What escapes an evaluation

An evaluation of a text fails for the caller only if the text itself is at fault, or if
it uses a name where the context binds none (`evaluate_fails_iff`).  Everything that
goes wrong later gives way to the fallback.

Only names and calls are looked at one by one.  Any other node puts its parts together and
reads properties (`eval_succ_induction`), so it fails as its parts do, or at a property of
nothing (`eval_succ_errorsAre`).

Helpers are arbitrary here.  They may well come upon malformed texts of their own, but
each call on the way out turns such an error into a failure of the helper.  So no error
of a tree blames a text (`eval_errorsAre`), at whatever depth the call stands.
-/

namespace DataExpr

/-! ## Errors of a computation -/

namespace Eval

variable {α β : Type} {p : Error → Prop}

theorem ofExcept_ok_bind (a : α) (f : α → Eval β) : ofExcept (.ok a) >>= f = f a :=
  rfl

theorem result_bind_eq_ok_iff {x : Eval α} {f : α → Eval β} {b : β} :
    (x >>= f).result = .ok b ↔ ∃ a, x.result = .ok a ∧ (f a).result = .ok b := by
  rw [result_bind]
  cases x.result <;> simp [bind, Except.bind]

theorem result_bind_eq_error_iff {x : Eval α} {f : α → Eval β} {error : Error} :
    (x >>= f).result = .error error ↔
      x.result = .error error ∨ ∃ a, x.result = .ok a ∧ (f a).result = .error error := by
  rw [result_bind]
  cases x.result <;> simp [bind, Except.bind]

theorem result_mapM_eq_ok_iff {f : α → Eval β} {items : List α} {values : List β} :
    (items.mapM f).result = .ok values ↔
      List.Forall₂ (fun item value => (f item).result = .ok value) items values := by
  induction items generalizing values with
  | nil => simp [eq_comm]
  | cons item items ih =>
    simp only [List.mapM_cons, result_bind_eq_ok_iff, result_pure, Except.ok.injEq, ih,
      List.forall₂_cons_left_iff]
    grind

/-- Items are gone through up to the first that fails. -/
theorem exists_of_result_mapM_eq_error {f : α → Eval β} {items : List α} {error : Error}
    (h : (items.mapM f).result = .error error) :
    ∃ before item after values, items = before ++ item :: after ∧
      (before.mapM f).result = .ok values ∧ (f item).result = .error error := by
  induction items with
  | nil => cases h
  | cons item items ih =>
    rw [List.mapM_cons] at h
    rcases result_bind_eq_error_iff.1 h with hitem | ⟨a, ha, hrest⟩
    · exact ⟨[], item, items, [], rfl, rfl, hitem⟩
    · rcases result_bind_eq_error_iff.1 hrest with hrest | ⟨_, _, hpure⟩
      · obtain ⟨before, other, after, values, rfl, hbefore, hother⟩ := ih hrest
        have hvalues : ((item :: before).mapM f).result = .ok (a :: values) :=
          result_mapM_eq_ok_iff.2 (.cons ha (result_mapM_eq_ok_iff.1 hbefore))
        exact ⟨item :: before, other, after, a :: values, rfl, hvalues, hother⟩
      · cases hpure

/-- If the computation fails then with an error that satisfies `p`. -/
def ErrorsAre (p : Error → Prop) (x : Eval α) : Prop :=
  ∀ error, x.result = .error error → p error

theorem errorsAre_pure (a : α) : ErrorsAre p (pure a : Eval α) := by
  intro error h
  simp at h

theorem errorsAre_throw {error : Error} (h : p error) : ErrorsAre p (throw error : Eval α) := by
  intro other hother
  rw [result_throw] at hother
  exact Except.error.inj hother ▸ h

theorem errorsAre_ofExcept {r : Except Error α} (h : ∀ error, r = .error error → p error) :
    ErrorsAre p (ofExcept r) :=
  h

theorem errorsAre_mapError {f : Error → Error} (h : ∀ error, p (f error)) (x : Eval α) :
    ErrorsAre p (x.mapError f) := by
  intro error herror
  rw [result_mapError] at herror
  cases hx : x.result with
  | ok a =>
    rw [hx] at herror
    cases herror
  | error inner =>
    rw [hx] at herror
    cases herror
    exact h inner

theorem ErrorsAre.bind_ok {x : Eval α} {f : α → Eval β} (hx : ErrorsAre p x)
    (hf : ∀ a, x.result = .ok a → ErrorsAre p (f a)) : ErrorsAre p (x >>= f) := by
  intro error herror
  rw [result_bind] at herror
  cases hresult : x.result with
  | ok a =>
    rw [hresult] at herror
    exact hf a hresult error herror
  | error inner =>
    rw [hresult] at herror
    exact Except.error.inj herror ▸ hx inner hresult

theorem ErrorsAre.bind {x : Eval α} {f : α → Eval β} (hx : ErrorsAre p x)
    (hf : ∀ a, ErrorsAre p (f a)) : ErrorsAre p (x >>= f) :=
  hx.bind_ok fun a _ => hf a

theorem errorsAre_mapM {f : α → Eval β} {items : List α} (h : ∀ a ∈ items, ErrorsAre p (f a)) :
    ErrorsAre p (items.mapM f) := by
  induction items with
  | nil => exact errorsAre_pure []
  | cons item items ih =>
    rw [List.mapM_cons]
    rw [List.forall_mem_cons] at h
    exact h.1.bind fun _ => (ih h.2).bind fun _ => errorsAre_pure _

end Eval

/-! ## Errors of trees -/

/-- The error is not about the text of an expression. -/
def Error.SparesText (error : Error) : Prop :=
  error.isMalformed = false

/-- Whatever comes out of a helper is no longer about the text of an expression. -/
theorem Error.sparesText_inHelper (error : Error) (helper : String) :
    (error.inHelper helper).SparesText := by
  simp only [SparesText, isMalformed, inHelper]
  split
  · rfl
  · rename_i hcause
    cases hmalformed : error.cause with
    | malformed message line column sourceLine => exact absurd hmalformed (hcause _ _ _ _)
    | _ => rfl

/-- The two ways of being no value. -/
inductive Missing where
  /-- The value null. -/
  | null
  /-- No value at all. -/
  | undefined

/-- The operand that is no value. -/
def Missing.operand : Missing → Operand
  | .null => some .null
  | .undefined => none

/-- The word for a missing value. -/
def Missing.name : Missing → String
  | .null => "null"
  | .undefined => "undefined"

/-- Reading a property fails exactly if there is nothing to read it of. -/
theorem property_eq_error_iff {target : Operand} {key : String} {error : Error} :
    property target key = .error error ↔
      ∃ missing : Missing, target = missing.operand ∧
        error = { cause := .missingTarget key missing.name } := by
  constructor
  · intro h
    unfold property at h
    split at h <;> cases h
    · exact ⟨.undefined, rfl, rfl⟩
    · exact ⟨.null, rfl, rfl⟩
  · rintro ⟨missing, rfl, rfl⟩
    cases missing <;> rfl

namespace Evaluator

open Eval

variable (ev : Evaluator)

/-- A name without a value is that of a helper, or of nothing. -/
theorem lookup_eq_error_iff {scope : Scope} {name : String} {error : Error} :
    ev.lookup scope name = .error error ↔
      scope.get? name = none ∧
        error = { cause := if ev.helpers.has name then
            .helperFailed name "helpers can only be called" else .undefinedName name } := by
  unfold lookup
  cases scope.get? name with
  | some value => simp
  | none => cases ev.helpers.has name <;> simp [@eq_comm _ error]

/-- A callee that is no helper has a value, or stands for nothing. -/
theorem callee_eq_error_iff {scope : Scope} {name : String} {error : Error} :
    ev.callee scope name = .error error ↔
      (scope.get? name).isSome = true ∧ error = { cause := .notCallable name } ∨
        scope.get? name = none ∧ ev.helpers.has name = false ∧
          error = { cause := .undefinedName name } := by
  unfold callee Registry.has
  cases scope.get? name with
  | some value => simp [@eq_comm _ error]
  | none => cases ev.helpers.get? name <;> simp [@eq_comm _ error]

/-- A call reaches the helper of the name, unless the name is bound. -/
theorem callee_eq_ok_iff {scope : Scope} {name : String} {helper : Helper} :
    ev.callee scope name = .ok helper ↔
      scope.get? name = none ∧ ev.helpers.get? name = some helper := by
  unfold callee
  cases scope.get? name with
  | some value => simp
  | none => cases ev.helpers.get? name <;> simp

theorem sparesText_of_lookup {scope : Scope} {name : String} {error : Error}
    (h : ev.lookup scope name = .error error) : error.SparesText := by
  obtain ⟨-, rfl⟩ := ev.lookup_eq_error_iff.1 h
  split <;> rfl

theorem sparesText_of_callee {scope : Scope} {name : String} {error : Error}
    (h : ev.callee scope name = .error error) : error.SparesText := by
  rcases ev.callee_eq_error_iff.1 h with ⟨-, rfl⟩ | ⟨-, -, rfl⟩ <;> rfl

/-- What holds of plain results and of reading a property, and of computations one after
another if it holds of each, holds of a node without a name of its own if it holds of its
parts. -/
theorem eval_succ_induction {P : Eval Operand → Prop} {left : Nat} {scope : Scope} {tree : Expr}
    (hown : tree.ownName? = none) (hpure : ∀ operand, P (pure operand))
    (hread : ∀ target key, P (Eval.ofExcept (property target key)))
    (hbind : ∀ (x : Eval Operand) (f : Operand → Eval Operand),
      P x → (∀ operand, P (f operand)) → P (x >>= f))
    (hparts : ∀ part ∈ tree.parts, P (ev.eval left scope part)) :
    P (ev.eval (left + 1) scope tree) := by
  cases tree with
  | name | call => cases hown
  | literal | undefined | this => exact hpure _
  | member object key =>
    exact hbind _ _ (hparts object (by simp [Expr.parts])) fun target => hread target key
  | index object key =>
    refine hbind _ _ (hparts object (by simp [Expr.parts])) fun target => ?_
    exact hbind _ _ (hparts key (by simp [Expr.parts])) fun key => hread target key.toText
  | unary op operand =>
    exact hbind _ _ (hparts operand (by simp [Expr.parts])) fun _ => hpure _
  | binary op first second =>
    refine hbind _ _ (hparts first (by simp [Expr.parts])) fun _ => ?_
    exact hbind _ _ (hparts second (by simp [Expr.parts])) fun _ => hpure _
  | logical op first second =>
    refine hbind _ _ (hparts first (by simp [Expr.parts])) fun value => ?_
    split
    · exact hpure value
    · exact hparts second (by simp [Expr.parts])

/-- A node without a name of its own fails as its parts do, or at a property of nothing. -/
theorem eval_succ_errorsAre {p : Error → Prop} {left : Nat} {scope : Scope} {tree : Expr}
    (hown : tree.ownName? = none)
    (hproperty : ∀ key (missing : Missing), p { cause := .missingTarget key missing.name })
    (hparts : ∀ part ∈ tree.parts, ErrorsAre p (ev.eval left scope part)) :
    ErrorsAre p (ev.eval (left + 1) scope tree) := by
  refine ev.eval_succ_induction hown errorsAre_pure ?_ (fun _ _ => ErrorsAre.bind) hparts
  intro target key
  refine errorsAre_ofExcept fun error herror => ?_
  obtain ⟨missing, -, rfl⟩ := property_eq_error_iff.1 herror
  exact hproperty key missing

/-- No tree fails with an error about a text. -/
theorem eval_errorsAre (left : Nat) (scope : Scope) (tree : Expr) :
    ErrorsAre Error.SparesText (ev.eval left scope tree) := by
  -- A node uses one level for its parts, so the levels carry the induction.
  induction left generalizing tree with
  | zero => exact errorsAre_throw rfl
  | succ left ih =>
    cases tree with
    | name text => exact errorsAre_ofExcept fun _ => ev.sparesText_of_lookup
    | call name arguments =>
      refine (errorsAre_ofExcept fun _ => ev.sparesText_of_callee).bind fun helper => ?_
      refine (errorsAre_mapM fun argument _ => ?_).bind fun values => ?_
      · exact (ih argument).bind fun _ => errorsAre_pure _
      · exact errorsAre_mapError (Error.sparesText_inHelper · name) _
    | _ => exact ev.eval_succ_errorsAre rfl (fun _ _ => rfl) fun part _ => ih part

/-! ## Errors of texts -/

/-- Names need a context that is a sequence, a mapping, a date or a pattern. -/
theorem allowsNames_eq_false_iff (context : Value) :
    allowsNames context = false ↔ context.kind = .null ∨ context.kind.isPrimitive := by
  cases context <;> simp [allowsNames, Value.kind, Kind.isPrimitive]

/-- A text can be evaluated as a tree if it is that tree and the context allows its
names. -/
theorem prepare_eq_ok_iff (source : String) (context : Value) (tree : Expr) :
    prepare source context = .ok tree ↔
      Expr.parse source = .ok tree ∧
        ¬(allowsNames context = false ∧ ∃ name, tree.Spells name) := by
  rw [prepare]
  cases hparse : Expr.parse source with
  | error error => simp
  | ok found =>
    cases hallows : allowsNames context with
    | true => simp
    | false =>
      simp only [Bool.false_eq_true, if_false, Except.ok.injEq, true_and]
      cases hfree : found.firstFreeName? with
      | none =>
        have hspells := found.firstFreeName?_eq_none_iff.1 hfree
        simp only [Except.ok.injEq, iff_self_and]
        rintro rfl ⟨name, hname⟩
        exact hspells name hname
      | some free =>
        simp only [reduceCtorEq, false_iff, not_and, Classical.not_not]
        rintro rfl
        exact ⟨free.1, Expr.spells_of_firstFreeName? hfree⟩

/-- A mapping allows all names. -/
theorem prepare_mapping {source : String} {tree : Expr} (h : Expr.parse source = .ok tree)
    (entries : Entries Value) : prepare source (.mapping entries) = .ok tree :=
  (prepare_eq_ok_iff _ _ _).2 ⟨h, fun hdenied => by cases hdenied.1⟩

/-- A text cannot be prepared if it is malformed or uses names that the context does not
allow. -/
theorem prepare_fails_iff (source : String) (context : Value) :
    (∃ error, prepare source context = .error error) ↔
      (∃ error, Expr.parse source = .error error) ∨
        allowsNames context = false ∧
          ∃ tree, Expr.parse source = .ok tree ∧ ∃ name, tree.Spells name := by
  have hok := prepare_eq_ok_iff source context
  cases hprepare : prepare source context with
  | ok tree =>
    obtain ⟨hparse, hnames⟩ := (hok tree).1 hprepare
    simp only [reduceCtorEq, exists_false, hparse, Except.ok.injEq, exists_eq_left', false_or,
      false_iff]
    exact hnames
  | error error =>
    simp only [Except.error.injEq, exists_eq', true_iff]
    cases hparse : Expr.parse source with
    | error fault => exact .inl ⟨fault, rfl⟩
    | ok tree =>
      refine .inr (Classical.byContradiction fun h => ?_)
      have hnames : ¬(allowsNames context = false ∧ ∃ name, tree.Spells name) :=
        fun ⟨hallows, hname⟩ => h ⟨hallows, tree, rfl, hname⟩
      rw [(hok tree).2 ⟨hparse, hnames⟩] at hprepare
      simp at hprepare

/-- An error about a text knows the text and the place in it, and no helper. -/
theorem exists_inSource_errorAt (source : String) (span : Span) (message : String) :
    ∃ text line column sourceLine,
      (Parse.errorAt source span message).inSource source =
        ⟨.malformed text line column sourceLine,
          some ⟨some source, some line, some column, []⟩⟩ :=
  ⟨message, span.line, span.column, span.sourceLine source, rfl⟩

/-- A text that cannot be prepared is at fault itself. -/
theorem exists_of_prepare_eq_error {source : String} {context : Value} {error : Error}
    (h : prepare source context = .error error) :
    ∃ message line column sourceLine,
      error = ⟨.malformed message line column sourceLine,
        some ⟨some source, some line, some column, []⟩⟩ := by
  rw [prepare, Expr.parse] at h
  cases hnext : (Parse.State.ofSource source).next.1 with
  | error failure =>
    rw [hnext] at h
    obtain rfl := Except.error.inj h
    exact exists_inSource_errorAt source _ _
  | ok tree =>
    have hparse : (Except.ok tree).mapError (Parse.toError · source) = .ok tree := rfl
    rw [hnext, hparse] at h
    dsimp only at h
    split at h
    · obtain rfl := Except.error.inj h
      exact exists_inSource_errorAt source _ _
    · simp at h

/-- A text fails as soon as it cannot be prepared, and not after that. -/
theorem result_evaluateBy (evalTree : Scope → Expr → Eval Operand) (source : String)
    (context : Value) (fallback? : Option Value) :
    (ev.evaluateBy evalTree source context fallback?).result =
      (prepare source context).map fun tree =>
        match (evalTree (ev.scope context) tree).result with
        | .ok value => value
        | .error _ => fallback? := by
  simp only [evaluateBy, result_bind, result_ofExcept, result_ofLogged]
  cases prepare source context with
  | error error => rfl
  | ok tree =>
    simp only [Except.map, bind, Except.bind, recover, result, ExceptT.run, ExceptT.mk]
    cases hvalue : (evalTree (ev.scope context) tree).value <;> simp [Logged.bind, hvalue]

theorem result_evaluate (source : String) (context : Value) (fallback? : Option Value) :
    (ev.evaluate source context fallback?).result =
      (prepare source context).map fun tree =>
        match (ev.evaluateTree tree context).result with
        | .ok value => value
        | .error _ => fallback? :=
  ev.result_evaluateBy _ source context fallback?

/-- Evaluating a text fails exactly if the text is malformed, or uses a name against a
context that is null, a truth value, a number or a text.  The error then blames the text,
with the place in it.  Otherwise the result is that of the text's tree, or the fallback
where the tree fails; and no tree fails with an error that blames a text. -/
theorem evaluate_fails_iff (source : String) (context : Value) (fallback? : Option Value) :
    ((∃ error, (ev.evaluate source context fallback?).result = .error error) ↔
      (∃ error, Expr.parse source = .error error) ∨
        (context.kind = .null ∨ context.kind.isPrimitive) ∧
          ∃ tree, Expr.parse source = .ok tree ∧ ∃ name, tree.Spells name) ∧
    (∀ error, (ev.evaluate source context fallback?).result = .error error →
      ∃ message line column sourceLine,
        error = ⟨.malformed message line column sourceLine,
          some ⟨some source, some line, some column, []⟩⟩) ∧
    (∀ tree, Expr.parse source = .ok tree →
      ¬((context.kind = .null ∨ context.kind.isPrimitive) ∧ ∃ name, tree.Spells name) →
        (ev.evaluate source context fallback?).result =
          match (ev.evaluateTree tree context).result with
          | .ok value => .ok value
          | .error _ => .ok fallback?) ∧
    ∀ tree target error, (ev.evaluateTree tree target).result = .error error →
      error.isMalformed = false := by
  simp only [result_evaluate, ← allowsNames_eq_false_iff]
  refine ⟨?_, ?_, ?_, ?_⟩
  · rw [← prepare_fails_iff]
    cases prepare source context <;> simp [Except.map]
  · intro error h
    cases hprepare : prepare source context with
    | error fault =>
      rw [hprepare] at h
      obtain rfl := Except.error.inj h
      exact exists_of_prepare_eq_error hprepare
    | ok tree => simp [hprepare, Except.map] at h
  · intro tree hparse hnames
    rw [(prepare_eq_ok_iff source context tree).2 ⟨hparse, hnames⟩]
    cases hresult : (ev.evaluateTree tree context).result <;> simp [Except.map, hresult]
  · intro tree target error h
    exact ev.eval_errorsAre _ _ tree error h

end Evaluator

/-- A malformed text of a helper's own is no fault of the expression. -/
example : (evaluate "getObjectValue('(')" (.mapping []) (some .null)).result matches
    .ok (some .null) := by
  decide +kernel

end DataExpr
