import DataExpr.Proofs.Evaluation.Calls
import DataExpr.Proofs.Evaluation.Placeless
import DataExpr.Proofs.Syntax.Compile
import DataExpr.Proofs.Syntax.Words
import Mathlib.Data.List.Basic

/-!
# Names that can be written bare

A text is a name by itself exactly if it is an identifier, for the lexer, for the parser and
for the evaluator (`bare_iff_isIdentifier`).

The names in a tree come from tokens (`Phrase.name_mem_tokens`), and the lexer finds no name
that is not an identifier.  So no expression has any other names in it, not even as a callee,
and the keys of a context that are noted as not bindable are those that no expression can
name.
-/

namespace DataExpr

/-! ## Names of phrases -/

theorem Expr.spells_node_iff (connective : Parse.Connective) (left right : Expr) (name : String) :
    (connective.node left right).Spells name ↔ left.Spells name ∨ right.Spells name := by
  rw [spells_iff]
  cases connective <;> simp [Parse.Connective.node, ownName?, parts]

/-- An atom spells the name that it is. -/
theorem Atom.eq_name_of_spells {kind : TokenKind} {tree : Expr} (h : Atom kind tree)
    {name : String} (hspells : tree.Spells name) : kind = .name name := by
  rw [Expr.spells_iff] at hspells
  cases h <;> simp_all [Expr.ownName?, Expr.parts]

mutual

/-- The names of a phrase's tree are among its tokens. -/
theorem Phrase.name_mem_tokens {category : Category} {tree : Expr}
    (phrase : Phrase category tree) {name : String} (h : tree.Spells name) :
    .name name ∈ phrase.tokens := by
  match phrase with
  | .operand only => exact only.name_mem_tokens h
  | .join first sign _ last =>
    rw [Phrase.tokens, List.mem_append, List.mem_cons]
    rcases (Expr.spells_node_iff _ _ _ name).1 h with hleft | hright
    · exact .inl (first.name_mem_tokens hleft)
    · exact .inr (.inr (last.name_mem_tokens hright))
  | .apply sign _ body =>
    rw [Phrase.tokens, List.mem_cons]
    exact .inr (body.name_mem_tokens ((Expr.spells_unary_iff _ _ _ name).1 h))
  | .unsigned body => exact body.name_mem_tokens h
  | .start body => exact body.name_mem_tokens h
  | .member object kind hkind =>
    rw [Phrase.tokens, List.mem_append]
    exact .inl (object.name_mem_tokens ((Expr.spells_member_iff _ _ _ name).1 h))
  | .index object key =>
    rw [Phrase.tokens, List.mem_append, List.mem_cons, List.mem_append]
    rcases (Expr.spells_index_iff _ _ _ name).1 h with hobject | hkey
    · exact .inl (object.name_mem_tokens hobject)
    · exact .inr (.inr (.inl (key.name_mem_tokens hkey)))
  | .call callee arguments =>
    rw [Phrase.tokens, List.mem_append, List.mem_cons, List.mem_append]
    rcases (Expr.spells_call_iff _ _ _ name).1 h with hname | harguments
    · exact .inl (callee.name_mem_tokens (Expr.Spells.root (congrArg some hname)))
    · exact .inr (.inr (.inl (arguments.name_mem_tokens harguments)))
  | .atom kind hkind =>
    rw [Phrase.tokens, hkind.eq_name_of_spells h]
    exact List.mem_cons_self
  | .group inner =>
    rw [Phrase.tokens, List.mem_cons, List.mem_append]
    exact .inr (.inl (inner.name_mem_tokens h))

/-- The names of arguments are among their tokens. -/
theorem Arguments.name_mem_tokens {trees : List Expr} (list : Arguments trees) {name : String}
    (h : ∃ tree ∈ trees, tree.Spells name) : .name name ∈ list.tokens := by
  match list with
  | .nothing => simp at h
  | .last argument =>
    simp only [List.mem_singleton, exists_eq_left] at h
    exact argument.name_mem_tokens h
  | .more argument others =>
    rw [Arguments.tokens, List.mem_append, List.mem_cons]
    rcases (List.exists_mem_cons_iff _ _ _).1 h with hfirst | hothers
    · exact .inl (argument.name_mem_tokens hfirst)
    · exact .inr (.inr (others.name_mem_tokens hothers))

end

/-- All names in the tree of a text are identifiers. -/
theorem isIdentifier_of_spells {source : String} {tree : Expr} (h : Expr.parse source = .ok tree)
    {name : String} (hname : tree.Spells name) : isIdentifier name = true := by
  obtain ⟨phrase, htokens, -⟩ := exists_phrase_of_parse h
  have hmem : .name name ∈ kinds source := by
    rw [← htokens, List.mem_append]
    exact .inl (phrase.name_mem_tokens ((tree.spells_unplaced_iff name).2 hname))
  exact isIdentifier_of_mem_kinds hmem

/-! ## Bare names -/

theorem Expr.eq_name_of_unplaced {tree : Expr} {text : String}
    (h : tree.unplaced = .name text {}) : ∃ span, tree = .name text span := by
  cases tree <;> simp_all [Expr.unplaced]

/-- An identifier is the expression of its own name. -/
theorem exists_parse_identifier {name : String} (h : isIdentifier name = true) :
    ∃ span, Expr.parse name = .ok (.name name span) := by
  have hkinds : kinds name = [.name name, .endOfInput] := (kinds_eq_name_iff name).2 h
  obtain ⟨placed, hparse, hplaced⟩ := parse_of_phrase
    (Phrase.withoutOperators (.start (.atom _ (.name name)))) hkinds.symm (Nat.zero_lt_succ _)
  obtain ⟨span, rfl⟩ := Expr.eq_name_of_unplaced hplaced
  exact ⟨span, hparse⟩

/-- A text is the expression of its own name exactly if it is an identifier. -/
theorem parse_eq_name_iff (text : String) :
    (∃ span, Expr.parse text = .ok (.name text span)) ↔ isIdentifier text = true := by
  constructor
  · rintro ⟨span, h⟩
    exact isIdentifier_of_spells h (.root rfl)
  · exact exists_parse_identifier

/-- No expression has the key in it as a name. -/
def IsUnnameable (key : String) : Prop :=
  ∀ source tree, Expr.parse source = .ok tree → ¬tree.Spells key

/-- The keys that no expression can name are those that are no identifiers. -/
theorem isUnnameable_iff (key : String) : IsUnnameable key ↔ isIdentifier key = false := by
  constructor
  · intro h
    rw [Bool.eq_false_iff]
    intro hkey
    obtain ⟨span, hparse⟩ := exists_parse_identifier hkey
    exact h key _ hparse (.root rfl)
  · intro h source tree hparse hspells
    rw [isIdentifier_of_spells hparse hspells] at h
    cases h

instance (key : String) : Decidable (IsUnnameable key) :=
  decidable_of_iff _ (isUnnameable_iff key).symm

/-! ## Evaluation of names -/

theorem Eval.events_ofLogged_bind {α β : Type} (x : Logged α) (f : α → Eval β) :
    (ofLogged x >>= f).events = x.events ++ (f x.value).events := by
  rw [events, ofLogged, ExceptT.run_bind_lift, Logged.events_bind]
  rfl

namespace Evaluator

variable (ev : Evaluator) {entries : Entries Value}

theorem scope_mapping (hbind : ev.config.bindContextKeys = true) (entries : Entries Value) :
    ev.scope (.mapping entries) = ⟨.mapping entries, some entries⟩ := by
  rw [scope, hbind]
  rfl

/-- An identifier that is a key of the context evaluates to what is under it. -/
theorem result_evaluate_identifier (hbind : ev.config.bindContextKeys = true) {name : String}
    (hname : isIdentifier name = true) {value : Value}
    (hvalue : Entries.get? entries name = some value) (fallback? : Option Value) :
    (ev.evaluate name (.mapping entries) fallback?).result = .ok (some value) := by
  obtain ⟨span, hparse⟩ := exists_parse_identifier hname
  have hget : (ev.scope (.mapping entries)).get? name = some value := by
    rw [ev.scope_mapping hbind]
    exact hvalue
  have htree : (ev.evaluateTree (.name name span) (.mapping entries)).result =
      .ok (some value) := by
    show ev.lookup (ev.scope (.mapping entries)) name = _
    rw [lookup, hget]
  rw [result_evaluate, prepare_mapping hparse, Except.map, htree]

/-- A failure that gives way to the fallback is no report about keys. -/
theorem unbindableKey_not_mem_recover {x : Eval Operand} (hx : x.IsSilent) (source : String)
    (fallback? : Option Value) (key : String) :
    .unbindableKey key ∉ (recover source fallback? x).events := by
  rw [recover, Eval.events, ExceptT.run_mk, Logged.events_bind, show x.run.events = [] from hx,
    List.nil_append]
  cases x.run.value with
  | ok value => exact List.not_mem_nil
  | error error => cases fallback? <;> simp [Logged.note, -bind_pure_comp]

/-- The events of an evaluation start with those about the keys that no expression can
name.  Where nothing is called no others are about keys. -/
theorem exists_events_evaluate (hbind : ev.config.bindContextKeys = true) {source : String}
    {tree : Expr} (hparse : Expr.parse source = .ok tree) (fallback? : Option Value) :
    ∃ later, (ev.evaluate source (.mapping entries) fallback?).events =
        ((Entries.keys entries).filter (IsUnnameable ·)).map .unbindableKey ++ later ∧
      (tree.isCallFree → ∀ key, .unbindableKey key ∉ later) := by
  have hfilter : (Entries.keys entries).filter (IsUnnameable ·) =
      (Entries.keys entries).filter (!isIdentifier ·) := by
    simp only [isUnnameable_iff, Bool.decide_eq_false]
  rw [evaluate, evaluateBy, prepare_mapping hparse, ev.scope_mapping hbind, Eval.ofExcept_ok_bind,
    Eval.events_ofLogged_bind, hfilter]
  refine ⟨_, rfl, fun hfree key => ?_⟩
  exact unbindableKey_not_mem_recover (ev.eval_isSilent_of_callFree hfree _ _) source fallback? key

end Evaluator

/-- A name can be written bare exactly if it is an identifier.  The lexer and the parser then
find that name and nothing else, and there are no other names in the tree of any text.
Against a mapping whose keys are bound, an identifier evaluates to what is under it.  Every
evaluation first reports just the keys that no expression can name, and reports no others
unless a helper does. -/
theorem bare_iff_isIdentifier :
    (∀ text, (isIdentifier text = true ↔ kinds text = [.name text, .endOfInput]) ∧
      (isIdentifier text = true ↔ ∃ span, Expr.parse text = .ok (.name text span))) ∧
    (∀ source tree name, Expr.parse source = .ok tree → tree.Spells name →
      isIdentifier name = true) ∧
    ∀ (ev : Evaluator) (entries : Entries Value), ev.config.bindContextKeys = true →
      (∀ name value fallback?, isIdentifier name = true →
        Entries.get? entries name = some value →
          (ev.evaluate name (.mapping entries) fallback?).result = .ok (some value)) ∧
      ∀ source tree fallback?, Expr.parse source = .ok tree →
        ∃ later, (ev.evaluate source (.mapping entries) fallback?).events =
            ((Entries.keys entries).filter (IsUnnameable ·)).map .unbindableKey ++ later ∧
          (tree.isCallFree → ∀ key, .unbindableKey key ∉ later) := by
  refine ⟨fun text => ⟨(kinds_eq_name_iff text).symm, (parse_eq_name_iff text).symm⟩,
    fun source tree name hparse hname => isIdentifier_of_spells hparse hname,
    fun ev entries hbind => ⟨?_, ?_⟩⟩
  · intro name value fallback? hname hvalue
    exact ev.result_evaluate_identifier hbind hname hvalue fallback?
  · intro source tree fallback? hparse
    exact ev.exists_events_evaluate hbind hparse fallback?

/-- The key with a blank in it is reported before anything else. -/
example : (evaluate "b" (.mapping [("a b", .null), ("b", .bool true)]) none).events =
    [.unbindableKey "a b"] := by
  decide +kernel

end DataExpr
