import DataExpr.Expr.Basic

/-!
# The nodes of a tree

What occurs in an expression, at any depth and in the arguments of calls too.
`Expr.Contains` relates a tree to its nodes, and `Expr.Spells` to the names that it
looks up: those of its own and those of the helpers that it calls.

`Expr.firstFreeName?` does not search arguments, but it finds a name whenever there is
one (`firstFreeName?_eq_none_iff`), because a call is a name already.
-/

namespace DataExpr

namespace Expr

/-- The expressions that a node is made of, from left to right. -/
def parts : Expr → List Expr
  | .literal .. | .undefined _ | .name .. | .this _ => []
  | .member object _ _ => [object]
  | .index object key _ => [object, key]
  | .call _ arguments _ => arguments
  | .unary _ operand _ => [operand]
  | .binary _ left right _ | .logical _ left right _ => [left, right]

/-- A tree contains its root and the nodes of its parts. -/
inductive Contains : Expr → Expr → Prop
  | root (tree : Expr) : Contains tree tree
  | inside {tree part node : Expr} (hpart : part ∈ tree.parts) (h : Contains part node) :
      Contains tree node

/-- The name that a node looks up itself. -/
def ownName? : Expr → Option String
  | .name text _ => some text
  | .call callee _ _ => some callee
  | _ => none

/-- The name stands somewhere in the tree, as a name or as a callee. -/
def Spells (tree : Expr) (name : String) : Prop :=
  ∃ node, tree.Contains node ∧ node.ownName? = some name

/-- The context itself is used somewhere in the tree. -/
def MentionsThis (tree : Expr) : Prop :=
  ∃ span, tree.Contains (.this span)

theorem Spells.root {tree : Expr} {name : String} (h : tree.ownName? = some name) :
    tree.Spells name :=
  ⟨tree, .root tree, h⟩

theorem Spells.inside {tree part : Expr} {name : String} (hpart : part ∈ tree.parts)
    (h : part.Spells name) : tree.Spells name := by
  obtain ⟨node, hnode, hname⟩ := h
  exact ⟨node, .inside hpart hnode, hname⟩

theorem MentionsThis.inside {tree part : Expr} (hpart : part ∈ tree.parts)
    (h : part.MentionsThis) : tree.MentionsThis := by
  obtain ⟨span, hspan⟩ := h
  exact ⟨span, .inside hpart hspan⟩

theorem sizeOf_lt_of_mem_parts {tree part : Expr} (hpart : part ∈ tree.parts) :
    sizeOf part < sizeOf tree := by
  cases tree with
  | literal | undefined | this | name => simp [parts] at hpart
  | call callee arguments =>
    have hlt : sizeOf part < sizeOf arguments := List.sizeOf_lt_of_mem hpart
    simp only [call.sizeOf_spec]
    omega
  | member | unary =>
    simp only [parts, List.mem_singleton] at hpart
    subst hpart
    decreasing_tactic
  | index | binary | logical =>
    simp only [parts, List.mem_cons, List.not_mem_nil, or_false] at hpart
    rcases hpart with rfl | rfl <;> decreasing_tactic

/-- What holds of a tree when it holds of its parts holds of every tree. -/
@[elab_as_elim]
theorem induction_parts {motive : Expr → Prop} (tree : Expr)
    (step : ∀ tree, (∀ part ∈ tree.parts, motive part) → motive tree) : motive tree :=
  step tree fun part _ => induction_parts part step
termination_by sizeOf tree
decreasing_by exact sizeOf_lt_of_mem_parts ‹_›

theorem spells_iff (tree : Expr) (name : String) :
    tree.Spells name ↔ tree.ownName? = some name ∨ ∃ part ∈ tree.parts, part.Spells name := by
  constructor
  · rintro ⟨node, hnode, hname⟩
    cases hnode with
    | root => exact .inl hname
    | inside hpart h => exact .inr ⟨_, hpart, node, h, hname⟩
  · rintro (hname | ⟨part, hpart, h⟩)
    · exact .root hname
    · exact h.inside hpart

theorem spells_member_iff (object : Expr) (property : String) (span : Span) (name : String) :
    (member object property span).Spells name ↔ object.Spells name := by
  rw [spells_iff]
  simp [ownName?, parts]

theorem spells_index_iff (object key : Expr) (span : Span) (name : String) :
    (index object key span).Spells name ↔ object.Spells name ∨ key.Spells name := by
  rw [spells_iff]
  simp [ownName?, parts]

theorem spells_unary_iff (op : UnaryOp) (operand : Expr) (span : Span) (name : String) :
    (unary op operand span).Spells name ↔ operand.Spells name := by
  rw [spells_iff]
  simp [ownName?, parts]

theorem spells_call_iff (callee : String) (arguments : List Expr) (span : Span) (name : String) :
    (call callee arguments span).Spells name ↔
      callee = name ∨ ∃ argument ∈ arguments, argument.Spells name := by
  rw [spells_iff]
  simp [ownName?, parts]

theorem mentionsThis_iff (tree : Expr) :
    tree.MentionsThis ↔ (∃ span, tree = .this span) ∨ ∃ part ∈ tree.parts, part.MentionsThis := by
  constructor
  · rintro ⟨span, hspan⟩
    cases hspan with
    | root => exact .inl ⟨span, rfl⟩
    | inside hpart h => exact .inr ⟨_, hpart, span, h⟩
  · rintro (⟨span, rfl⟩ | ⟨part, hpart, h⟩)
    · exact ⟨span, .root _⟩
    · exact h.inside hpart

/-! ## Free names -/

/-- A free name is the root's own, or that of a part. -/
theorem exists_of_firstFreeName? {tree : Expr} {name : String} {span : Span}
    (h : tree.firstFreeName? = some (name, span)) :
    tree.ownName? = some name ∨ ∃ part ∈ tree.parts, part.firstFreeName? = some (name, span) := by
  cases tree with
  | literal | undefined | this => simp [firstFreeName?] at h
  | name | call =>
    simp only [firstFreeName?, Option.some.injEq, Prod.mk.injEq] at h
    exact .inl (congrArg some h.1)
  | member object => exact .inr ⟨object, by simp [parts], h⟩
  | unary op operand => exact .inr ⟨operand, by simp [parts], h⟩
  | index first second | binary op first second | logical op first second =>
    rcases Option.or_eq_some_iff.1 h with hfirst | ⟨-, hsecond⟩
    · exact .inr ⟨first, by simp [parts], hfirst⟩
    · exact .inr ⟨second, by simp [parts], hsecond⟩

/-- What is found as a free name is spelled in the tree. -/
theorem spells_of_firstFreeName? {tree : Expr} {name : String} {span : Span}
    (h : tree.firstFreeName? = some (name, span)) : tree.Spells name := by
  induction tree using induction_parts with
  | step tree ih =>
    rcases exists_of_firstFreeName? h with hown | ⟨part, hpart, hfree⟩
    · exact .root hown
    · exact (ih part hpart hfree).inside hpart

/-- A tree without a free name has parts without one.  Arguments are no exception,
because a call has one. -/
theorem firstFreeName?_of_mem_parts {tree part : Expr} (hpart : part ∈ tree.parts)
    (h : tree.firstFreeName? = none) : part.firstFreeName? = none := by
  cases tree with
  | literal | undefined | this | name => simp [parts] at hpart
  | call => simp [firstFreeName?] at h
  | member | unary =>
    obtain rfl := List.mem_singleton.1 hpart
    exact h
  | index first second | binary op first second | logical op first second =>
    obtain ⟨hfirst, hsecond⟩ := Option.or_eq_none_iff.1 h
    simp only [parts, List.mem_cons, List.not_mem_nil, or_false] at hpart
    rcases hpart with rfl | rfl
    · exact hfirst
    · exact hsecond

/-- There is no free name exactly if no name stands anywhere in the tree. -/
theorem firstFreeName?_eq_none_iff (tree : Expr) :
    tree.firstFreeName? = none ↔ ∀ name, ¬tree.Spells name := by
  constructor
  · rintro h name ⟨node, hnode, hname⟩
    induction hnode with
    | root tree => cases tree <;> simp [firstFreeName?, ownName?] at h hname
    | inside hpart _ ih => exact ih (firstFreeName?_of_mem_parts hpart h) hname
  · intro h
    cases hfree : tree.firstFreeName? with
    | none => rfl
    | some found => exact absurd (spells_of_firstFreeName? hfree) (h found.1)

end Expr

end DataExpr
