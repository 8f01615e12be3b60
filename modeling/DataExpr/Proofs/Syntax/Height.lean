import DataExpr.Proofs.Syntax.Compile
import DataExpr.Proofs.Syntax.Nodes
import DataExpr.Proofs.Syntax.Spelling
import Mathlib.Tactic.Ring

/-!
# How high an accepted tree is

The parser refuses a text with too many levels of nesting, and it counts an operator
of a chain as a level for what stands behind the operator, until the chain ends.  The
tree of a chain grows the other way: its first operand ends up under all of the
operators.  So the levels do not measure the tree.

* `Phrase.depth` is what does, the number of operators and steps above a token.
  `Phrase.height_eq` ties it to `Expr.height`.
* `Phrase.depth_le` bounds it by the levels.  Inside an expression, each of the six
  tiers and the postfix steps may put as many nodes above one token as there are
  levels left, and a parenthesis starts over with one level less.
-/

namespace DataExpr

/-! ## Trees -/

mutual

/-- How many nodes the longest way from the root to a leaf has. -/
def Expr.height : Expr → Nat
  | .literal .. | .undefined _ | .name .. | .this _ => 1
  | .member object _ _ => object.height + 1
  | .index object key _ => max object.height key.height + 1
  | .call _ arguments _ => Expr.heights arguments + 1
  | .unary _ operand _ => operand.height + 1
  | .binary _ left right _ | .logical _ left right _ => max left.height right.height + 1

/-- The height of the highest tree of a list. -/
def Expr.heights : List Expr → Nat
  | [] => 0
  | first :: others => max first.height (Expr.heights others)

end

theorem Expr.height_pos (tree : Expr) : 0 < tree.height := by
  cases tree <;> exact Nat.succ_pos _

theorem Expr.height_le_heights {tree : Expr} {trees : List Expr} (h : tree ∈ trees) :
    tree.height ≤ Expr.heights trees := by
  induction trees with
  | nil => cases h
  | cons first others ih =>
    rw [Expr.heights]
    rcases List.mem_cons.1 h with rfl | hmem
    · exact Nat.le_max_left _ _
    · exact Nat.le_trans (ih hmem) (Nat.le_max_right _ _)

theorem Expr.height_lt_of_mem_parts {tree part : Expr} (h : part ∈ tree.parts) :
    part.height < tree.height := by
  cases tree with
  | literal | undefined | this | name => cases h
  | call => exact Nat.lt_succ_of_le (Expr.height_le_heights h)
  | member | unary =>
    obtain rfl := List.mem_singleton.1 h
    exact Nat.lt_succ_self _
  | index | binary | logical =>
    simp only [Expr.parts, List.mem_cons, List.not_mem_nil, or_false] at h
    rw [Expr.height]
    rcases h with rfl | rfl <;> omega

mutual

@[simp] theorem Expr.height_unplaced (tree : Expr) : tree.unplaced.height = tree.height := by
  match tree with
  | .literal .. | .undefined _ | .name .. | .this _ => rfl
  | .member object _ _ => simp [Expr.unplaced, Expr.height, object.height_unplaced]
  | .index object key _ =>
    simp [Expr.unplaced, Expr.height, object.height_unplaced, key.height_unplaced]
  | .call _ arguments _ => simp [Expr.unplaced, Expr.height, Expr.heights_unplacedAll arguments]
  | .unary _ operand _ => simp [Expr.unplaced, Expr.height, operand.height_unplaced]
  | .binary _ left right _ | .logical _ left right _ =>
    simp [Expr.unplaced, Expr.height, left.height_unplaced, right.height_unplaced]

theorem Expr.heights_unplacedAll (trees : List Expr) :
    Expr.heights (Expr.unplacedAll trees) = Expr.heights trees := by
  match trees with
  | [] => rfl
  | first :: others =>
    simp [Expr.unplacedAll, Expr.heights, first.height_unplaced, Expr.heights_unplacedAll others]

end

/-! ## Phrases -/

mutual

/-- How many operators and steps are above a token at most.  Parentheses make no
node, and the step of a call stands above its arguments only. -/
def Phrase.depth {category : Category} {tree : Expr} : Phrase category tree → Nat
  | .operand only => only.depth
  | .join first _ _ last => max first.depth last.depth + 1
  | .apply _ _ body => body.depth + 1
  | .unsigned body => body.depth
  | .start body => body.depth
  | .member object _ _ => object.depth + 1
  | .index object key => max object.depth key.depth + 1
  | .call _ arguments => arguments.depth
  | .atom _ _ => 0
  | .group inner => inner.depth

/-- The same for arguments, which have the call above them. -/
def Arguments.depth {trees : List Expr} : Arguments trees → Nat
  | .nothing => 0
  | .last argument => argument.depth + 1
  | .more argument others => max (argument.depth + 1) others.depth

end

mutual

/-- A way through the tree has the operators above a token and the token itself. -/
theorem Phrase.height_eq {category : Category} {tree : Expr} (phrase : Phrase category tree) :
    tree.height = phrase.depth + 1 := by
  match phrase with
  | .operand only => exact only.height_eq
  | @Phrase.join _ _ _ connective first _ _ last =>
    cases connective <;>
      simp only [Parse.Connective.node, Expr.height, Phrase.depth, first.height_eq,
        last.height_eq] <;> omega
  | .apply _ _ body => simp only [Expr.height, Phrase.depth, body.height_eq]
  | .unsigned body => exact body.height_eq
  | .start body => exact body.height_eq
  | .member object _ _ => simp only [Expr.height, Phrase.depth, object.height_eq]
  | .index object key =>
    simp only [Expr.height, Phrase.depth, object.height_eq, key.height_eq]
    omega
  | .call _ arguments => simp only [Expr.height, Phrase.depth, arguments.heights_eq]
  | .atom _ hkind => cases hkind <;> rfl
  | .group inner => exact inner.height_eq

theorem Arguments.heights_eq {trees : List Expr} (arguments : Arguments trees) :
    Expr.heights trees = arguments.depth := by
  match arguments with
  | .nothing => rfl
  | .last argument =>
    simp only [Expr.heights, Arguments.depth, argument.height_eq]
    omega
  | .more argument others =>
    simp only [Expr.heights, Arguments.depth, argument.height_eq, others.heights_eq]

end

/-! ## What the levels allow -/

/-- How deep an expression can be that has so many levels of nesting. -/
def deepest : Nat → Nat
  | 0 => 0
  | levels + 1 => deepest levels + 7 * (levels + 1)

theorem two_mul_deepest (levels : Nat) : 2 * deepest levels = 7 * (levels * (levels + 1)) := by
  induction levels with
  | zero => rfl
  | succ levels ih =>
    simp only [deepest, Nat.mul_add, ih]
    ring

theorem deepest_mono {few many : Nat} (h : few ≤ many) : deepest few ≤ deepest many := by
  induction h with
  | refl => exact Nat.le_refl _
  | step _ ih => exact Nat.le_trans ih (Nat.le_add_right _ _)

/-- How deep a single token, or an expression in parentheses, can be. -/
def deepestPrimary : Nat → Nat
  | 0 => 0
  | levels + 1 => deepest levels

theorem deepestPrimary_mono {few many : Nat} (h : few ≤ many) :
    deepestPrimary few ≤ deepestPrimary many := by
  cases few with
  | zero => exact Nat.zero_le _
  | succ few =>
    obtain ⟨many, rfl⟩ : ∃ rest, many = rest + 1 := ⟨many - 1, by omega⟩
    exact deepest_mono (by omega)

theorem deepest_eq (levels : Nat) : deepest levels = deepestPrimary levels + 7 * levels := by
  cases levels <;> rfl

/-- How many times a phrase of the category can stack up as many operators or steps as
there are levels.  Signs and steps come to one time together, because each sign takes
a level from the steps. -/
def Category.stacks : Category → Nat
  | .chain tier => 7 - tier.rank
  | .signed | .stepped => 1
  | .primary => 0

theorem Tier.stacks_operand (tier : Tier) :
    tier.operand.stacks + 1 = (Category.chain tier).stacks := by
  cases tier <;> rfl

/-- Each step of a chain is a level for the next. -/
theorem Phrase.steps_le_nesting {category : Category} {tree : Expr}
    (phrase : Phrase category tree) : phrase.steps ≤ phrase.nesting := by
  cases phrase <;> simp only [Phrase.steps, Phrase.nesting] <;> omega

/-- Only the chains of a tier and the postfix chains have steps. -/
theorem Phrase.stack_le {category : Category} {tree : Expr} (phrase : Phrase category tree)
    {levels : Nat} (h : phrase.nesting ≤ levels) :
    category.inner.stacks * levels + phrase.steps ≤ category.stacks * levels := by
  have hsteps : phrase.steps ≤ levels := phrase.steps_le_nesting.trans h
  cases category with
  | chain tier =>
    rw [← tier.stacks_operand, Nat.succ_mul]
    exact Nat.add_le_add_left hsteps _
  | signed => cases phrase <;> simp [Category.inner, Category.stacks, Phrase.steps]
  | stepped => simpa [Category.inner, Category.stacks] using hsteps
  | primary => cases phrase <;> simp [Category.inner, Category.stacks, Phrase.steps]

/-- A bound that counts the steps of a phrase, with all steps that there can be. -/
theorem Phrase.depth_le_stacks {category : Category} {tree : Expr}
    (phrase : Phrase category tree) {levels : Nat} (h : phrase.nesting ≤ levels)
    (hdepth : phrase.depth ≤
      deepestPrimary levels + (category.inner.stacks * levels + phrase.steps)) :
    phrase.depth ≤ deepestPrimary levels + category.stacks * levels :=
  hdepth.trans (Nat.add_le_add_left (phrase.stack_le h) _)

mutual

/-- With so many levels, a phrase is as deep as its inner phrases can be and its own
steps make it.  The induction keeps the steps apart, since a chain that goes on has
used up levels for its next operand only. -/
theorem Phrase.depth_le_add_steps {category : Category} {tree : Expr}
    (phrase : Phrase category tree) {levels : Nat} (h : phrase.nesting ≤ levels) :
    phrase.depth ≤
      deepestPrimary levels + (category.inner.stacks * levels + phrase.steps) := by
  match phrase with
  | .operand only =>
    rw [Phrase.nesting] at h
    exact only.depth_le_stacks h (only.depth_le_add_steps h)
  | @Phrase.join tier _ _ _ first _ _ last =>
    simp only [Phrase.nesting, Nat.max_le] at h
    have hlevels : last.nesting ≤ levels := by omega
    have hfirst : first.depth ≤
        deepestPrimary levels + (tier.operand.stacks * levels + first.steps) :=
      first.depth_le_add_steps h.1
    have hlast := last.depth_le_stacks hlevels (last.depth_le_add_steps hlevels)
    show max first.depth last.depth + 1 ≤
      deepestPrimary levels + (tier.operand.stacks * levels + (first.steps + 1))
    omega
  | .apply _ _ body =>
    rw [Phrase.nesting] at h
    obtain ⟨levels, rfl⟩ : ∃ rest, levels = rest + 1 := ⟨levels - 1, by omega⟩
    have hlevels : body.nesting ≤ levels := by omega
    have hbody : body.depth ≤ deepestPrimary levels + 1 * levels :=
      body.depth_le_stacks hlevels (body.depth_le_add_steps hlevels)
    have hmono : deepestPrimary levels ≤ deepestPrimary (levels + 1) :=
      deepestPrimary_mono (Nat.le_add_right _ _)
    show body.depth + 1 ≤ deepestPrimary (levels + 1) + (1 * (levels + 1) + 0)
    omega
  | .unsigned body =>
    rw [Phrase.nesting] at h
    exact body.depth_le_stacks h (body.depth_le_add_steps h)
  | .start body =>
    rw [Phrase.nesting] at h
    exact body.depth_le_stacks h (body.depth_le_add_steps h)
  | .member object _ _ =>
    simp only [Phrase.nesting, Nat.max_le] at h
    exact Nat.succ_le_succ (object.depth_le_add_steps h.1)
  | .index object key =>
    simp only [Phrase.nesting, Nat.max_le] at h
    have hobject := object.depth_le_add_steps h.1
    have hkey : key.depth ≤ deepestPrimary levels := key.depth_le_deepestPrimary (by omega)
    simp only [Phrase.depth, Phrase.steps]
    omega
  | .call callee arguments =>
    simp only [Phrase.nesting, Nat.max_le] at h
    have harguments : arguments.depth ≤ deepestPrimary levels + 1 :=
      arguments.depth_le (by omega)
    simp only [Phrase.depth, Phrase.steps]
    omega
  | .atom _ _ => exact Nat.zero_le _
  | .group inner =>
    rw [Phrase.nesting] at h
    exact Nat.le_add_right_of_le (inner.depth_le_deepestPrimary h)

/-- An inner expression is a level below. -/
theorem Phrase.depth_le_deepestPrimary {tree : Expr} (phrase : Phrase .expression tree)
    {levels : Nat} (h : 1 + phrase.nesting ≤ levels) : phrase.depth ≤ deepestPrimary levels := by
  obtain ⟨levels, rfl⟩ : ∃ rest, levels = rest + 1 := ⟨levels - 1, by omega⟩
  have hlevels : phrase.nesting ≤ levels := by omega
  rw [deepestPrimary, deepest_eq]
  exact phrase.depth_le_stacks hlevels (phrase.depth_le_add_steps hlevels)

theorem Arguments.depth_le {trees : List Expr} (arguments : Arguments trees) {levels : Nat}
    (h : arguments.nesting ≤ levels) : arguments.depth ≤ deepestPrimary levels + 1 := by
  match arguments with
  | .nothing => exact Nat.zero_le _
  | .last argument =>
    exact Nat.succ_le_succ (argument.depth_le_deepestPrimary h)
  | .more argument others =>
    simp only [Arguments.nesting, Nat.max_le] at h
    exact Nat.max_le.2
      ⟨Nat.succ_le_succ (argument.depth_le_deepestPrimary h.1), others.depth_le h.2⟩

end

/-- How deep an expression is at most. -/
theorem Phrase.depth_le {tree : Expr} (phrase : Phrase .expression tree) {levels : Nat}
    (h : phrase.nesting ≤ levels) : phrase.depth ≤ deepest levels := by
  show phrase.depth ≤ deepestPrimary (levels + 1)
  exact phrase.depth_le_deepestPrimary (by omega)

/-! ## Phrases that are as deep as can be -/

/-- Some phrase of plain tokens opens no more than these levels, and has so many steps
and this depth. -/
def Reaches (category : Category) (levels steps depth : Nat) : Prop :=
  ∃ (tree : Expr) (phrase : Phrase category tree), phrase.nesting ≤ levels ∧
    phrase.steps = steps ∧ phrase.depth = depth ∧ ∀ kind ∈ phrase.tokens, Plain kind

/-- Some phrase of the category is the name `a` with so many signs in front of it. -/
def HasSigned (category : Category) (signs : Nat) : Prop :=
  ∃ (tree : Expr) (phrase : Phrase category tree), phrase.nesting = signs ∧
    phrase.depth = signs ∧ phrase.tokens = List.replicate signs (.sign .bang) ++ [.name "a"]

theorem hasSigned_signed (signs : Nat) : HasSigned .signed signs := by
  induction signs with
  | zero => exact ⟨_, .unsigned (.start (.atom _ (.name "a"))), rfl, rfl, rfl⟩
  | succ signs ih =>
    obtain ⟨_, body, hnesting, hdepth, htokens⟩ := ih
    refine ⟨_, .apply .bang .not body, ?_, ?_, ?_⟩
    · rw [Phrase.nesting, hnesting, Nat.add_comm]
    · rw [Phrase.depth, hdepth]
    · rw [Phrase.tokens, htokens, List.replicate_succ, List.cons_append]

theorem hasSigned_chain (tier : Tier) (signs : Nat) : HasSigned (.chain tier) signs := by
  refine Category.chain_induction (motive := (HasSigned · signs))
    (hasSigned_signed signs) (fun tier h => ?_) tier
  obtain ⟨_, only, hnesting, hdepth, htokens⟩ := h
  exact ⟨_, .operand only, hnesting, hdepth, htokens⟩

theorem hasSigned_operand (tier : Tier) (signs : Nat) : HasSigned tier.operand signs := by
  cases tier <;> first | exact hasSigned_signed signs | exact hasSigned_chain _ signs

theorem Tier.exists_operator (tier : Tier) :
    ∃ sign connective, tier.operator? sign = some connective := by
  cases tier
  · exact ⟨.orOr, _, rfl⟩
  · exact ⟨.andAnd, _, rfl⟩
  · exact ⟨.eqEq, _, rfl⟩
  · exact ⟨.less, _, rfl⟩
  · exact ⟨.plus, _, rfl⟩
  · exact ⟨.star, _, rfl⟩

namespace Reaches

variable {levels steps depth : Nat}

/-- A chain with a level left can have another operator. -/
theorem join {tier : Tier} (h : Reaches (.chain tier) levels steps depth) (hlt : steps < levels) :
    Reaches (.chain tier) levels (steps + 1) (depth + 1) := by
  obtain ⟨_, first, hnesting, rfl, rfl, hplain⟩ := h
  obtain ⟨_, last, hlast, hleaf, htokens⟩ := hasSigned_operand tier 0
  obtain ⟨sign, connective, hsign⟩ := tier.exists_operator
  refine ⟨_, .join first sign hsign last, ?_, rfl, ?_, ?_⟩
  · simp only [Phrase.nesting, hlast]
    omega
  · simp only [Phrase.depth, hleaf, Nat.max_zero]
  · simp only [Phrase.tokens, htokens, List.replicate_zero, List.nil_append, List.mem_append,
      List.mem_cons, List.not_mem_nil, or_false]
    rintro kind (hkind | rfl | rfl)
    · exact hplain kind hkind
    · exact .sign sign
    · exact .a

/-- A postfix chain with a level left can have another step. -/
theorem member (h : Reaches .stepped levels steps depth) (hlt : steps < levels) :
    Reaches .stepped levels (steps + 1) (depth + 1) := by
  obtain ⟨_, object, hnesting, rfl, rfl, hplain⟩ := h
  refine ⟨_, .member object _ (.name "a"), Nat.max_le.2 ⟨hnesting, hlt⟩, rfl, rfl, ?_⟩
  simp only [Phrase.tokens, List.mem_append, List.mem_cons, List.not_mem_nil, or_false]
  rintro kind (hkind | rfl | rfl)
  · exact hplain kind hkind
  · exact .sign .dot
  · exact .a

/-- A chain that can take one step as long as there is a level left takes as many as
there are levels. -/
theorem stretch {category : Category} (h : Reaches category levels 0 depth)
    (hstep : ∀ {steps depth}, Reaches category levels steps depth → steps < levels →
      Reaches category levels (steps + 1) (depth + 1)) :
    Reaches category levels levels (depth + levels) := by
  suffices hrun : ∀ steps ≤ levels, Reaches category levels steps (depth + steps) from
    hrun levels (Nat.le_refl _)
  intro steps
  induction steps with
  | zero => exact fun _ => h
  | succ steps ih => exact fun hle => hstep (ih (Nat.le_of_succ_le hle)) hle

theorem operand {tier : Tier} (h : Reaches tier.operand levels steps depth) :
    Reaches (.chain tier) levels 0 depth := by
  obtain ⟨_, only, hnesting, -, hdepth, hplain⟩ := h
  exact ⟨_, .operand only, hnesting, rfl, hdepth, hplain⟩

theorem unsigned (h : Reaches .stepped levels steps depth) : Reaches .signed levels 0 depth := by
  obtain ⟨_, body, hnesting, -, hdepth, hplain⟩ := h
  exact ⟨_, .unsigned body, hnesting, rfl, hdepth, hplain⟩

theorem start (h : Reaches .primary levels steps depth) : Reaches .stepped levels 0 depth := by
  obtain ⟨_, body, hnesting, -, hdepth, hplain⟩ := h
  exact ⟨_, .start body, hnesting, rfl, hdepth, hplain⟩

theorem group (h : Reaches .expression levels steps depth) :
    Reaches .primary (levels + 1) 0 depth := by
  obtain ⟨_, inner, hnesting, -, hdepth, hplain⟩ := h
  refine ⟨_, .group inner, by simp only [Phrase.nesting]; omega, rfl, hdepth, ?_⟩
  simp only [Phrase.tokens, List.mem_append, List.mem_cons, List.not_mem_nil, or_false]
  rintro kind (rfl | hkind | rfl)
  · exact .sign .leftParen
  · exact hplain kind hkind
  · exact .sign .rightParen

/-- On a primary phrase as deep as can be, every chain is stretched. -/
theorem expression_of_primary (h : Reaches .primary levels 0 (deepestPrimary levels)) :
    ∃ steps, Reaches .expression levels steps (deepest levels) := by
  rw [deepest_eq]
  refine Category.chain_induction
    (motive := fun category => ∃ steps,
      Reaches category levels steps (deepestPrimary levels + category.stacks * levels))
    ?_ (fun tier hoperand => ?_) .disjunction
  · have hsigned := (h.start.stretch member).unsigned
    exact ⟨0, by simpa only [Category.stacks, Nat.one_mul] using hsigned⟩
  · obtain ⟨_, hoperand⟩ := hoperand
    refine ⟨levels, ?_⟩
    rw [← tier.stacks_operand, Nat.succ_mul, ← Nat.add_assoc]
    exact hoperand.operand.stretch join

theorem primary : ∀ levels, Reaches .primary levels 0 (deepestPrimary levels)
  | 0 => by
    refine ⟨_, .atom _ (.name "a"), Nat.le_refl _, rfl, rfl, ?_⟩
    simp only [Phrase.tokens, List.mem_singleton]
    rintro kind rfl
    exact .a
  | levels + 1 => by
    obtain ⟨_, h⟩ := (primary levels).expression_of_primary
    exact h.group

end Reaches

/-- There is an expression as deep as its levels allow. -/
theorem exists_reaches_deepest (levels : Nat) :
    ∃ steps, Reaches .expression levels steps (deepest levels) :=
  (Reaches.primary levels).expression_of_primary

/-! ## Accepted texts -/

/-- The greatest height of an accepted tree, 228481. -/
def highest : Nat :=
  deepest (maxNesting - 1) + 1

theorem height_le_highest {source : String} {tree : Expr} (h : Expr.parse source = .ok tree) :
    tree.height ≤ highest := by
  obtain ⟨phrase, -, hnesting⟩ := exists_phrase_of_parse h
  rw [← tree.height_unplaced, phrase.height_eq, highest]
  exact Nat.add_le_add_right (phrase.depth_le (Nat.le_sub_one_of_lt hnesting)) 1

theorem exists_height_eq_highest :
    ∃ source tree, Expr.parse source = .ok tree ∧ tree.height = highest := by
  obtain ⟨_, _, phrase, hnesting, -, hdepth, hplain⟩ := exists_reaches_deepest (maxNesting - 1)
  have hlt : phrase.nesting < maxNesting := Nat.lt_of_le_pred (by decide) hnesting
  obtain ⟨tree, htree, rfl⟩ := parse_of_phrase phrase (kinds_spelled hplain).symm hlt
  refine ⟨_, tree, htree, ?_⟩
  rw [← tree.height_unplaced, phrase.height_eq, hdepth, highest]

/-- The levels that the parser counts bound the tree, but not by `maxNesting`.  A text's
tree is no higher than that exactly if no accepted reading of it has `maxNesting`
operators and steps above one token.  In general a tree has up to 228481 nodes on one
way, seven times as many as all levels together and the root, and some tree has. -/
theorem height_le_maxNesting_iff_depth_lt (source : String) :
    ((∀ tree, Expr.parse source = .ok tree → tree.height ≤ maxNesting) ↔
      ∀ tree (phrase : Phrase .expression tree),
        phrase.tokens ++ [.endOfInput] = kinds source → phrase.nesting < maxNesting →
          phrase.depth < maxNesting) ∧
    (∀ tree, Expr.parse source = .ok tree →
      tree.height ≤ 7 * (maxNesting * (maxNesting - 1) / 2) + 1) ∧
    ∃ other tree, Expr.parse other = .ok tree ∧
      tree.height = 7 * (maxNesting * (maxNesting - 1) / 2) + 1 := by
  have hhighest : 7 * (maxNesting * (maxNesting - 1) / 2) + 1 = highest := by
    have h := two_mul_deepest (maxNesting - 1)
    simp only [highest, maxNesting] at h ⊢
    omega
  rw [hhighest]
  refine ⟨⟨fun h tree phrase htokens hnesting => ?_, fun h tree htree => ?_⟩,
    fun tree => height_le_highest, exists_height_eq_highest⟩
  · obtain ⟨placed, hparse, rfl⟩ := parse_of_phrase phrase htokens hnesting
    have hheight := h placed hparse
    rw [← placed.height_unplaced, phrase.height_eq] at hheight
    exact hheight
  · obtain ⟨phrase, htokens, hnesting⟩ := exists_phrase_of_parse htree
    rw [← tree.height_unplaced, phrase.height_eq]
    exact h _ phrase htokens hnesting

/-- The tokens of a sum whose first operand has so many signs. -/
def signedSum (signs : Nat) : List TokenKind :=
  List.replicate signs (.sign .bang) ++ [.name "a", .sign .plus, .name "a"]

/-- The signs may use up all of the levels, and the sum is read with all of them again.
Its tree has the sum, the signs and the name on one way. -/
theorem exists_parse_signedSum (signs : Nat) (h : signs < maxNesting) :
    ∃ tree, Expr.parse (spelled (signedSum signs)) = .ok tree ∧ tree.height = signs + 2 := by
  obtain ⟨_, first, hnesting, hdepth, htokens⟩ := hasSigned_operand .sum signs
  obtain ⟨_, last, hlast, hleaf, hname⟩ := hasSigned_operand .sum 0
  let sum : Phrase .expression _ :=
    .operand (.operand (.operand (.operand (.join (.operand first) .plus rfl last))))
  have hsum : sum.tokens = signedSum signs := by
    simp [sum, Phrase.tokens, htokens, hname, signedSum]
  have hplain : ∀ kind ∈ signedSum signs, Plain kind := by
    simp only [signedSum, List.mem_append, List.mem_replicate, List.mem_cons,
      List.not_mem_nil, or_false]
    rintro kind (⟨-, rfl⟩ | rfl | rfl | rfl) <;> constructor
  have hlt : sum.nesting < maxNesting := by
    simp only [sum, Phrase.nesting, Phrase.steps, hnesting, hlast, maxNesting] at h ⊢
    omega
  obtain ⟨tree, htree, hplaced⟩ :=
    parse_of_phrase sum (by rw [hsum, kinds_spelled hplain]) hlt
  refine ⟨tree, htree, ?_⟩
  rw [← tree.height_unplaced, hplaced, sum.height_eq]
  simp [sum, Phrase.depth, hdepth, hleaf]

/-- The text `! … ! a + a` with 255 signs is read as a tree of 257 nodes on one way. -/
theorem height_gt_maxNesting_of_signedSum :
    ∃ tree, Expr.parse (spelled (signedSum 255)) = .ok tree ∧ maxNesting < tree.height := by
  obtain ⟨tree, htree, hheight⟩ := exists_parse_signedSum 255 (by decide)
  exact ⟨tree, htree, by rw [hheight]; decide⟩

end DataExpr
